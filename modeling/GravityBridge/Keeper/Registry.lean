import GravityBridge.Keeper.State

/-!
# Origin of a bridged asset

An ERC20 with an entry in the cosmos-originated index stands for that denom.
Every other ERC20 is Ethereum-originated and stands for its voucher, in one of
two namespaces. Both classifications agree on every pair that they accept.
-/

namespace GravityBridge.Keeper

open Lib.Fallible Lib.ByteString Lib.Store
open GravityBridge.Types

inductive AssetOriginChain where
  | cosmos | ethereum
  deriving DecidableEq, Repr

structure AssetOrigin where
  origin : AssetOriginChain
  isRemapped : Bool
  denom : Denom
  erc20 : EthAddress
  deriving DecidableEq, Repr

/-- `IsRemappedERC20`. -/
def Registry.isRemappedERC20 (registry : Registry) (token : EthAddress) : Bool :=
  registry.remappedERC20s.contains token

def Registry.validateCosmosOriginatedMapping (registry : Registry) (denom : Denom)
    (tokenContract : EthAddress) : Go Unit := do
  require (succeeds (gravityDenomToERC20 denom) = false)
    ⟨.invalid, "cosmos-originated denom collides with an eth-originated gravity denom"⟩
  require (succeeds (gravity2DenomToERC20 denom) = false)
    ⟨.invalid, "cosmos-originated denom collides with an eth-originated gravity2 denom"⟩
  require (containsEthAddress denom = false)
    ⟨.invalid, "cosmos-originated denom contains an embedded Ethereum address"⟩
  require (registry.isRemappedERC20 tokenContract = false)
    ⟨.invalid, "cosmos-originated ERC20 is also in the remapped eth-originated set"⟩

/-- What a new entry of the cosmos-originated index must satisfy. -/
structure Registrable (registry : Registry) (denom : Denom) (token : EthAddress) : Prop where
  denomFresh : registry.denomToERC20.get denom = none
  tokenFresh : registry.erc20ToDenom.get token = none
  notVoucher : isVoucher denom = false
  notRemapped : token ∉ registry.remappedERC20s

/-- The checks that `setCosmosOriginatedMapping` makes before it writes. -/
def Registry.checkCosmosOriginatedMapping (registry : Registry) (denom : Denom)
    (tokenContract : EthAddress) : Go Unit := do
  registry.validateCosmosOriginatedMapping denom tokenContract
  require (registry.denomToERC20.get denom = none)
    ⟨.duplicate, "denom is already mapped to cosmos-originated ERC20"⟩
  require (registry.erc20ToDenom.get tokenContract = none)
    ⟨.duplicate, "ERC20 is already mapped to cosmos-originated denom"⟩

theorem checkCosmosOriginatedMapping_eq_ok {registry : Registry} {denom : Denom}
    {token : EthAddress} : registry.checkCosmosOriginatedMapping denom token = .ok () ↔
      containsEthAddress denom = false ∧ Registrable registry denom token := by
  simp only [Registry.checkCosmosOriginatedMapping, Registry.validateCosmosOriginatedMapping,
    bind_eq_ok, require_eq_ok, Unique.exists_iff, Registry.isRemappedERC20, List.contains_eq_mem,
    decide_eq_false_iff_not]
  constructor
  · rintro ⟨⟨noVoucher, noVoucher2, noAddress, notRemapped⟩, denomFresh, tokenFresh⟩
    exact ⟨noAddress, denomFresh, tokenFresh, Bool.or_eq_false_iff.mpr ⟨noVoucher, noVoucher2⟩,
      notRemapped⟩
  · rintro ⟨noAddress, denomFresh, tokenFresh, notVoucher, notRemapped⟩
    obtain ⟨noVoucher, noVoucher2⟩ := Bool.or_eq_false_iff.mp notVoucher
    exact ⟨⟨noVoucher, noVoucher2, noAddress, notRemapped⟩, denomFresh, tokenFresh⟩

/-- Write both directions of a mapping. -/
def Registry.register (registry : Registry) (denom : Denom) (token : EthAddress)
    (registrable : Registrable registry denom token) : Registry where
  denomToERC20 := registry.denomToERC20.set denom token
  erc20ToDenom := registry.erc20ToDenom.set token denom
  remappedERC20s := registry.remappedERC20s
  cosmosBridgeableTokens := registry.cosmosBridgeableTokens
  paired name other := by
    have noName := registry.paired name token
    have noToken := registry.paired denom other
    rw [registrable.tokenFresh] at noName
    rw [registrable.denomFresh] at noToken
    rw [KVStore.get_set, KVStore.get_set]
    split_ifs with first second second
    · simp [first, second]
    · subst first
      have absent : registry.erc20ToDenom.get other ≠ some name := by simpa using noToken
      simp [absent, Ne.symm second]
    · subst second
      have absent : registry.denomToERC20.get name ≠ some other := by simpa using noName
      simp [absent, Ne.symm first]
    · exact registry.paired name other
  notVoucher name other found := by
    rw [KVStore.get_set] at found
    split_ifs at found with same
    · exact same ▸ registrable.notVoucher
    · exact registry.notVoucher name other found
  notRemapped name other found := by
    rw [KVStore.get_set] at found
    split_ifs at found with same
    · exact Option.some.inj found ▸ registrable.notRemapped
    · exact registry.notRemapped name other found

def Registry.setCosmosOriginatedMapping (registry : Registry) (denom : Denom)
    (tokenContract : EthAddress) : Go Registry :=
  match checked : registry.checkCosmosOriginatedMapping denom tokenContract with
  | .ok () => .ok (registry.register denom tokenContract
      (checkCosmosOriginatedMapping_eq_ok.mp checked).2)
  | .error fault => .error fault

/-- `assertMetadataWhitelisted`: the allowlist entry, provided the bank still has the same. -/
def Ledger.assertMetadataWhitelisted (ledger : Ledger) (denom : Denom) : Go Metadata := do
  let metadata ← fromOption ⟨.invalid, "denom is not in the CosmosBridgeableTokens whitelist"⟩
    (ledger.registry.cosmosBridgeableTokens.get denom)
  let bankMetadata ← fromOption
    ⟨.invalid, "SECURITY VIOLATION: bank metadata not found, but governance-approved entry exists"⟩
    (ledger.bank.denomMetaData denom)
  require (metadata = bankMetadata)
    ⟨.invalid, "SECURITY VIOLATION: bank metadata does not match governance-approved entry"⟩
  pure metadata

variable (ext : External)

def Ledger.classifyCosmosOriginated (ledger : Ledger) (denom : Denom) (tokenContract : EthAddress) :
    Go AssetOrigin := do
  rewrap ⟨.invalidDenom, "the denom for cosmos-originated ERC20 is invalid"⟩
    (validateStrictDenom denom)
  require (ledger.registry.denomToERC20.get denom = some tokenContract)
    ⟨.invalid, "cosmos-originated mapping is not bidirectionally consistent"⟩
  require (ledger.registry.erc20ToDenom.get tokenContract = some denom)
    ⟨.invalid, "cosmos-originated mapping is not bidirectionally consistent"⟩
  require (ledger.registry.isRemappedERC20 tokenContract = false)
    ⟨.invalid, "cosmos-originated ERC20 is also in the remapped eth-originated set"⟩
  pure ⟨.cosmos, false, denom, tokenContract⟩

def Ledger.classifyEthOriginated (ledger : Ledger) (denom : Denom) (tokenContract : EthAddress)
    (isRemapped : Bool) : Go AssetOrigin := do
  require (ledger.bank.denomMetaData denom = none)
    ⟨.invalid, "Eth-originated denom has bank metadata, which is not allowed"⟩
  let reparsed := if isRemapped then gravity2DenomToERC20 denom else gravityDenomToERC20 denom
  require (reparsed = .ok tokenContract)
    ⟨.invalid, "eth-originated denom failed round-trip validation"⟩
  rewrap ⟨.invalidDenom, "the denom for eth-originated ERC20 is invalid"⟩ (validateStrictDenom denom)
  pure ⟨.ethereum, isRemapped, denom, tokenContract⟩

/-- The denom derived for an Ethereum-originated token. -/
def Registry.voucherDenom (registry : Registry) (token : EthAddress) : Denom :=
  if registry.isRemappedERC20 token then gravity2Denom ext token else gravityDenom ext token

def Ledger.classifyERC20 (ledger : Ledger) (tokenContract : EthAddress) : Go AssetOrigin :=
  match ledger.registry.erc20ToDenom.get tokenContract with
  | some denom => ledger.classifyCosmosOriginated denom tokenContract
  | none => ledger.classifyEthOriginated (ledger.registry.voucherDenom ext tokenContract)
      tokenContract (ledger.registry.isRemappedERC20 tokenContract)

def Ledger.classifyDenom (ledger : Ledger) (denom : Denom) : Go AssetOrigin :=
  match gravity2DenomToERC20 denom with
  | .ok token => do
      require (ledger.registry.isRemappedERC20 token = true)
        ⟨.invalid, "gravity2 denom does not correspond to a remapped ERC20"⟩
      ledger.classifyEthOriginated denom token true
  | .error _ =>
      match gravityDenomToERC20 denom with
      | .ok token => do
          require (ledger.registry.isRemappedERC20 token = false) ⟨.invalid, "ERC20 was remapped"⟩
          ledger.classifyEthOriginated denom token false
      | .error _ =>
          match ledger.registry.denomToERC20.get denom with
          | some token => ledger.classifyCosmosOriginated denom token
          | none => fail ⟨.invalidDenom, "denom is not registered as a known bridged asset"⟩

/-! ## What the classifications accept -/

section

variable {ext} {ledger : Ledger} {registry : Registry} {token other : EthAddress} {denom : Denom}
  {origin : AssetOrigin}

theorem isVoucher_voucherDenom : isVoucher (registry.voucherDenom ext token) = true := by
  unfold Registry.voucherDenom
  split_ifs
  · simp [isVoucher, gravity2DenomToERC20_gravity2Denom]
  · simp [isVoucher, gravityDenomToERC20_gravityDenom]

theorem voucherDenom_injective
    (same : registry.voucherDenom ext token = registry.voucherDenom ext other) : token = other := by
  unfold Registry.voucherDenom at same
  split_ifs at same
  · exact gravity2Denom_injective ext same
  · exact absurd same.symm (gravityDenom_ne_gravity2Denom ext other token)
  · exact absurd same (gravityDenom_ne_gravity2Denom ext token other)
  · exact gravityDenom_injective ext same

theorem sdkValidateDenom_voucherDenom :
    sdkValidateDenom (registry.voucherDenom ext token) = true := by
  unfold Registry.voucherDenom
  split_ifs
  · exact sdkValidateDenom_gravity2Denom ext token
  · exact sdkValidateDenom_gravityDenom ext token

/-- The denom that an ERC20 stands for, whether or not its classification succeeds. -/
def Registry.denomOf (ext : External) (registry : Registry) (token : EthAddress) : Denom :=
  (registry.erc20ToDenom.get token).getD (registry.voucherDenom ext token)

theorem denomOf_mapped (ext : External) (mapped : registry.erc20ToDenom.get token = some denom) :
    registry.denomOf ext token = denom := by
  simp [Registry.denomOf, mapped]

theorem denomOf_unmapped (ext : External) (unmapped : registry.erc20ToDenom.get token = none) :
    registry.denomOf ext token = registry.voucherDenom ext token := by
  simp [Registry.denomOf, unmapped]

/-- Different tokens stand for different denoms. -/
theorem denomOf_injective (same : registry.denomOf ext token = registry.denomOf ext other) :
    token = other := by
  cases first : registry.erc20ToDenom.get token with
  | some denom =>
    have forward := (registry.paired denom token).mpr first
    rw [denomOf_mapped ext first] at same
    cases second : registry.erc20ToDenom.get other with
    | some name =>
      obtain rfl : denom = name := by rw [same, denomOf_mapped ext second]
      rw [(registry.paired denom other).mpr second] at forward
      exact (Option.some.inj forward).symm
    | none =>
      have plain := registry.notVoucher denom token forward
      rw [same, denomOf_unmapped ext second, isVoucher_voucherDenom] at plain
      contradiction
  | none =>
    rw [denomOf_unmapped ext first] at same
    cases second : registry.erc20ToDenom.get other with
    | some name =>
      have plain := registry.notVoucher name other ((registry.paired name other).mpr second)
      rw [← denomOf_mapped ext second, ← same, isVoucher_voucherDenom] at plain
      contradiction
    | none =>
      rw [denomOf_unmapped ext second] at same
      exact voucherDenom_injective same

theorem isRemappedERC20_of_mapped (mapped : registry.erc20ToDenom.get token = some denom) :
    registry.isRemappedERC20 token = false := by
  have fresh := registry.notRemapped denom token ((registry.paired denom token).mpr mapped)
  simpa [Registry.isRemappedERC20] using fresh

theorem classifyERC20_mapped (mapped : ledger.registry.erc20ToDenom.get token = some denom) :
    ledger.classifyERC20 ext token = .ok origin ↔
      validateStrictDenom denom = .ok () ∧ ⟨.cosmos, false, denom, token⟩ = origin := by
  have forward := (ledger.registry.paired denom token).mpr mapped
  simp [Ledger.classifyERC20, Ledger.classifyCosmosOriginated, mapped, forward,
    isRemappedERC20_of_mapped mapped, Unique.exists_iff]

theorem classifyERC20_unmapped (unmapped : ledger.registry.erc20ToDenom.get token = none) :
    ledger.classifyERC20 ext token = .ok origin ↔
      ledger.bank.denomMetaData (ledger.registry.voucherDenom ext token) = none ∧
      ⟨.ethereum, ledger.registry.isRemappedERC20 token, ledger.registry.voucherDenom ext token,
        token⟩ = origin := by
  have strict : validateStrictDenom (ledger.registry.voucherDenom ext token) = .ok () := by
    unfold Registry.voucherDenom
    split_ifs
    · exact validateStrictDenom_gravity2Denom ext token
    · exact validateStrictDenom_gravityDenom ext token
  have readBack : (if ledger.registry.isRemappedERC20 token = true
      then gravity2DenomToERC20 (ledger.registry.voucherDenom ext token)
      else gravityDenomToERC20 (ledger.registry.voucherDenom ext token)) = .ok token := by
    unfold Registry.voucherDenom
    split_ifs
    · exact gravity2DenomToERC20_gravity2Denom ext token
    · exact gravityDenomToERC20_gravityDenom ext token
  simp [Ledger.classifyERC20, Ledger.classifyEthOriginated, unmapped, strict, readBack]

/-- A classified ERC20 stands for its denom. -/
theorem denom_of_classifyERC20 (classified : ledger.classifyERC20 ext token = .ok origin) :
    origin.denom = ledger.registry.denomOf ext token ∧ origin.erc20 = token ∧
      (origin.origin = .cosmos ↔ ∃ denom, ledger.registry.erc20ToDenom.get token = some denom) := by
  cases found : ledger.registry.erc20ToDenom.get token with
  | some denom =>
    obtain ⟨_, rfl⟩ := (classifyERC20_mapped found).mp classified
    exact ⟨(denomOf_mapped ext found).symm, rfl, by simp⟩
  | none =>
    obtain ⟨_, rfl⟩ := (classifyERC20_unmapped found).mp classified
    exact ⟨(denomOf_unmapped ext found).symm, rfl, by simp⟩

/-- A denom reads as a voucher of a token in one of the namespaces. -/
def Reads (denom : Denom) (token : EthAddress) : Prop :=
  gravity2DenomToERC20 denom = .ok token ∨ gravityDenomToERC20 denom = .ok token

theorem isVoucher_of_reads (reads : Reads denom token) : isVoucher denom = true := by
  rcases reads with gravity2 | gravity
  · simp [isVoucher, gravity2]
  · simp [isVoucher, gravity]

theorem reads_voucherDenom (reads : Reads (registry.voucherDenom ext token) other) :
    other = token := by
  have notBoth : ∀ denom found, gravityDenomToERC20 denom = .ok found →
      gravity2DenomPrefix.isPrefixOf denom = false := by
    intro denom found read
    simp only [gravityDenomToERC20, bind_eq_ok, require_eq_ok] at read
    obtain ⟨_, plain, _⟩ := read
    exact Bool.eq_false_iff.mpr plain
  unfold Registry.voucherDenom at reads
  split_ifs at reads
  · rcases reads with gravity2 | gravity
    · rw [gravity2DenomToERC20_gravity2Denom] at gravity2
      exact (Except.ok.inj gravity2).symm
    · have plain := notBoth _ _ gravity
      rw [gravity2Denom_hasPrefix] at plain
      contradiction
  · rcases reads with gravity2 | gravity
    · simp [gravity2DenomToERC20, gravityDenom_not_gravity2] at gravity2
    · rw [gravityDenomToERC20_gravityDenom] at gravity
      exact (Except.ok.inj gravity).symm

theorem classifyEthOriginated_eq_ok {isRemapped : Bool} :
    ledger.classifyEthOriginated denom token isRemapped = .ok origin ↔
      ledger.bank.denomMetaData denom = none ∧
      (if isRemapped then gravity2DenomToERC20 denom else gravityDenomToERC20 denom) = .ok token ∧
      validateStrictDenom denom = .ok () ∧ ⟨.ethereum, isRemapped, denom, token⟩ = origin := by
  simp [Ledger.classifyEthOriginated, Unique.exists_iff]

/-- A classified denom is a registered one, or reads as a voucher of its ERC20. -/
theorem classifyDenom_cases (classified : ledger.classifyDenom denom = .ok origin) :
    validateStrictDenom denom = .ok () ∧
    ((ledger.registry.erc20ToDenom.get origin.erc20 = some denom ∧
      origin = ⟨.cosmos, false, denom, origin.erc20⟩) ∨
      (Reads denom origin.erc20 ∧
        (if ledger.registry.isRemappedERC20 origin.erc20 then gravity2DenomToERC20 denom
          else gravityDenomToERC20 denom) = .ok origin.erc20 ∧
        ledger.bank.denomMetaData denom = none ∧
        origin = ⟨.ethereum, ledger.registry.isRemappedERC20 origin.erc20, denom, origin.erc20⟩)) := by
  unfold Ledger.classifyDenom at classified
  split at classified
  · rename_i token gravity2
    simp only [bind_eq_ok, require_eq_ok, classifyEthOriginated_eq_ok] at classified
    obtain ⟨_, remapped, noMetadata, _, strict, rfl⟩ := classified
    exact ⟨strict, .inr ⟨.inl gravity2, by rw [remapped]; exact gravity2, noMetadata,
      by rw [remapped]⟩⟩
  · split at classified
    · rename_i token gravity
      simp only [bind_eq_ok, require_eq_ok, classifyEthOriginated_eq_ok] at classified
      obtain ⟨_, plain, noMetadata, _, strict, rfl⟩ := classified
      exact ⟨strict, .inr ⟨.inr gravity, by rw [plain]; exact gravity, noMetadata, by rw [plain]⟩⟩
    · split at classified
      · rename_i token found
        simp only [Ledger.classifyCosmosOriginated, bind_eq_ok, rewrap_eq_ok, require_eq_ok,
          pure_eq_ok] at classified
        obtain ⟨_, strict, _, _, _, mapped, _, _, rfl⟩ := classified
        exact ⟨strict, .inl ⟨mapped, rfl⟩⟩
      · simp at classified

/-- The denom that a token stands for is classified as that token. -/
theorem erc20_of_classifyDenom
    (classified : ledger.classifyDenom (ledger.registry.denomOf ext token) = .ok origin) :
    origin.erc20 = token := by
  rcases (classifyDenom_cases classified).2 with ⟨mapped, _⟩ | ⟨reads, _⟩
  · exact denomOf_injective (denomOf_mapped ext mapped)
  · cases found : ledger.registry.erc20ToDenom.get token with
    | some denom =>
      rw [denomOf_mapped ext found] at reads
      have plain := ledger.registry.notVoucher denom token
        ((ledger.registry.paired denom token).mpr found)
      rw [isVoucher_of_reads reads] at plain
      contradiction
    | none =>
      rw [denomOf_unmapped ext found] at reads
      exact reads_voucherDenom reads

/-- A new mapping is written only when it is registrable. -/
theorem setCosmosOriginatedMapping_eq_ok {next : Registry} :
    registry.setCosmosOriginatedMapping denom token = .ok next ↔ containsEthAddress denom = false ∧
      ∃ registrable, registry.register denom token registrable = next := by
  unfold Registry.setCosmosOriginatedMapping
  constructor
  · intro written
    split at written
    · rename_i checked
      exact ⟨(checkCosmosOriginatedMapping_eq_ok.mp checked).1, _, Except.ok.inj written⟩
    · cases written
  · rintro ⟨noAddress, registrable, rfl⟩
    have passes := checkCosmosOriginatedMapping_eq_ok.mpr ⟨noAddress, registrable⟩
    split
    · rfl
    · rename_i failed
      rw [passes] at failed
      cases failed

end

end GravityBridge.Keeper
