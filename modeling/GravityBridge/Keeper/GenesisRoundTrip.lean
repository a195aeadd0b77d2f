import GravityBridge.Keeper.Evidence
import GravityBridge.Keeper.Keyless

/-!
# Export and import again

The exported keys of a validator carry its operator address, and the import reads
this address as an account first. So the genesis of a chain with any keys is not
accepted. Without keys the chain stores little, and all of it survives, unless a
reward for validator sets is configured: its denom cannot be mapped yet.
-/

namespace GravityBridge.Keeper

open Lib.Fallible Lib.ByteString Lib.Store Lib.Runs
open GravityBridge.Types List KVStore

section

variable (ext : External)

/-- The chain exports, the import accepts what was exported, and the new chain exports the same. -/
def Chain.RoundTrips (chain : Chain) : Prop :=
  ∃ data restored, chain.exportGenesis ext = .ok data ∧ chain.initGenesis ext data = .ok restored ∧
    restored.exportGenesis ext = .ok data

/-- No keys are registered, the parameters are valid and no reward is configured. -/
structure Chain.Exportable (chain : Chain) : Prop where
  keyless : chain.Keyless
  params : chain.state.params.validateBasic = .ok ()
  unrewarded : ¬ (chain.state.params.valsetReward.isValid = true ∧
    chain.state.params.valsetReward.amount ≠ 0)

/-- Everything but validator sets, the allowlist, the remapped tokens and the counters is empty. -/
structure Chain.Bare (chain : Chain) : Prop where
  keyless : chain.Keyless
  orchestrators : chain.delegates.validatorByOrchestrator = .empty
  attestations : chain.state.oracle.attestations = .empty
  pool : chain.state.ledger.outgoing.pool = .empty
  batches : chain.state.ledger.outgoing.batches = .empty
  unmapped : chain.state.ledger.registry.denomToERC20 = .empty
  forwards : chain.state.ledger.pendingIbcAutoForwards = .empty
  valsetConfirms : chain.valsetConfirms = .empty
  logicCalls : chain.logicCalls = .empty

/-- The genesis of a chain in which everything else is empty. -/
def Chain.bareGenesis (chain : Chain) : GenesisState where
  params := chain.state.params
  gravityNonces := {
    latestValsetNonce := chain.state.ledger.valsets.latestValsetNonce
    lastObservedNonce := chain.state.oracle.lastObservedEventNonce
    lastSlashedValsetNonce := chain.lastSlashedValsetNonce
    lastSlashedBatchBlock := chain.lastSlashedBatchBlock
    lastSlashedLogicCallBlock := chain.lastSlashedLogicCallBlock
    lastTxPoolId := chain.state.ledger.outgoing.lastTXPoolID
    lastBatchId := chain.state.ledger.outgoing.lastOutgoingBatchID }
  valsets := chain.state.ledger.valsets.getValsets
  valsetConfirms := []
  batches := []
  batchConfirms := []
  logicCalls := []
  logicCallConfirms := []
  attestations := []
  delegateKeys := []
  erc20ToDenoms := []
  unbatchedTransfers := []
  pendingIbcAutoForwards := []
  remappedErc20S := chain.state.ledger.registry.sortedRemapped.map (hex ext)
  cosmosBridgeableTokens := chain.state.ledger.registry.cosmosBridgeableTokens.values

end

variable {ext : External} {chain restored : Chain} {ledger next : Ledger} {data : GenesisState}
  {trace : List EthereumClaim}

/-! ## Export -/

theorem Chain.Bare.exportGenesis (bare : chain.Bare) :
    chain.exportGenesis ext = .ok (chain.bareGenesis ext) := by
  have keyless : chain.delegates.ethAddressByValidator = .empty := bare.keyless
  have noKeys : chain.delegates.getDelegateKeys ext = .ok [] := by
    simp only [Delegates.getDelegateKeys, keyless, bare.orchestrators]
    rfl
  have noConfirms : chain.state.ledger.valsets.getValsets.flatMap
      (fun valset => chain.getValsetConfirms valset.nonce) = [] := by
    refine flatMap_eq_nil_iff.mpr fun valset _ => ?_
    rw [Chain.getValsetConfirms, bare.valsetConfirms]
    rfl
  simp only [Chain.exportGenesis, noKeys, ok_bind, pure_eq_ok, Chain.bareGenesis, noConfirms,
    bare.logicCalls, bare.attestations, bare.batches, bare.pool, bare.forwards, bare.unmapped,
    Oracle.getAttestations, Outgoing.getOutgoingTxBatches, Outgoing.getUnbatchedTransactions,
    values_empty, reverse_nil, flatMap_nil, map_nil]
  rfl

theorem Chain.Silent.bare (silent : chain.Silent) (consistent : chain.delegates.Consistent)
    (keyless : chain.Keyless) : chain.Bare where
  keyless := keyless
  orchestrators := by
    refine ext_get fun orchestrator => ?_
    rw [get_empty, Option.eq_none_iff_forall_not_mem]
    intro validator found
    obtain ⟨address, signed⟩ := consistent.signs orchestrator validator found
    rw [keyless] at signed
    simp at signed
  attestations := silent.module.unvoted
  pool := silent.module.ledger.pool
  batches := silent.module.ledger.batches
  unmapped := silent.module.ledger.unmapped
  forwards := silent.module.ledger.forwards
  valsetConfirms := silent.valsetConfirms
  logicCalls := silent.logicCalls

/-! ## Import of validator sets -/

theorem foldlM_storeValset {valsets : List Valset} (distinct : (valsets.map Valset.nonce).Nodup)
    (fresh : ∀ valset ∈ valsets, ledger.valsets.requests.get valset.nonce = none) :
    valsets.foldlM Ledger.storeValset ledger = .ok { ledger with
      valsets := { ledger.valsets with
        requests := valsets.foldl (fun current valset => current.set valset.nonce valset)
          ledger.valsets.requests } } := by
  induction valsets generalizing ledger with
  | nil => rfl
  | cons valset rest ih =>
    obtain ⟨different, distinctRest⟩ := nodup_cons.mp distinct
    have stored : ledger.storeValset valset = .ok { ledger with
        valsets := { ledger.valsets with
          requests := ledger.valsets.requests.set valset.nonce valset } } := by
      simp [Ledger.storeValset, fresh valset mem_cons_self]
    rw [foldlM_cons, stored, ok_bind, ih distinctRest]
    · rfl
    · intro other member
      rw [get_set, if_neg]
      · exact fresh other (mem_cons_of_mem _ member)
      · exact fun same => different (mem_map.mpr ⟨other, member, same⟩)

theorem highestNonce_eq {valsets : List Valset} {highest : Nat}
    (bound : ∀ valset ∈ valsets, valset.nonce ≤ highest)
    (reached : highest = 0 ∨ ∃ valset ∈ valsets, valset.nonce = highest) :
    highestNonce valsets = highest := by
  have loop : ∀ (valsets : List Valset) (start : Nat),
  (∀ valset ∈ valsets, valset.nonce ≤ highest) → start ≤ highest →
      (start = highest ∨ ∃ valset ∈ valsets, valset.nonce = highest) →
      valsets.foldl (fun highest valset => if highest < valset.nonce then
        valset.nonce else highest) start = highest := by
    intro valsets
    induction valsets with
    | nil =>
      intro start _ _ reached
      simpa using reached
    | cons valset rest ih =>
      intro start bound below reached
      have first := bound valset mem_cons_self
      refine ih _ (fun other member => bound other (mem_cons_of_mem _ member)) ?_ ?_
      · beta_reduce
        split_ifs
        · exact first
        · exact below
      · rcases reached with rfl | ⟨other, member, same⟩
        · exact .inl (if_neg (Nat.not_lt.mpr first))
        · rcases mem_cons.mp member with rfl | later
          · refine .inl ?_
            beta_reduce
            split_ifs
            · exact same
            · omega
          · exact .inr ⟨other, later, same⟩
  refine loop valsets 0 bound (Nat.zero_le _) (reached.imp_left Eq.symm)

theorem Valsets.Numbered.highestNonce (numbered : ledger.valsets.Numbered) :
    highestNonce ledger.valsets.getValsets = ledger.valsets.latestValsetNonce := by
  refine highestNonce_eq (fun valset member => ?_)
    (numbered.latest.imp_right fun ⟨valset, found⟩ => ?_)
  · obtain ⟨nonce, found⟩ := mem_values.mp (mem_reverse.mp member)
    exact numbered.keyed nonce valset found ▸ numbered.bound nonce valset found
  · exact ⟨valset, mem_reverse.mpr (mem_values.mpr ⟨_, found⟩), (numbered.keyed _ valset found).symm⟩

/-- The requests are stored again one by one. -/
theorem Valsets.Numbered.stored (numbered : ledger.valsets.Numbered) (blank : Ledger)
    (none : blank.valsets.requests = .empty) :
    ledger.valsets.getValsets.foldlM Ledger.storeValset blank = .ok { blank with
      valsets := { blank.valsets with requests := ledger.valsets.requests } } := by
  have distinct : (ledger.valsets.getValsets.map Valset.nonce).Nodup := by
    rw [Valsets.getValsets, map_reverse, nodup_reverse]
    exact nodup_of_keyed numbered.keyed
  have requests : ledger.valsets.getValsets.foldl (fun current valset =>
      current.set valset.nonce valset) .empty =
      ledger.valsets.requests :=
        foldl_set_values numbered.keyed (reverse_perm ledger.valsets.requests.values)
  rw [foldlM_storeValset distinct (by simp [none])]
  simp only [none, requests]

/-! ## Import of the allowlist -/

theorem importBridgeable_tokens {tokens : List Metadata}
    (valid : ∀ metadata ∈ tokens, metadata.validate = .ok ()) (ledger : Ledger) :
    ∃ result, tokens.foldlM Ledger.importBridgeable ledger = .ok result ∧
      result.registry.cosmosBridgeableTokens =
      tokens.foldl (fun current metadata => current.set metadata.base metadata)
        ledger.registry.cosmosBridgeableTokens := by
  induction tokens generalizing ledger with
  | nil => exact ⟨ledger, rfl, rfl⟩
  | cons metadata rest ih =>
    obtain ⟨result, ran, same⟩ := ih (fun other member => valid other (mem_cons_of_mem _ member))
      ({ ledger with bank := ledger.bank.setDenomMetaData metadata }.setCosmosBridgeableToken
        metadata)
    refine ⟨result, ?_, same⟩
    rw [foldlM_cons, Ledger.importBridgeable, valid metadata mem_cons_self]
    exact ran

theorem sortedRemapped_unmapped (registry : Registry) :
    (Registry.unmapped registry.sortedRemapped).sortedRemapped = registry.sortedRemapped := by
  have distinct : registry.sortedRemapped.Nodup :=
    (perm_insertionSort _ _).nodup_iff.mpr (nodup_dedup _)
  have sorted : registry.sortedRemapped.Pairwise (· ≤ ·) := pairwise_insertionSort _ _
  rw [Registry.sortedRemapped, Registry.unmapped, Ledger.unused]
  change registry.sortedRemapped.dedup.insertionSort (· ≤ ·) = registry.sortedRemapped
  rw [distinct.dedup, sorted.insertionSort_eq]

/-! ## The whole import -/

/-- The blank chain with the parameters and the counters of a chain. -/
def Chain.counted (chain : Chain) : Chain :=
  { chain.blank with
    state := { chain.blank.state with
      params := chain.state.params
      oracle := ⟨.empty, .empty, chain.state.oracle.lastObservedEventNonce, ⟨0, 0⟩⟩
      ledger := { chain.blank.state.ledger with
        valsets := ⟨.empty, chain.state.ledger.valsets.latestValsetNonce, none⟩
        outgoing := ⟨.empty, .empty, .empty, chain.state.ledger.outgoing.lastTXPoolID,
          chain.state.ledger.outgoing.lastOutgoingBatchID⟩ } }
    lastSlashedValsetNonce := chain.lastSlashedValsetNonce
    lastSlashedBatchBlock := chain.lastSlashedBatchBlock
    lastSlashedLogicCallBlock := chain.lastSlashedLogicCallBlock }

/-- The counted chain with the validator sets too. -/
def Chain.requested (chain : Chain) : Chain :=
  { chain.counted with
    state := { chain.counted.state with
      ledger := { chain.counted.state.ledger with
        valsets := { chain.counted.state.ledger.valsets with
          requests := chain.state.ledger.valsets.requests } } } }

theorem importNonces_counted (ext : External) (chain : Chain) :
    chain.blank.importNonces (chain.bareGenesis ext).gravityNonces chain.state.params =
      .ok chain.counted := by
  have forward : 0 < chain.state.oracle.lastObservedEventNonce ∨
      chain.state.oracle.lastObservedEventNonce = 0 :=
    (Nat.eq_zero_or_pos _).symm
  simp [Chain.importNonces, Chain.counted, Chain.bareGenesis, Chain.blank, Ledger.unused,
    Ledger.setLatestValsetNonce, Oracle.setLastObservedEventNonce, forward]

theorem initBridgeDataFromGenesis_requested (numbered : chain.state.ledger.valsets.Numbered) :
    chain.counted.initBridgeDataFromGenesis ext (chain.bareGenesis ext) = .ok chain.requested := by
  have highest := numbered.highestNonce
  have stored := numbered.stored chain.counted.state.ledger rfl
  simp only [Chain.initBridgeDataFromGenesis, Chain.bareGenesis, stored, ok_bind,
    Ledger.setLatestValsetNonce, highest, foldlM_nil]
  simp [Chain.requested, Chain.counted]

theorem checkValsetReward_unmapped {registry : Registry} {reward : Coin}
    (unmapped : registry.denomToERC20 = .empty) :
    registry.checkValsetReward reward = .ok () ↔ ¬ (reward.isValid = true ∧ reward.amount ≠ 0) := by
  unfold Registry.checkValsetReward
  split_ifs with rewarded
  · simp [unmapped, rewarded]
  · simp [rewarded]

/-- Reading the document of such a chain restores all of it. -/
theorem Chain.Silent.initGenesis (ext : External) (silent : chain.Silent)
    (exportable : chain.Exportable) :
    ∃ restored, chain.initGenesis ext (chain.bareGenesis ext) = .ok restored ∧ restored.Bare ∧
      restored.bareGenesis ext = chain.bareGenesis ext := by
  have quiet := silent.module.ledger
  have remapped : (chain.state.ledger.registry.sortedRemapped.map (hex ext)).mapM (fun address =>
      orPanic "invalid remapped ERC20 address in genesis" (newEthAddress address)) =
      .ok chain.state.ledger.registry.sortedRemapped :=
    mapM_map_eq_ok _ (fun address _ => by rw [newEthAddress_hex]; rfl)
  let unlisted : Ledger := { chain.requested.state.ledger with
    registry := Registry.unmapped chain.state.ledger.registry.sortedRemapped }
  obtain ⟨listed, listing, tokens⟩ := importBridgeable_tokens quiet.listed.valid unlisted
  rw [show unlisted.registry.cosmosBridgeableTokens = .empty from rfl,
    foldl_set_values quiet.listed.keyed (List.Perm.refl _)] at tokens
  have relisted := importBridgeable_relisted listing
  have consistent : listed.registry.Listed := by
    obtain ⟨keyed, valid, noAddress, native⟩ := quiet.listed
    rw [← tokens] at keyed valid noAddress native
    exact ⟨keyed, valid, noAddress, native⟩
  have unmapped : listed.registry.denomToERC20 = .empty := relisted.denomToERC20
  have outgoing : listed.outgoing = unlisted.outgoing := by rw [relisted.frame]
  have valsets : listed.valsets = unlisted.valsets := by rw [relisted.frame]
  have forwards : listed.pendingIbcAutoForwards = .empty := by rw [relisted.frame]; rfl
  refine ⟨{ chain.requested with state := { chain.requested.state with ledger := listed } },
    ?_, ?_, ?_⟩
  · simp only [Chain.initGenesis, bind_eq_ok, pure_eq_ok, orPanic_eq_ok]
    exact ⟨(), exportable.params, _, importNonces_counted ext chain, _,
      initBridgeDataFromGenesis_requested quiet.numbered, _, rfl, _, rfl, _, rfl, (), rfl, _, rfl,
      _, remapped, _, rfl, _, listing, (),
      assertCosmosBridgeableTokensConsistent_of_listed consistent, (),
      (checkValsetReward_unmapped unmapped).mpr exportable.unrewarded, _, rfl, rfl⟩
  · exact ⟨rfl, rfl, rfl, by rw [outgoing]; rfl, by rw [outgoing]; rfl, unmapped, forwards, rfl, rfl⟩
  · have remappedAgain : listed.registry.sortedRemapped =
        chain.state.ledger.registry.sortedRemapped := by
      rw [Registry.sortedRemapped, relisted.remapped]
      exact sortedRemapped_unmapped chain.state.ledger.registry
    simp only [Chain.bareGenesis, tokens, remappedAgain, outgoing, valsets]
    rfl

/-! ## What the import refuses -/

/-- A printed operator address does not have the prefix of accounts. -/
def External.TellsOperators (ext : External) : Prop :=
  ∀ validator hrp address, ext.decodeBech32 (valAddressString ext validator) = some (hrp, address) →
    hrp ≠ ext.accountPrefix

/-- Keys with a printed operator address are refused. -/
theorem not_importKeys_operator (tells : External.TellsOperators ext) {validator : ValAddress}
    {orchestrator address : Bytes} {delegates result : Delegates} :
    delegates.importKeys ext ⟨valAddressString ext validator, orchestrator, address⟩ ≠
      .ok result := by
  intro imported
  simp only [Delegates.importKeys, MsgSetOrchestratorAddress.validateBasic, accAddressFromBech32,
    bind_eq_ok, orPanic_eq_ok, rewrap_eq_ok, fromOption_eq_ok, require_eq_ok, Prod.exists] at imported
  obtain ⟨_, ⟨_, ⟨_, _, hrp, account, decoded, _, same, _⟩, _⟩, _⟩ := imported
  exact tells validator hrp account decoded same

theorem keyless_of_import (tells : External.TellsOperators ext)
    (exported : chain.exportGenesis ext = .ok data)
    (imported : chain.initGenesis ext data = .ok restored) : chain.Keyless := by
  simp only [Chain.exportGenesis, Delegates.getDelegateKeys, bind_eq_ok, pure_eq_ok] at exported
  obtain ⟨_, ⟨_, _, _, _, keys, listed, rfl⟩, rfl⟩ := exported
  simp only [Chain.initGenesis, bind_eq_ok] at imported
  obtain ⟨_, _, _, _, _, _, _, _, _, _, _, _, _, _, _, importing, _⟩ := imported
  refine ext_get fun validator => ?_
  rw [get_empty, Option.eq_none_iff_forall_not_mem]
  intro address found
  obtain ⟨key, member, made⟩ := mem_of_mapM listed (mem_entries.mpr found)
  simp only [bind_eq_ok, pure_eq_ok] at made
  obtain ⟨orchestrator, _, rfl⟩ := made
  obtain ⟨before, after, pass⟩ := pass_of_foldlM importing ((mem_insertionSort _).mpr member)
  exact not_importKeys_operator tells pass

theorem Chain.Bare.exportable_of_import (bare : chain.Bare)
    (imported : chain.initGenesis ext (chain.bareGenesis ext) = .ok restored) : chain.Exportable := by
  simp only [Chain.initGenesis, bind_eq_ok, orPanic_eq_ok] at imported
  obtain ⟨_, params, _, _, bridged, _, _, _, _, _, _, _, _, _, _, _, remapped, _, registry, mapping,
    listed, listing, _, _, _, reward, _⟩ := imported
  obtain rfl : Registry.unmapped remapped = registry := Except.ok.inj mapping
  have unmapped : listed.registry.denomToERC20 = .empty :=
    (importBridgeable_relisted listing).denomToERC20
  exact ⟨bare.keyless, params, (checkValsetReward_unmapped unmapped).mp reward⟩

/-- A reachable chain survives export and import exactly when it is exportable. -/
theorem genesis_roundTrips_iff (tells : External.TellsOperators ext)
    (reach : Chain.Reachable ext (Chain.Empty ext) trace chain) : chain.RoundTrips ext ↔
      chain.Exportable := by
  have consistent := Chain.consistent_of_reachable reach
  constructor
  · rintro ⟨data, restored, exported, imported, _⟩
    have keyless := keyless_of_import tells exported imported
    have bare := (Chain.silent_of_keyless reach keyless).bare consistent keyless
    obtain rfl := Except.ok.inj (bare.exportGenesis.symm.trans exported)
    exact bare.exportable_of_import imported
  · intro exportable
    have silent := Chain.silent_of_keyless reach exportable.keyless
    obtain ⟨restored, imported, bare, same⟩ := silent.initGenesis ext exportable
    exact ⟨chain.bareGenesis ext, restored,
      (silent.bare consistent exportable.keyless).exportGenesis, imported, same ▸ bare.exportGenesis⟩

/-! ## One registered key stops the import -/

theorem beforeLast_eq_some {byte : UInt8} {text front : Bytes}
    (found : beforeLast byte text = some front) : ∃ back, text = front ++ byte :: back := by
  unfold beforeLast at found
  split at found
  · contradiction
  · rename_i head rest suffix
    obtain rfl := Option.some.inj found
    have kept := takeWhile_append_dropWhile (p := (· != byte)) (l := text.reverse)
    have same : head = byte := by
      have nonempty : text.reverse.dropWhile (· != byte) ≠ [] := by simp [suffix]
      have stopped := head_dropWhile_not (· != byte) nonempty
      simpa [suffix] using stopped
    rw [suffix, same] at kept
    refine ⟨(text.reverse.takeWhile (· != byte)).reverse, ?_⟩
    have turned := congrArg List.reverse kept
    simpa using turned.symm

theorem localnet_tellsOperators : External.TellsOperators localnet := by
  rintro validator hrp address decoded rfl
  obtain ⟨front, found, same⟩ := Option.map_eq_some_iff.mp decoded
  obtain rfl : front = localnet.accountPrefix := (Prod.mk.inj same).1
  obtain ⟨back, text⟩ := beforeLast_eq_some found
  -- After the prefix of accounts an operator address goes on with a letter, not with the separator.
  have next := congrArg (fun text : Bytes => text[7]?) text
  simp [valAddressString, localnet, ascii] at next

/-- One validator registers its keys. -/
def registeredRun : List ChainLabel :=
  [.setOrchestratorAddress ⟨ascii "gravity1validator", ascii "gravity1orchestrator", hex localnet 7⟩]

/-- Governance lists a token. -/
def listedRun : List ChainLabel := [.module (.ledger (.setCosmosBridgeableTokens [exampleMetadata]))]

theorem registeredRun_ran : (Chain.execute localnet stakeLaunch registeredRun).isSome = true := by
  decide +kernel

theorem listedRun_ran : (Chain.execute localnet stakeLaunch listedRun).isSome = true := by
  decide +kernel

def registeredChain : Chain :=
  ((Chain.execute localnet stakeLaunch registeredRun).get registeredRun_ran).2

def listedChain : Chain := ((Chain.execute localnet stakeLaunch listedRun).get listedRun_ran).2

theorem registered_key_refused :
    (∃ trace, Chain.Reachable localnet (Chain.Empty localnet) trace registeredChain) ∧
    (registeredChain.exportGenesis localnet >>= fun data =>
      (fun _ => ()) <$> registeredChain.initGenesis localnet data) =
      panicking "Invalid delegate key in Genesis!" :=
  ⟨⟨_, Chain.reachable_of_execute stakeLaunch_empty registeredRun_ran⟩, by decide +kernel⟩

theorem listed_chain_roundTrips : listedChain.Exportable ∧
    listedChain.state.ledger.registry.cosmosBridgeableTokens.get exampleMetadata.base =
      some exampleMetadata ∧
    listedChain.RoundTrips localnet := by
  have facts : listedChain.delegates.ethAddressByValidator.entries = [] ∧
      listedChain.state.params.validateBasic = .ok () ∧
      listedChain.state.params.valsetReward.amount = 0 ∧
      listedChain.state.ledger.registry.cosmosBridgeableTokens.get exampleMetadata.base =
        some exampleMetadata := by
    decide +kernel
  obtain ⟨keyless, params, unrewarded, listed⟩ := facts
  have exportable : listedChain.Exportable :=
    ⟨KVStore.ext keyless, params, fun rewarded => rewarded.2 unrewarded⟩
  exact ⟨exportable, listed, (genesis_roundTrips_iff localnet_tellsOperators
    (Chain.reachable_of_execute stakeLaunch_empty listedRun_ran)).mpr exportable⟩

end GravityBridge.Keeper
