import GravityBridge.Keeper.HandlerSteps

/-!
# When the two classifications agree

An asset is classified by its denom when it is escrowed and by its ERC20 when it
is refunded or burned. The classification of a denom keeps the casing of its
input and does not look the ERC20 up among the registered ones, so the two can
disagree over vouchers; they never disagree over registered denoms.
-/

namespace GravityBridge.Keeper

open Lib.Fallible Lib.ByteString Lib.Store
open GravityBridge.Types

variable {ext : External} {ledger next : Ledger} {denom : Denom} {token : EthAddress}
  {origin : AssetOrigin}

/-- `ClassifyDenom` takes the denom for a voucher of the token. -/
structure TakenAsVoucher (ledger : Ledger) (denom : Denom) (token : EthAddress) : Prop where
  reads : (if ledger.registry.isRemappedERC20 token then gravity2DenomToERC20 denom
    else gravityDenomToERC20 denom) = .ok token
  noMetadata : ledger.bank.denomMetaData denom = none
  strict : validateStrictDenom denom = .ok ()

theorem gravity2DenomToERC20_of_gravity (reads : gravityDenomToERC20 denom = .ok token) :
    ∃ fault, gravity2DenomToERC20 denom = .error fault := by
  simp only [gravityDenomToERC20, bind_eq_ok, require_eq_ok] at reads
  obtain ⟨_, plain, _⟩ := reads
  simp [gravity2DenomToERC20, require, plain, fail]

/-- A denom is classified as a voucher or as a registered denom. -/
theorem classifyDenom_eq_ok : ledger.classifyDenom denom = .ok origin ↔
    (∃ token, TakenAsVoucher ledger denom token ∧
      origin = ⟨.ethereum, ledger.registry.isRemappedERC20 token, denom, token⟩) ∨
    (∃ token, ledger.registry.erc20ToDenom.get token = some denom ∧
      validateStrictDenom denom = .ok () ∧ origin = ⟨.cosmos, false, denom, token⟩) := by
  constructor
  · intro classified
    obtain ⟨strict, ⟨mapped, same⟩ | ⟨_, reads, noMetadata, same⟩⟩ := classifyDenom_cases classified
    · exact .inr ⟨_, mapped, strict, same⟩
    · exact .inl ⟨_, ⟨reads, noMetadata, strict⟩, same⟩
  · rintro (⟨token, taken, rfl⟩ | ⟨token, mapped, strict, rfl⟩)
    · have reads := taken.reads
      cases remapped : ledger.registry.isRemappedERC20 token with
      | true =>
        rw [remapped, if_pos rfl] at reads
        simp [Ledger.classifyDenom, reads, remapped, classifyEthOriginated_eq_ok, taken.noMetadata,
          taken.strict]
      | false =>
        rw [remapped, if_neg (by decide)] at reads
        obtain ⟨fault, notGravity2⟩ := gravity2DenomToERC20_of_gravity reads
        simp [Ledger.classifyDenom, notGravity2, reads, remapped, classifyEthOriginated_eq_ok,
          taken.noMetadata, taken.strict]
    · have forward := (ledger.registry.paired denom token).mpr mapped
      have plain := ledger.registry.notVoucher denom token forward
      simp only [isVoucher, Bool.or_eq_false_iff] at plain
      obtain ⟨⟨fault, notGravity⟩, ⟨fault2, notGravity2⟩⟩ :
          (∃ fault, gravityDenomToERC20 denom = .error fault) ∧
          ∃ fault, gravity2DenomToERC20 denom = .error fault := by
        constructor
        · cases read : gravityDenomToERC20 denom with
          | ok token => simp [read] at plain
          | error fault => exact ⟨fault, rfl⟩
        · cases read : gravity2DenomToERC20 denom with
          | ok token => simp [read] at plain
          | error fault => exact ⟨fault, rfl⟩
      simp [Ledger.classifyDenom, notGravity, notGravity2, forward, Ledger.classifyCosmosOriginated,
        strict, mapped, isRemappedERC20_of_mapped mapped]

/-! ## Agreement -/

/-- Escrowed under a denom, an asset is classified by its ERC20 as it was by the denom. -/
def DenomFirst (ext : External) (ledger : Ledger) (denom : Denom) : Prop :=
  ∀ origin, ledger.classifyDenom denom = .ok origin →
    ledger.classifyERC20 ext origin.erc20 = .ok origin

/-- An asset that is classified by its ERC20 is classified by its denom in the same way. -/
def ERC20First (ext : External) (ledger : Ledger) : Prop :=
  ∀ token origin, ledger.classifyERC20 ext token = .ok origin →
    ledger.classifyDenom origin.denom = .ok origin

/-- Coins that were escrowed under a denom are refunded or burned under it. -/
def EscrowKeepsDenom (ext : External) (ledger : Ledger) (denom : Denom) : Prop :=
  ∀ params sender receiver amount fee id next, amount.denom = denom →
    ledger.addToOutgoingPool ext params sender receiver amount fee = .ok (id, next) →
    ∃ tx ∈ next.outgoing.pool.values, tx.id = id ∧
      ∃ origin, next.classifyERC20 ext tx.erc20Token.contract = .ok origin ∧ origin.denom = denom

theorem voucherDenom_taken
    (noMetadata : ledger.bank.denomMetaData (ledger.registry.voucherDenom ext token) = none) :
    TakenAsVoucher ledger (ledger.registry.voucherDenom ext token) token := by
  refine ⟨?_, noMetadata, ?_⟩
  · unfold Registry.voucherDenom
    split_ifs
    · exact gravity2DenomToERC20_gravity2Denom ext token
    · exact gravityDenomToERC20_gravityDenom ext token
  · unfold Registry.voucherDenom
    split_ifs
    · exact validateStrictDenom_gravity2Denom ext token
    · exact validateStrictDenom_gravityDenom ext token

theorem erc20First (ext : External) (ledger : Ledger) : ERC20First ext ledger := by
  intro token origin classified
  cases found : ledger.registry.erc20ToDenom.get token with
  | some denom =>
    obtain ⟨strict, rfl⟩ := (classifyERC20_mapped found).mp classified
    exact classifyDenom_eq_ok.mpr (.inr ⟨token, found, strict, rfl⟩)
  | none =>
    obtain ⟨noMetadata, rfl⟩ := (classifyERC20_unmapped found).mp classified
    exact classifyDenom_eq_ok.mpr (.inl ⟨token, voucherDenom_taken noMetadata, rfl⟩)

theorem escrowKeepsDenom (agree : DenomFirst ext ledger denom) :
    EscrowKeepsDenom ext ledger denom := by
  rintro params sender receiver amount fee id next rfl added
  obtain ⟨tx, sameId, _, _, _, _, issued⟩ := addToOutgoingPool_issued added
  obtain ⟨origin, classified, contract, _⟩ := issued.classified
  have kept : origin.denom = amount.denom := by
    rcases classifyDenom_eq_ok.mp classified with ⟨_, _, rfl⟩ | ⟨_, _, _, rfl⟩
    · rfl
    · rfl
  obtain ⟨_, rfl⟩ := issued.result
  refine ⟨tx, ?_, sameId, origin, ?_, kept⟩
  · exact KVStore.mem_values.mpr ⟨getOutgoingTxPoolKey tx.erc20Fee tx.id, by simp⟩
  · -- escrowing changes neither the registry nor the metadata
    rw [contract]
    exact agree origin classified

/-- The classifications agree on a denom, and escrow keeps it, exactly when a denom that is taken for
a voucher is its ERC20's own voucher and the ERC20 is not registered. -/
theorem classifications_agree_iff (ext : External) (ledger : Ledger) (denom : Denom) :
    (DenomFirst ext ledger denom ∧ ERC20First ext ledger ∧ EscrowKeepsDenom ext ledger denom) ↔
      ∀ token, TakenAsVoucher ledger denom token →
        denom = ledger.registry.voucherDenom ext token ∧
          ledger.registry.erc20ToDenom.get token = none := by
  constructor
  · rintro ⟨agree, _, _⟩ token taken
    have classified := agree _ (classifyDenom_eq_ok.mpr (.inl ⟨token, taken, rfl⟩))
    cases found : ledger.registry.erc20ToDenom.get token with
    | some name => simp [classifyERC20_mapped found] at classified
    | none =>
        obtain ⟨_, same⟩ := (classifyERC20_unmapped found).mp classified
        exact ⟨(congrArg AssetOrigin.denom same).symm, rfl⟩
  · intro canonical
    have agree : DenomFirst ext ledger denom := by
      intro origin classified
      rcases classifyDenom_eq_ok.mp classified with ⟨token, taken, rfl⟩ | ⟨token, mapped, strict, rfl⟩
      · obtain ⟨same, unmapped⟩ := canonical token taken
        exact (classifyERC20_unmapped unmapped).mpr ⟨same ▸ taken.noMetadata, by rw [← same]⟩
      · exact (classifyERC20_mapped mapped).mpr ⟨strict, rfl⟩
    exact ⟨agree, erc20First ext ledger, escrowKeepsDenom agree⟩

/-- A ledger in which ERC20 10 is registered for `ustake`; the module account holds some `ustake`. -/
def exampleRegistered : Ledger :=
  { Ledger.unused [] ((Bank.empty.mint (ascii "holder") ⟨gravityDenom localnet 10, 11⟩).mint
    localnet.gravityModule ⟨ascii "ustake", 11⟩) with
    registry := (Ledger.unused [] Bank.empty).registry.register (ascii "ustake") 10
      (checkCosmosOriginatedMapping_eq_ok.mp (by decide +kernel)).2 }

/-- Vouchers of the registered ERC20 are escrowed, and their refund is paid in `ustake`. -/
def exampleSwap : Option (Nat × Nat) :=
  match exampleRegistered.addToOutgoingPool localnet defaultParams (ascii "holder") 7
    ⟨gravityDenom localnet 10, 10⟩ ⟨gravityDenom localnet 10, 1⟩ with
  | .ok (id, escrowed) =>
      match escrowed.removeFromOutgoingPoolAndRefund localnet defaultParams id (ascii "holder") with
      | .ok refunded => some (refunded.bank.balances (ascii "holder") (gravityDenom localnet 10),
          refunded.bank.balances (ascii "holder") (ascii "ustake"))
      | .error _ => none
  | .error _ => none

/-- A voucher in capitals, of an ERC20 whose checksum mixes the cases. -/
def exampleRecased : Denom := gravityDenomPrefix ++ upperCaseAddress

theorem classifications_disagree :
    ¬ DenomFirst localnet exampleRegistered (gravityDenom localnet 10) ∧ exampleSwap = some (0, 11) ∧
    ¬ DenomFirst localnet (Ledger.unused [] Bank.empty) exampleRecased := by
  refine ⟨fun agree => ?_, by decide +kernel, fun agree => ?_⟩
  · have classified := agree ⟨.ethereum, false, gravityDenom localnet 10, 10⟩ (by decide +kernel)
    exact absurd classified (by decide +kernel)
  · have classified := agree ⟨.ethereum, false, exampleRecased, mixedCaseAddress⟩ (by decide +kernel)
    exact absurd classified (by decide +kernel)

end GravityBridge.Keeper
