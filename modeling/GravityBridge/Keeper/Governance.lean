import GravityBridge.Keeper.Registry

/-!
# Token proposals

Governance lists the cosmos tokens that may be bridged, each with the metadata
that its ERC20 must have.
-/

namespace GravityBridge.Keeper

open Lib.Fallible Lib.ByteString Lib.Store
open GravityBridge.Types

/-- Whether `strings.TrimSpace` leaves nothing of a text. -/
def isBlank (text : Bytes) : Bool := text.all (fun byte => (9 ≤ byte && byte ≤ 13) || byte == 32)

/-- `DenomUnit.Validate` of the bank module. -/
def DenomUnit.validate (unit : DenomUnit) : Go Unit := do
  require (sdkValidateDenom unit.denom = true) ⟨.plain, "invalid denom unit"⟩
  require (unit.aliases.Nodup) ⟨.plain, "duplicate denomination unit alias"⟩
  require (∀ other ∈ unit.aliases, isBlank other = false) ⟨.plain,
    "alias for denom unit cannot be blank"⟩

/-- `Metadata.Validate` of the bank module: the first unit is the base with exponent zero, the
exponents increase, no unit occurs twice and one of them is the displayed one. -/
def Metadata.validate (metadata : Metadata) : Go Unit := do
  require (isBlank metadata.name = false) ⟨.plain, "name field cannot be blank"⟩
  require (isBlank metadata.symbol = false) ⟨.plain, "symbol field cannot be blank"⟩
  require (sdkValidateDenom metadata.base = true) ⟨.plain, "invalid metadata base denom"⟩
  require (sdkValidateDenom metadata.display = true) ⟨.plain, "invalid metadata display denom"⟩
  require (∀ unit ∈ metadata.denomUnits.head?, unit.denom = metadata.base ∧ unit.exponent = 0)
    ⟨.plain, "metadata's first denomination unit must be the one with base denom"⟩
  require ((metadata.denomUnits.map DenomUnit.exponent).Pairwise (· < ·))
    ⟨.plain, "denom units should be sorted asc"⟩
  require ((metadata.denomUnits.map DenomUnit.denom).Nodup) ⟨.plain, "duplicate denomination unit"⟩
  metadata.denomUnits.forM DenomUnit.validate
  require (∃ unit ∈ metadata.denomUnits, unit.denom = metadata.display)
    ⟨.plain, "metadata must contain a denomination unit with display denom"⟩

/-- `assertCosmosBridgeableTokensConsistent`. -/
def Ledger.assertCosmosBridgeableTokensConsistent (ledger : Ledger) : Go Unit := do
  let bases := ledger.registry.cosmosBridgeableTokens.values.map Metadata.base
  require (∀ base ∈ bases, containsEthAddress base = false)
    ⟨.invalid, "CosmosBridgeableTokens allowlist contains a denom that embeds an Ethereum address"⟩
  require (bases.Nodup) ⟨.duplicate, "CosmosBridgeableTokens allowlist contains duplicate base denom"⟩
  require (∀ base ∈ bases, gravityDenomPrefix.isPrefixOf base = false)
    ⟨.invalid, "CosmosBridgeableTokens allowlist contains an ethereum-originated denom"⟩

def Ledger.setCosmosBridgeableToken (ledger : Ledger) (metadata : Metadata) : Ledger :=
  { ledger with registry := { ledger.registry with
      cosmosBridgeableTokens := ledger.registry.cosmosBridgeableTokens.set metadata.base metadata } }

def Ledger.deleteCosmosBridgeableToken (ledger : Ledger) (denom : Denom) : Ledger :=
  { ledger with registry := { ledger.registry with
      cosmosBridgeableTokens := ledger.registry.cosmosBridgeableTokens.delete denom } }

/-- One entry of a set proposal: it also overwrites the bank's metadata. -/
def Ledger.setBridgeable (ledger : Ledger) (metadata : Metadata) : Go Ledger := do
  metadata.validate
  validateStrictDenom metadata.base
  require (gravityDenomPrefix.isPrefixOf metadata.base = false)
    ⟨.invalid, "CosmosBridgeableTokens must not contain ethereum-originated (gravity-prefixed) denoms"⟩
  require (ledger.bank.supply metadata.base ≠ 0)
    ⟨.invalid, "cannot set metadata: denom has zero on-chain supply"⟩
  require (¬ ((ledger.registry.cosmosBridgeableTokens.get metadata.base).isSome ∧
      (ledger.registry.denomToERC20.get metadata.base).isSome))
    ⟨.invalid, "cannot set metadata: an ERC20 representation already exists for this denom"⟩
  pure ({ ledger with bank := ledger.bank.setDenomMetaData metadata }.setCosmosBridgeableToken
    metadata)

def Ledger.handleSetCosmosBridgeableTokensProposal (ledger : Ledger) (metadatas : List Metadata) :
    Go Ledger := do
  require ((metadatas.map Metadata.base).Nodup) ⟨.duplicate, "proposal contains duplicate base denom"⟩
  let next ← metadatas.foldlM Ledger.setBridgeable ledger
  next.assertCosmosBridgeableTokensConsistent
  pure next

/-- One entry of a delete proposal. -/
def Ledger.deleteBridgeable (ledger : Ledger) (metadata : Metadata) : Go Ledger := do
  let existing ← fromOption ⟨.invalid,
    "CosmosBridgeableTokens remove denom not found in current list"⟩
    (ledger.registry.cosmosBridgeableTokens.get metadata.base)
  require (metadata = existing)
    ⟨.invalid, "CosmosBridgeableTokens remove metadata does not match existing metadata"⟩
  pure (ledger.deleteCosmosBridgeableToken metadata.base)

def Ledger.handleDeleteCosmosBridgeableTokensProposal (ledger : Ledger) (metadatas : List Metadata) :
    Go Ledger := do
  require ((metadatas.map Metadata.base).Nodup) ⟨.duplicate, "proposal contains duplicate base denom"⟩
  let next ← metadatas.foldlM Ledger.deleteBridgeable ledger
  next.assertCosmosBridgeableTokensConsistent
  pure next

/-! ## What the proposals leave alone -/

/-- Proposals change the allowlist and the bank's metadata, and nothing else. -/
structure Relisted (ledger next : Ledger) : Prop where
  balances : next.bank.balances = ledger.bank.balances
  supply : next.bank.supply = ledger.bank.supply
  denomToERC20 : next.registry.denomToERC20 = ledger.registry.denomToERC20
  erc20ToDenom : next.registry.erc20ToDenom = ledger.registry.erc20ToDenom
  remapped : next.registry.remappedERC20s = ledger.registry.remappedERC20s
  frame : next = { ledger with bank := next.bank, registry := next.registry }

theorem Relisted.refl (ledger : Ledger) : Relisted ledger ledger := ⟨rfl, rfl, rfl, rfl, rfl, rfl⟩

theorem Relisted.trans {first second third : Ledger} (left : Relisted first second)
    (right : Relisted second third) : Relisted first third where
  balances := right.balances.trans left.balances
  supply := right.supply.trans left.supply
  denomToERC20 := right.denomToERC20.trans left.denomToERC20
  erc20ToDenom := right.erc20ToDenom.trans left.erc20ToDenom
  remapped := right.remapped.trans left.remapped
  frame := by
    rw [right.frame, left.frame]

theorem handleSetCosmosBridgeableTokensProposal_relisted {ledger next : Ledger}
    {metadatas : List Metadata}
    (handled : ledger.handleSetCosmosBridgeableTokensProposal metadatas = .ok next) :
    Relisted ledger next := by
  simp only [Ledger.handleSetCosmosBridgeableTokensProposal, bind_eq_ok, pure_eq_ok] at handled
  obtain ⟨_, _, _, ran, _, _, rfl⟩ := handled
  refine foldlM_invariant (Relisted ledger) ?_ (Relisted.refl ledger) ran
  intro state metadata result _ relisted set
  simp only [Ledger.setBridgeable, bind_eq_ok, pure_eq_ok] at set
  obtain ⟨_, _, _, _, _, _, _, _, _, _, rfl⟩ := set
  exact relisted.trans ⟨rfl, rfl, rfl, rfl, rfl, rfl⟩

theorem handleDeleteCosmosBridgeableTokensProposal_relisted {ledger next : Ledger}
    {metadatas : List Metadata}
    (handled : ledger.handleDeleteCosmosBridgeableTokensProposal metadatas = .ok next) :
    Relisted ledger next := by
  simp only [Ledger.handleDeleteCosmosBridgeableTokensProposal, bind_eq_ok, pure_eq_ok] at handled
  obtain ⟨_, _, _, ran, _, _, rfl⟩ := handled
  refine foldlM_invariant (Relisted ledger) ?_ (Relisted.refl ledger) ran
  intro state metadata result _ relisted deleted
  simp only [Ledger.deleteBridgeable, bind_eq_ok, pure_eq_ok] at deleted
  obtain ⟨_, _, _, _, rfl⟩ := deleted
  exact relisted.trans ⟨rfl, rfl, rfl, rfl, rfl, rfl⟩

end GravityBridge.Keeper
