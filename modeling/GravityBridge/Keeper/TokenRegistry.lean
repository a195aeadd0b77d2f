import GravityBridge.Keeper.Evidence
import GravityBridge.Keeper.LiveConfirms

/-!
# The registered tokens

The two directions of the index of tokens are written together, under names that
are fresh on both sides, by genesis and by events that a token was deployed.
Nothing that a block or a message does takes an entry away.
-/

namespace GravityBridge.Keeper

open Lib.Fallible Lib.ByteString Lib.Store Lib.Runs
open GravityBridge.Types

variable {ext : External} {base start chain next : Chain} {data : GenesisState} {label : ChainLabel}
  {handled : List EthereumClaim}

/-- No registered denom has an Ethereum address inside. -/
def Registry.Plain (registry : Registry) : Prop :=
  ∀ denom token, registry.denomToERC20.get denom = some token → containsEthAddress denom = false

theorem Registry.Plain.grown {registry later : Registry} (plain : registry.Plain)
    (grown : registry.Grown later) : later.Plain := by
  intro denom token found
  rcases grown.added denom token found with earlier | clean
  · exact plain denom token earlier
  · exact clean

/-! ## Genesis -/

theorem importMappings_plain {registry : Registry} {remapped : List EthAddress}
    {items : List ERC20ToDenom}
    (ran : items.foldlM Registry.importMapping (Registry.unmapped remapped) = .ok registry) :
    registry.Plain := by
  refine foldlM_invariant Registry.Plain (fun current item result _ plain imported => ?_)
    (fun denom token found => ?_) ran
  · simp only [Registry.importMapping, bind_eq_ok, orPanic_eq_ok] at imported
    obtain ⟨_, _, _, _, written⟩ := imported
    exact plain.grown (setCosmosOriginatedMapping_grown written)
  · simp [Registry.unmapped, Ledger.unused] at found

theorem initGenesis_plain (accepted : base.initGenesis ext data = .ok start) :
    start.state.ledger.registry.Plain := by
  simp only [Chain.initGenesis, bind_eq_ok, pure_eq_ok] at accepted
  obtain ⟨_, _, _, _, bridged, _, outgoing, _, _, _, _, _, _, _, _, _, _, _, registry, mapping,
    listed, listing, _, _, _, _, ledger, forwarding, rfl⟩ := accepted
  have listedMoved : Ledger.Moved ext _ listed := (importBridgeable_relisted listing).moved
  have sameRegistry : ledger.registry = listed.registry := by rw [importForwards_frame forwarding]
  change ledger.registry.Plain
  rw [sameRegistry]
  exact (importMappings_plain mapping).grown listedMoved.registry

/-! ## Runs -/

theorem Chain.step_registry (took : Chain.step ext label chain = (handled, .ok next)) :
    chain.state.ledger.registry.Grown next.state.ledger.registry := by
  rcases (Chain.step_signing took).watched with ended | watched
  · obtain ⟨moved, _, _, registry, _, _, result, _, _⟩ := ended
    rw [result, pruneValsets_frame, registry]
    exact moved.registry
  · exact watched.registry

theorem Chain.run_registry (run : Chain.Reachable ext (· = chain) handled next) :
    chain.state.ledger.registry.Grown next.state.ledger.registry := by
  refine Reach.invariant (motive := fun _ later =>
    chain.state.ledger.registry.Grown later.state.ledger.registry)
    (fun _ same => ?_) (fun _ _ _ _ _ _ grown took _ => grown.trans (Chain.step_registry took)) run
  rw [same]
  exact .refl _

/-- In every state that any steps lead to from any accepted genesis the two directions are inverse
to each other, the mapped tokens are not remapped, the mapped denoms are neither vouchers nor
contain an address, and every mapping stays as it is along any further run. -/
theorem token_registry_integrity (accepted : base.initGenesis ext data = .ok start)
    (reach : Chain.Reachable ext (· = start) handled chain) :
    chain.state.ledger.registry.denomToERC20.Inverse chain.state.ledger.registry.erc20ToDenom ∧
    chain.state.ledger.registry.denomToERC20.Injective ∧
    chain.state.ledger.registry.erc20ToDenom.Injective ∧
    (∀ denom token, chain.state.ledger.registry.denomToERC20.get denom = some token →
      chain.state.ledger.registry.isRemappedERC20 token = false ∧
      succeeds (gravityDenomToERC20 denom) = false ∧
        succeeds (gravity2DenomToERC20 denom) = false ∧ containsEthAddress denom = false) ∧
    ∀ more later, Chain.Reachable ext (· = chain) more later →
      chain.state.ledger.registry.denomToERC20.Within later.state.ledger.registry.denomToERC20 ∧
        chain.state.ledger.registry.erc20ToDenom.Within later.state.ledger.registry.erc20ToDenom := by
  have inverse : chain.state.ledger.registry.denomToERC20.Inverse
      chain.state.ledger.registry.erc20ToDenom :=
    chain.state.ledger.registry.paired
  have plain := (initGenesis_plain accepted).grown (Chain.run_registry reach)
  refine ⟨inverse, inverse.injective, inverse.symm.injective, fun denom token found => ?_,
    fun more later further => ?_⟩
  · have voucher := chain.state.ledger.registry.notVoucher denom token found
    obtain ⟨noGravity, noGravity2⟩ := Bool.or_eq_false_iff.mp voucher
    exact ⟨isRemappedERC20_of_mapped ((inverse denom token).mp found), noGravity, noGravity2,
      plain denom token found⟩
  · have grown := Chain.run_registry further
    exact ⟨grown.denoms, grown.tokens⟩

/-- A document with one mapped and one remapped token. -/
def mappedDocument : GenesisState :=
  { requestedDocument with
    erc20ToDenoms := [⟨hex localnet 9, ascii "uatom"⟩]
    remappedErc20S := [hex localnet 10] }

theorem mappedDocument_accepted :
    (stakeLaunch.initGenesis localnet mappedDocument).toOption.isSome = true := by decide +kernel

def mappedStart : Chain :=
  (stakeLaunch.initGenesis localnet mappedDocument).toOption.get mappedDocument_accepted

/-- The validator registers its keys, and votes for an event that the token of a listed denom was
deployed. -/
def deployedRun : List ChainLabel :=
  [registration, .module (.ledger (.setCosmosBridgeableTokens [exampleMetadata])),
    .module (exampleVote exampleDeployed), .module exampleEndBlock]

theorem deployedRun_ran : (mappedStart.execute localnet deployedRun).isSome = true := by
  decide +kernel

def deployedChain : Chain := ((mappedStart.execute localnet deployedRun).get deployedRun_ran).2

theorem mapped_token_integrity :
    mappedStart.state.ledger.registry.denomToERC20.get (ascii "ustake") = none ∧
    deployedChain.state.ledger.registry.erc20ToDenom.get 8 = some (ascii "ustake") ∧
    deployedChain.state.ledger.registry.erc20ToDenom.get 9 = some (ascii "uatom") ∧
    deployedChain.state.ledger.registry.isRemappedERC20 10 = true ∧
    deployedChain.state.ledger.registry.isRemappedERC20 8 = false ∧
      containsEthAddress (ascii "ustake") = false := by
  have stored : mappedStart.state.ledger.registry.denomToERC20.get (ascii "ustake") = none ∧
      deployedChain.state.ledger.registry.denomToERC20.get (ascii "ustake") = some 8 ∧
      mappedStart.state.ledger.registry.erc20ToDenom.get 9 = some (ascii "uatom") ∧
      deployedChain.state.ledger.registry.isRemappedERC20 10 = true := by decide +kernel
  obtain ⟨fresh, deployed, mapped, remapped⟩ := stored
  have accepted : stakeLaunch.initGenesis localnet mappedDocument = .ok mappedStart :=
    eq_ok_of_isSome mappedDocument_accepted
  have ran : Chain.Reachable localnet (· = mappedStart) _ deployedChain :=
    Chain.run_of_execute deployedRun_ran
  obtain ⟨inverse, _, _, entries, _⟩ := token_registry_integrity accepted ran
  obtain ⟨_, _, _, _, kept⟩ := token_registry_integrity accepted (.start rfl)
  obtain ⟨notRemapped, _, _, plain⟩ := entries (ascii "ustake") 8 deployed
  exact ⟨fresh, (inverse (ascii "ustake") 8).mp deployed, (kept _ _ ran).2 9 _ mapped, remapped,
    notRemapped, plain⟩

end GravityBridge.Keeper
