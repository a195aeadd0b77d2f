import GravityBridge.Keeper.ConfirmWindow
import GravityBridge.Lib.Index

/-!
# Delegate keys are permanent

Orchestrators, validators and Ethereum addresses belong to each other one to one,
and stay so. Staking is asked whether an orchestrator is in use, and no longer
knows a removed validator; what keeps its keys from being given away again is the
scan of all the keys.
-/

namespace GravityBridge.Keeper

open Lib.Fallible Lib.ByteString Lib.Store Lib.Runs
open GravityBridge.Types KVStore

variable {ext : External} {delegates middle next : Delegates}

/-- Consistent keys with an index by address that inverts the one by validator. -/
structure Delegates.Bijective (delegates : Delegates) : Prop extends delegates.Consistent where
  inverse : delegates.ethAddressByValidator.Inverse delegates.validatorByEthAddress

/-- No entry of the three indexes was changed or removed. -/
structure Delegates.Kept (delegates next : Delegates) : Prop where
  orchestrators : delegates.validatorByOrchestrator.Within next.validatorByOrchestrator
  validators : delegates.ethAddressByValidator.Within next.ethAddressByValidator
  addresses : delegates.validatorByEthAddress.Within next.validatorByEthAddress

theorem Delegates.Kept.refl (delegates : Delegates) : delegates.Kept delegates :=
  ⟨.refl _, .refl _, .refl _⟩

theorem Delegates.Kept.trans (left : delegates.Kept middle) (right : middle.Kept next) :
    delegates.Kept next :=
  ⟨left.orchestrators.trans right.orchestrators, left.validators.trans right.validators,
    left.addresses.trans right.addresses⟩

theorem Delegates.bijective_empty : Delegates.Bijective ⟨.empty, .empty, .empty⟩ :=
  ⟨⟨by simp, by simp, by simp, by simp⟩, inverse_empty⟩

/-- Where every orchestrator and every validator has its counterpart, the listing of the keys
succeeds. -/
theorem Delegates.Consistent.getDelegateKeys (consistent : delegates.Consistent) :
    ∃ keys, delegates.getDelegateKeys ext = .ok keys := by
  have voting : ∀ entry ∈ delegates.ethAddressByValidator.entries,
      ∃ orchestrator, delegates.validatorByOrchestrator.get orchestrator = some entry.1 := by
    rintro ⟨validator, address⟩ member
    exact consistent.votes validator address (mem_entries.mp member)
  have made : ∃ keys, delegates.ethAddressByValidator.entries.mapM (fun entry => do
      let orchestrator ← unwrap "Can't find address" (delegates.orchestratorOf entry.1)
      pure (⟨valAddressString ext entry.1, accAddressString ext orchestrator, hex ext entry.2⟩ :
        MsgSetOrchestratorAddress)) = (.ok keys : Go _) := by
    refine mapM_succeeds (fun entry member => ?_)
    obtain ⟨orchestrator, votes⟩ := voting entry member
    rw [consistent.orchestratorOf votes]
    exact ⟨_, rfl⟩
  obtain ⟨keys, made⟩ := made
  simp only [Delegates.getDelegateKeys, bind_eq_ok, forM_eq_ok, orPanic_eq_ok, pure_eq_ok]
  refine ⟨_, (), fun entry member => ?_, (), fun entry member => ?_, keys, made, rfl⟩
  · obtain ⟨orchestrator, votes⟩ := voting entry member
    exact (consistent.formats orchestrator entry.1 votes).2
  · obtain ⟨voter, voted⟩ := consistent.formats entry.1 entry.2 (mem_entries.mp member)
    exact ⟨(), voter, voted⟩

/-- An accepted registration writes under keys that are free in all three indexes. -/
theorem Delegates.Bijective.registered (bijective : delegates.Bijective) {staking : Staking}
    {msg : MsgSetOrchestratorAddress}
    (registered : delegates.setOrchestratorAddress ext staking msg = .ok next) :
    next.Bijective ∧ delegates.Kept next := by
  obtain ⟨validator, orchestrator, address, delegated, unsigned⟩ :=
    bijective.setOrchestratorAddress registered
  have addressFresh : delegates.validatorByEthAddress.get address = none := by
    by_contra used
    obtain ⟨other, signs⟩ := Option.ne_none_iff_exists'.mp used
    exact unsigned other ((bijective.inverse other address).mpr signs)
  have consistent := delegated.consistent bijective.toConsistent
  obtain rfl := delegated.result
  exact ⟨⟨consistent, bijective.inverse.set delegated.unregistered addressFresh⟩,
    within_set delegated.unused validator, within_set delegated.unregistered address,
    within_set addressFresh validator⟩

/-! ## Runs -/

variable {chain later : Chain} {handled more : List EthereumClaim}

theorem ChainStep.keys {label : ChainLabel} (stepped : ChainStep ext chain label handled later)
    (bijective : chain.delegates.Bijective) :
    later.delegates.Bijective ∧ chain.delegates.Kept later.delegates := by
  cases stepped with
  | ended _ _ frame =>
    rw [frame]
    exact ⟨bijective, .refl _⟩
  | registered registered => exact bijective.registered registered
  | _ => exact ⟨bijective, .refl _⟩

theorem Chain.keys_of_run (bijective : chain.delegates.Bijective)
    (run : Chain.Reachable ext (· = chain) more later) :
    later.delegates.Bijective ∧ chain.delegates.Kept later.delegates := by
  induction run with
  | start same =>
    subst same
    exact ⟨bijective, .refl _⟩
  | step _ took _ ih =>
    obtain ⟨before, kept⟩ := ih
    obtain ⟨after, keptNow⟩ := (Chain.step_cases took).keys before
    exact ⟨after, kept.trans keptNow⟩

/-- Nobody has registered keys. -/
def Chain.Unregistered (chain : Chain) : Prop := chain.delegates = ⟨.empty, .empty, .empty⟩

theorem Chain.bijective_of_reachable (reach : Chain.Reachable ext Chain.Unregistered handled chain) :
    chain.delegates.Bijective := by
  refine Reach.invariant (motive := fun _ chain => chain.delegates.Bijective) ?_ ?_ reach
  · intro chain unregistered
    rw [show chain.delegates = _ from unregistered]
    exact Delegates.bijective_empty
  · intro _ _ _ _ _ _ before took _
    exact ((Chain.step_cases took).keys before).1

/-- The three indexes at every moment of a run that began without keys, and what becomes of an entry
later. -/
theorem delegate_keys_bijective (reach : Chain.Reachable ext Chain.Unregistered handled chain) :
    chain.delegates.validatorByOrchestrator.Injective ∧
    chain.delegates.ethAddressByValidator.Injective ∧
      chain.delegates.validatorByEthAddress.Injective ∧
      chain.delegates.ethAddressByValidator.Inverse chain.delegates.validatorByEthAddress ∧
      (∀ validator, (∃ address, chain.delegates.ethAddressByValidator.get validator = some address) ↔
        ∃ orchestrator, chain.delegates.validatorByOrchestrator.get orchestrator = some validator) ∧
      (∃ keys, chain.delegates.getDelegateKeys ext = .ok keys) ∧
      ∀ more later, Chain.Reachable ext (· = chain) more later →
        chain.delegates.Kept later.delegates := by
  have bijective := Chain.bijective_of_reachable reach
  refine ⟨bijective.unique, bijective.inverse.injective, bijective.inverse.symm.injective,
    bijective.inverse, fun validator => ⟨?_, ?_⟩, bijective.getDelegateKeys, fun _ _ run =>
      (Chain.keys_of_run bijective run).2⟩
  · rintro ⟨address, signs⟩
    exact bijective.votes validator address signs
  · rintro ⟨orchestrator, votes⟩
    exact bijective.signs orchestrator validator votes

/-! ## The keys of a removed validator -/

def noStaking : Staking := ⟨.empty, [], by simp, by simp, by simp⟩

theorem stakeLaunch_unregistered : stakeLaunch.Unregistered := rfl

/-- A validator registers and is removed. Another one enters, is refused the orchestrator and the
address of the first, and registers with its own. -/
def successorRun : List ChainLabel :=
  [.setOrchestratorAddress ⟨ascii "gravity1validator", ascii "gravity1orchestrator", hex localnet 7⟩,
    .environment noStaking 0 0, .environment (soleStaking (ascii "successor") 0) 0 0,
    .setOrchestratorAddress ⟨ascii "gravity1successor", ascii "gravity1orchestrator", hex localnet 9⟩,
    .setOrchestratorAddress ⟨ascii "gravity1successor", ascii "gravity1other", hex localnet 7⟩,
    .setOrchestratorAddress ⟨ascii "gravity1successor", ascii "gravity1other", hex localnet 9⟩]

theorem successorRun_ran : (Chain.execute localnet stakeLaunch successorRun).isSome = true := by
  decide +kernel

def successorChain : Chain :=
  ((Chain.execute localnet stakeLaunch successorRun).get successorRun_ran).2

theorem successor_keys : successorChain.delegates.validatorByOrchestrator.entries =
      [(ascii "orchestrator", ascii "validator"), (ascii "other", ascii "successor")] ∧
    successorChain.delegates.ethAddressByValidator.Inverse
      successorChain.delegates.validatorByEthAddress ∧
    ∃ keys, successorChain.delegates.getDelegateKeys localnet = .ok keys := by
  have reach : Chain.Reachable localnet Chain.Unregistered _ successorChain :=
    Chain.reachable_of_execute stakeLaunch_unregistered successorRun_ran
  obtain ⟨_, _, _, inverse, _, listed, _⟩ := delegate_keys_bijective reach
  exact ⟨by decide +kernel, inverse, listed⟩

end GravityBridge.Keeper
