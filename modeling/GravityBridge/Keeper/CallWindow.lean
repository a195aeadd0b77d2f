import GravityBridge.Keeper.SlashOnce

/-!
# The signing window of logic calls

The end of a block computes up to which height the signing window of a logic call has passed, and
then examines every call above the watermark, also those whose window is still open. The calls come
in the order of their invalidation ids, and the watermark follows their heights, so a call that is
older than the one before it stops the chain. -/

namespace GravityBridge.Keeper

open Lib.Fallible Lib.ByteString Lib.Store
open GravityBridge.Types List

variable {ext : External} {chain : Chain} {docket next : Docket} {duty : Duty}
  {misses : ValAddress → Prop}
  {call : OutgoingLogicCall} {calls : List OutgoingLogicCall} {pass before : CallPass}
    {currentBondedSet : List Validator}
  {maxHeight : Nat}

/-! ## One call after the other -/

/-- A bonded validator had started to sign before the call was made and has not confirmed it. -/
def Chain.Misses (ext : External) (chain : Chain) (currentBondedSet : List Validator)
    (call : OutgoingLogicCall) (operator : ValAddress) : Prop :=
  ∃ validator ∈ currentBondedSet, validator.operator = operator ∧
    validator.startHeight < int64 call.cosmosBlockCreated ∧
    ∀ confirms, chain.prepLogicCallConfirms ext call = .ok confirms → operator ∉ confirms

section

variable (knows : before.Knows currentBondedSet)

include knows

end

/-! ## The window -/

/-- Whoever is free and misses a call with an open window also misses one whose window has passed. -/
def Docket.Covered (ext : External) (chain : Chain) (currentBondedSet : List Validator)
    (maxHeight : Nat) (calls : List OutgoingLogicCall) (docket : Docket) : Prop :=
  ∀ operator validator, docket.staking.validators.get operator = some validator →
    validator.jailed = false →
    ∀ call ∈ calls, maxHeight ≤ call.cosmosBlockCreated →
    chain.Misses ext currentBondedSet call operator →
      ∃ before ∈ calls, before.cosmosBlockCreated < maxHeight ∧
      chain.Misses ext currentBondedSet before operator

/-- Whoever is free after a call was free before and has not missed it. -/
theorem Docket.Swept.free (swept : docket.Swept duty misses next) {operator : ValAddress} :
    (∃ validator, next.staking.validators.get operator = some validator ∧ validator.jailed = false) ↔
      ¬ misses operator ∧ ∃ validator, docket.staking.validators.get operator = some validator ∧
        validator.jailed = false := by
  by_cases missing : misses operator
  · rw [swept.jailed operator missing]
    refine iff_of_false ?_ (fun free => free.1 missing)
    rintro ⟨_, found, free⟩
    obtain ⟨validator, -, rfl⟩ := Option.map_eq_some_iff.mp found
    contradiction
  · rw [swept.kept operator missing, and_iff_right missing]

theorem Docket.Swept.covered {rest : List OutgoingLogicCall}
    (swept : docket.Swept (.logicCall call) (chain.Misses ext currentBondedSet call) next)
    (ordered : ∀ other ∈ rest, call.cosmosBlockCreated ≤ other.cosmosBlockCreated) :
    (maxHeight ≤ call.cosmosBlockCreated →
      ∀ operator validator, docket.staking.validators.get operator = some validator →
        validator.jailed = false → ¬ chain.Misses ext currentBondedSet call operator) ∧
      next.Covered ext chain currentBondedSet maxHeight rest ↔
        docket.Covered ext chain currentBondedSet maxHeight (call :: rest) := by
  constructor
  · rintro ⟨clean, covered⟩ operator validator found free target member late missing
    by_cases here : chain.Misses ext currentBondedSet call operator
    · refine ⟨call, mem_cons_self, ?_, here⟩
      by_contra open_
      exact clean (not_lt.mp open_) operator validator found free here
    · obtain ⟨same, stored, stillFree⟩ := swept.free.mpr ⟨here, validator, found, free⟩
      have later : target ∈ rest :=
        (mem_cons.mp member).resolve_left (fun same => here (same ▸ missing))
      obtain ⟨before, inside, passed⟩ :=
        covered operator same stored stillFree target later late missing
      exact ⟨before, mem_cons_of_mem _ inside, passed⟩
  · intro covered
    refine ⟨fun late operator validator found free missing => ?_,
      fun operator validator found free target member late missing => ?_⟩
    · obtain ⟨before, inside, passed, -⟩ :=
        covered operator validator found free call mem_cons_self late missing
      rcases mem_cons.mp inside with rfl | inside
      · omega
      · have := ordered before inside
        omega
    · obtain ⟨here, same, stored, wasFree⟩ := swept.free.mp ⟨validator, found, free⟩
      obtain ⟨before, inside, passed, missed⟩ :=
        covered operator same stored wasFree target (mem_cons_of_mem _ member) late missing
      exact ⟨before, (mem_cons.mp inside).resolve_left (fun same => here (same ▸ missed)),
        passed, missed⟩

end GravityBridge.Keeper
