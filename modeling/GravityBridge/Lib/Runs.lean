import GravityBridge.Lib.Fallible

/-!
# Runs of a machine with a log

A step of a machine reads a label, emits events and either gives a next state or
fails. A reachable state is one that a run of successful, allowed steps leads to
from a start state; the events emitted on the way are kept beside it.
-/

namespace GravityBridge.Lib.Runs

open Lib.Fallible

variable {σ ℓ ω ε : Type}

/-- States that successful, allowed steps lead to, with the events of all the steps. -/
inductive Reach (step : ℓ → σ → List ω × Outcome ε σ) (start : σ → Prop)
    (allowed : σ → ℓ → List ω → σ → Prop) : List ω → σ → Prop
  | start {state : σ} : start state → Reach step start allowed [] state
  | step {trace emitted : List ω} {state next : σ} {label : ℓ} :
      Reach step start allowed trace state →
      step label state = (emitted, .ok next) → allowed state label emitted next →
      Reach step start allowed (trace ++ emitted) next

variable {step : ℓ → σ → List ω × Outcome ε σ} {start : σ → Prop}
  {allowed : σ → ℓ → List ω → σ → Prop}
  {trace before : List ω} {state next : σ} {permits : σ → ℓ → List ω → σ → Bool} {labels : List ℓ}

/-- What holds at the start and is kept by every allowed step holds of every reachable state. -/
theorem Reach.invariant {motive : List ω → σ → Prop}
    (initially : ∀ state, start state → motive [] state)
    (kept : ∀ trace state label emitted next, Reach step start allowed trace state →
      motive trace state →
      step label state = (emitted, .ok next) → allowed state label emitted next →
      motive (trace ++ emitted) next)
    {trace : List ω} {state : σ} (reach : Reach step start allowed trace state) :
    motive trace state := by
  induction reach with
  | start started => exact initially _ started
  | step reach took permitted ih => exact kept _ _ _ _ _ reach ih took permitted

/-- A run from a reachable state leads to a reachable state. -/
theorem Reach.append {after : List ω} (reach : Reach step start allowed before state)
    (more : Reach step (· = state) allowed after next) :
    Reach step start allowed (before ++ after) next := by
  induction more with
  | start same => simpa [same] using reach
  | step _ took permitted ih =>
    rw [← List.append_assoc]
    exact .step ih took permitted

/-- Run the labels one after the other, as long as every step is allowed. -/
def run (step : ℓ → σ → List ω × Outcome ε σ) (permits : σ → ℓ → List ω → σ → Bool) :
    List ℓ → σ → Option (List ω × σ)
  | [], state => some ([], state)
  | label :: rest, state =>
      match step label state with
      | (_, .error _) => none
      | (emitted, .ok next) =>
          if permits state label emitted next then
            (run step permits rest next).map (fun result => (emitted ++ result.1, result.2))
          else none

/-- A run that can be evaluated ends in a reachable state. -/
theorem reach_of_run
    (sound : ∀ state label emitted next, permits state label emitted next = true →
      allowed state label emitted next)
    (reach : Reach step start allowed before state)
    (ran : run step permits labels state = some (trace, next)) :
    Reach step start allowed (before ++ trace) next := by
  induction labels generalizing before state trace with
  | nil =>
    obtain ⟨rfl, rfl⟩ : [] = trace ∧ state = next := by simpa [run] using ran
    simpa using reach
  | cons label rest ih =>
    unfold run at ran
    split at ran
    · contradiction
    · rename_i emitted middle took
      split_ifs at ran with permitted
      obtain ⟨⟨more, last⟩, ranRest, same⟩ := Option.map_eq_some_iff.mp ran
      obtain ⟨rfl, rfl⟩ := Prod.mk.inj same
      rw [← List.append_assoc]
      exact ih (.step reach took (sound _ _ _ _ permitted)) ranRest

theorem reach_of_isSome
    (sound : ∀ state label emitted next, permits state label emitted next = true →
      allowed state label emitted next) (started : start state)
        (ran : (run step permits labels state).isSome = true) :
    Reach step start allowed ((run step permits labels state).get ran).1
      ((run step permits labels state).get ran).2 := by
  have ranTo : run step permits labels state = some (((run step permits labels state).get ran).1,
      ((run step permits labels state).get ran).2) := (Option.some_get ran).symm
  simpa only [List.nil_append] using reach_of_run sound (.start started) ranTo

end GravityBridge.Lib.Runs
