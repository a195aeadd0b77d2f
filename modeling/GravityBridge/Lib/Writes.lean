import GravityBridge.Lib.Fallible

/-!
# Computations that write as they go

A fault ends such a computation, and what it wrote before stays written until a caller drops it. A
computation is clean when it has written nothing whenever it returns an error.
-/

namespace GravityBridge.Lib.Writes

open Lib.Fallible

def InPlace (σ ε α : Type) := σ → Outcome ε α × σ

variable {σ ε α β : Type} {value result : α} {state after : σ} {first : InPlace σ ε α}
  {next : α → InPlace σ ε β} {body : σ → Outcome ε α} {cause : ε}

instance : Monad (InPlace σ ε) where
  pure value state := (.ok value, state)
  bind first next state :=
    match first state with
    | (.ok value, written) => next value written
    | (.error fault, written) => (.error fault, written)

/-- Look at the state. -/
def reading (body : σ → Outcome ε α) : InPlace σ ε α := fun state => (body state, state)

/-- Replace the state, or fail without a write. -/
def writing (body : σ → Outcome ε σ) : InPlace σ ε Unit := fun state =>
  match body state with
  | .ok next => (.ok (), next)
  | .error fault => (.error fault, state)

/-! ## Reading success off the parts -/

@[simp] theorem pure_run_eq_ok :
    (pure value : InPlace σ ε α) state = (.ok result, after) ↔ value = result ∧ state = after := by
  simp [pure]

@[simp] theorem bind_run_eq_ok {result : β} :
    (first >>= next) state = (.ok result, after) ↔
      ∃ value written, first state = (.ok value, written) ∧
        next value written = (.ok result, after) := by
  simp only [bind]
  rcases first state with ⟨_ | value, written⟩ <;> simp

@[simp] theorem reading_eq_ok :
    reading body state = (.ok result, after) ↔ body state = .ok result ∧ state = after := by
  simp [reading]

@[simp] theorem writing_eq_ok {body : σ → Outcome ε σ} {result : Unit} :
    writing body state = (.ok result, after) ↔ body state = .ok after := by
  unfold writing
  cases body state <;> simp

/-! ## Errors that leave no trace -/

/-- Whenever an error is returned, nothing has been written. -/
def CleanOnError (computation : InPlace σ ε α) : Prop :=
  ∀ state cause after, computation state = (.error (.error cause), after) → after = state

/-- The computation returns no errors, though it may panic. -/
def NoError (computation : InPlace σ ε α) : Prop :=
  ∀ state cause after, computation state ≠ (.error (.error cause), after)

theorem noError_pure (value : α) : NoError (pure value : InPlace σ ε α) := by
  intro state cause after returned
  simp [pure] at returned

theorem noError_reading (never : ∀ state cause, body state ≠ .error (.error cause)) :
    NoError (reading body) :=
  fun state cause _ returned => never state cause (congrArg Prod.fst returned)

theorem noError_writing {body : σ → Outcome ε σ}
    (never : ∀ state cause, body state ≠ .error (.error cause)) : NoError (writing body) := by
  intro state cause after returned
  unfold writing at returned
  split at returned
  · simp at returned
  · rename_i fault failed
    obtain ⟨rfl, -⟩ : fault = .error cause ∧ state = after := by simpa using returned
    exact never state cause failed

theorem pure_ne_error : (pure value : Outcome ε α) ≠ .error (.error cause) := by
  simp [pure, Except.pure]

theorem check_ne_error {condition : Prop} [Decidable condition] {message : String} (cause : ε) :
    (check condition message : Outcome ε Unit) ≠ .error (.error cause) := by
  unfold check panicking
  split_ifs <;> simp

theorem bind_ne_error {first : Outcome ε α} {next : α → Outcome ε β}
    (never : first ≠ .error (.error cause))
    (rest : ∀ value, next value ≠ .error (.error cause)) :
    (first >>= next) ≠ .error (.error cause) := by
  cases first with
  | ok value => exact rest value
  | error fault => exact fun returned => never (by simpa [bind, Except.bind] using returned)

theorem bind_run_eq_error {fault : Fault ε}
    (returned : (first >>= next) state = (.error fault, after)) :
    first state = (.error fault, after) ∨
      ∃ value written, first state = (.ok value, written) ∧
        next value written = (.error fault, after) := by
  simp only [bind] at returned
  rcases ran : first state with ⟨failed | value, written⟩
  · rw [ran] at returned
    exact .inl (by simpa using returned)
  · rw [ran] at returned
    exact .inr ⟨value, written, rfl, returned⟩

theorem NoError.bind (never : NoError first)
    (rest : ∀ value, NoError (next value)) : NoError (first >>= next) := by
  intro state cause after returned
  rcases bind_run_eq_error returned with early | ⟨value, written, -, late⟩
  · exact never state cause after early
  · exact rest value written cause after late

theorem cleanOnError_reading_bind (rest : ∀ value, CleanOnError (next value)) :
    CleanOnError (reading body >>= next) := by
  intro state cause after returned
  rcases bind_run_eq_error returned with early | ⟨value, written, ran, late⟩
  · exact (congrArg Prod.snd early).symm
  · obtain ⟨-, rfl⟩ := reading_eq_ok.mp ran
    exact rest value state cause after late

end GravityBridge.Lib.Writes
