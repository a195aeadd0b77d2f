import Mathlib

/-!
# Computations that return errors or panic

An error is a value its caller may inspect, drop or pass on. A panic unwinds
past every caller that does not recover from it. Both end a computation, and
the rules below read a successful computation off its parts.
-/

namespace GravityBridge.Lib.Fallible

open List

inductive Fault (ε : Type*) where
  | error (cause : ε)
  | panic (message : String)
  deriving DecidableEq, Repr

abbrev Outcome (ε α : Type*) := Except (Fault ε) α

section

variable {ε α β σ : Type} {first : Outcome ε α} {transform : α → β} {value : α} {cause : ε}

def fail (cause : ε) : Outcome ε α := .error (.error cause)

def panicking (message : String) : Outcome ε α := .error (.panic message)

/-- Continue when the condition holds and return the error otherwise. -/
def require (condition : Prop) [Decidable condition] (cause : ε) : Outcome ε Unit :=
  if condition then .ok () else fail cause

/-- Continue when the condition holds and panic otherwise. -/
def check (condition : Prop) [Decidable condition] (message : String) : Outcome ε Unit :=
  if condition then .ok () else panicking message

def fromOption (cause : ε) : Option α → Outcome ε α
  | some value => .ok value
  | none => fail cause

/-- The value of a lookup whose absence panics. -/
def unwrap (message : String) : Option α → Outcome ε α
  | some value => .ok value
  | none => panicking message

/-- Turn a returned error into a panic. -/
def orPanic (message : String) : Outcome ε α → Outcome ε α
  | .error (.error _) => panicking message
  | result => result

/-- Replace the cause of a returned error. -/
def rewrap (cause : ε) : Outcome ε α → Outcome ε α
  | .error (.error _) => fail cause
  | result => result

/-- Whether a computation returned a value, with the errors it may return dropped. -/
def succeeds : Outcome ε α → Bool
  | .ok _ => true
  | .error _ => false

/-- Run on a copy of the state: keep the copy on success, drop it on an error, and let a
panic through. -/
def cached (state : σ) : Outcome ε σ → Outcome ε σ
  | .error (.error _) => .ok state
  | result => result

/-- Run as one transaction: every fault leaves the state as it was. -/
def transaction (state : σ) : Outcome ε σ → σ
  | .ok next => next
  | .error _ => state

/-! ## Reading success off the parts -/

@[simp] theorem bind_eq_ok {next : α → Outcome ε β} {result : β} :
    (first >>= next) = .ok result ↔ ∃ value, first = .ok value ∧ next value = .ok result := by
  cases first with
  | ok value => simp [bind, Except.bind]
  | error fault => simp [bind, Except.bind]

@[simp] theorem map_eq_ok {result : β} :
    transform <$> first = .ok result ↔ ∃ value, first = .ok value ∧ transform value = result := by
  cases first with
  | ok value => simp [Functor.map, Except.map]
  | error fault => simp [Functor.map, Except.map]

@[simp] theorem ok_bind (value : α) (next : α → Outcome ε β) :
    ((Except.ok value : Outcome ε α) >>= next) = next value := rfl

@[simp] theorem error_bind (fault : Fault ε) (next : α → Outcome ε β) :
    ((Except.error fault : Outcome ε α) >>= next) = .error fault := rfl

@[simp] theorem pure_eq_ok {result : α} : (pure value : Outcome ε α) = .ok result ↔
    value = result := by
  simp [pure, Except.pure]

@[simp] theorem fail_ne_ok {result : α} : (fail cause : Outcome ε α) = .ok result ↔ False := by
  simp [fail]

variable {message : String}

@[simp] theorem panicking_ne_ok {result : α} : (panicking message : Outcome ε α) = .ok result ↔
    False := by
  simp [panicking]

variable {condition : Prop} {next state : σ} {lookup : Option α} {fault : Fault ε}
  {body : σ → α → Outcome ε σ} {items : List α} {item : α}

@[simp] theorem require_eq_ok [Decidable condition] {result : Unit} :
    require condition cause = .ok result ↔ condition := by
  unfold require fail
  split_ifs with holds <;> simp [holds]

@[simp] theorem check_eq_ok [Decidable condition]
    {result : Unit} : (check condition message : Outcome ε Unit) = .ok result ↔ condition := by
  unfold check panicking
  split_ifs with holds <;> simp [holds]

@[simp] theorem fromOption_eq_ok :
    fromOption cause lookup = .ok value ↔ lookup = some value := by
  cases lookup <;> simp [fromOption, fail]

@[simp] theorem unwrap_eq_ok :
    (unwrap message lookup : Outcome ε α) = .ok value ↔ lookup = some value := by
  cases lookup <;> simp [unwrap, panicking]

@[simp] theorem orPanic_eq_ok {result : Outcome ε α} :
    orPanic message result = .ok value ↔ result = .ok value := by
  rcases result with ⟨_ | _⟩ | _ <;> simp [orPanic, panicking]

@[simp] theorem rewrap_eq_ok {result : Outcome ε α} :
    rewrap cause result = .ok value ↔ result = .ok value := by
  rcases result with ⟨_ | _⟩ | _ <;> simp [rewrap, fail]

@[simp] theorem succeeds_eq_true {result : Outcome ε α} : succeeds result = true ↔
    ∃ value, result = .ok value := by
  cases result <;> simp [succeeds]

theorem eq_ok_of_isSome {result : Outcome ε α} (some : result.toOption.isSome = true) :
    result = .ok (result.toOption.get some) := by
  cases result with
  | error fault => contradiction
  | ok value => rfl

@[simp] theorem succeeds_ok (value : α) : succeeds (.ok value : Outcome ε α) = true := rfl

@[simp] theorem succeeds_error (fault : Fault ε) : succeeds (.error fault : Outcome ε α) = false :=
  rfl

theorem cached_eq_ok {result : Outcome ε σ} : cached state result = .ok next ↔
      result = .ok next ∨ (∃ cause, result = .error (.error cause)) ∧ next = state := by
  rcases result with ⟨_ | _⟩ | _ <;> simp [cached, eq_comm]

theorem cached_eq_error {result : Outcome ε σ} :
    cached state result = .error fault ↔ ∃ message, fault = .panic message ∧
      result = .error (.panic message) := by
  rcases result with ⟨_ | _⟩ | _ <;> simp [cached, eq_comm]

theorem transaction_cases (state : σ) (result : Outcome ε σ) :
    result = .ok (transaction state result) ∨ transaction state result = state := by
  cases result with
  | ok next => exact .inl rfl
  | error fault => exact .inr rfl

/-! ## Comparing two computations -/

/-- Both give the same value, or neither gives one. -/
def Alike (first second : Outcome ε α) : Prop :=
  match first, second with
  | .ok left, .ok right => left = right
  | .error _, .error _ => True
  | _, _ => False

theorem Alike.refl (result : Outcome ε α) : Alike result result := by
  cases result with
  | ok value => exact rfl
  | error fault => exact trivial

@[simp] theorem alike_ok {left right : α} : Alike (.ok left : Outcome ε α) (.ok right) ↔
    left = right := Iff.rfl

@[simp] theorem alike_error {left right : Fault ε} :
    Alike (.error left : Outcome ε α) (.error right) := trivial

@[simp] theorem not_alike_ok_error :
    ¬ Alike (.ok value : Outcome ε α) (.error fault) := id

@[simp] theorem not_alike_error_ok :
    ¬ Alike (.error fault : Outcome ε α) (.ok value) := id

theorem Alike.succeeds_eq {second : Outcome ε α} (alike : Alike first second) :
    succeeds first = succeeds second := by
  rcases first with _ | value <;> rcases second with _ | other
  · rfl
  · exact absurd alike not_alike_error_ok
  · exact absurd alike not_alike_ok_error
  · rfl

@[simp] theorem succeeds_map (transform : α → β) (result : Outcome ε α) :
    succeeds (transform <$> result) = succeeds result := by
  cases result <;> rfl

/-! ## Panics that a computation cannot reach -/

/-- None of the messages is the one that the computation panics with. -/
def Avoids (messages : List String) (result : Outcome ε α) : Prop :=
  ∀ message, result = .error (.panic message) → message ∉ messages

section

variable {messages : List String} {result : Outcome ε α}

@[simp] theorem avoids_ok (value : α) : Avoids messages (.ok value : Outcome ε α) := by
  simp [Avoids]

@[simp] theorem avoids_pure (value : α) : Avoids messages (pure value : Outcome ε α) :=
  avoids_ok value

@[simp] theorem avoids_fail (cause : ε) : Avoids messages (fail cause : Outcome ε α) := by
  simp [Avoids, fail]

@[simp] theorem avoids_panicking : Avoids messages (panicking message : Outcome ε α) ↔
    message ∉ messages := by
  simp [Avoids, panicking]

@[simp] theorem avoids_error : Avoids messages (.error (.error cause) : Outcome ε α) := by
  simp [Avoids]

@[simp] theorem avoids_bind {next : α → Outcome ε β} : Avoids messages (result >>= next) ↔
      Avoids messages result ∧ ∀ value, result = .ok value → Avoids messages (next value) := by
  cases result with
  | ok value => simp
  | error fault => simp [Avoids]

@[simp] theorem avoids_map : Avoids messages (transform <$> result) ↔ Avoids messages result := by
  cases result with
  | ok value => simp [Avoids, Functor.map, Except.map]
  | error fault => simp [Avoids, Functor.map, Except.map]

@[simp] theorem avoids_require [Decidable condition] : Avoids messages (require condition cause) := by
  unfold require
  split_ifs <;> simp

@[simp] theorem avoids_check [Decidable condition] :
    Avoids messages (check condition message : Outcome ε Unit) ↔
      (condition ∨ message ∉ messages) := by
  unfold check
  split_ifs with holds <;> simp [holds]

@[simp] theorem avoids_fromOption : Avoids messages (fromOption cause lookup) := by
  cases lookup <;> simp [fromOption]

@[simp] theorem avoids_unwrap :
    Avoids messages (unwrap message lookup : Outcome ε α) ↔ (lookup ≠ none ∨ message ∉ messages) := by
  cases lookup <;> simp [unwrap]

@[simp] theorem avoids_rewrap : Avoids messages (rewrap cause result) ↔ Avoids messages result := by
  rcases result with ⟨_ | _⟩ | _ <;> simp [rewrap]

@[simp] theorem avoids_ite [Decidable condition] {other : Outcome ε α} :
    Avoids messages (if condition then result else other) ↔
      (condition → Avoids messages result) ∧ (¬ condition → Avoids messages other) := by
  split_ifs with holds <;> simp [holds]

theorem Avoids.mono {fewer : List String} (avoids : Avoids messages result)
    (subset : fewer ⊆ messages) : Avoids fewer result :=
  fun message panics member => avoids message panics (subset member)

theorem orPanic_ne_error (result : Outcome ε α) (cause : ε) :
    orPanic message result ≠ .error (.error cause) := by
  rcases result with ⟨_ | _⟩ | _ <;> nofun

theorem avoids_orPanic (safe : Avoids messages result) (other : message ∉ messages) :
    Avoids messages (orPanic message result) := by
  rcases result with ⟨_ | _⟩ | _
  · simpa [orPanic] using other
  · exact safe
  · simp [orPanic]

/-- A loop avoids what its passes avoid. -/
theorem avoids_foldlM (step : ∀ state item, item ∈ items → Avoids messages (body state item)) :
    Avoids messages (items.foldlM body state) := by
  induction items generalizing state with
  | nil => simp
  | cons item rest ih =>
    rw [foldlM_cons, avoids_bind]
    exact ⟨step state item mem_cons_self,
      fun next _ => ih (fun state other member => step state other (mem_cons_of_mem _ member))⟩

end

/-! ## Loops -/

/-- A loop that succeeds preserves what every one of its passes preserves. -/
theorem foldlM_invariant (holds : σ → Prop)
    (step : ∀ state item next, item ∈ items → holds state → body state item = .ok next → holds next)
    (initial : holds state) (ran : items.foldlM body state = .ok next) : holds next := by
  induction items generalizing state with
  | nil =>
    obtain rfl : state = next := by simpa using ran
    exact initial
  | cons item rest ih =>
    obtain ⟨middle, first, tail⟩ : ∃ middle, body state item = .ok middle ∧
        rest.foldlM body middle = .ok next := by simpa using ran
    refine ih (fun s x t member => step s x t (mem_cons_of_mem _ member)) ?_ tail
    exact step state item middle mem_cons_self initial first

/-- A loop whose passes all succeed. -/
theorem foldlM_eq_foldl {pass : σ → α → σ}
    (passes : ∀ item ∈ items, ∀ state, body state item = .ok (pass state item)) (state : σ) :
    items.foldlM body state = .ok (items.foldl pass state) := by
  induction items generalizing state with
  | nil => rfl
  | cons item rest ih =>
    obtain ⟨first, later⟩ := forall_mem_cons.mp passes
    rw [foldlM_cons, first, ok_bind, ih later, foldl_cons]

/-- In a loop that succeeds every item has its pass. -/
theorem pass_of_foldlM (ran : items.foldlM body state = .ok next) (member : item ∈ items) :
    ∃ before after, body before item = .ok after := by
  induction items generalizing state with
  | nil => contradiction
  | cons head rest ih =>
    rw [foldlM_cons, bind_eq_ok] at ran
    obtain ⟨middle, first, others⟩ := ran
    rcases mem_cons.mp member with rfl | tail
    · exact ⟨state, middle, first⟩
    · exact ih others tail

/-- A loop without a result succeeds when every one of its passes does. -/
theorem forM_eq_ok {body : α → Outcome ε Unit} {result : Unit} :
    items.forM body = .ok result ↔ ∀ item ∈ items, body item = .ok () := by
  induction items with
  | nil => exact ⟨fun _ => by simp, fun _ => rfl⟩
  | cons item rest ih =>
    change (body item >>= fun _ => rest.forM body) = .ok result ↔ _
    rw [bind_eq_ok, forall_mem_cons, ih]
    exact ⟨fun ⟨_, first, others⟩ => ⟨first, others⟩, fun ⟨first, others⟩ => ⟨(), first, others⟩⟩

section

variable {body : α → Outcome ε β} {results : List β}

/-- A loop with results gives every item its own. -/
theorem mapM_eq_ok : items.mapM body = .ok results ↔
    List.Forall₂ (fun item result => body item = .ok result) items results := by
  induction items generalizing results with
  | nil => rw [mapM_nil, pure_eq_ok, forall₂_nil_left_iff, eq_comm]
  | cons item rest ih =>
    simp only [mapM_cons, bind_eq_ok, pure_eq_ok, ih, forall₂_cons_left_iff]
    constructor
    · rintro ⟨value, first, values, others, same⟩
      exact ⟨value, values, first, others, same.symm⟩
    · rintro ⟨value, values, first, others, same⟩
      exact ⟨value, first, values, others, same.symm⟩

theorem mem_of_mapM (ran : items.mapM body = .ok results) (member : item ∈ items) :
    ∃ value ∈ results, body item = .ok value := by
  rw [mapM_eq_ok] at ran
  induction ran with
  | nil => contradiction
  | cons first _ ih =>
    rcases mem_cons.mp member with rfl | tail
    · exact ⟨_, mem_cons_self, first⟩
    · obtain ⟨value, there, made⟩ := ih tail
      exact ⟨value, mem_cons_of_mem _ there, made⟩

/-- A loop with results succeeds when every one of its passes does. -/
theorem mapM_succeeds (succeed : ∀ item ∈ items, ∃ value, body item = .ok value) :
    ∃ values, items.mapM body = .ok values := by
  induction items with
  | nil => exact ⟨[], rfl⟩
  | cons item rest ih =>
    obtain ⟨value, first⟩ := succeed item mem_cons_self
    obtain ⟨values, others⟩ := ih (fun other member => succeed other (mem_cons_of_mem _ member))
    exact ⟨value :: values, mapM_eq_ok.mpr (.cons first (mapM_eq_ok.mp others))⟩

/-- Reading back what was printed, item by item. -/
theorem mapM_map_eq_ok {print : β → α} (values : List β)
    (inverse : ∀ value ∈ values, body (print value) = .ok value) :
    (values.map print).mapM body = .ok values :=
  mapM_eq_ok.mpr (forall₂_map_left_iff.mpr (forall₂_same.mpr inverse))

/-- A loop over the same items in another order has the same results in another order. -/
theorem mapM_perm {others : List α} (same : items.Perm others)
    (ran : items.mapM body = .ok results) :
    ∃ found, others.mapM body = .ok found ∧ results.Perm found := by
  obtain ⟨found, made, perm⟩ := perm_comp_forall₂ same.symm (mapM_eq_ok.mp ran)
  exact ⟨found, mapM_eq_ok.mpr made, perm.symm⟩

/-- A loop whose passes succeed on the good items. -/
theorem mapM_eq_ok_iff {good : α → Prop} {found : α → β}
    (spec : ∀ item ∈ items, ∀ result, body item = .ok result ↔ good item ∧ found item = result) :
    items.mapM body = .ok results ↔ (∀ item ∈ items, good item) ∧ items.map found = results := by
  rw [mapM_eq_ok, ← forall₂_eq_eq_eq, forall₂_map_left_iff, ← forall₂_and_left, forall₂_iff_get,
    forall₂_iff_get]
  exact and_congr_right fun _ => forall₃_congr fun _ _ _ => spec _ (get_mem _ _) _

end

end

end GravityBridge.Lib.Fallible
