import GravityBridge.Lib.Decimal
import GravityBridge.Types.Basic

/-!
# The minimum commission

The ante handler looks at the messages of a transaction and at those inside an
authz execution, but not at an execution inside an execution. A message that sets
a commission below ten percent is stopped at the first two levels only.
-/

namespace GravityBridge.App

open Lib.Fallible Lib.Decimal
open GravityBridge.Types

/-! ## Messages -/

/-- A rate that was left empty has no value, and comparing it panics. -/
abbrev Rate := Option Dec

structure CommissionRates where
  rate : Rate
  maxRate : Rate
  deriving DecidableEq, Repr

/-- The messages that the handler tells apart. The contents of an execution are packed, and what
cannot be unpacked is absent. -/
inductive Msg where
  | createValidator (commission : CommissionRates)
  | editValidator (commissionRate : Option Rate)
  | exec (msgs : List (Option Msg))
  | other
  deriving Repr

/-- The messages at a depth of nesting. -/
def Msg.nested : Nat → Msg → List Msg
  | 0, msg => [msg]
  | depth + 1, .exec msgs => msgs.reduceOption.flatMap (Msg.nested depth)
  | _ + 1, _ => []

def contained (depth : Nat) (msgs : List Msg) : List Msg := msgs.flatMap (Msg.nested depth)

/-! ## The handler -/

/-- `LegacyNewDecWithPrec(10, 2)`, in units of ten to the power of minus eighteen. -/
def minCommissionRate : Dec := ⟨10 * 10 ^ 16⟩

def Rate.lt (rate : Rate) (other : Dec) : Go Bool := do
  let value ← unwrap "invalid memory address or nil pointer dereference" rate
  pure (value.units < other.units)

def requireMinimum (rate : Rate) (message : String) : Go Unit := do
  let low ← Rate.lt rate minCommissionRate
  require (low = false) ⟨.unauthorized, message⟩

def validMsg : Msg → Go Unit
  | .createValidator commission => do
      requireMinimum commission.rate "commission can't be lower than 10%"
      requireMinimum commission.maxRate "commission max rate can't be lower than 10%"
  | .editValidator none => pure ()
  | .editValidator (some commissionRate) =>
    requireMinimum commissionRate "commission can't be lower than 10%"
  | .exec _ => pure ()
  | .other => pure ()

def validAuthz (msgs : List (Option Msg)) : Go Unit :=
  msgs.forM fun packed => do
    let innerMsg ← fromOption ⟨.unauthorized, "cannot unmarshal authz exec msgs"⟩ packed
    validMsg innerMsg

/-- The body of the handler's loop. -/
def validTopMsg : Msg → Go Unit
  | .exec inner => validAuthz inner
  | msg => validMsg msg

/-- `MinCommissionDecorator.AnteHandle`, before the handler that comes next. -/
def anteHandle {α : Type} (next : Go α) (msgs : List Msg) : Go α := do
  msgs.forM validTopMsg
  next

/-- The next handler is reached. -/
def PassedOn (msgs : List Msg) : Prop := anteHandle (pure ()) msgs = .ok ()

/-! ## What it stops -/

def Rate.Low (rate : Rate) : Prop := ∃ value, rate = some value ∧
    value.units < minCommissionRate.units

def Rate.Sufficient (rate : Rate) : Prop := ∃ value, rate = some value ∧
    minCommissionRate.units ≤ value.units

/-- The message creates a validator with a low rate or maximum, or sets a low rate. -/
def Msg.Low : Msg → Prop
  | .createValidator commission => Rate.Low commission.rate ∨ Rate.Low commission.maxRate
  | .editValidator commissionRate => ∃ rate, commissionRate = some rate ∧ Rate.Low rate
  | .exec _ => False
  | .other => False

/-- Every rate that the message sets is present and high enough. -/
def Msg.Compliant : Msg → Prop
  | .createValidator commission =>
    Rate.Sufficient commission.rate ∧ Rate.Sufficient commission.maxRate
  | .editValidator commissionRate => ∀ rate, commissionRate = some rate → Rate.Sufficient rate
  | .exec _ => True
  | .other => True

theorem Rate.Sufficient.not_low {rate : Rate} (sufficient : Rate.Sufficient rate) :
    ¬ Rate.Low rate := by
  obtain ⟨value, rfl, high⟩ := sufficient
  rintro ⟨_, ⟨⟩, low⟩
  exact absurd low (not_lt.mpr high)

variable {msg : Msg}

theorem Msg.Compliant.not_low (compliant : msg.Compliant) : ¬ msg.Low := by
  cases msg with
  | createValidator commission => exact not_or.mpr ⟨compliant.1.not_low, compliant.2.not_low⟩
  | editValidator commissionRate =>
    rintro ⟨rate, set, low⟩
    exact (compliant rate set).not_low low
  | exec msgs => exact id
  | other => exact id

variable {result : Unit}

theorem requireMinimum_eq_ok {rate : Rate} {message : String} :
    requireMinimum rate message = .ok result ↔ Rate.Sufficient rate := by
  simp [requireMinimum, Rate.lt, Rate.Sufficient]

theorem validMsg_eq_ok : validMsg msg = .ok result ↔ msg.Compliant := by
  cases msg with
  | createValidator commission => simp [validMsg, Msg.Compliant, requireMinimum_eq_ok]
  | editValidator commissionRate =>
    cases commissionRate with
    | none => simp [validMsg, Msg.Compliant]
    | some rate => simp [validMsg, Msg.Compliant, requireMinimum_eq_ok]
  | exec msgs => simp [validMsg, Msg.Compliant]
  | other => simp [validMsg, Msg.Compliant]

theorem mem_contained_zero {msgs : List Msg} : msg ∈ contained 0 msgs ↔ msg ∈ msgs := by
  simp [contained, Msg.nested]

theorem mem_contained_one {msgs : List Msg} :
    msg ∈ contained 1 msgs ↔ ∃ inner, .exec inner ∈ msgs ∧ some msg ∈ inner := by
  simp only [contained, List.mem_flatMap]
  constructor
  · rintro ⟨outer, member, nested⟩
    cases outer with
    | exec inner =>
      exact ⟨inner, member, by simpa [Msg.nested, List.reduceOption_mem_iff] using nested⟩
    | createValidator commission => simp [Msg.nested] at nested
    | editValidator commissionRate => simp [Msg.nested] at nested
    | other => simp [Msg.nested] at nested
  · rintro ⟨inner, member, packed⟩
    exact ⟨.exec inner, member, by simpa [Msg.nested, List.reduceOption_mem_iff] using packed⟩

/-- An execution at the top has a part that cannot be unpacked. -/
def Malformed (msgs : List Msg) : Prop := ∃ inner, .exec inner ∈ msgs ∧ none ∈ inner

theorem validAuthz_eq_ok {inner : List (Option Msg)} :
    validAuthz inner = .ok result ↔ none ∉ inner ∧ ∀ msg, some msg ∈ inner → msg.Compliant := by
  simp only [validAuthz, forM_eq_ok, bind_eq_ok, fromOption_eq_ok, validMsg_eq_ok]
  constructor
  · intro each
    refine ⟨fun absent => ?_, fun msg packed => ?_⟩
    · obtain ⟨_, ⟨⟩, _⟩ := each none absent
    · obtain ⟨_, ⟨⟩, compliant⟩ := each (some msg) packed
      exact compliant
  · rintro ⟨present, compliant⟩ packed member
    cases packed with
    | none => exact absurd member present
    | some msg => exact ⟨msg, rfl, compliant msg member⟩

theorem validTopMsg_eq_ok : validTopMsg msg = .ok result ↔ msg.Compliant ∧
      ∀ inner, msg = .exec inner → none ∉ inner ∧ ∀ nested, some nested ∈ inner →
        nested.Compliant := by
  cases msg with
  | exec inner => simp [validTopMsg, validAuthz_eq_ok, Msg.Compliant]
  | createValidator commission => simp [validTopMsg, validMsg_eq_ok]
  | editValidator commissionRate => simp [validTopMsg, validMsg_eq_ok]
  | other => simp [validTopMsg, validMsg_eq_ok]

/-- The handler looks at the first two levels. -/
theorem passedOn_iff (msgs : List Msg) :
    PassedOn msgs ↔ ¬ Malformed msgs ∧ ∀ depth ≤ 1, ∀ msg ∈ contained depth msgs, msg.Compliant := by
  simp only [PassedOn, anteHandle, bind_eq_ok, forM_eq_ok, validTopMsg_eq_ok, pure_eq_ok, and_true,
    Unique.exists_iff]
  constructor
  · intro each
    refine ⟨?_, fun depth shallow msg member => ?_⟩
    · rintro ⟨inner, top, absent⟩
      exact ((each _ top).2 inner rfl).1 absent
    · obtain rfl | rfl : depth = 0 ∨ depth = 1 := by omega
      · exact (each msg (mem_contained_zero.mp member)).1
      · obtain ⟨inner, top, packed⟩ := mem_contained_one.mp member
        exact ((each _ top).2 inner rfl).2 msg packed
  · rintro ⟨wellFormed, compliant⟩ msg top
    refine ⟨compliant 0 (by omega) msg (mem_contained_zero.mpr top), ?_⟩
    rintro inner rfl
    exact ⟨fun absent => wellFormed ⟨inner, top, absent⟩,
      fun nested packed => compliant 1 le_rfl nested (mem_contained_one.mpr ⟨inner, top, packed⟩)⟩

/-- The minimum holds at every depth of what is passed on exactly when the transaction is stopped
for something at its first two levels, or has no low rate below them. -/
theorem min_commission_enforced_iff (msgs : List Msg) :
    (PassedOn msgs → ∀ depth, ∀ msg ∈ contained depth msgs, ¬ msg.Low) ↔
      Malformed msgs ∨ (∃ depth ≤ 1, ∃ msg ∈ contained depth msgs, ¬ msg.Compliant) ∨
        ∀ depth, 2 ≤ depth → ∀ msg ∈ contained depth msgs, ¬ msg.Low := by
  rw [passedOn_iff]
  constructor
  · intro enforced
    by_cases stopped : Malformed msgs ∨ ∃ depth ≤ 1, ∃ msg ∈ contained depth msgs, ¬ msg.Compliant
    · exact stopped.elim .inl fun refused => .inr (.inl refused)
    · push Not at stopped
      exact .inr (.inr fun depth _ => enforced stopped depth)
  · rintro (malformed | ⟨depth, shallow, msg, member, refused⟩ | deep) ⟨wellFormed, compliant⟩
    · exact absurd malformed wellFormed
    · exact absurd (compliant depth shallow msg member) refused
    · intro depth msg member
      by_cases shallow : depth ≤ 1
      · exact (compliant depth shallow msg member).not_low
      · exact deep depth (by omega) msg member

/-- A validator with a commission of five percent. -/
def lowValidator : Msg := .createValidator ⟨some ⟨5 * 10 ^ 16⟩, some ⟨20 * 10 ^ 16⟩⟩

/-- An execution inside an execution creates the validator, and the handler passes it on. -/
theorem nested_low_commission_passed : PassedOn [.exec [some (.exec [some lowValidator])]] ∧
    lowValidator ∈ contained 2 [.exec [some (.exec [some lowValidator])]] ∧ lowValidator.Low := by
  refine ⟨rfl, ?_, .inl ⟨_, rfl, by decide⟩⟩
  simp [contained, Msg.nested]

end GravityBridge.App
