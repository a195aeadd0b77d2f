import GravityBridge.Lib.Fallible

/-!
# Fixed-point decimals

A decimal is a whole number of units, and a fixed number of units makes one.
Products are rounded to the nearest unit, ties to the even one; quotients and
conversions to whole numbers drop the rest. Nothing is lost where the scale
already contains the factor that an operation divides by.
-/

namespace GravityBridge.Lib.Decimal

open Lib.Fallible

/-- How many units make one, and how large decimals and whole numbers may get. -/
structure Format where
  scale : Nat
  unitLimit : Nat
  wholeLimit : Nat
  positive : 0 < scale

@[ext] structure Dec where
  units : Int
  deriving DecidableEq, Repr

namespace Format

variable {ε : Type} (format : Format)

def ofInt (number : Int) : Dec := ⟨number * format.scale⟩

/-- Division by a whole number, towards zero. -/
def quoInt (dec : Dec) (divisor : Int) : Dec := ⟨dec.units.tdiv divisor⟩

/-- A result that is too large panics. -/
def bounded (units : Int) : Outcome ε Dec := do
  check (units.natAbs < format.unitLimit) "Int overflow"
  pure ⟨units⟩

def mulInt (dec : Dec) (factor : Int) : Outcome ε Dec := format.bounded (dec.units * factor)

/-- Divide by the scale and round to the nearest, ties to even. -/
def chopPrecisionAndRound (product : Int) : Int :=
  let quotient := product.natAbs / format.scale
  let remainder := product.natAbs % format.scale
  let up := format.scale < 2 * remainder ∨ format.scale = 2 * remainder ∧ quotient % 2 = 1
  product.sign * (if up then quotient + 1 else quotient)

def mul (first second : Dec) : Outcome ε Dec :=
  format.bounded (format.chopPrecisionAndRound (first.units * second.units))

def truncateInt (dec : Dec) : Outcome ε Int := do
  let whole := dec.units.tdiv format.scale
  check (whole.natAbs < format.wholeLimit) "out of bound"
  pure whole

/-! ## Operations that lose nothing -/

theorem bounded_eq_ok {units : Int} (fits : units.natAbs < format.unitLimit) :
    (format.bounded units : Outcome ε Dec) = .ok ⟨units⟩ := by
  simp [bounded, check, fits]

theorem quoInt_ofInt {divisor : Nat} (number : Int) (divides : divisor ∣ format.scale) :
    quoInt (format.ofInt number) divisor = ⟨number * (format.scale / divisor : Nat)⟩ := by
  obtain ⟨factor, scale⟩ := divides
  have nonzero : divisor ≠ 0 := by
    rintro rfl
    exact absurd scale (by simpa using format.positive.ne')
  apply Dec.ext
  simp only [quoInt, ofInt, scale, Nat.mul_div_cancel_left factor (Nat.pos_of_ne_zero nonzero),
    Nat.cast_mul]
  rw [mul_left_comm, Int.mul_tdiv_cancel_left _ (by exact_mod_cast nonzero)]

@[simp] theorem chopPrecisionAndRound_scaled (units : Int) :
    format.chopPrecisionAndRound (units * format.scale) = units := by
  have magnitude : (units * format.scale).natAbs = units.natAbs * format.scale := by
    simp [Int.natAbs_mul]
  have exact : units.natAbs * format.scale / format.scale = units.natAbs :=
    Nat.mul_div_cancel _ format.positive
  have sign : (units * format.scale).sign = units.sign := by
    simp [Int.sign_mul, Int.sign_eq_one_of_pos (Int.natCast_pos.mpr format.positive)]
  have scale := format.positive.ne'
  simp only [chopPrecisionAndRound, magnitude, exact, Nat.mul_mod_left, sign, Nat.mul_zero,
    Nat.not_lt_zero, scale, false_and, or_self, if_false]
  exact Int.sign_mul_natAbs units

/-- A product with a whole number needs no rounding. -/
theorem mul_ofInt (dec : Dec) (number : Int) :
    (format.mul dec (format.ofInt number) : Outcome ε Dec) = format.bounded (dec.units * number) := by
  rw [mul, ofInt, ← mul_assoc, chopPrecisionAndRound_scaled]

theorem truncateInt_natCast {units : Nat} (fits : units / format.scale < format.wholeLimit) :
    (format.truncateInt ⟨units⟩ : Outcome ε Int) = .ok (units / format.scale : Nat) := by
  have whole : (units : Int).tdiv format.scale = (units / format.scale : Nat) := rfl
  simp only [truncateInt, whole, Int.natAbs_natCast, check, if_pos fits]
  rfl

end Format

end GravityBridge.Lib.Decimal
