import Mathlib

/-!
# Positional numerals

Numbers are written in a base either with a fixed width, most significant digit
first, or with as many digits as they need. Both forms are read back by the
same evaluation, so each of them determines the number it writes.
-/

namespace GravityBridge.Lib.Digits

open List

/-- The last `width` digits of a number in a base, most significant first. -/
def bigEndian (base : Nat) : Nat → Nat → List Nat
  | 0, _ => []
  | width + 1, number => bigEndian base width (number / base) ++ [number % base]

/-- The number that a list of digits writes, most significant first. -/
def value (base : Nat) (digits : List Nat) : Nat :=
  digits.foldl (fun total digit => total * base + digit) 0

@[simp] theorem value_nil (base : Nat) : value base [] = 0 := rfl

@[simp] theorem value_concat (base : Nat) (digits : List Nat) (digit : Nat) :
    value base (digits ++ [digit]) = value base digits * base + digit := by
  simp [value]

@[simp] theorem length_bigEndian (base width number : Nat) :
    (bigEndian base width number).length = width := by
  induction width generalizing number with
  | zero => rfl
  | succ width ih => simp [bigEndian, ih]

theorem bigEndian_lt (base : Nat) (positive : 0 < base) (width number : Nat) :
    ∀ digit ∈ bigEndian base width number, digit < base := by
  induction width generalizing number with
  | zero => simp [bigEndian]
  | succ width ih =>
    intro digit member
    rcases mem_append.mp member with front | last
    · exact ih (number / base) digit front
    · rw [mem_singleton.mp last]
      exact Nat.mod_lt _ positive

variable {base : Nat}

theorem value_bigEndian (width : Nat) {number : Nat}
    (fits : number < base ^ width) : value base (bigEndian base width number) = number := by
  induction width generalizing number with
  | zero =>
    have zero : number = 0 := by simpa using fits
    simp [bigEndian, zero]
  | succ width ih =>
    have quotient : number / base < base ^ width :=
      Nat.div_lt_of_lt_mul (by rwa [Nat.pow_succ, Nat.mul_comm] at fits)
    rw [bigEndian, value_concat, ih quotient, Nat.mul_comm]
    exact Nat.div_add_mod number base

theorem value_lt {digits : List Nat} (below : ∀ digit ∈ digits, digit < base) :
    value base digits < base ^ digits.length := by
  induction digits using List.reverseRecOn with
  | nil => simp
  | append_singleton front last ih =>
    have lastBelow : last < base := below last (by simp)
    have frontBelow := ih (fun digit member => below digit (by simp [member]))
    rw [value_concat, length_append, length_singleton, Nat.pow_succ]
    calc value base front * base + last < value base front * base + base := by omega
      _ = (value base front + 1) * base := by ring
      _ ≤ base ^ front.length * base := Nat.mul_le_mul_right _ frontBelow

theorem bigEndian_value {digits : List Nat} (below : ∀ digit ∈ digits, digit < base) :
    bigEndian base digits.length (value base digits) = digits := by
  induction digits using List.reverseRecOn with
  | nil => rfl
  | append_singleton front last ih =>
    have lastBelow : last < base := below last (by simp)
    have positive : 0 < base := Nat.zero_lt_of_lt lastBelow
    rw [length_append, length_singleton, bigEndian, value_concat]
    rw [Nat.mul_comm, Nat.mul_add_div positive, Nat.div_eq_of_lt lastBelow, Nat.add_zero,
      Nat.mul_add_mod, Nat.mod_eq_of_lt lastBelow]
    rw [ih (fun digit member => below digit (by simp [member]))]

variable {width first second : Nat}

theorem bigEndian_injective (firstFits : first < base ^ width) (secondFits : second < base ^ width)
    (same : bigEndian base width first = bigEndian base width second) : first = second := by
  rw [← value_bigEndian width firstFits, same, value_bigEndian width secondFits]

/-! ## The order of numerals of one width -/

/-- Lists with fronts of one length are ordered by the fronts first and then by what follows them. -/
theorem append_lt_append_iff {α : Type*} [LinearOrder α] {front other rest tail : List α}
    (lengths : front.length = other.length) :
    front ++ rest < other ++ tail ↔ front < other ∨ front = other ∧ rest < tail := by
  induction front generalizing other with
  | nil =>
    obtain rfl := length_eq_zero_iff.mp lengths.symm
    simp
  | cons first front ih =>
    obtain ⟨second, other, rfl⟩ := exists_cons_of_length_eq_add_one lengths.symm
    rw [cons_append, cons_append, cons_lt_cons_iff, cons_lt_cons_iff, ih (by simpa using lengths),
      List.cons.injEq]
    tauto

theorem lt_iff_div_mod (base first second : Nat) :
    first < second ↔ first / base < second / base ∨
      first / base = second / base ∧ first % base < second % base := by
  constructor
  · intro less
    rcases (Nat.div_le_div_right less.le).lt_or_eq with below | same
    · exact .inl below
    · refine .inr ⟨same, ?_⟩
      have left := Nat.div_add_mod first base
      have right := Nat.div_add_mod second base
      rw [same] at left
      omega
  · rintro (below | ⟨same, remainder⟩)
    · exact lt_of_not_ge fun above => absurd (Nat.div_le_div_right above) (not_le.mpr below)
    · have left := Nat.div_add_mod first base
      have right := Nat.div_add_mod second base
      rw [same] at left
      omega

/-- Numerals of one width are ordered as their numbers. -/
theorem bigEndian_lt_iff (firstFits : first < base ^ width)
    (secondFits : second < base ^ width) :
    bigEndian base width first < bigEndian base width second ↔ first < second := by
  induction width generalizing first second with
  | zero =>
    simp only [Nat.pow_zero, Nat.lt_one_iff] at firstFits secondFits
    simp [firstFits, secondFits, bigEndian]
  | succ width ih =>
    rw [Nat.pow_succ, Nat.mul_comm] at firstFits secondFits
    have firstQuotient := Nat.div_lt_of_lt_mul firstFits
    have secondQuotient := Nat.div_lt_of_lt_mul secondFits
    have equal : bigEndian base width (first / base) = bigEndian base width (second / base) ↔
        first / base = second / base :=
      ⟨bigEndian_injective firstQuotient secondQuotient, fun same => by rw [same]⟩
    rw [bigEndian, bigEndian, append_lt_append_iff (by simp), ih firstQuotient secondQuotient, equal,
      lt_iff_div_mod base first second]
    simp [cons_lt_cons_iff]

/-! ## Numerals without leading zeros -/

/-- The digits of a number, most significant first, with a single zero for zero. -/
def shortest (base number : Nat) : List Nat :=
  if number = 0 then [0] else (Nat.digits base number).reverse

theorem shortest_lt (large : 1 < base) (number : Nat) :
    ∀ digit ∈ shortest base number, digit < base := by
  intro digit member
  unfold shortest at member
  split_ifs at member with zero
  · rw [mem_singleton.mp member]
    omega
  · exact Nat.digits_lt_base large (mem_reverse.mp member)

theorem shortest_ne_nil (base number : Nat) : shortest base number ≠ [] := by
  unfold shortest
  split_ifs with zero
  · simp
  · simpa using Nat.digits_ne_nil_iff_ne_zero.mpr zero

theorem value_reverse (base : Nat) (digits : List Nat) :
    value base digits.reverse = Nat.ofDigits base digits := by
  induction digits with
  | nil => rfl
  | cons digit rest ih =>
    rw [reverse_cons, value_concat, ih, Nat.ofDigits_cons]
    ring

theorem value_shortest (base number : Nat) : value base (shortest base number) = number := by
  unfold shortest
  split_ifs with zero
  · simp [value, zero]
  · rw [value_reverse, Nat.ofDigits_digits]

theorem shortest_injective (same : shortest base first = shortest base second) : first = second := by
  rw [← value_shortest base first, same, value_shortest]

theorem length_shortest_le {number : Nat} (large : 1 < base) (positive : 0 < width)
    (fits : number < base ^ width) : (shortest base number).length ≤ width := by
  unfold shortest
  split_ifs with zero
  · exact positive
  · rw [length_reverse, Nat.length_digits base number large zero]
    exact Nat.succ_le_of_lt (Nat.log_lt_of_lt_pow zero fits)

end GravityBridge.Lib.Digits
