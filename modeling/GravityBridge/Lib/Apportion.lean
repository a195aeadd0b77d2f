import Mathlib

/-!
# Rounded shares of a whole

A whole of `total` is rescaled to `scale`, and every part gets its share rounded down. Each share
loses less than one unit, so the shares of several parts together lose less than one unit for each.
-/

namespace GravityBridge.Lib.Apportion

def portion (scale total part : Nat) : Nat := part * scale / total

/-- The shares of some parts, added up. -/
def portions (scale total : Nat) (parts : List Nat) : Nat := (parts.map (portion scale total)).sum

variable {scale total : Nat}

theorem portion_mono {first second : Nat} (less : first ≤ second) :
    portion scale total first ≤ portion scale total second :=
  Nat.div_le_div_right (Nat.mul_le_mul_right scale less)

theorem portion_le {part : Nat} (within : part ≤ total) : portion scale total part ≤ scale := by
  unfold portion
  exact Nat.div_le_of_le_mul (Nat.mul_le_mul_right scale within)

theorem portions_mul_le (scale total : Nat) (parts : List Nat) :
    portions scale total parts * total ≤ parts.sum * scale := by
  induction parts with
  | nil => simp [portions]
  | cons part rest ih =>
    have first : portion scale total part * total ≤ part * scale := Nat.div_mul_le_self _ _
    simp only [portions, List.map_cons, List.sum_cons, Nat.add_mul] at ih ⊢
    exact Nat.add_le_add first ih

theorem mul_add_length_le (scale : Nat) (positive : 0 < total) (parts : List Nat) :
    parts.sum * scale + parts.length ≤ (portions scale total parts + parts.length) * total := by
  induction parts with
  | nil => simp
  | cons part rest ih =>
    have first : part * scale < (portion scale total part + 1) * total := by
      rw [Nat.mul_comm _ total]
      exact Nat.lt_mul_div_succ _ positive
    simp only [portions, List.map_cons, List.sum_cons, List.length_cons, Nat.add_mul] at ih first ⊢
    omega

/-- Shares above a threshold belong to more than the threshold's part of the whole. -/
theorem lt_parts_of_lt_portions (positive : 0 < total) {parts : List Nat} {threshold : Nat}
    (above : threshold < portions scale total parts) : threshold * total < parts.sum * scale :=
  (Nat.mul_lt_mul_of_pos_right above positive).trans_le (portions_mul_le scale total parts)

/-- Parts that exceed the threshold by one unit for each have shares above it. -/
theorem lt_portions_of_le_parts (positive : 0 < total) {parts : List Nat} {threshold : Nat}
    (above : (threshold + parts.length) * total ≤ parts.sum * scale) (some : 0 < threshold) :
    threshold < portions scale total parts := by
  have nonempty : 0 < parts.length := by
    cases parts with
    | nil =>
      have := Nat.mul_pos some positive
      simp at above
      omega
    | cons part rest => simp
  have bounded := mul_add_length_le scale positive parts
  have cancelled : (threshold + parts.length) * total <
      (portions scale total parts + parts.length) * total := by omega
  have less := Nat.lt_of_mul_lt_mul_right cancelled
  omega

/-- All the shares together are at most the whole. -/
theorem portions_le (parts : List Nat) (positive : 0 < parts.sum) :
    portions scale parts.sum parts ≤ scale := by
  have bounded := portions_mul_le scale parts.sum parts
  rw [Nat.mul_comm] at bounded
  exact Nat.le_of_mul_le_mul_left bounded positive

/-- All the shares together miss less than one unit for each part. -/
theorem lt_portions_add_length (parts : List Nat) (positive : 0 < parts.sum) :
    scale < portions scale parts.sum parts + parts.length := by
  have some : 0 < parts.length := by
    cases parts with
    | nil => simp at positive
    | cons part rest => simp
  have bounded := mul_add_length_le scale positive parts
  rw [Nat.mul_comm parts.sum scale] at bounded
  exact Nat.lt_of_mul_lt_mul_right (show scale * parts.sum < _ * parts.sum by omega)

end GravityBridge.Lib.Apportion
