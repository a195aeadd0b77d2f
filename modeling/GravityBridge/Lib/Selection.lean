import Mathlib.Algebra.Order.BigOperators.Group.List
import Mathlib.Algebra.Order.Ring.Nat
import Mathlib.Data.List.Perm.Subperm

/-!
# The heaviest selection

When items are listed from the heaviest down, the first `count` of them weigh at least as much as any
other selection of at most `count` items.
-/

namespace GravityBridge.Lib.Selection

open List

variable {α : Type*} {weight : α → Nat} {items : List α}

variable (sorted : items.Pairwise (fun first second => weight second ≤ weight first))

include sorted

/-- No item that is left weighs more than one that is taken. -/
theorem weight_drop_le_take (count : Nat)
    {taken left : α} (inTake : taken ∈ items.take count) (inDrop : left ∈ items.drop count) :
    weight left ≤ weight taken := by
  rw [← take_append_drop count items] at sorted
  exact (pairwise_append.mp sorted).2.2 taken inTake left inDrop

/-- Taking the heaviest items is optimal: the head of the list can replace any item of another
selection. -/
theorem sum_le_sum_take [DecidableEq α]
    {choice : List α} (inside : choice.Subperm items) {count : Nat} (few : choice.length ≤ count) :
    (choice.map weight).sum ≤ ((items.take count).map weight).sum := by
  induction items generalizing choice count with
  | nil =>
    rw [subperm_nil.mp inside]
    simp
  | cons head rest ih =>
    obtain ⟨heaviest, restSorted⟩ := pairwise_cons.mp sorted
    cases count with
    | zero => simp [length_eq_zero_iff.mp (Nat.le_zero.mp few)]
    | succ count =>
      rw [take_succ_cons, map_cons, sum_cons]
      have without : (choice.erase head).Subperm rest := by simpa using inside.erase head
      by_cases chosen : head ∈ choice
      · have fewer : (choice.erase head).length ≤ count := by
          rw [length_erase_of_mem chosen]
          omega
        rw [((perm_cons_erase chosen).map weight).sum_eq, map_cons, sum_cons]
        exact Nat.add_le_add_left (ih restSorted without fewer) _
      · rw [erase_of_not_mem chosen] at without
        cases choice with
        | nil => simp
        | cons other remaining =>
          have lighter : weight other ≤ weight head := heaviest other (without.subset mem_cons_self)
          have fewer : remaining.length ≤ count := by simpa using few
          rw [map_cons, sum_cons]
          exact Nat.add_le_add lighter
            (ih restSorted ((sublist_cons_self _ _).subperm.trans without) fewer)

/-- Every item of a part is at most as heavy as the item at the same place of the whole. -/
theorem weight_getElem_le_of_sublist
    {part : List α} (inside : part.Sublist items) {place : Nat} (inPart : place < part.length)
    (inItems : place < items.length) : weight part[place] ≤ weight items[place] := by
  induction inside generalizing place with
  | slnil => simp at inPart
  | cons head inside ih =>
    obtain ⟨heaviest, restSorted⟩ := pairwise_cons.mp sorted
    cases place with
    | zero => exact heaviest _ (inside.subset (getElem_mem inPart))
    | succ place =>
      have fits := inPart.trans_le inside.length_le
      refine (ih restSorted inPart fits).trans ?_
      exact pairwise_iff_getElem.mp sorted (place + 1) (place + 2) inItems (Nat.succ_lt_succ fits)
        (by omega)
  | cons_cons head inside ih =>
    cases place with
    | zero => exact le_rfl
    | succ place =>
      exact ih (pairwise_cons.mp sorted).2 (by simpa using inPart) (by simpa using inItems)

/-- The first items of a part weigh as much as the first ones of the whole only if each weighs the
same. -/
theorem map_take_eq_of_sublist
    {part : List α} (inside : part.Sublist items) {count : Nat}
    (sameLength : (part.take count).length = (items.take count).length)
    (sameWeight : ((part.take count).map weight).sum = ((items.take count).map weight).sum) :
    (part.take count).map weight = (items.take count).map weight := by
  have lighter : List.Forall₂ (· ≤ ·) ((part.take count).map weight)
      ((items.take count).map weight) := by
    refine List.forall₂_iff_get.mpr ⟨by simpa using sameLength, fun place inPart inItems => ?_⟩
    simp only [length_map, length_take, lt_min_iff] at inPart inItems
    simpa using weight_getElem_le_of_sublist sorted inside inPart.2 inItems.2
  generalize (part.take count).map weight = parts at lighter sameWeight
  generalize (items.take count).map weight = wholes at lighter sameWeight
  induction lighter with
  | nil => rfl
  | @cons first second parts wholes lighter rest ih =>
    have restLighter := rest.sum_le_sum
    rw [sum_cons, sum_cons] at sameWeight
    obtain rfl : first = second := by omega
    rw [ih (by omega)]

end GravityBridge.Lib.Selection
