import Mathlib

/-!
# Binary search in a list

The middle item of the list is compared with the wanted key, and the search goes on
before or behind it. On a list in strictly increasing key order it finds exactly the
item with that key; on another list it may miss items, and the definition says which.
-/

namespace GravityBridge.Lib.Search

open List

variable {α κ : Type*} [LinearOrder κ] (keyOf : α → κ)

/-- The search in a list that is not longer than the first argument. -/
def searchWithin (wanted : κ) : Nat → List α → Option α
  | 0, _ => none
  | fuel + 1, items =>
      match items.drop (items.length / 2) with
      | [] => none
      | middle :: behind =>
          if wanted < keyOf middle then searchWithin wanted fuel (items.take (items.length / 2))
          else if wanted = keyOf middle then some middle
          else searchWithin wanted fuel behind

def search (wanted : κ) (items : List α) : Option α := searchWithin keyOf wanted items.length items

variable {keyOf} {wanted : κ} {fuel : Nat} {items : List α} {item : α}

theorem keyOf_of_searchWithin {found : α}
    (searched : searchWithin keyOf wanted fuel items = some found) :
    found ∈ items ∧ keyOf found = wanted := by
  induction fuel generalizing items with
  | zero => simp [searchWithin] at searched
  | succ fuel ih =>
    unfold searchWithin at searched
    split at searched
    · contradiction
    · rename_i middle behind halves
      have within : ∀ item ∈ middle :: behind, item ∈ items := fun item member =>
        mem_of_mem_drop (halves ▸ member)
      split_ifs at searched with before same
      · obtain ⟨member, key⟩ := ih searched
        exact ⟨mem_of_mem_take member, key⟩
      · obtain rfl := Option.some.inj searched
        exact ⟨within _ mem_cons_self, same.symm⟩
      · obtain ⟨member, key⟩ := ih searched
        exact ⟨within _ (mem_cons_of_mem _ member), key⟩

/-- In a list in strictly increasing order the search finds every item. -/
theorem searchWithin_of_mem
    (sorted : items.Pairwise (fun first second => keyOf first < keyOf second))
    (enough : items.length ≤ fuel)
    (member : item ∈ items) : searchWithin keyOf (keyOf item) fuel items = some item := by
  induction fuel generalizing items with
  | zero => simp [length_eq_zero_iff.mp (Nat.le_zero.mp enough)] at member
  | succ fuel ih =>
    have positive := length_pos_of_mem member
    have split := take_append_drop (items.length / 2) items
    unfold searchWithin
    cases halves : items.drop (items.length / 2) with
    | nil =>
      have short := drop_eq_nil_iff.mp halves
      omega
    | cons middle behind =>
      rw [halves] at split
      rw [← split] at sorted member
      dsimp only
      obtain ⟨frontSorted, backSorted, across⟩ := pairwise_append.mp sorted
      obtain ⟨middleBefore, behindSorted⟩ := pairwise_cons.mp backSorted
      have lengths := congrArg List.length halves
      simp only [length_drop, length_cons] at lengths
      rcases mem_append.mp member with inFront | inBack
      · rw [if_pos (across item inFront middle mem_cons_self)]
        exact ih frontSorted (by rw [length_take]; omega) inFront
      · rcases mem_cons.mp inBack with rfl | inBehind
        · simp
        · have later := middleBefore item inBehind
          rw [if_neg later.not_gt, if_neg later.ne']
          exact ih behindSorted (by omega) inBehind

theorem search_of_mem
    (sorted : items.Pairwise (fun first second => keyOf first < keyOf second))
    (member : item ∈ items) : search keyOf (keyOf item) items = some item :=
  searchWithin_of_mem sorted le_rfl member

theorem search_of_absent (absent : ∀ item ∈ items, keyOf item ≠ wanted) :
    search keyOf wanted items = none := by
  cases searched : search keyOf wanted items with
  | none => rfl
  | some found =>
    obtain ⟨member, key⟩ := keyOf_of_searchWithin searched
    exact absurd key (absent found member)

end GravityBridge.Lib.Search
