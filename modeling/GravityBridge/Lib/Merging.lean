import GravityBridge.Lib.Store

/-!
# Merging a sequence from its parts

A sequence of items with increasing keys is split by kind. The parts hold the items of the sequence
in another order, their sorted keys are the keys of the sequence, and keys without gaps above a bound
are consecutive numbers.
-/

namespace GravityBridge.Lib.Merging

open Lib.Store List

/-- The parts of a list for distinct kinds, one after the other, are the items of these kinds. -/
theorem flatMap_filter_perm {α κ : Type*} [DecidableEq κ] (kindOf : α → κ) {kinds : List κ}
    (distinct : kinds.Nodup) (items : List α) :
    (kinds.flatMap (fun kind => items.filter (fun item => kindOf item = kind))).Perm
      (items.filter (fun item => kindOf item ∈ kinds)) := by
  induction kinds with
  | nil => simp
  | cons kind rest ih =>
    obtain ⟨fresh, distinctRest⟩ := nodup_cons.mp distinct
    have own : (items.filter (fun item => kindOf item ∈ kind :: rest)).filter
        (fun item => kindOf item = kind) = items.filter (fun item => kindOf item = kind) := by
      rw [filter_filter]
      exact filter_congr fun item _ => by by_cases same : kindOf item = kind <;> simp [same]
    have others : (items.filter (fun item => kindOf item ∈ kind :: rest)).filter
        (fun item => !decide (kindOf item = kind)) =
        items.filter (fun item => kindOf item ∈ rest) := by
      rw [filter_filter]
      refine filter_congr fun item _ => ?_
      by_cases same : kindOf item = kind
      · simp [same, fresh]
      · simp [same]
    have split := filter_append_perm (fun item => decide (kindOf item = kind))
      (items.filter (fun item => kindOf item ∈ kind :: rest))
    rw [own, others] at split
    rw [flatMap_cons]
    exact ((ih distinctRest).append_left _).trans split

section

variable {κ : Type*} [LinearOrder κ]

/-- Sorting distinct keys gives their increasing sequence. -/
theorem insertionSort_eq_of_perm {keys increasing : List κ} (sorted : increasing.Pairwise (· < ·))
    (same : keys.Perm increasing) : keys.insertionSort (· ≤ ·) = increasing :=
  List.Perm.eq_of_pairwise (fun _ _ _ _ => le_antisymm) (pairwise_insertionSort (· ≤ ·) keys)
    (sorted.imp le_of_lt) ((perm_insertionSort (· ≤ ·) keys).trans same)

/-- The keys of a store that was filled from distinct keys. -/
theorem keys_foldl_set_perm {ν : Type*} {items : List (κ × ν)}
    (distinct : (items.map Prod.fst).Nodup) :
    ((items.foldl (fun store item => store.set item.1 item.2) .empty : KVStore κ ν).entries.map
      Prod.fst).Perm (items.map Prod.fst) := by
  have ordered :=
    (items.foldl (fun store item => store.set item.1 item.2) .empty : KVStore κ ν).sorted
  refine (perm_ext_iff_of_nodup (pairwise_map.mpr (ordered.imp fun less => less.ne)) distinct).mpr
    fun key => ?_
  constructor
  · intro member
    obtain ⟨⟨_, value⟩, entry, rfl⟩ := mem_map.mp member
    by_contra absent
    have found := KVStore.mem_entries.mp entry
    rw [KVStore.get_foldl_set_of_absent fun item inItems same =>
      absent (mem_map.mpr ⟨item, inItems, same⟩)] at found
    exact nomatch found
  · intro member
    obtain ⟨item, inItems, rfl⟩ := mem_map.mp member
    exact mem_map.mpr ⟨_,
      KVStore.mem_entries.mpr (KVStore.get_foldl_set_of_mem distinct inItems .empty), rfl⟩

/-- In a list with increasing keys, what holds of all pairs holds of two items by their keys. -/
theorem related_of_lt {α : Type*} {key : α → κ} {related : α → α → Prop} {items : List α}
    (sorted : items.Pairwise (fun first second => key first < key second ∧ related first second))
    {first second : α}
    (firstIn : first ∈ items) (secondIn : second ∈ items) (less : key first < key second) :
    related first second := by
  induction items with
  | nil => contradiction
  | cons item rest ih =>
    obtain ⟨before, sortedRest⟩ := pairwise_cons.mp sorted
    rcases mem_cons.mp firstIn with rfl | firstLater <;> rcases mem_cons.mp secondIn with
      rfl | secondLater
    · exact absurd less (lt_irrefl _)
    · exact (before second secondLater).2
    · exact absurd less (before first firstLater).1.not_gt
    · exact ih sortedRest firstLater secondLater

end

/-- Increasing numbers above a bound that leave out none below them are consecutive. -/
theorem eq_range'_of_closed {numbers : List Nat} {bound : Nat} (increasing : numbers.Pairwise (· < ·))
    (above : ∀ number ∈ numbers, bound < number)
    (closed : ∀ number ∈ numbers, ∀ smaller, bound < smaller → smaller < number → smaller ∈ numbers) :
    numbers = List.range' (bound + 1) numbers.length := by
  induction numbers generalizing bound with
  | nil => rfl
  | cons first rest ih =>
    obtain ⟨less, increasingRest⟩ := pairwise_cons.mp increasing
    have least : first = bound + 1 := by
      by_contra later
      have between : bound + 1 < first := by
        have := above first mem_cons_self
        omega
      rcases mem_cons.mp (closed first mem_cons_self (bound + 1) (by omega) between) with
        same | member
      · omega
      · have := less _ member
        omega
    subst least
    have closedRest : ∀ number ∈ rest, ∀ smaller, bound + 1 < smaller → smaller < number →
        smaller ∈ rest := by
      intro number member smaller greater smallerThan
      rcases mem_cons.mp (closed number (mem_cons_of_mem _ member) smaller
        (by omega) smallerThan) with same | there
      · omega
      · exact there
    rw [length_cons, range'_succ, ← ih increasingRest less closedRest]

theorem take_range' (count start length : Nat) :
    (List.range' start length).take count = List.range' start (min count length) :=
  ext_getElem (by simp) (by simp)

end GravityBridge.Lib.Merging
