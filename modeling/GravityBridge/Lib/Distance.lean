import GravityBridge.Lib.Store

/-!
# The distance of two weightings

A list of items gives a weight to every key. Two weightings are as far apart as the sum of
what they differ in, over all keys. Sums are also taken in arithmetic with a limited number
of significant bits, which is exact as long as they stay short.
-/

namespace GravityBridge.Lib.Distance

open Lib.Store

/-! ## Distance -/

section

variable {κ : Type*} [Fintype κ]

/-- The sum of the differences. -/
def distance (first second : κ → Nat) : Nat := ∑ key, ((first key : ℤ) - second key).natAbs

theorem distance_comm (first second : κ → Nat) : distance first second = distance second first :=
  Finset.sum_congr rfl fun _ _ => by omega

theorem distance_triangle (first second third : κ → Nat) :
    distance first third ≤ distance first second + distance second third := by
  unfold distance
  rw [← Finset.sum_add_distrib]
  exact Finset.sum_le_sum fun _ _ => by omega

theorem distance_eq_zero_iff {first second : κ → Nat} : distance first second = 0 ↔
    ∀ key, first key = second key := by
  unfold distance
  rw [Finset.sum_eq_zero_iff]
  refine ⟨fun zero key => ?_, fun same key _ => ?_⟩
  · have equal := zero key (Finset.mem_univ key)
    omega
  · rw [same key, sub_self, Int.natAbs_zero]

theorem distance_le (first second : κ → Nat) :
    distance first second ≤ ∑ key, first key + ∑ key, second key := by
  unfold distance
  rw [← Finset.sum_add_distrib]
  exact Finset.sum_le_sum fun _ _ => by omega

end

/-! ## Weights -/

section

variable {α β κ : Type*} [DecidableEq κ] {keyOf : α → κ} {weight : α → Nat}

/-- The weight of a key: the sum over the items that have it. -/
def weightAt (keyOf : α → κ) (weight : α → Nat) (items : List α) (key : κ) : Nat :=
  ((items.filter (fun item => keyOf item = key)).map weight).sum

theorem weightAt_cons (item : α) (rest : List α) (key : κ) :
    weightAt keyOf weight (item :: rest) key = (if keyOf item = key then
      weight item else 0) + weightAt keyOf weight rest key := by
  unfold weightAt
  by_cases same : keyOf item = key
  · rw [List.filter_cons_of_pos (by simpa using same), if_pos same, List.map_cons, List.sum_cons]
  · rw [List.filter_cons_of_neg (by simpa using same), if_neg same, zero_add]

theorem weightAt_perm {first second : List α} (same : first.Perm second) :
    weightAt keyOf weight first = weightAt keyOf weight second :=
  funext fun _ => ((same.filter _).map _).sum_eq

theorem weightAt_map {make : β → α} (items : List β) :
    weightAt keyOf weight (items.map make) = weightAt (fun item => keyOf (make item))
      (fun item => weight (make item)) items := by
  funext key
  rw [weightAt, weightAt, List.filter_map, List.map_map]
  rfl

theorem weightAt_of_absent {items : List α} {key : κ} (absent : key ∉ items.map keyOf) :
    weightAt keyOf weight items key = 0 := by
  have none : items.filter (fun item => keyOf item = key) = [] := by
    refine List.filter_eq_nil_iff.mpr fun item member => ?_
    simpa using fun same => absent (List.mem_map.mpr ⟨item, member, same⟩)
  rw [weightAt, none, List.map_nil, List.sum_nil]

theorem weightAt_of_mem {items : List α} (distinct : (items.map keyOf).Nodup) {item : α}
    (member : item ∈ items) : weightAt keyOf weight items (keyOf item) = weight item := by
  induction items with
  | nil => contradiction
  | cons head rest ih =>
    obtain ⟨notAgain, distinctRest⟩ := List.nodup_cons.mp distinct
    rw [weightAt_cons]
    rcases List.mem_cons.mp member with rfl | tail
    · rw [if_pos rfl, weightAt_of_absent notAgain, add_zero]
    · have other : keyOf head ≠ keyOf item := fun same => notAgain (same ▸ List.mem_map_of_mem tail)
      rw [if_neg other, zero_add, ih distinctRest tail]

theorem sum_weightAt [Fintype κ] (items : List α) :
    ∑ key, weightAt keyOf weight items key = (items.map weight).sum := by
  induction items with
  | nil => simp [weightAt]
  | cons item rest ih =>
    simp only [weightAt_cons, Finset.sum_add_distrib, ih, List.map_cons, List.sum_cons,
      Finset.sum_ite_eq, Finset.mem_univ, if_true]

end

/-! ## Stores -/

section

variable {α κ ν : Type*} [LinearOrder κ]

/-- A sum over the values of a store is one over all keys. -/
theorem sumOf_eq_sum [Fintype κ] (store : KVStore κ ν) (measure : ν → Nat) :
    store.sumOf measure = ∑ key, ((store.get key).map measure).getD 0 := by
  obtain ⟨entries, sorted⟩ := store
  unfold KVStore.sumOf KVStore.values KVStore.get
  rw [List.map_map]
  induction entries with
  | nil => simp [lookup]
  | cons entry rest ih =>
    obtain ⟨before, restSorted⟩ := List.pairwise_cons.mp sorted
    have absent : lookup entry.1 rest = none := lookup_eq_none_iff.mpr fun other member =>
      (before other member).ne'
    have split : ∀ key, ((lookup key (entry :: rest)).map measure).getD 0 =
        (if key = entry.1 then measure entry.2 else 0) + ((lookup key rest).map measure).getD 0 := by
      intro key
      rw [lookup]
      split_ifs with same
      · rw [same, absent]
        rfl
      · rw [zero_add]
    simp only [split, Finset.sum_add_distrib, Finset.sum_ite_eq', Finset.mem_univ, if_true,
      List.map_cons, List.sum_cons]
    rw [← ih restSorted]
    rfl

/-- Items with different keys, put into a store. -/
theorem get_foldl_set {items : List α} {keyOf : α → κ} {valueOf : α → ν}
    (distinct : (items.map keyOf).Nodup) (store : KVStore κ ν) (key : κ) :
    (items.foldl (fun current item => current.set (keyOf item) (valueOf item)) store).get key =
      ((items.find? (fun item => keyOf item = key)).map valueOf).or (store.get key) := by
  cases found : items.find? (fun item => keyOf item = key) with
  | none =>
    refine KVStore.get_foldl_set_of_absent (fun item member => ?_) store
    simpa using List.find?_eq_none.mp found item member
  | some item =>
    obtain rfl : keyOf item = key := by simpa using List.find?_some found
    exact KVStore.get_foldl_set_of_mem distinct (List.mem_of_find?_eq_some found) store

end

/-! ## Sums with few significant bits -/

/-- The nearest number with so many significant bits; of two that are as near, the one with an even
last bit. -/
def nearest (bits number : Nat) : Nat :=
  let unit := 2 ^ (number.size - bits)
  if 2 * (number % unit) < unit ∨ (2 * (number % unit) = unit ∧ number / unit % 2 = 0) then
    number / unit * unit
  else (number / unit + 1) * unit

theorem nearest_of_lt {bits number : Nat} (short : number < 2 ^ bits) :
    nearest bits number = number := by
  have unit : number.size - bits = 0 := Nat.sub_eq_zero_of_le (Nat.size_le.mpr short)
  simp [nearest, unit, Nat.mod_one]

/-- A sum that stays short is exact. -/
theorem foldl_nearest {bits : Nat} {numbers : List Nat} {start : Nat}
    (short : start + numbers.sum < 2 ^ bits) :
    numbers.foldl (fun sum number => nearest bits (sum + nearest bits number)) start =
      start + numbers.sum := by
  induction numbers generalizing start with
  | nil => rfl
  | cons number rest ih =>
    rw [List.sum_cons] at short ⊢
    have first : nearest bits (start + nearest bits number) = start + number := by
      rw [nearest_of_lt (show number < 2 ^ bits by omega), nearest_of_lt (by omega)]
    rw [List.foldl_cons, first, ih (by omega), add_assoc]

end GravityBridge.Lib.Distance
