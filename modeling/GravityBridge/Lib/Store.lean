import Mathlib

/-!
# Ordered key-value stores

A store keeps its entries in strictly increasing key order, the order in which
an iterator visits them. The order is part of the structure, so a store is
determined by its lookups and every operation returns an ordered store.
-/

namespace GravityBridge.Lib.Store

open List

/-- A finite map whose entries are listed in strictly increasing key order. -/
@[ext] structure KVStore (κ ν : Type*) [LinearOrder κ] where
  entries : List (κ × ν)
  sorted : entries.Pairwise (fun first second => first.1 < second.1)

variable {κ ν : Type*} [LinearOrder κ] {key : κ} {value : ν} {entries : List (κ × ν)} {β : Type*}

def lookup (key : κ) : List (κ × ν) → Option ν
  | [] => none
  | entry :: rest => if key = entry.1 then some entry.2 else lookup key rest

def insertEntry (key : κ) (value : ν) : List (κ × ν) → List (κ × ν)
  | [] => [(key, value)]
  | entry :: rest =>
      if key < entry.1 then (key, value) :: entry :: rest
      else if key = entry.1 then (key, value) :: rest
      else entry :: insertEntry key value rest

theorem mem_insertEntry {entry : κ × ν} (member : entry ∈ insertEntry key value entries) :
    entry = (key, value) ∨ entry ∈ entries := by
  induction entries with
  | nil => simpa [insertEntry] using member
  | cons head rest ih =>
    unfold insertEntry at member
    split_ifs at member with before same
    · simpa using member
    · rcases mem_cons.mp member with rfl | tail
      · exact .inl rfl
      · exact .inr (mem_cons_of_mem _ tail)
    · rcases mem_cons.mp member with rfl | tail
      · exact .inr mem_cons_self
      · exact (ih tail).imp_right (mem_cons_of_mem _)

theorem insertEntry_sorted (key : κ) (value : ν)
    (sorted : entries.Pairwise (fun first second => first.1 < second.1)) :
    (insertEntry key value entries).Pairwise (fun first second => first.1 < second.1) := by
  induction entries with
  | nil => simp [insertEntry]
  | cons head rest ih =>
    obtain ⟨headBefore, restSorted⟩ := pairwise_cons.mp sorted
    unfold insertEntry
    split_ifs with before same
    · refine pairwise_cons.mpr ⟨fun entry member => ?_, sorted⟩
      rcases mem_cons.mp member with rfl | tail
      · exact before
      · exact before.trans (headBefore entry tail)
    · subst same
      exact pairwise_cons.mpr ⟨headBefore, restSorted⟩
    · refine pairwise_cons.mpr ⟨fun entry member => ?_, ih restSorted⟩
      rcases mem_insertEntry member with rfl | tail
      · exact lt_of_le_of_ne (not_lt.mp before) (Ne.symm same)
      · exact headBefore entry tail

theorem mem_iff_lookup (sorted : entries.Pairwise (fun first second => first.1 < second.1)) :
    (key, value) ∈ entries ↔ lookup key entries = some value := by
  induction entries with
  | nil => simp [lookup]
  | cons head rest ih =>
    obtain ⟨headBefore, restSorted⟩ := pairwise_cons.mp sorted
    unfold lookup
    split_ifs with same
    · subst same
      constructor
      · intro member
        rcases mem_cons.mp member with equal | tail
        · rw [← equal]
        · exact absurd (headBefore _ tail) (lt_irrefl _)
      · intro found
        obtain rfl := Option.some.inj found
        exact mem_cons_self
    · rw [← ih restSorted, mem_cons]
      exact or_iff_right (fun equal => same (congrArg Prod.fst equal))

theorem lookup_eq_none_iff :
    lookup key entries = none ↔ ∀ entry ∈ entries, entry.1 ≠ key := by
  induction entries with
  | nil => simp [lookup]
  | cons head rest ih =>
    unfold lookup
    split_ifs with same
    · simp [same]
    · rw [ih]
      simp [Ne.symm same]

theorem lookup_insertEntry (key other : κ) (value : ν) (entries : List (κ × ν)) :
    lookup other (insertEntry key value entries) = if other = key then
      some value else lookup other entries := by
  induction entries with
  | nil => rfl
  | cons head rest ih =>
    unfold insertEntry
    by_cases equal : other = key
    · subst equal
      rw [if_pos rfl] at ih ⊢
      split_ifs with before same
      · simp [lookup]
      · simp [lookup]
      · simpa [lookup, same] using ih
    · rw [if_neg equal] at ih ⊢
      split_ifs with before same
      · simp [lookup, equal]
      · simp [lookup, ← same, equal]
      · simp only [lookup, ih]

theorem insertEntry_perm (fresh : lookup key entries = none) :
    (insertEntry key value entries).Perm ((key, value) :: entries) := by
  induction entries with
  | nil => exact List.Perm.refl _
  | cons head rest ih =>
    unfold lookup at fresh
    split_ifs at fresh with same
    unfold insertEntry
    split_ifs with before
    · exact List.Perm.refl _
    · exact ((ih fresh).cons head).trans (List.Perm.swap _ _ _)

theorem map_insertEntry {old new : ν} (view : ν → β)
    (sorted : entries.Pairwise (fun first second => first.1 < second.1))
    (found : lookup key entries = some old) (same : view new = view old) :
    (insertEntry key new entries).map (view ∘ Prod.snd) = entries.map (view ∘ Prod.snd) := by
  induction entries with
  | nil => simp [lookup] at found
  | cons head rest ih =>
    obtain ⟨headBefore, restSorted⟩ := pairwise_cons.mp sorted
    unfold lookup at found
    unfold insertEntry
    by_cases here : key = head.1
    · obtain rfl := Option.some.inj ((if_pos here).symm.trans found)
      simp [here, same]
    · rw [if_neg here] at found
      have after := headBefore _ ((mem_iff_lookup restSorted).mpr found)
      rw [if_neg after.not_gt, if_neg here, map_cons, map_cons, ih restSorted found]

namespace KVStore

/-- The store without entries. -/
def empty : KVStore κ ν := ⟨[], .nil⟩

def get (store : KVStore κ ν) (key : κ) : Option ν := lookup key store.entries

def set (store : KVStore κ ν) (key : κ) (value : ν) : KVStore κ ν :=
  ⟨insertEntry key value store.entries, insertEntry_sorted key value store.sorted⟩

/-- The entries that pass a test, in their order. -/
def filter (store : KVStore κ ν) (keep : κ → ν → Bool) : KVStore κ ν :=
  ⟨store.entries.filter (fun entry => keep entry.1 entry.2), store.sorted.filter _⟩

def delete (store : KVStore κ ν) (key : κ) : KVStore κ ν :=
  store.filter (fun other _ => other != key)

def values (store : KVStore κ ν) : List ν := store.entries.map Prod.snd

/-- The sum of a measure over the stored values. -/
def sumOf (store : KVStore κ ν) (measure : ν → Nat) : Nat := (store.values.map measure).sum

/-! ## Lookups -/

variable {store : KVStore κ ν}

theorem mem_entries : (key, value) ∈ store.entries ↔ store.get key = some value :=
  mem_iff_lookup store.sorted

theorem mem_values : value ∈ store.values ↔ ∃ key, store.get key = some value := by
  constructor
  · intro member
    obtain ⟨⟨key, stored⟩, inEntries, rfl⟩ := mem_map.mp member
    exact ⟨key, mem_entries.mp inEntries⟩
  · rintro ⟨key, found⟩
    exact mem_map.mpr ⟨(key, value), mem_entries.mpr found, rfl⟩

@[simp] theorem get_empty (key : κ) : (empty : KVStore κ ν).get key = none := rfl

@[simp] theorem values_empty : (empty : KVStore κ ν).values = [] := rfl

theorem ext_get {first second : KVStore κ ν} (same : ∀ key, first.get key = second.get key) :
    first = second := by
  apply KVStore.ext
  refine List.Perm.eq_of_pairwise (fun a b _ _ ab ba => absurd ab (lt_asymm ba))
    first.sorted second.sorted ?_
  refine (perm_ext_iff_of_nodup ?_ ?_).mpr ?_
  · exact first.sorted.imp (fun less equal => absurd (equal ▸ less) (lt_irrefl _))
  · exact second.sorted.imp (fun less equal => absurd (equal ▸ less) (lt_irrefl _))
  · rintro ⟨key, value⟩
    rw [mem_entries, mem_entries, same]

@[simp] theorem get_filter (store : KVStore κ ν) (keep : κ → ν → Bool) (key : κ) :
    (store.filter keep).get key = (store.get key).filter (keep key) := by
  apply Option.ext
  intro value
  rw [← mem_entries, Option.filter_eq_some_iff, ← mem_entries]
  simp [filter]

@[simp] theorem get_delete (store : KVStore κ ν) (key other : κ) :
    (store.delete key).get other = if other = key then none else store.get other := by
  unfold delete
  rw [get_filter]
  by_cases same : other = key
  · simp [same]
  · cases found : store.get other <;> simp [Option.filter, same]

@[simp] theorem get_set (store : KVStore κ ν) (key other : κ) (value : ν) :
    (store.set key value).get other = if other = key then some value else store.get other :=
  lookup_insertEntry key other value store.entries

/-! ## Values as a multiset -/

@[simp] theorem set_set (store : KVStore κ ν) (key : κ) (value other : ν) :
    (store.set key value).set key other = store.set key other := by
  apply ext_get
  intro name
  simp only [get_set]
  split_ifs <;> rfl

theorem values_set_perm (value : ν)
    (fresh : store.get key = none) : (store.set key value).values.Perm (value :: store.values) :=
  (insertEntry_perm fresh).map Prod.snd

theorem values_delete_perm (found : store.get key = some value) :
    store.values.Perm (value :: (store.delete key).values) := by
  have fresh : (store.delete key).get key = none := by simp
  have restored : (store.delete key).set key value = store := by
    apply ext_get
    intro other
    rw [get_set, get_delete]
    split_ifs with same
    · rw [same, found]
    · rfl
  simpa only [restored] using values_set_perm value fresh

/-- A value replaced by one that a function does not tell from it. -/
theorem map_values_set {old new : ν} (view : ν → β)
    (found : store.get key = some old) (same : view new = view old) :
    (store.set key new).values.map view = store.values.map view := by
  simp only [values, map_map]
  exact map_insertEntry view store.sorted found same

theorem mem_values_set {other : ν}
    (member : other ∈ (store.set key value).values) : other = value ∨ other ∈ store.values := by
  obtain ⟨name, found⟩ := mem_values.mp member
  rw [get_set] at found
  split_ifs at found
  · exact .inl (Option.some.inj found).symm
  · exact .inr (mem_values.mpr ⟨name, found⟩)

/-! ## Writing a list of items -/

section

variable {α : Type*} {keyOf : α → κ} {valueOf : α → ν} {items : List α}

theorem get_foldl_set_of_absent (absent : ∀ item ∈ items, keyOf item ≠ key)
    (store : KVStore κ ν) :
    (items.foldl (fun current item => current.set (keyOf item) (valueOf item)) store).get key =
      store.get key := by
  induction items generalizing store with
  | nil => rfl
  | cons item rest ih =>
    rw [foldl_cons, ih (fun other member => absent other (mem_cons_of_mem _ member)), get_set,
      if_neg (Ne.symm (absent item mem_cons_self))]

theorem get_foldl_set_of_mem (distinct : (items.map keyOf).Nodup) {item : α} (member : item ∈ items)
    (store : KVStore κ ν) :
    (items.foldl (fun current item => current.set (keyOf item) (valueOf item)) store).get
    (keyOf item) = some (valueOf item) := by
  induction items generalizing store with
  | nil => contradiction
  | cons head rest ih =>
    obtain ⟨notAgain, distinctRest⟩ := nodup_cons.mp distinct
    rw [foldl_cons]
    rcases mem_cons.mp member with rfl | tail
    · have absent : ∀ other ∈ rest, keyOf other ≠ keyOf item :=
        fun other inRest same => notAgain (mem_map.mpr ⟨other, inRest, same⟩)
      rw [get_foldl_set_of_absent absent, get_set, if_pos rfl]
    · exact ih distinctRest tail _

end

/-! ## Values that know their key -/

section

variable {keyOf : ν → κ} (keyed : ∀ key value, store.get key = some value → key = keyOf value)

include keyed

/-- Values that know their own key are listed in the order of their keys. -/
theorem values_pairwise :
    store.values.Pairwise (fun first second => keyOf first < keyOf second) := by
  refine pairwise_map.mpr (store.sorted.imp_of_mem fun {first second} firstIn secondIn less => ?_)
  rwa [← keyed _ _ (mem_entries.mp firstIn), ← keyed _ _ (mem_entries.mp secondIn)]

/-- Values that know their own key are stored once. -/
theorem nodup_of_keyed : (store.values.map keyOf).Nodup :=
  pairwise_map.mpr ((values_pairwise keyed).imp fun less => less.ne)

/-- A test of the keys is one of the values that know them. -/
theorem values_filter_of_keyed (keep : κ → Bool) :
    (store.filter (fun key _ => keep key)).values = store.values.filter
    (fun value => keep (keyOf value)) := by
  simp only [values, filter, filter_map]
  refine congrArg (List.map Prod.snd) (filter_congr fun entry member => ?_)
  rw [keyed entry.1 entry.2 (mem_entries.mp member)]
  rfl

/-- The first value that an iterator visits is deleted by its key, and the others follow. -/
theorem values_delete_head {rest : List ν} (listed : store.values = value :: rest) :
    (store.delete (keyOf value)).values = rest := by
  have ordered := values_pairwise keyed
  rw [listed] at ordered
  have later : ∀ other ∈ rest, (keyOf other != keyOf value) = true := fun other member =>
    bne_iff_ne.mpr ((pairwise_cons.mp ordered).1 other member).ne'
  unfold delete
  rw [values_filter_of_keyed keyed (· != keyOf value), listed, filter_cons_of_neg (by simp)]
  exact filter_eq_self.mpr later

/-- Values that know their own key make up the store again, in whatever order they are put in. -/
theorem foldl_set_values {items : List ν} (same : items.Perm store.values) :
    items.foldl (fun current item => current.set (keyOf item) item) empty = store := by
  have distinct : (items.map keyOf).Nodup := (same.map keyOf).nodup_iff.mpr (nodup_of_keyed keyed)
  apply ext_get
  intro key
  cases found : store.get key with
  | some value =>
    have member : value ∈ items := same.mem_iff.mpr (mem_values.mpr ⟨key, found⟩)
    rw [keyed key value found]
    exact get_foldl_set_of_mem distinct member empty
  | none =>
    refine get_foldl_set_of_absent (fun item member hit => ?_) empty
    obtain ⟨name, stored⟩ := mem_values.mp (same.mem_iff.mp member)
    rw [← hit, ← keyed name item stored, stored] at found
    contradiction

/-- Two stores whose values name their keys agree under a key when they have the same values of that
key. -/
theorem get_eq_of_keyed {other : KVStore κ ν}
    (otherKeyed : ∀ key value, other.get key = some value → key = keyOf value)
    (same : ∀ value, keyOf value = key → (value ∈ store.values ↔ value ∈ other.values)) :
    store.get key = other.get key := by
  refine Option.ext fun value => ⟨fun found => ?_, fun found => ?_⟩
  · have own := keyed key value found
    obtain ⟨name, there⟩ := mem_values.mp ((same value own.symm).mp (mem_values.mpr ⟨key, found⟩))
    rwa [otherKeyed name value there, ← own] at there
  · have own := otherKeyed key value found
    obtain ⟨name, there⟩ := mem_values.mp ((same value own.symm).mpr (mem_values.mpr ⟨key, found⟩))
    rwa [keyed name value there, ← own] at there

end

/-- What is left after deleting under some keys was there before, under another key. -/
theorem get_foldl_delete {α : Type*} {keyOf : α → Option κ} {items : List α}
    (found : (items.foldl (fun current item => (keyOf item).elim current current.delete) store).get
      key = some value) :
    store.get key = some value ∧ ∀ item ∈ items, keyOf item ≠ some key := by
  induction items generalizing store with
  | nil => exact ⟨found, by simp⟩
  | cons item rest ih =>
    rw [foldl_cons] at found
    obtain ⟨kept, others⟩ := ih found
    cases named : keyOf item with
    | none =>
      rw [named] at kept
      exact ⟨kept, forall_mem_cons.mpr ⟨by simp [named], others⟩⟩
    | some other =>
      rw [named, Option.elim_some, get_delete] at kept
      split_ifs at kept with same
      refine ⟨kept, forall_mem_cons.mpr ⟨fun hit => same ?_, others⟩⟩
      exact (Option.some.inj (named.symm.trans hit)).symm

@[simp] theorem sumOf_empty (measure : ν → Nat) : (empty : KVStore κ ν).sumOf measure = 0 := rfl

theorem sumOf_set (measure : ν → Nat) (fresh : store.get key = none) :
    (store.set key value).sumOf measure = measure value + store.sumOf measure := by
  unfold sumOf
  rw [((values_set_perm value fresh).map measure).sum_eq, map_cons, sum_cons]

theorem sumOf_delete (measure : ν → Nat) (found : store.get key = some value) :
    store.sumOf measure = measure value + (store.delete key).sumOf measure := by
  unfold sumOf
  rw [((values_delete_perm found).map measure).sum_eq, map_cons, sum_cons]

end KVStore

end GravityBridge.Lib.Store
