import GravityBridge.Lib.Store

/-!
# Indexes that only grow

Two stores may be inverse to each other: one is read from keys to values, the
other from values to keys. An entry under keys that are fresh on both sides keeps
them so. What is only ever written under fresh keys is never changed.
-/

namespace GravityBridge.Lib.Store.KVStore

variable {κ ν μ : Type*} [LinearOrder κ] [LinearOrder ν] {forward : KVStore κ ν}
  {backward : KVStore ν κ} {key : κ} {store : KVStore κ μ}

/-- No value stands under two keys. -/
def Injective (store : KVStore κ μ) : Prop :=
  ∀ first second value, store.get first = some value → store.get second = some value → first = second

/-- Each store is the inverse of the other. -/
def Inverse (forward : KVStore κ ν) (backward : KVStore ν κ) : Prop :=
  ∀ key value, forward.get key = some value ↔ backward.get value = some key

/-- Every entry of the first store is an entry of the second. -/
def Within (store next : KVStore κ μ) : Prop :=
  ∀ key value, store.get key = some value → next.get key = some value

theorem inverse_empty : Inverse (empty : KVStore κ ν) (empty : KVStore ν κ) := by
  intro key value
  simp

theorem Inverse.injective (inverse : Inverse forward backward) :
    forward.Injective := by
  intro first second value left right
  have read := (inverse first value).mp left
  rw [(inverse second value).mp right] at read
  exact (Option.some.inj read).symm

theorem Inverse.symm (inverse : Inverse forward backward) :
    Inverse backward forward := fun value key => (inverse key value).symm

/-- A pair that is fresh on both sides is added to both. -/
theorem Inverse.set (inverse : Inverse forward backward) {value : ν}
    (keyFresh : forward.get key = none) (valueFresh : backward.get value = none) :
    Inverse (forward.set key value) (backward.set value key) := by
  intro other stored
  rw [get_set, get_set]
  by_cases sameKey : other = key
  · by_cases sameValue : stored = value
    · simp [sameKey, sameValue]
    · have absent := (inverse key stored).not.mp (by simp [keyFresh])
      simp [sameKey, sameValue, absent, Ne.symm sameValue]
  · by_cases sameValue : stored = value
    · have absent := (inverse other value).not.mpr (by simp [valueFresh])
      simp [sameKey, sameValue, absent, Ne.symm sameKey]
    · simp [sameKey, sameValue, inverse other stored]

theorem Within.refl (store : KVStore κ μ) : Within store store := fun _ _ found => found

theorem Within.trans {middle next : KVStore κ μ} (left : Within store middle)
    (right : Within middle next) :
    Within store next := fun key value found => right key value (left key value found)

/-- Nothing is overwritten under a fresh key. -/
theorem within_set (fresh : store.get key = none) (value : μ) :
    Within store (store.set key value) := by
  intro other stored found
  rw [get_set, if_neg, found]
  rintro rfl
  rw [fresh] at found
  contradiction

end GravityBridge.Lib.Store.KVStore
