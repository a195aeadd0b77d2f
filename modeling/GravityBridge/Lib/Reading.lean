import GravityBridge.Lib.Abi
import GravityBridge.Lib.Fallible

/-!
# Reading bytes by their positions

A range of positions outside the bytes panics, and so does a sum or a product of
positions that does not fit into 64 bits. Words and arrays of words are read back
from where the encoding of a contract has put them.
-/

namespace GravityBridge.Lib.Reading

open Lib.Fallible Lib.ByteString Lib.Digits Lib.Abi List

variable {ε α β : Type}

/-! ## Computations that do not panic -/

def Calm (result : Outcome ε α) : Prop := ∀ messages, Avoids messages result

variable {condition : Prop} {cause : ε} {body : α → Outcome ε β} {items : List α}

section

variable {result : Outcome ε α} {message : String}

@[simp] theorem calm_pure (value : α) : Calm (pure value : Outcome ε α) := fun _ => avoids_pure value

@[simp] theorem calm_require [Decidable condition] : Calm (require condition cause) :=
  fun _ => avoids_require

@[simp] theorem calm_check [Decidable condition] :
    Calm (check condition message : Outcome ε Unit) ↔ condition := by
  simp only [Calm, avoids_check]
  exact ⟨fun calm => (calm [message]).resolve_right (by simp), fun holds _ => Or.inl holds⟩

@[simp] theorem calm_bind {next : α → Outcome ε β} :
    Calm (result >>= next) ↔ Calm result ∧ ∀ value, result = .ok value → Calm (next value) := by
  simp only [Calm, avoids_bind, forall_and]
  exact and_congr_right fun _ => ⟨fun calm value ran messages => calm messages value ran,
    fun calm messages value ran => calm value ran messages⟩

/-- What follows a check only runs where it holds. -/
theorem calm_check_bind [Decidable condition] {next : Unit → Outcome ε β} :
    Calm (check condition message >>= next) ↔ condition ∧ Calm (next ()) := by
  simp only [calm_bind, calm_check, check_eq_ok]
  exact and_congr_right fun holds => ⟨fun calm => calm () holds, fun calm _ _ => calm⟩

theorem calm_mapM (each : ∀ item ∈ items, Calm (body item)) :
    Calm (items.mapM body) := by
  induction items with
  | nil => simp
  | cons item rest ih =>
    rw [mapM_cons]
    simp only [calm_bind, calm_pure, implies_true, and_true]
    exact ⟨each item mem_cons_self, fun _ _ => ih fun other member =>
      each other (mem_cons_of_mem _ member)⟩

end

/-! ## Positions -/

def addUsize (first second : Nat) : Outcome ε Nat := do
  check (first + second < 2 ^ 64) "attempt to add with overflow"
  pure (first + second)

def mulUsize (first second : Nat) : Outcome ε Nat := do
  check (first * second < 2 ^ 64) "attempt to multiply with overflow"
  pure (first * second)

/-- `&data[start..stop]`. -/
def slice (data : List α) (start stop : Nat) : Outcome ε (List α) := do
  check (start ≤ stop ∧ stop ≤ data.length) "range end index out of range for slice"
  pure ((data.take stop).drop start)

variable {first second : Nat}

@[simp] theorem addUsize_eq_ok {result : Nat} :
    (addUsize first second : Outcome ε Nat) = .ok result ↔ first + second < 2 ^ 64 ∧
      first + second = result := by
  simp [addUsize]

@[simp] theorem mulUsize_eq_ok {result : Nat} :
    (mulUsize first second : Outcome ε Nat) = .ok result ↔ first * second < 2 ^ 64 ∧
      first * second = result := by
  simp [mulUsize]

variable {start stop : Nat} {data : List α}

@[simp] theorem slice_eq_ok {result : List α} :
    (slice data start stop : Outcome ε (List α)) = .ok result ↔
      (start ≤ stop ∧ stop ≤ data.length) ∧ (data.take stop).drop start = result := by
  simp [slice]

/-! What follows one of these operations only runs on the value it gives. -/

variable {next : Nat → Outcome ε β}

theorem calm_require_bind [Decidable condition] {next : Unit → Outcome ε β} :
    Calm (require condition cause >>= next) ↔ (condition → Calm (next ())) := by
  simp only [calm_bind, calm_require, require_eq_ok, true_and]
  exact ⟨fun calm => calm (), fun calm _ => calm⟩

theorem calm_addUsize_bind :
    Calm (addUsize first second >>= next) ↔ first + second < 2 ^ 64 ∧
      Calm (next (first + second)) := by
  rw [addUsize, bind_assoc, calm_check_bind, pure_bind]

theorem calm_mulUsize_bind :
    Calm (mulUsize first second >>= next) ↔ first * second < 2 ^ 64 ∧
      Calm (next (first * second)) := by
  rw [mulUsize, bind_assoc, calm_check_bind, pure_bind]

theorem calm_slice_bind {next : List α → Outcome ε β} : Calm (slice data start stop >>= next) ↔
      (start ≤ stop ∧ stop ≤ data.length) ∧ Calm (next ((data.take stop).drop start)) := by
  rw [slice, bind_assoc, calm_check_bind, pure_bind]

/-- What stands between a front and a rest. -/
theorem drop_take_of_split {front chunk rest : List α} (split : data = front ++ (chunk ++ rest))
    (starts : front.length = start) (stops : start + chunk.length = stop) :
    (data.take stop).drop start = chunk := by
  rw [split, ← stops, ← starts, take_length_add_append, drop_left, take_left]

/-! ## Numbers -/

/-- The number that bytes write, most significant first. -/
def uint (bytes : Bytes) : Nat := value 256 (bytes.map UInt8.toNat)

variable {number : Nat}

theorem uint_bigEndian {width : Nat} (fits : number < 256 ^ width) :
    uint ((bigEndian 256 width number).map UInt8.ofNat) = number := by
  rw [uint, map_toNat_ofNat (bigEndian_lt 256 (by decide) width number), value_bigEndian width fits]

theorem uint_word (fits : number < 2 ^ 256) : uint (word number) = number := by
  have inRange : ((number : Int) % 2 ^ 256).toNat = number := by omega
  rw [word, inRange]
  exact uint_bigEndian (by omega)

/-- The digits behind the first ones write the number when it fits into them. -/
theorem drop_bigEndian (base extra width number : Nat) :
    (bigEndian base (extra + width) number).drop extra = bigEndian base width number := by
  induction width generalizing number with
  | zero => simp [bigEndian, drop_of_length_le]
  | succ width ih =>
    rw [← Nat.add_assoc, bigEndian, bigEndian, drop_append_of_le_length (by simp), ih]

/-- An address is the last twenty bytes of its word. -/
theorem uint_drop_word (fits : number < 2 ^ 160) : uint ((word number).drop 12) = number := by
  have inRange : ((number : Int) % 2 ^ 256).toNat = number := by omega
  rw [word, inRange, ← map_drop, drop_bigEndian 256 12 20]
  exact uint_bigEndian (by omega)

/-! ## Words and loops -/

theorem length_padded (content : Bytes) :
    (padded content).length = (content.length + 31) / 32 * 32 := by
  rw [padded, length_append, length_replicate]
  omega

/-- Behind a whole number of words, what follows a padded text starts at the next word. -/
theorem length_append_padded {front content : Bytes} {words : Nat}
    (aligned : front.length = words * 32) :
    (front ++ padded content).length = (front.length + content.length + 31) / 32 * 32 := by
  rw [length_append, length_padded]
  omega

theorem length_flatMap_word (numbers : List Int) :
    (numbers.flatMap word).length = 32 * numbers.length := by
  simp [length_flatMap, Nat.mul_comm]

/-- One of the words at the front. -/
theorem drop_take_words {numbers : List Int} {rest : Bytes} {index : Nat}
    (inside : index < numbers.length) :
    ((numbers.flatMap word ++ rest).take (index * 32 + 32)).drop
    (index * 32) = word numbers[index] := by
  have around : numbers = numbers.take index ++ numbers[index] :: numbers.drop (index + 1) := by
    rw [cons_getElem_drop_succ, take_append_drop]
  have words := congrArg (List.flatMap word) around
  rw [flatMap_append, flatMap_cons] at words
  have apart : numbers.flatMap word ++ rest = (numbers.take index).flatMap word ++
      (word numbers[index] ++ ((numbers.drop (index + 1)).flatMap word ++ rest)) := by
    rw [words]
    simp only [append_assoc]
  refine drop_take_of_split apart ?_ (by rw [length_word])
  rw [length_flatMap_word, length_take, Nat.min_eq_left inside.le]
  omega

end GravityBridge.Lib.Reading
