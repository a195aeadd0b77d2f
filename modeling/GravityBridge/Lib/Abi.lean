import GravityBridge.Lib.ByteString

/-!
# Encoding the arguments of a contract call

Every argument takes one word of thirty-two bytes, in order. An argument of
variable length leaves the offset of its data in that word, and the data follow
the words of all arguments in the same order. Arguments of the same types, with data
of the same lengths, are determined by their encoding.
-/

namespace GravityBridge.Lib.Abi

open Lib.ByteString Lib.Digits List

/-- A number modulo the word size, most significant byte first. -/
def word (number : Int) : Bytes := (bigEndian 256 32 (number % 2 ^ 256).toNat).map UInt8.ofNat

/-- Append zeros up to a multiple of thirty-two bytes. -/
def padded (content : Bytes) : Bytes := content ++ List.replicate ((32 - content.length % 32) % 32) 0

inductive Argument where
  | number (value : Int)
  /-- The type `bytes32`. -/
  | fixed (content : Bytes)
  | array (values : List Int)
  | bytes (content : Bytes)
  deriving DecidableEq, Repr

/-- The data that follow the words of all arguments. -/
def Argument.data : Argument → Bytes
  | .number _ | .fixed _ => []
  | .array values => word values.length ++ values.flatMap word
  | .bytes content => word content.length ++ padded content

/-- The word of an argument whose data start at an offset. -/
def Argument.head (offset : Nat) : Argument → Bytes
  | .number value => word value
  | .fixed content => content ++ List.replicate (32 - content.length) 0
  | .array _ | .bytes _ => word offset

/-- The words of the arguments when the data of the first start at an offset. -/
def heads : Nat → List Argument → Bytes
  | _, [] => []
  | offset, argument :: rest => argument.head offset ++ heads (offset + argument.data.length) rest

def encode (arguments : List Argument) : Bytes :=
  heads (32 * arguments.length) arguments ++ arguments.flatMap Argument.data

/-! ## Reading an encoding back -/

@[simp] theorem length_word (number : Int) : (word number).length = 32 := by
  simp [word]

/-- A word holds the number. -/
def InWord (number : Int) : Prop := 0 ≤ number ∧ number < 2 ^ 256

theorem word_injective {first second : Int} (firstFits : InWord first) (secondFits : InWord second)
    (same : word first = word second) : first = second := by
  obtain ⟨firstPositive, firstBelow⟩ := firstFits
  obtain ⟨secondPositive, secondBelow⟩ := secondFits
  rw [word, word, Int.emod_eq_of_lt firstPositive firstBelow,
    Int.emod_eq_of_lt secondPositive secondBelow] at same
  have numbers := bigEndian_bytes_injective (by omega) (by omega) same
  omega

@[simp] theorem length_data_array (values : List Int) :
    (Argument.array values).data.length = 32 + 32 * values.length := by
  simp [Argument.data, length_flatMap, Nat.mul_comm]

theorem flatMap_word_injective {first second : List Int} (firstFits : ∀ value ∈ first, InWord value)
    (secondFits : ∀ value ∈ second, InWord value) (lengths : first.length = second.length)
    (same : first.flatMap word = second.flatMap word) : first = second := by
  induction first generalizing second with
  | nil => exact (length_eq_zero_iff.mp lengths.symm).symm
  | cons value rest ih =>
    obtain ⟨other, tail, rfl⟩ := exists_cons_of_length_eq_add_one lengths.symm
    rw [flatMap_cons, flatMap_cons] at same
    obtain ⟨words, tails⟩ := append_inj same (by simp)
    rw [word_injective (firstFits _ mem_cons_self) (secondFits _ mem_cons_self) words,
      ih (fun value member => firstFits value (mem_cons_of_mem _ member))
        (fun value member => secondFits value (mem_cons_of_mem _ member))
          (by simpa using lengths) tails]

/-- The zeros behind a text that does not end with a zero can be told from it. -/
theorem append_zeros_injective {first second : Bytes} (firstEnd : first.getLast? ≠ some 0)
    (secondEnd : second.getLast? ≠ some 0) {left right : Nat}
    (same : first ++ List.replicate left 0 = second ++ List.replicate right 0) : first = second := by
  have stripped : ∀ (text : Bytes) (count : Nat), text.getLast? ≠ some 0 →
      (text ++ List.replicate count 0).rdropWhile (· == 0) = text := by
    intro text count ends
    induction count with
    | zero =>
      rw [replicate_zero, append_nil, rdropWhile_eq_self_iff]
      intro nonempty last
      rw [getLast?_eq_some_getLast nonempty] at ends
      exact ends (congrArg some (beq_iff_eq.mp last))
    | succ count ih =>
      rw [replicate_succ', ← append_assoc, rdropWhile_concat_pos _ _ _ (by rfl), ih]
  rw [← stripped first left firstEnd, same, stripped second right secondEnd]

/-- The words that the argument takes hold what is written there. -/
def Argument.Fits : Argument → Prop
  | .number value => InWord value
  | .fixed content => content.length ≤ 32
  | .array values => ∀ value ∈ values, InWord value
  | .bytes _ => True

theorem Argument.length_head {argument : Argument} (fits : argument.Fits) (offset : Nat) :
    (argument.head offset).length = 32 := by
  cases argument with
  | number value => exact length_word value
  | fixed content =>
    have short : content.length ≤ 32 := fits
    rw [Argument.head, length_append, length_replicate]
    omega
  | array values => exact length_word offset
  | bytes content => exact length_word offset

theorem length_heads {arguments : List Argument} (fit : ∀ argument ∈ arguments, argument.Fits)
    (offset : Nat) : (heads offset arguments).length = 32 * arguments.length := by
  induction arguments generalizing offset with
  | nil => rfl
  | cons argument rest ih =>
    rw [heads, length_append, Argument.length_head (fit _ mem_cons_self),
      ih (fun other member => fit other (mem_cons_of_mem _ member)), length_cons]
    omega

/-- Arguments of one type with data of one length. Texts are equal or do not end with a zero. -/
inductive Argument.Alike : Argument → Argument → Prop
  | same (argument : Argument) : Alike argument argument
  | number (first second : Int) : Alike (.number first) (.number second)
  | fixed {first second : Bytes} : first.getLast? ≠ some 0 → second.getLast? ≠ some 0 →
      Alike (.fixed first) (.fixed second)
  | array {first second : List Int} : first.length = second.length →
      Alike (.array first) (.array second)

theorem Argument.Alike.data_length {first second : Argument} (alike : Alike first second) :
    first.data.length = second.data.length := by
  cases alike with
  | same => rfl
  | number => rfl
  | fixed => rfl
  | array lengths => simp [Argument.data, lengths]

/-- An argument is read back from its word and its data. -/
theorem Argument.Alike.eq {first second : Argument} (alike : Alike first second)
    (firstFits : first.Fits)
    (secondFits : second.Fits) {offset : Nat} (head : first.head offset = second.head offset)
    (data : first.data = second.data) : first = second := by
  cases alike with
  | same => rfl
  | number => rw [word_injective firstFits secondFits head]
  | fixed firstEnd secondEnd => rw [append_zeros_injective firstEnd secondEnd head]
  | array lengths =>
    have words := (append_inj data (by simp)).2
    rw [flatMap_word_injective firstFits secondFits lengths words]

theorem eq_of_heads_data {first second : List Argument}
    (alike : List.Forall₂ Argument.Alike first second)
    (firstFits : ∀ argument ∈ first, argument.Fits)
    (secondFits : ∀ argument ∈ second, argument.Fits) {offset : Nat}
    (sameHeads : heads offset first = heads offset second)
    (sameData : first.flatMap Argument.data = second.flatMap Argument.data) : first = second := by
  induction alike generalizing offset with
  | nil => rfl
  | @cons argument other rest tail pair _ ih =>
    have argumentFits := firstFits _ mem_cons_self
    have otherFits := secondFits _ mem_cons_self
    have lengths := pair.data_length
    rw [heads, heads] at sameHeads
    obtain ⟨headSame, restHeads⟩ := append_inj sameHeads
      ((Argument.length_head argumentFits _).trans (Argument.length_head otherFits _).symm)
    rw [flatMap_cons, flatMap_cons] at sameData
    obtain ⟨dataSame, restData⟩ := append_inj sameData lengths
    rw [← lengths] at restHeads
    rw [pair.eq argumentFits otherFits headSame dataSame,
      ih (fun value member => firstFits value (mem_cons_of_mem _ member))
        (fun value member => secondFits value (mem_cons_of_mem _ member)) restHeads restData]

theorem encode_injective {first second : List Argument}
    (alike : List.Forall₂ Argument.Alike first second)
    (firstFits : ∀ argument ∈ first, argument.Fits) (secondFits : ∀ argument ∈ second, argument.Fits)
    (same : encode first = encode second) : first = second := by
  have lengths := alike.length_eq
  rw [encode, encode, ← lengths] at same
  obtain ⟨headsSame, dataSame⟩ := append_inj same
    (by rw [length_heads firstFits, length_heads secondFits, lengths])
  exact eq_of_heads_data alike firstFits secondFits headsSame dataSame

/-- Two texts at the front are read off whatever follows. -/
theorem encode_fixed_injective {first second firstName secondName : Bytes}
    {rest others : List Argument}
    (firstFits : first.length ≤ 32) (secondFits : second.length ≤ 32)
    (firstNameFits : firstName.length ≤ 32)
    (secondNameFits : secondName.length ≤ 32) (firstEnd : firstName.getLast? ≠ some 0)
    (secondEnd : secondName.getLast? ≠ some 0)
    (same : encode (.fixed first :: .fixed firstName :: rest) =
      encode (.fixed second :: .fixed secondName :: others)) :
    firstName = secondName := by
  simp only [encode, heads, append_assoc] at same
  have after := (append_inj same (by simp [Argument.head]; omega)).2
  have names := (append_inj after (by simp [Argument.head]; omega)).1
  exact append_zeros_injective firstEnd secondEnd names

theorem length_encode {arguments : List Argument} (fit : ∀ argument ∈ arguments, argument.Fits) :
    (encode arguments).length =
      32 * arguments.length + (arguments.map (fun argument => argument.data.length)).sum := by
  rw [encode, length_append, length_heads fit, length_flatMap]

end GravityBridge.Lib.Abi
