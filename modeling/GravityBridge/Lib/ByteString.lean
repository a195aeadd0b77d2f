import GravityBridge.Lib.Digits

/-!
# Byte strings

Strings are lists of bytes. The module writes numbers and byte strings in
printable form and states when a string joined with a separator can be split
again: a field of plain symbols ends where the separator leaves the plain
alphabet, on whichever side of the string the field stands.
-/

namespace GravityBridge.Lib.ByteString

open Lib.Digits List

instance linearOrderUInt8 : LinearOrder UInt8 where
  le_refl := UInt8.le_refl
  le_trans _ _ _ := UInt8.le_trans
  lt_iff_le_not_ge first second := by
    simp only [UInt8.lt_iff_toNat_lt, UInt8.le_iff_toNat_le]
    omega
  le_antisymm _ _ := UInt8.le_antisymm
  le_total := UInt8.le_total
  toDecidableLE := inferInstance

abbrev Bytes := List UInt8

instance lawfulBEqBytes : LawfulBEq Bytes := inferInstance

/-- The bytes of a text in the range of single-byte characters. -/
def ascii (text : String) : Bytes := text.toList.map (fun symbol => UInt8.ofNat symbol.toNat)

/-- Whether a string occurs inside another one. -/
def contains (part : Bytes) : Bytes → Bool
  | [] => part.isPrefixOf []
  | byte :: rest => part.isPrefixOf (byte :: rest) || contains part rest

theorem contains_iff {part whole : Bytes} : contains part whole = true ↔ part <:+: whole := by
  induction whole with
  | nil => simp [contains]
  | cons byte rest ih =>
    rw [contains, Bool.or_eq_true, isPrefixOf_iff_prefix, ih, infix_cons_iff]

/-! ## Printed numbers -/

/-- The symbol of a digit below sixteen, in lower case. -/
def digitByte (digit : Nat) : UInt8 := UInt8.ofNat (if digit < 10 then 48 + digit else 87 + digit)

/-- The digit that a symbol of either case writes. -/
def hexDigit (byte : UInt8) : Option Nat :=
  if 48 ≤ byte ∧ byte ≤ 57 then some (byte.toNat - 48)
  else if 97 ≤ byte ∧ byte ≤ 102 then some (byte.toNat - 87)
  else if 65 ≤ byte ∧ byte ≤ 70 then some (byte.toNat - 55)
  else none

theorem hexDigit_digitByte {digit : Nat} (below : digit < 16) :
    hexDigit (digitByte digit) = some digit := by
  revert digit
  decide

theorem map_digitByte_injective {first second : List Nat} (firstBelow : ∀ digit ∈ first, digit < 16)
    (secondBelow : ∀ digit ∈ second, digit < 16)
    (same : first.map digitByte = second.map digitByte) : first = second := by
  have read : ∀ digits : List Nat, (∀ digit ∈ digits, digit < 16) →
      (digits.map digitByte).map hexDigit = digits.map some := by
    intro digits below
    rw [map_map]
    exact map_congr_left (fun digit member => hexDigit_digitByte (below digit member))
  have options : first.map some = second.map some := by
    rw [← read first firstBelow, same, read second secondBelow]
  exact map_injective_iff.mpr (Option.some_injective Nat) options

/-- A number in a base up to sixteen, without leading zeros. -/
def numeral (base number : Nat) : Bytes := (shortest base number).map digitByte

variable {first second base : Nat} {number : Nat} {byte : UInt8}

theorem numeral_injective (large : 1 < base) (small : base ≤ 16)
    (same : numeral base first = numeral base second) : first = second :=
  shortest_injective (map_digitByte_injective
    (fun digit member => (shortest_lt large first digit member).trans_le small)
    (fun digit member => (shortest_lt large second digit member).trans_le small) same)

theorem mem_numeral (large : 1 < base)
    (member : byte ∈ numeral base number) : ∃ digit < base, byte = digitByte digit := by
  obtain ⟨digit, inDigits, rfl⟩ := mem_map.mp member
  exact ⟨digit, shortest_lt large number digit inDigits, rfl⟩

variable {width : Nat}

theorem length_numeral_le (large : 1 < base) (positive : 0 < width)
    (fits : number < base ^ width) : (numeral base number).length ≤ width := by
  rw [numeral, length_map]
  exact length_shortest_le large positive fits

theorem numeral_ne_nil (base number : Nat) : numeral base number ≠ [] := by
  simpa [numeral] using shortest_ne_nil base number

/-- Two lower-case digits for every byte. -/
def hexEncode (bytes : Bytes) : Bytes :=
  bytes.flatMap (fun byte => [digitByte (byte.toNat / 16), digitByte (byte.toNat % 16)])

theorem mem_hexEncode {bytes : Bytes} (member : byte ∈ hexEncode bytes) :
    ∃ digit < 16, byte = digitByte digit := by
  obtain ⟨source, _, inPair⟩ := mem_flatMap.mp member
  have bound := source.toNat_lt
  rcases mem_pair.mp inPair with rfl | rfl
  · exact ⟨_, by omega, rfl⟩
  · exact ⟨_, by omega, rfl⟩

/-- Read pairs of hexadecimal digits of either case. -/
def hexDecode : Bytes → Option Bytes
  | [] => some []
  | [_] => none
  | high :: low :: rest =>
      match hexDigit high, hexDigit low, hexDecode rest with
      | some upper, some lower, some bytes => some (UInt8.ofNat (16 * upper + lower) :: bytes)
      | _, _, _ => none

theorem hexEncode_injective {first second : Bytes} (same : hexEncode first = hexEncode second) :
    first = second := by
  induction first generalizing second with
  | nil =>
    cases second with
    | nil => rfl
    | cons byte rest => simp [hexEncode] at same
  | cons byte rest ih =>
    cases second with
    | nil => simp [hexEncode] at same
    | cons other tail =>
      have byteBound := byte.toNat_lt
      have otherBound := other.toNat_lt
      simp only [hexEncode, flatMap_cons, cons_append, nil_append, List.cons.injEq] at same
      obtain ⟨high, low, tails⟩ := same
      have highSame := congrArg hexDigit high
      have lowSame := congrArg hexDigit low
      rw [hexDigit_digitByte (by omega), hexDigit_digitByte (by omega)] at highSame lowSame
      have bytesSame : byte = other := by
        apply UInt8.toNat_inj.mp
        have := Option.some.inj highSame
        have := Option.some.inj lowSame
        omega
      rw [bytesSame, ih tails]

/-! ## Splitting joined strings -/

section Split

variable {α : Type*} (plain : α → Prop) {start mark : α} {rest left right : List α}

/-- The first occurrence of a mark splits a string in one way. -/
theorem splitMark {first second : List α} (firstClear : mark ∉ first)
    (secondClear : mark ∉ second) (same : first ++ mark :: left = second ++ mark :: right) :
    first = second ∧ left = right := by
  induction first generalizing second with
  | nil =>
    cases second with
    | nil => simpa using same
    | cons head tail =>
      have heads : mark = head := (List.cons.inj same).1
      exact absurd (heads ▸ mem_cons_self) secondClear
  | cons head tail ih =>
    cases second with
    | nil =>
      have heads : head = mark := (List.cons.inj same).1
      exact absurd (heads ▸ mem_cons_self) firstClear
    | cons other more =>
      obtain ⟨heads, tails⟩ := List.cons.inj same
      obtain ⟨fields, rests⟩ := ih (fun member => firstClear (mem_cons_of_mem _ member))
        (fun member => secondClear (mem_cons_of_mem _ member)) tails
      exact ⟨by rw [heads, fields], rests⟩

section

variable {first second : List α} (firstPlain : ∀ symbol ∈ first, plain symbol)
  (secondPlain : ∀ symbol ∈ second, plain symbol)

include firstPlain secondPlain

/-- A field of plain symbols in front of a separator is determined: the separator starts with a
plain symbol and leaves the plain alphabet at once. -/
theorem splitFront (startPlain : plain start) (markOutside : ¬ plain mark)
    (same : first ++ (start :: mark :: rest) ++ left = second ++ (start :: mark :: rest) ++ right) :
    first = second ∧ left = right := by
  have clear : ∀ field : List α, (∀ symbol ∈ field, plain symbol) → mark ∉ field ++ [start] := by
    intro field fieldPlain member
    rcases mem_append.mp member with inField | last
    · exact markOutside (fieldPlain mark inField)
    · exact markOutside (mem_singleton.mp last ▸ startPlain)
  have marked : (first ++ [start]) ++ mark :: (rest ++ left) =
      (second ++ [start]) ++ mark :: (rest ++ right) := by
    simpa using same
  obtain ⟨fields, rests⟩ := splitMark (clear first firstPlain) (clear second secondPlain) marked
  exact ⟨append_cancel_right fields, append_cancel_left rests⟩

/-- A field of plain symbols after a mark outside the alphabet is determined. -/
theorem splitBack (markOutside : ¬ plain mark)
    (same : left ++ [mark] ++ first = right ++ [mark] ++ second) :
    left = right ∧ first = second := by
  -- Read backwards, the field stands in front of the mark.
  have reversed : first.reverse ++ mark :: left.reverse =
      second.reverse ++ mark :: right.reverse := by
    simpa using congrArg List.reverse same
  obtain ⟨fields, rests⟩ :=
    splitMark (fun member => markOutside (firstPlain mark (mem_reverse.mp member)))
    (fun member => markOutside (secondPlain mark (mem_reverse.mp member))) reversed
  exact ⟨reverse_injective rests, reverse_injective fields⟩

end

/-- Two splits of one string at a separator that cannot overlap itself: they agree, or one field
runs on past the separator that ends the other. -/
theorem splitOverlap (once : start ∉ rest) {first second : List α}
    (same : first ++ (start :: rest) ++ left = second ++ (start :: rest) ++ right) :
    (first = second ∧ left = right) ∨
      (∃ gap, second = first ++ (start :: rest) ++ gap ∧ left = gap ++ (start :: rest) ++ right) ∨
      (∃ gap, first = second ++ (start :: rest) ++ gap ∧ right = gap ++ (start :: rest) ++ left) := by
  have later : ∀ {gap front back : List α}, (start :: rest) ++ front =
      gap ++ ((start :: rest) ++ back) → gap = [] ∨ ∃ tail, gap = (start :: rest) ++ tail := by
    intro gap front back equal
    rcases append_eq_append_iff.mp equal with ⟨tail, found, _⟩ | ⟨tail, found, shifted⟩
    · exact .inr ⟨tail, found⟩
    · rcases gap with _ | ⟨head, more⟩
      · exact .inl rfl
      · rcases tail with _ | ⟨next, others⟩
        · exact .inr ⟨[], by simpa using found.symm⟩
        · have heads : start = next := (List.cons.inj shifted).1
          have inside : rest = more ++ next :: others := (List.cons.inj found).2
          exact absurd (by simp [inside, heads]) once
  rw [append_assoc, append_assoc] at same
  rcases append_eq_append_iff.mp same with ⟨gap, found, equal⟩ | ⟨gap, found, equal⟩
  · rcases later equal with rfl | ⟨tail, rfl⟩
    · exact .inl ⟨by simpa using found.symm, by simpa using equal⟩
    · refine .inr (.inl ⟨tail, by simpa using found, ?_⟩)
      simpa using equal
  · rcases later equal with rfl | ⟨tail, rfl⟩
    · exact .inl ⟨by simpa using found, by simpa using equal.symm⟩
    · refine .inr (.inr ⟨tail, by simpa using found, ?_⟩)
      simpa using equal

end Split

/-! ## Bytes as digits -/

theorem map_toNat_ofNat {digits : List Nat} (below : ∀ digit ∈ digits, digit < 256) :
    (digits.map UInt8.ofNat).map UInt8.toNat = digits := by
  rw [map_map]
  refine (map_congr_left fun digit member => ?_).trans (map_id digits)
  exact Nat.mod_eq_of_lt (below digit member)

theorem map_ofNat_toNat (bytes : Bytes) : (bytes.map UInt8.toNat).map UInt8.ofNat = bytes := by
  rw [map_map]
  exact (map_congr_left fun byte _ => UInt8.ofNat_toNat).trans (map_id bytes)

/-- A number that fits is determined by its bytes. -/
theorem bigEndian_bytes_injective (firstFits : first < 256 ^ width)
    (secondFits : second < 256 ^ width)
    (same : (bigEndian 256 width first).map UInt8.ofNat =
      (bigEndian 256 width second).map UInt8.ofNat) :
    first = second := by
  refine bigEndian_injective firstFits secondFits ?_
  rw [← map_toNat_ofNat (bigEndian_lt 256 (by decide) width first), same,
    map_toNat_ofNat (bigEndian_lt 256 (by decide) width second)]

theorem toNat_lt_of_mem (bytes : Bytes) : ∀ digit ∈ bytes.map UInt8.toNat, digit < 256 := by
  intro digit member
  obtain ⟨byte, _, rfl⟩ := mem_map.mp member
  exact byte.toNat_lt

theorem map_toNat_lt_iff (first second : Bytes) :
    first.map UInt8.toNat < second.map UInt8.toNat ↔ first < second := by
  induction first generalizing second with
  | nil => cases second <;> simp
  | cons byte rest ih =>
    cases second with
    | nil => simp
    | cons other others =>
      simp only [map_cons, cons_lt_cons_iff, ih, UInt8.lt_iff_toNat_lt, UInt8.toNat_inj]

/-- The bytes of numbers that fit are ordered as the numbers. -/
theorem bigEndian_bytes_lt_iff (firstFits : first < 256 ^ width) (secondFits : second < 256 ^ width) :
    (bigEndian 256 width first).map UInt8.ofNat < (bigEndian 256 width second).map UInt8.ofNat ↔
      first < second := by
  rw [← map_toNat_lt_iff, map_toNat_ofNat (bigEndian_lt 256 (by decide) width first),
    map_toNat_ofNat (bigEndian_lt 256 (by decide) width second),
    bigEndian_lt_iff firstFits secondFits]

end GravityBridge.Lib.ByteString
