import GravityBridge.Types.Claims

/-!
# What a claim hash determines

The hashed string joins the fields of a claim with the attestation separator.
Numbers, addresses, amounts, denoms and printed members are plain ASCII and are
recovered from the string. The receiver of a deposit, the name and symbol of a
deployment and the invalidation id of a logic call are free text that may hold
the separator itself, and the relation `runsInto` lists what they can imitate.
-/

namespace GravityBridge.Types

open Lib.Fallible Lib.ByteString List

/-! ## Plain fields -/

def Plain (text : Bytes) : Prop := ∀ byte ∈ text, byte ≤ 127

variable {first second : Bytes}

theorem Plain.append (left : Plain first) (right : Plain second) : Plain (first ++ second) := by
  intro byte member
  rcases mem_append.mp member with inFirst | inSecond
  · exact left byte inFirst
  · exact right byte inSecond

theorem plain_of_isASCII {text : Bytes} (accepted : isASCII text = true) : Plain text := by
  intro byte member
  simpa using all_eq_true.mp accepted byte member

theorem plain_digitByte {digit : Nat} (below : digit < 16) : digitByte digit ≤ 127 := by
  revert digit
  decide

theorem plain_numeral {base : Nat} (large : 1 < base) (small : base ≤ 16) (number : Nat) :
    Plain (numeral base number) := by
  intro byte member
  obtain ⟨digit, below, rfl⟩ := mem_numeral large member
  exact plain_digitByte (below.trans_le small)

theorem plain_decimal (number : U64) : Plain (decimal number) :=
  plain_numeral (by decide) (by decide) number.val

theorem plain_amountString (amount : Option Int) : Plain (amountString amount) := by
  rcases amount with _ | ⟨number | number⟩
  · exact plain_of_isASCII (by decide)
  · exact plain_numeral (by decide) (by decide) number
  · exact (plain_of_isASCII (by decide)).append (plain_numeral (by decide) (by decide) _)

theorem plain_hexDigit {byte : UInt8} (isDigit : (hexDigit byte).isSome = true) : byte ≤ 127 := by
  revert byte
  decide +kernel

variable {address : Bytes}

theorem plain_of_validateEthAddress (valid : validateEthAddress address = .ok ()) :
    Plain address := by
  obtain ⟨_, digits⟩ := validateEthAddress_eq_ok.mp valid
  have plainDigits : Plain (strip0xPrefix address) := fun byte member =>
    plain_hexDigit (all_eq_true.mp digits byte member)
  unfold strip0xPrefix at plainDigits
  split_ifs at plainDigits with marked
  · rcases address with _ | ⟨first, _ | ⟨second, rest⟩⟩
    · simp [has0xPrefix] at marked
    · simp [has0xPrefix] at marked
    · simp only [has0xPrefix, Bool.and_eq_true, Bool.or_eq_true, beq_iff_eq] at marked
      intro byte member
      rcases mem_cons.mp member with rfl | tail
      · rw [marked.1]
        decide
      · rcases mem_cons.mp tail with rfl | inDigits
        · rcases marked.2 with rfl | rfl <;> decide
        · exact plainDigits byte inDigits
  · exact plainDigits

theorem plain_hexEncode (bytes : Bytes) : Plain (hexEncode bytes) := by
  intro byte member
  obtain ⟨digit, below, rfl⟩ := mem_hexEncode member
  exact plain_digitByte below

/-! ## Splitting at the separator -/

variable {left right : Bytes}

theorem splitRight (firstPlain : Plain first) (secondPlain : Plain second)
    (same : left ++ attestationSeparator ++ first = right ++ attestationSeparator ++ second) :
    left = right ∧ first = second := by
  have ending : attestationSeparator = attestationSeparator.dropLast ++ [0x81] := by decide
  rw [ending, ← append_assoc, ← append_assoc] at same
  obtain ⟨fronts, fields⟩ := splitBack (· ≤ 127) firstPlain secondPlain (by decide) same
  exact ⟨append_cancel_right fronts, fields⟩

theorem splitAnywhere
    (same : first ++ attestationSeparator ++ left = second ++ attestationSeparator ++ right) :
    (first = second ∧ left = right) ∨ (∃ gap, second = first ++ attestationSeparator ++ gap ∧
        left = gap ++ attestationSeparator ++ right) ∨
      (∃ gap, first = second ++ attestationSeparator ++ gap ∧
        right = gap ++ attestationSeparator ++ left) :=
  splitOverlap (by decide) same

theorem not_plain_separator (front back : Bytes) :
    ¬ Plain (front ++ attestationSeparator ++ back) := by
  intro plain
  have marked : (0xCC : UInt8) ∈ front ++ attestationSeparator ++ back := by
    simp [attestationSeparator]
  exact absurd (plain _ marked) (by decide)

@[simp] theorem joinFields_single (field : Bytes) : joinFields [field] = field := by
  simp [joinFields, List.intercalate]

@[simp] theorem joinFields_cons (field next : Bytes) (rest : List Bytes) :
    joinFields (field :: next :: rest) =
      field ++ attestationSeparator ++ joinFields (next :: rest) := by
  simp [joinFields, List.intercalate, List.intersperse]

theorem decimal_injective {first second : U64} (same : decimal first = decimal second) :
    first = second :=
  Fin.val_injective (numeral_injective (by decide) (by decide) same)

/-- A numeral starts with a digit, so it is told apart from a sign and from a nil amount. -/
theorem numeral_ne_cons (number : Nat) {mark : UInt8} (rest : Bytes)
    (notDigit : ∀ digit < 10, digitByte digit ≠ mark) : numeral 10 number ≠ mark :: rest := by
  intro same
  have member : mark ∈ numeral 10 number := by simp [same]
  obtain ⟨digit, below, equal⟩ := mem_numeral (by decide) member
  exact notDigit digit below equal.symm

theorem amountString_injective {first second : Option Int}
    (same : amountString first = amountString second) :
    first = second := by
  have notMinus : ∀ digit < 10, digitByte digit ≠ 45 := by decide
  have notAngle : ∀ digit < 10, digitByte digit ≠ 60 := by decide
  rcases first with _ | ⟨left | left⟩ <;> rcases second with _ | ⟨right | right⟩
  · rfl
  · exact absurd same.symm (numeral_ne_cons right _ notAngle)
  · exact absurd (List.cons.inj same).1 (by decide)
  · exact absurd same (numeral_ne_cons left _ notAngle)
  · rw [numeral_injective (by decide) (by decide) same]
  · exact absurd same (numeral_ne_cons left _ notMinus)
  · exact absurd (List.cons.inj same).1 (by decide)
  · exact absurd same.symm (numeral_ne_cons right _ notMinus)
  · have numbers := numeral_injective (by decide) (by decide) (List.cons.inj same).2
    rw [Nat.succ.inj numbers]

theorem length_decimal_le (number : U64) : (decimal number).length ≤ 20 :=
  length_numeral_le (by decide) (by decide) (number.isLt.trans (by decide))

theorem decimal_ne_address {number : U64} (valid : validateEthAddress address = .ok ()) :
    decimal number ≠ address := by
  intro same
  have long := (length_of_validateEthAddress valid).1
  have short := length_decimal_le number
  rw [same] at short
  omega

/-! ## Printed members -/

theorem printMember_split {first second : BridgeValidator}
    (same : printMember first ++ left = printMember second ++ right) :
    first = second ∧ left = right := by
  have digitClear : ∀ digit < 16, digitByte digit ≠ 32 ∧ digitByte digit ≠ 125 := by decide
  have powerClear : ∀ number : Nat, (32 : UInt8) ∉ numeral 16 number := by
    intro number member
    obtain ⟨digit, below, equal⟩ := mem_numeral (by decide) member
    exact (digitClear digit below).1 equal.symm
  have addressClear : ∀ bytes : Bytes, (125 : UInt8) ∉ hexEncode bytes := by
    intro bytes member
    obtain ⟨digit, below, equal⟩ := mem_hexEncode member
    exact (digitClear digit below).2 equal.symm
  have spaced : numeral 16 first.power.val ++ 32 :: (hexEncode first.ethereumAddress ++ 125 :: left) =
      numeral 16 second.power.val ++ 32 :: (hexEncode second.ethereumAddress ++ 125 :: right) := by
    simpa [printMember, ascii] using same
  obtain ⟨powers, tails⟩ := splitMark (powerClear _) (powerClear _) spaced
  obtain ⟨addresses, rests⟩ := splitMark (addressClear _) (addressClear _) tails
  refine ⟨?_, rests⟩
  have powersSame := Fin.val_injective (numeral_injective (by decide) (by decide) powers)
  have addressesSame := hexEncode_injective addresses
  cases first
  cases second
  simp_all

theorem plain_printMember (member : BridgeValidator) : Plain (printMember member) := by
  have symbol : ∀ {text : Bytes}, isASCII text = true → Plain text := plain_of_isASCII
  exact ((((symbol (by decide)).append (plain_numeral (by decide) (by decide) _)).append
    (symbol (by decide))).append (plain_hexEncode _)).append (symbol (by decide))

/-- The printed members after the first one, with the closing bracket. -/
def printRest : List BridgeValidator → Bytes
  | [] => ascii "]"
  | member :: rest => ascii " " ++ (printMember member ++ printRest rest)

theorem printMembers_cons (member : BridgeValidator) (rest : List BridgeValidator) :
    printMembers (member :: rest) = ascii "[" ++ (printMember member ++ printRest rest) := by
  have tail : ∀ rest : List BridgeValidator, ∀ member : BridgeValidator,
      (ascii " ").intercalate ((member :: rest).map printMember) ++ ascii "]" =
        printMember member ++ printRest rest := by
    intro rest
    induction rest with
    | nil => simp [printRest, List.intercalate]
    | cons next rest ih =>
      intro member
      rw [printRest, ← ih next]
      simp [List.intercalate]
  rw [printMembers, append_assoc, tail]

theorem printRest_injective {first second : List BridgeValidator}
    (same : printRest first = printRest second) : first = second := by
  induction first generalizing second with
  | nil =>
    cases second with
    | nil => rfl
    | cons member rest => simp [printRest, ascii] at same
  | cons member rest ih =>
    cases second with
    | nil => simp [printRest, ascii] at same
    | cons other tail =>
      obtain ⟨members, rests⟩ := printMember_split (append_cancel_left same)
      rw [members, ih rests]

theorem printMembers_injective {first second : List BridgeValidator}
    (same : printMembers first = printMembers second) : first = second := by
  have empty : ∀ member rest, printMembers [] ≠ printMembers (member :: rest) := by
    intro member rest
    rw [printMembers_cons]
    simp [printMembers, printMember, ascii]
  cases first with
  | nil =>
    cases second with
    | nil => rfl
    | cons member rest => exact absurd same (empty member rest)
  | cons member rest =>
    cases second with
    | nil => exact absurd same.symm (empty member rest)
    | cons other tail =>
      rw [printMembers_cons, printMembers_cons] at same
      obtain ⟨members, rests⟩ := printMember_split (append_cancel_left same)
      rw [members, printRest_injective rests]

theorem plain_printMembers (members : List BridgeValidator) : Plain (printMembers members) := by
  have plainRest : ∀ rest, Plain (printRest rest) := by
    intro rest
    induction rest with
    | nil => exact plain_of_isASCII (by decide)
    | cons member rest ih =>
      exact (plain_of_isASCII (by decide)).append ((plain_printMember member).append ih)
  cases members with
  | nil => exact plain_of_isASCII (by decide)
  | cons member rest =>
    rw [printMembers_cons]
    exact (plain_of_isASCII (by decide)).append ((plain_printMember member).append (plainRest rest))

theorem printMembers_ne_address {members : List BridgeValidator}
    (valid : validateEthAddress address = .ok ()) : address ≠ printMembers members := by
  rintro rfl
  have bracket : ∃ tail, printMembers members = 91 :: tail := ⟨_, rfl⟩
  obtain ⟨tail, shape⟩ := bracket
  have digits := (validateEthAddress_eq_ok.mp valid).2
  have unmarked : strip0xPrefix (printMembers members) = printMembers members := by
    rw [shape]
    cases tail <;> rfl
  rw [unmarked, shape, isHex, all_cons, Bool.and_eq_true] at digits
  exact absurd digits.1 (by decide)

end GravityBridge.Types
