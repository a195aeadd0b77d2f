import GravityBridge.Types.Denom

/-!
# Addresses inside denoms

A denom is searched for an Ethereum address by trying the validator on the 42 bytes behind
every `0x`. The validator takes an address with or without that prefix, but behind it only
forty hexadecimal digits are left to be accepted.
-/

namespace GravityBridge.Types

open Lib.Fallible Lib.ByteString List

/-- A hexadecimal digit of either case. -/
def HexByte (byte : UInt8) : Prop :=
  (48 ≤ byte ∧ byte ≤ 57) ∨ (97 ≤ byte ∧ byte ≤ 102) ∨ (65 ≤ byte ∧ byte ≤ 70)

/-- `0x` or `0X`, and forty hexadecimal digits. -/
structure AddressText (text : Bytes) : Prop where
  length : text.length = 42
  mark : text.take 2 = ascii "0x" ∨ text.take 2 = ascii "0X"
  digits : ∀ byte ∈ text.drop 2, HexByte byte

theorem isSome_hexDigit_iff {byte : UInt8} : (hexDigit byte).isSome = true ↔ HexByte byte := by
  unfold hexDigit HexByte
  split_ifs with number lower upper
  · simp [number]
  · simp [lower]
  · simp [upper]
  · simp [number, lower, upper]

variable {text : Bytes}

theorem has0xPrefix_iff : has0xPrefix text = true ↔ text.take 2 = ascii "0x" ∨
    text.take 2 = ascii "0X" := by
  rcases text with _ | ⟨first, _ | ⟨second, rest⟩⟩
  · decide
  · simp [has0xPrefix, ascii]
  · have marks : ascii "0x" = [48, 120] ∧ ascii "0X" = [48, 88] := by decide
    simp [has0xPrefix, marks, and_or_left]

/-- What the search accepts at a position. -/
theorem validated_iff :
    (has0xPrefix text = true ∧ text.length = 42 ∧ succeeds (validateEthAddress text) = true) ↔
      AddressText text := by
  have accepted : has0xPrefix text = true → (succeeds (validateEthAddress text) = true ↔
      (text.drop 2).length = 40 ∧ ∀ byte ∈ text.drop 2, HexByte byte) := by
    intro marked
    rw [succeeds_eq_true]
    simp only [validateEthAddress_eq_ok, strip0xPrefix, if_pos marked, isHex, all_eq_true,
      isSome_hexDigit_iff, exists_const]
  constructor
  · rintro ⟨marked, length, valid⟩
    exact ⟨length, has0xPrefix_iff.mp marked, ((accepted marked).mp valid).2⟩
  · rintro ⟨length, mark, digits⟩
    have marked := has0xPrefix_iff.mpr mark
    exact ⟨marked, length, (accepted marked).mpr ⟨by rw [length_drop, length], digits⟩⟩

/-- The search accepts a position if an address starts there. -/
theorem starts_iff :
    (has0xPrefix text && 42 ≤ text.length && succeeds (validateEthAddress (text.take 42))) = true ↔
      ∃ address, AddressText address ∧ address <+: text := by
  have window : 42 ≤ text.length →
      (has0xPrefix text = has0xPrefix (text.take 42) ∧ (text.take 42).length = 42) := by
    intro long
    rw [Bool.eq_iff_iff, has0xPrefix_iff, has0xPrefix_iff, take_take, length_take]
    exact ⟨Iff.rfl, by omega⟩
  simp only [Bool.and_eq_true, decide_eq_true_eq, and_assoc]
  constructor
  · rintro ⟨marked, long, valid⟩
    rw [(window long).1] at marked
    exact ⟨text.take 42, validated_iff.mp ⟨marked, (window long).2, valid⟩, take_prefix _ _⟩
  · rintro ⟨address, wellFormed, starts⟩
    have front : address = text.take 42 := wellFormed.length ▸ prefix_iff_eq_take.mp starts
    have long : 42 ≤ text.length := wellFormed.length ▸ starts.length_le
    obtain ⟨marked, _, valid⟩ := validated_iff.mpr wellFormed
    rw [(window long).1, ← front]
    exact ⟨marked, long, valid⟩

variable {denom : Denom}

theorem containsEthAddress_iff :
    containsEthAddress denom = true ↔ ∃ address, AddressText address ∧ address <:+: denom := by
  induction denom with
  | nil =>
    refine iff_of_false (by decide) ?_
    rintro ⟨address, wellFormed, inside⟩
    have length := wellFormed.length
    rw [infix_nil.mp inside] at length
    contradiction
  | cons byte rest ih =>
    rw [containsEthAddress, Bool.or_eq_true, starts_iff, ih, ← exists_or]
    simp only [← and_or_left, infix_cons_iff]

theorem containsEthAddress_mono {part whole : Denom} (inside : part <:+: whole)
    (found : containsEthAddress part = true) : containsEthAddress whole = true := by
  obtain ⟨address, wellFormed, inPart⟩ := containsEthAddress_iff.mp found
  exact containsEthAddress_iff.mpr ⟨address, wellFormed, inPart.trans inside⟩

/-- An accepted address of 42 bytes carries the prefix. -/
theorem addressText_of_newEthAddress {address : EthAddress} (read : newEthAddress text = .ok address)
    (length : text.length = 42) : AddressText text := by
  have valid := (newEthAddress_eq_ok.mp read).1
  refine validated_iff.mp ⟨?_, length, succeeds_eq_true.mpr ⟨(), valid⟩⟩
  by_contra unmarked
  have digits := (validateEthAddress_eq_ok.mp valid).1
  rw [strip0xPrefix, if_neg unmarked, length] at digits
  contradiction

variable {contract : EthAddress}

theorem containsEthAddress_of_drop {count : Nat}
    (read : newEthAddress (denom.drop count) = .ok contract) (length : denom.length = count + 42) :
    containsEthAddress denom = true := by
  have size : (denom.drop count).length = 42 := by
    rw [length_drop, length, Nat.add_sub_cancel_left]
  exact containsEthAddress_iff.mpr ⟨_, addressText_of_newEthAddress read size,
    (drop_suffix _ _).isInfix⟩

theorem containsEthAddress_of_gravityDenomToERC20
    (read : gravityDenomToERC20 denom = .ok contract) : containsEthAddress denom = true := by
  simp only [gravityDenomToERC20, bind_eq_ok, require_eq_ok, rewrap_eq_ok] at read
  obtain ⟨_, _, _, _, address, made, _, length, _⟩ := read
  exact containsEthAddress_of_drop made (length.trans (by decide))

theorem containsEthAddress_of_gravity2DenomToERC20
    (read : gravity2DenomToERC20 denom = .ok contract) : containsEthAddress denom = true := by
  simp only [gravity2DenomToERC20, bind_eq_ok, require_eq_ok, rewrap_eq_ok] at read
  obtain ⟨_, _, _, length, made⟩ := read
  exact containsEthAddress_of_drop made (length.trans (by decide))

/-- The search finds exactly the addresses, in every voucher denom and in everything around one. -/
theorem embedded_addresses_detected :
    (∀ denom, containsEthAddress denom = true ↔ ∃ address, AddressText address ∧ address <:+: denom) ∧
    (∀ denom contract, gravityDenomToERC20 denom = .ok contract ∨
      gravity2DenomToERC20 denom = .ok contract →
      ∀ whole, denom <:+: whole → containsEthAddress whole = true) ∧
    ∀ front denom back, containsEthAddress denom = true →
      containsEthAddress (front ++ denom ++ back) = true := by
  refine ⟨fun denom => containsEthAddress_iff, fun denom contract read whole inside => ?_,
    fun front denom back => ?_⟩
  · refine containsEthAddress_mono inside ?_
    rcases read with first | second
    · exact containsEthAddress_of_gravityDenomToERC20 first
    · exact containsEthAddress_of_gravity2DenomToERC20 second
  · exact containsEthAddress_mono ⟨front, back, rfl⟩

theorem wrapped_voucher_detected :
    gravity2DenomToERC20 (gravity2Denom localnet 7) = .ok 7 ∧
      containsEthAddress (ascii "wrapped" ++ gravity2Denom localnet 7 ++ ascii "0x") = true :=
  have accepted := gravity2DenomToERC20_gravity2Denom localnet 7
  ⟨accepted, embedded_addresses_detected.2.1 _ _ (.inr accepted) _ ⟨_, _, rfl⟩⟩

end GravityBridge.Types
