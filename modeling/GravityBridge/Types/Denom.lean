import GravityBridge.Types.Ethereum

/-!
# Denom validation

The strict grammar of denoms, the test for an embedded Ethereum address and the
bank module's own denom grammar.
-/

namespace GravityBridge.Types

open Lib.Fallible Lib.ByteString List

/-- The letter `G` followed by 31 combining characters in their two-byte encoding. -/
def attestationSeparator : Bytes :=
  [0x47, 0xCC, 0x84, 0xCC, 0x90, 0xCC, 0x8F, 0xCC, 0x8D, 0xCC, 0x84, 0xCC, 0x93, 0xCC, 0x83,
    0xCC, 0x88, 0xCC, 0x8E, 0xCC, 0xA2, 0xCC, 0x88, 0xCC, 0x8E, 0xCC, 0xA2, 0xCC, 0x80, 0xCC, 0x88,
    0xCC, 0x8E, 0xCC, 0xA2, 0xCC, 0x81, 0xCD, 0x92, 0xCD, 0x97, 0xCC, 0xA0, 0xCC, 0x80, 0xCD, 0x97,
    0xCD, 0x80, 0xCC, 0x89, 0xCC, 0xA1, 0xCD, 0x97, 0xCC, 0xB0, 0xCD, 0x90, 0xCC, 0x88, 0xCC, 0x81]

def maxDenomLength : Nat := 256

def ibcDenomLen : Nat := 68

def isASCII (text : Bytes) : Bool := text.all (fun byte => byte ≤ 127)

def isUpperHex (text : Bytes) : Bool :=
  text.all (fun byte => (48 ≤ byte && byte ≤ 57) || (65 ≤ byte && byte ≤ 70))

def validateIbcDenom (denom : Denom) : Go Unit := do
  require (denom.length = ibcDenomLen)
    ⟨.invalidDenom, "IBC denom must be exactly 68 bytes (ibc/ + 64 hex chars)"⟩
  require (isUpperHex (denom.drop 4)) ⟨.invalidDenom, "IBC denom hash must be uppercase hex"⟩
  require (¬ (contains (ascii "gravity") denom ∨ contains (ascii "graviton") denom ∨
      contains (ascii "0x") denom))
    ⟨.invalidDenom, "IBC denom contains forbidden substring"⟩

def validateStrictDenom (denom : Denom) : Go Unit := do
  require (denom ≠ []) ⟨.invalidDenom, "denom is empty"⟩
  require (denom.length ≤ maxDenomLength) ⟨.invalidDenom, "denom exceeds maximum length of 256"⟩
  require (isASCII denom) ⟨.invalidDenom, "denom contains non-ASCII characters"⟩
  require (¬ contains attestationSeparator denom)
    ⟨.invalidDenom, "denom contains forbidden separator"⟩
  require (¬ contains (ascii "\\") denom) ⟨.invalidDenom, "denom contains forbidden backslash"⟩
  if (ascii "ibc/").isPrefixOf denom then
    validateIbcDenom denom
  else if gravity2DenomPrefix.isPrefixOf denom then
    let _ ← rewrap ⟨.invalidDenom, "invalid gravity2 denom"⟩ (gravity2DenomToERC20 denom)
    pure ()
  else if (gravityDenomPrefix ++ ascii "0x").isPrefixOf denom then
    let _ ← rewrap ⟨.invalidDenom, "invalid gravity denom"⟩ (gravityDenomToERC20 denom)
    pure ()
  else if gravityDenomPrefix.isPrefixOf denom then
    fail ⟨.invalidDenom, "denom has gravity prefix but is not a valid bridge denom"⟩
  else
    require (¬ contains (ascii "/") denom) ⟨.invalidDenom, "non-IBC denom contains slash"⟩

/-- Whether some `0x` in the denom starts a well-formed Ethereum address. -/
def containsEthAddress : Denom → Bool
  | [] => false
  | byte :: rest =>
      (has0xPrefix (byte :: rest) && 42 ≤ (byte :: rest).length &&
        succeeds (validateEthAddress ((byte :: rest).take 42))) || containsEthAddress rest

/-- `sdk.ValidateDenom`: a letter followed by 2 to 127 letters, digits or separators. -/
def sdkValidateDenom (denom : Denom) : Bool :=
  let letter := fun byte : UInt8 => (65 ≤ byte && byte ≤ 90) || (97 ≤ byte && byte ≤ 122)
  let other := fun byte : UInt8 => letter byte || (48 ≤ byte && byte ≤ 57) || byte == 47 ||
    byte == 58 || byte == 46 || byte == 95 || byte == 45
  match denom with
  | [] => false
  | first :: rest => letter first && rest.all other && 2 ≤ rest.length && rest.length ≤ 127

/-! ## Facts about accepted denoms -/

theorem isASCII_of_validateStrictDenom {denom : Denom} (valid : validateStrictDenom denom = .ok ()) :
    isASCII denom = true := by
  simp only [validateStrictDenom, bind_eq_ok, require_eq_ok] at valid
  obtain ⟨_, _, _, _, _, accepted, _⟩ := valid
  exact accepted

/-! ## Voucher denoms are accepted -/

def isAlphanumeric (byte : UInt8) : Bool :=
  (48 ≤ byte && byte ≤ 57) || (65 ≤ byte && byte ≤ 90) || (97 ≤ byte && byte ≤ 122)

theorem isAlphanumeric_of_hexDigit {byte : UInt8} (digit : (hexDigit byte).isSome = true) :
    isAlphanumeric byte = true := by
  revert byte
  decide +kernel

theorem isAlphanumeric_hex (ext : External) (address : EthAddress) :
    (hex ext address).all isAlphanumeric = true := by
  have stripped := isHex_hex ext address
  rw [strip0xPrefix_hex, isHex, all_eq_true] at stripped
  rw [hex, all_append, Bool.and_eq_true]
  refine ⟨by decide, all_eq_true.mpr (fun byte member => ?_)⟩
  exact isAlphanumeric_of_hexDigit (stripped byte member)

theorem isASCII_of_isAlphanumeric {text : Bytes} (clean : text.all isAlphanumeric = true) :
    isASCII text = true := by
  have low : ∀ byte, isAlphanumeric byte = true → byte ≤ 127 := by decide +kernel
  exact all_eq_true.mpr fun byte member =>
    decide_eq_true (low byte (all_eq_true.mp clean byte member))

theorem not_contains_of_all {part whole : Bytes} {good : UInt8 → Bool} (bad : UInt8)
    (clean : whole.all good = true) (member : bad ∈ part) (isBad : good bad = false) :
    contains part whole = false := by
  rw [Bool.eq_false_iff, Ne, contains_iff]
  intro inside
  have found := all_eq_true.mp clean bad (inside.subset member)
  simp [isBad] at found

variable (ext : External) (token : EthAddress)

theorem isAlphanumeric_append_hex {front : Bytes} (clean : front.all isAlphanumeric = true) :
    (front ++ hex ext token).all isAlphanumeric = true := by
  rw [all_append, clean, isAlphanumeric_hex, Bool.and_true]

theorem isAlphanumeric_gravityDenom : (gravityDenom ext token).all isAlphanumeric = true :=
  isAlphanumeric_append_hex ext token (by decide)

theorem isAlphanumeric_gravity2Denom : (gravity2Denom ext token).all isAlphanumeric = true :=
  isAlphanumeric_append_hex ext token (by decide)

/-- A denom of letters and digits holds none of the marks that a strict denom must not hold. -/
theorem unmarked_of_isAlphanumeric {denom : Bytes} (clean : denom.all isAlphanumeric = true) :
    isASCII denom = true ∧
    contains attestationSeparator denom = false ∧ contains (ascii "\\") denom = false :=
  ⟨isASCII_of_isAlphanumeric clean, not_contains_of_all 0xCC clean (by decide) (by decide),
    not_contains_of_all 92 clean (by decide) (by decide)⟩

theorem validateStrictDenom_gravityDenom : validateStrictDenom (gravityDenom ext token) = .ok () := by
  have notIbc : (ascii "ibc/").isPrefixOf (gravityDenom ext token) = false := rfl
  have marked : (gravityDenomPrefix ++ ascii "0x").isPrefixOf (gravityDenom ext token) = true := by
    rw [gravityDenom, hex, ← append_assoc]
    exact isPrefixOf_iff_prefix.mpr (prefix_append _ _)
  have nonempty : gravityDenom ext token ≠ [] := by
    intro empty
    simpa [empty] using length_gravityDenom ext token
  simp [validateStrictDenom, nonempty, maxDenomLength,
    unmarked_of_isAlphanumeric (isAlphanumeric_gravityDenom ext token), notIbc,
    gravityDenom_not_gravity2, marked, gravityDenomToERC20_gravityDenom]

theorem validateStrictDenom_gravity2Denom :
    validateStrictDenom (gravity2Denom ext token) = .ok () := by
  have notIbc : (ascii "ibc/").isPrefixOf (gravity2Denom ext token) = false := rfl
  have nonempty : gravity2Denom ext token ≠ [] := by
    intro empty
    simpa [empty] using length_gravity2Denom ext token
  simp [validateStrictDenom, nonempty, maxDenomLength,
    unmarked_of_isAlphanumeric (isAlphanumeric_gravity2Denom ext token), notIbc,
    gravity2Denom_hasPrefix, gravity2DenomToERC20_gravity2Denom]

theorem sdkValidateDenom_append_hex {first : UInt8} {rest : Bytes} (letter : 97 ≤ first ∧ first ≤ 122)
    (clean : rest.all isAlphanumeric = true) (short : rest.length ≤ 85) :
    sdkValidateDenom (first :: (rest ++ hex ext token)) = true := by
  simp only [sdkValidateDenom, Bool.and_eq_true, Bool.or_eq_true, decide_eq_true_eq, length_append,
    length_hex]
  refine ⟨⟨⟨.inr letter, all_eq_true.mpr (fun byte member => ?_)⟩, by omega⟩, by omega⟩
  have allowed := all_eq_true.mp (isAlphanumeric_append_hex ext token clean) byte member
  simp only [isAlphanumeric, Bool.or_eq_true, Bool.and_eq_true, decide_eq_true_eq] at allowed ⊢
  tauto

theorem sdkValidateDenom_gravityDenom : sdkValidateDenom (gravityDenom ext token) = true :=
  @sdkValidateDenom_append_hex ext token 103 (ascii "ravity") (by decide) (by decide) (by decide)

theorem sdkValidateDenom_gravity2Denom : sdkValidateDenom (gravity2Denom ext token) = true :=
  @sdkValidateDenom_append_hex ext token 103 (ascii "ravity2") (by decide) (by decide) (by decide)

end GravityBridge.Types
