import GravityBridge.Types.Basic

/-!
# Ethereum addresses and the denoms made from them

Addresses are printed with the checksum casing and read in any casing, with or
without the `0x` prefix. A voucher denom is one of two prefixes followed by a
printed address; parsing it gives the address back.
-/

namespace GravityBridge.Types

open Lib.Fallible Lib.ByteString Lib.Digits List

/-! ## Reading addresses -/

def has0xPrefix : Bytes → Bool
  | first :: second :: _ => first == 48 && (second == 120 || second == 88)
  | _ => false

def strip0xPrefix (text : Bytes) : Bytes := if has0xPrefix text then text.drop 2 else text

def isHex (text : Bytes) : Bool := text.all (fun byte => (hexDigit byte).isSome)

/-- Whether `hex.DecodeString` accepts a string. -/
def decodesAsHex (text : Bytes) : Bool := text.length % 2 == 0 && isHex text

/-- `gethcommon.IsHexAddress`. -/
def isHexAddress (text : Bytes) : Bool :=
  (strip0xPrefix text).length == 40 && isHex (strip0xPrefix text)

def validateEthAddress (address : Bytes) : Go Unit := do
  require (address ≠ []) ⟨.plain, "empty"⟩
  require (decodesAsHex (strip0xPrefix address)) ⟨.plain, "invalid hex with error"⟩
  require (isHexAddress (strip0xPrefix address)) ⟨.plain, "address doesn't pass format validation"⟩

def hexDigits (text : Bytes) : List Nat := text.map (fun byte => (hexDigit byte).getD 0)

/-- `gethcommon.HexToAddress`, which keeps the last twenty bytes. -/
def hexToAddress (text : Bytes) : EthAddress :=
  Fin.ofNat (2 ^ 160) (value 16 (hexDigits (strip0xPrefix text)))

def newEthAddress (address : Bytes) : Go EthAddress := do
  rewrap ⟨.plain, "invalid input address"⟩ (validateEthAddress address)
  pure (hexToAddress address)

/-- The two forms of an accepted address string. -/
theorem validateEthAddress_eq_ok {address : Bytes} {result : Unit} :
    validateEthAddress address = .ok result ↔
      (strip0xPrefix address).length = 40 ∧ isHex (strip0xPrefix address) = true := by
  have noPrefix : ∀ text, isHex text = true → strip0xPrefix text = text := by
    intro text hex
    unfold strip0xPrefix
    rw [if_neg]
    rcases text with _ | ⟨first, _ | ⟨second, rest⟩⟩
    · simp [has0xPrefix]
    · simp [has0xPrefix]
    · intro marked
      simp only [has0xPrefix, Bool.and_eq_true, Bool.or_eq_true, beq_iff_eq] at marked
      simp only [isHex, all_cons, Bool.and_eq_true] at hex
      rcases marked.2 with rfl | rfl
      · exact absurd hex.2.1 (by decide)
      · exact absurd hex.2.1 (by decide)
  simp only [validateEthAddress, bind_eq_ok, require_eq_ok, exists_and_left, exists_const,
    decodesAsHex, isHexAddress, Bool.and_eq_true, beq_iff_eq]
  constructor
  · rintro ⟨_, ⟨_, hex⟩, length, _⟩
    rw [noPrefix _ hex] at length
    exact ⟨length, hex⟩
  · rintro ⟨length, hex⟩
    rw [noPrefix _ hex]
    refine ⟨?_, ⟨by rw [length], hex⟩, length, hex⟩
    rintro rfl
    simp [strip0xPrefix, has0xPrefix] at length

theorem newEthAddress_eq_ok {text : Bytes} {address : EthAddress} : newEthAddress text = .ok address ↔
      validateEthAddress text = .ok () ∧ hexToAddress text = address := by
  simp [newEthAddress, Unique.exists_iff]

theorem length_of_validateEthAddress {address : Bytes} (valid : validateEthAddress address = .ok ()) :
    40 ≤ address.length ∧ address.length ≤ 42 := by
  have length := (validateEthAddress_eq_ok.mp valid).1
  unfold strip0xPrefix at length
  split_ifs at length
  · rw [length_drop] at length
    omega
  · omega

/-! ## Printing addresses -/

/-- The symbol of a digit below sixteen in the given case. -/
def hexSymbol (upper : Bool) (digit : Nat) : UInt8 :=
  UInt8.ofNat (if digit < 10 then 48 + digit else if upper then 55 + digit else 87 + digit)

theorem hexDigit_hexSymbol (upper : Bool) {digit : Nat} (below : digit < 16) :
    hexDigit (hexSymbol upper digit) = some digit := by
  revert upper digit
  decide

variable (ext : External)

/-- `Address.Hex`: forty digits in checksum casing behind `0x`. -/
def hex (address : EthAddress) : Bytes :=
  ascii "0x" ++ (bigEndian 16 40 address.val).mapIdx
    (fun index digit => hexSymbol (ext.checksum address index) digit)

@[simp] theorem length_hex (address : EthAddress) : (hex ext address).length = 42 := by
  simp [hex, ascii]

theorem strip0xPrefix_append (digits : Bytes) : strip0xPrefix (ascii "0x" ++ digits) = digits := rfl

theorem strip0xPrefix_hex (address : EthAddress) :
    strip0xPrefix (hex ext address) = (bigEndian 16 40 address.val).mapIdx
      (fun index digit => hexSymbol (ext.checksum address index) digit) :=
  strip0xPrefix_append _

theorem map_hexDigit_hex (address : EthAddress) :
    (strip0xPrefix (hex ext address)).map hexDigit = (bigEndian 16 40 address.val).map some := by
  have below := bigEndian_lt 16 (by decide) 40 address.val
  rw [strip0xPrefix_hex]
  apply ext_getElem (by simp)
  intro index first second
  simp only [getElem_mapIdx, getElem_map]
  exact hexDigit_hexSymbol _ (below _ (getElem_mem _))

theorem isHex_hex (address : EthAddress) : isHex (strip0xPrefix (hex ext address)) = true := by
  rw [isHex, all_eq_true]
  intro byte member
  have read : hexDigit byte ∈ (bigEndian 16 40 address.val).map some := by
    rw [← map_hexDigit_hex ext]
    exact mem_map_of_mem member
  obtain ⟨digit, _, found⟩ := mem_map.mp read
  rw [← found, Option.isSome_some]

theorem validateEthAddress_hex (address : EthAddress) :
    validateEthAddress (hex ext address) = .ok () := by
  refine validateEthAddress_eq_ok.mpr ⟨?_, isHex_hex ext address⟩
  rw [strip0xPrefix_hex, length_mapIdx, length_bigEndian]

/-- Reading a printed address gives the address back. -/
theorem newEthAddress_hex (address : EthAddress) : newEthAddress (hex ext address) = .ok address := by
  refine newEthAddress_eq_ok.mpr ⟨validateEthAddress_hex ext address, ?_⟩
  have digits : hexDigits (strip0xPrefix (hex ext address)) = bigEndian 16 40 address.val := by
    have read := congrArg (List.map (fun digit : Option Nat => digit.getD 0))
      (map_hexDigit_hex ext address)
    simpa [hexDigits, Function.comp_def] using read
  have fits : address.val < 16 ^ 40 := by
    have := address.isLt
    norm_num at this ⊢
    omega
  rw [hexToAddress, digits, value_bigEndian 40 fits]
  exact Fin.ofNat_val_eq_self address

variable {first second : EthAddress}

theorem hex_injective (same : hex ext first = hex ext second) :
    first = second := by
  have read := newEthAddress_hex ext first
  rw [same, newEthAddress_hex ext second] at read
  exact (Except.ok.inj read).symm

/-! ## Voucher denoms -/

def gravityDenomPrefix : Bytes := ascii "gravity"

def gravity2DenomPrefix : Bytes := ascii "gravity2"

def gravityDenomLen : Nat := 49

def gravity2DenomLen : Nat := 50

def zeroAddressString : Bytes := ascii "0x0000000000000000000000000000000000000000"

def zeroAddress : EthAddress := 0

/-- An address whose checksum mixes the cases: neither its lower-case nor its upper-case spelling
is the checksummed one. -/
def mixedCaseAddress : EthAddress := 0x5aaeb6053f3e94c9b9a09f33669435e7ef1beaed

def upperCaseAddress : Bytes := ascii "0x5AAEB6053F3E94C9B9A09F33669435E7EF1BEAED"

def gravityDenom (tokenContract : EthAddress) : Denom := gravityDenomPrefix ++ hex ext tokenContract

def gravity2Denom (tokenContract : EthAddress) : Denom :=
  gravity2DenomPrefix ++ hex ext tokenContract

def gravityDenomToERC20 (denom : Denom) : Go EthAddress := do
  require (¬ gravity2DenomPrefix.isPrefixOf denom)
    ⟨.plain, "denom uses the gravity2 prefix for remapped tokens, not the gravity prefix"⟩
  require (gravityDenomPrefix.isPrefixOf denom) ⟨.plain, "denom prefix not equal to expected"⟩
  let ethAddr ← rewrap ⟨.plain, "error validating ethereum contract address"⟩
    (newEthAddress (denom.drop gravityDenomPrefix.length))
  require (denom.length = gravityDenomLen) ⟨.plain, "len(denom) not equal to GravityDenomLen"⟩
  pure ethAddr

def gravity2DenomToERC20 (denom : Denom) : Go EthAddress := do
  require (gravity2DenomPrefix.isPrefixOf denom) ⟨.plain, "denom does not have gravity2 prefix"⟩
  require (denom.length = gravity2DenomLen) ⟨.plain, "len(denom) not equal to Gravity2DenomLen"⟩
  rewrap ⟨.plain, "error validating ethereum contract address in gravity2 denom"⟩
    (newEthAddress (denom.drop gravity2DenomPrefix.length))

@[simp] theorem length_gravityDenom (token : EthAddress) : (gravityDenom ext token).length = 49 := by
  simp [gravityDenom, gravityDenomPrefix, ascii]

@[simp] theorem length_gravity2Denom (token : EthAddress) :
    (gravity2Denom ext token).length = 50 := by
  simp [gravity2Denom, gravity2DenomPrefix, ascii]

theorem gravity2Denom_hasPrefix (token : EthAddress) :
    gravity2DenomPrefix.isPrefixOf (gravity2Denom ext token) = true :=
  isPrefixOf_iff_prefix.mpr (prefix_append _ _)

theorem gravityDenom_hasPrefix (token : EthAddress) :
    gravityDenomPrefix.isPrefixOf (gravityDenom ext token) = true :=
  isPrefixOf_iff_prefix.mpr (prefix_append _ _)

theorem gravityDenom_not_gravity2 (token : EthAddress) :
    gravity2DenomPrefix.isPrefixOf (gravityDenom ext token) = false := by
  rfl

theorem gravityDenomToERC20_gravityDenom (token : EthAddress) :
    gravityDenomToERC20 (gravityDenom ext token) = .ok token := by
  have contract : (gravityDenom ext token).drop gravityDenomPrefix.length = hex ext token := drop_left
  simp [gravityDenomToERC20, gravityDenom_not_gravity2, gravityDenom_hasPrefix, contract,
    newEthAddress_hex, gravityDenomLen]

theorem gravity2DenomToERC20_gravity2Denom (token : EthAddress) :
    gravity2DenomToERC20 (gravity2Denom ext token) = .ok token := by
  have contract : (gravity2Denom ext token).drop gravity2DenomPrefix.length = hex ext token :=
    drop_left
  simp [gravity2DenomToERC20, gravity2Denom_hasPrefix, contract, newEthAddress_hex, gravity2DenomLen]

theorem gravityDenom_injective (same : gravityDenom ext first = gravityDenom ext second) :
    first = second := by
  have read := gravityDenomToERC20_gravityDenom ext first
  rw [same, gravityDenomToERC20_gravityDenom] at read
  exact (Except.ok.inj read).symm

theorem gravity2Denom_injective (same : gravity2Denom ext first = gravity2Denom ext second) :
    first = second := by
  have read := gravity2DenomToERC20_gravity2Denom ext first
  rw [same, gravity2DenomToERC20_gravity2Denom] at read
  exact (Except.ok.inj read).symm

theorem gravityDenom_ne_gravity2Denom (first second : EthAddress) :
    gravityDenom ext first ≠ gravity2Denom ext second := by
  intro same
  have lengths := congrArg List.length same
  simp at lengths

end GravityBridge.Types
