import GravityBridge.Types.Ethereum

/-!
# Ethereum signatures on the Cosmos side

A signature is `r`, `s` and one byte that tells which of two curve points was
meant. Wallets write that byte as 27 or 28, the library that recovers keys as 0
or 1, and both spellings are accepted here.
-/

namespace GravityBridge.Types

open Lib.Fallible Lib.ByteString Lib.Digits

/-- The order of the curve secp256k1. -/
def secp256k1N : Nat := 0xFFFFFFFFFFFFFFFFFFFFFFFFFFFFFFFEBAAEDCE6AF48A03BBFD25E8CD0364141

def secp256k1halfN : Nat := secp256k1N / 2

def signaturePrefix : Bytes := 0x19 :: ascii "Ethereum Signed Message:\n32"

def bytesValue (bytes : Bytes) : Nat := value 256 (bytes.map UInt8.toNat)

/-- The bytes of `r`, those of `s`, and the byte for the curve point. -/
def signatureR (signature : Bytes) : Nat := bytesValue (signature.take 32)

def signatureS (signature : Bytes) : Nat := bytesValue ((signature.drop 32).take 32)

def signatureV (signature : Bytes) : UInt8 := signature.getD 64 0

def decodeSignature (signature : Bytes) : Go (Nat × Nat × UInt8) := do
  check (signature.length = 65) "wrong size for signature"
  let v := signatureV signature
  pure (signatureR signature, signatureS signature, if v = 27 ∨ v = 28 then v - 27 else v)

/-- `crypto.ValidateSignatureValues` with the homestead rule, which refuses the greater of the
two possible values of `s`. -/
def validateSignatureValues (v : UInt8) (r s : Nat) : Bool :=
  decide (1 ≤ r ∧ 1 ≤ s ∧ s ≤ secp256k1halfN ∧ r < secp256k1N ∧ s < secp256k1N ∧ (v = 0 ∨ v = 1))

variable (ext : External)

/-- The digest that is signed for a hash, on both chains. -/
def protectedHash (hash : Bytes) : Bytes := ext.keccak256 (signaturePrefix ++ hash)

/-- `EthAddressFromSignature`. Printing the recovered address and reading it back is left out. -/
def ethAddressFromSignature (hash signature : Bytes) : Go EthAddress := do
  require (65 ≤ signature.length) ⟨.invalid, "signature too short"⟩
  let (r, s, v) ← decodeSignature signature
  require (validateSignatureValues v r s = true) ⟨.invalid, "Signature values failed validation"⟩
  fromOption ⟨.plain, "signature to public key"⟩ (ext.recoverAddress (protectedHash ext hash) r s v)

def validateEthereumSignature (hash signature : Bytes) (ethAddress : EthAddress) : Go Unit := do
  let address ← rewrap ⟨.plain, "unable to get address from signature"⟩
    (ethAddressFromSignature ext hash signature)
  require (address = ethAddress) ⟨.invalid, "signature not matching"⟩

variable {ext}

/-- What an accepted signature is made of. -/
theorem validateEthereumSignature_eq_ok {hash signature : Bytes} {ethAddress : EthAddress}
    {result : Unit} : validateEthereumSignature ext hash signature ethAddress = .ok result ↔
      ∃ parity, signature.length = 65 ∧ (parity = 0 ∨ parity = 1) ∧
        (signatureV signature = parity ∨ signatureV signature = parity + 27) ∧
        1 ≤ signatureR signature ∧ signatureR signature < secp256k1N ∧
        1 ≤ signatureS signature ∧ signatureS signature ≤ secp256k1halfN ∧
        ext.recoverAddress (protectedHash ext hash) (signatureR signature)
          (signatureS signature) parity = some ethAddress := by
  have half : secp256k1halfN < secp256k1N := by decide
  simp only [validateEthereumSignature, ethAddressFromSignature, decodeSignature, bind_eq_ok,
    rewrap_eq_ok, require_eq_ok, check_eq_ok, pure_eq_ok, fromOption_eq_ok, Prod.exists,
    Prod.mk.injEq, validateSignatureValues, decide_eq_true_eq]
  constructor
  · rintro ⟨address, ⟨_, _, r, s, v, ⟨_, length, rfl, rfl, rfl⟩, _,
      ⟨rLow, sLow, low, rHigh, _, parity⟩, recovered⟩, rfl⟩
    refine ⟨_, length, parity, ?_, rLow, rHigh, sLow, low, recovered⟩
    split_ifs with wallet
    · exact .inr (by simp)
    · exact .inl rfl
  · rintro ⟨parity, length, known, written, rLow, rHigh, sLow, low, recovered⟩
    have read : (if signatureV signature = 27 ∨ signatureV signature = 28 then
        signatureV signature - 27
        else signatureV signature) = parity := by
      rcases known with rfl | rfl <;> rcases written with same | same <;> rw [same] <;> decide
    refine ⟨ethAddress, ⟨(), length.ge, _, _, _, ⟨(), length, rfl, rfl, rfl⟩, (), ?_, ?_⟩, rfl⟩
    · rw [read]
      exact ⟨rLow, sLow, low, rHigh, low.trans_lt half, known⟩
    · rw [read]
      exact recovered

theorem decodesAsHex_of_hexDecode {text bytes : Bytes} (decoded : hexDecode text = some bytes) :
    decodesAsHex text = true := by
  suffices text.length % 2 = 0 ∧ isHex text = true by
    simp [decodesAsHex, this]
  induction text using hexDecode.induct generalizing bytes with
  | case1 => simp [isHex]
  | case2 byte => simp [hexDecode] at decoded
  | case3 high low rest upper lower tail restRead lowRead highRead ih =>
    obtain ⟨even, digits⟩ := ih restRead
    refine ⟨by simp only [List.length_cons]; omega, ?_⟩
    simpa [isHex, highRead, lowRead] using digits
  | case4 high low rest missing ih =>
    unfold hexDecode at decoded
    split at decoded
    · rename_i upper lower tail highRead lowRead restRead
      exact absurd restRead (missing upper lower tail highRead lowRead)
    · contradiction

end GravityBridge.Types
