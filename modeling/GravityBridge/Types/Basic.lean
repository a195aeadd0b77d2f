import GravityBridge.Lib.Fallible
import GravityBridge.Lib.ByteString

/-!
# Errors, addresses and the surrounding chain

Go functions that may fail are modelled by outcomes whose errors carry the
registered code and the fixed part of the message. Libraries outside the
repository (hashes, address encodings, the set of blocked accounts) are fields
of one structure, together with the documented facts the module relies on.
-/

namespace GravityBridge.Types

open Lib.Fallible Lib.ByteString

/-- The registered error codes, and `plain` for errors made with `fmt.Errorf`. -/
inductive Code where
  | internal | duplicate | invalid | timeout | unknown | empty | outdated | unsupported
  | nonContiguousEventNonce | resetDelegateKeys | mismatched | noValidators | invalidValAddress
  | invalidEthAddress | invalidValset | duplicateEthereumKey | duplicateOrchestratorKey
  | invalidAttestation | invalidClaim | invalidLogicCall | paramsNotFound | invalidDenom
  | invalidRequest | invalidAddress | invalidCoins | insufficientFunds | insufficientFee
  | unauthorized | unknownAddress | invalidAuctionPeriod | auctionNotFound | invalidAuction
  | invalidBid | bidTooLow | invalidParams | duplicateAuction | disabledModule |
      unknownRequest | plain
  deriving DecidableEq, Repr

structure Err where
  code : Code
  text : String
  deriving DecidableEq, Repr

abbrev Go (α : Type) := Outcome Err α

abbrev U64 := Fin (2 ^ 64)

abbrev U256 := Fin (2 ^ 256)

/-- The twenty bytes of an Ethereum address, as a number in big-endian order. -/
abbrev EthAddress := Fin (2 ^ 160)

instance neZeroU64 : NeZero (2 ^ 64) := inferInstance

instance neZeroU256 : NeZero (2 ^ 256) := inferInstance

instance neZeroEthAddress : NeZero (2 ^ 160) := inferInstance

instance lawfulBEqEthAddress : LawfulBEq EthAddress := inferInstance

abbrev AccAddress := Bytes

abbrev ValAddress := Bytes

abbrev Denom := Bytes

/-- Functions of other libraries and modules that the bridge calls. -/
structure External where
  /-- Whether the checksum of EIP-55 puts a digit of an address in upper case. -/
  checksum : EthAddress → Nat → Bool
  tmhash : Bytes → Bytes
  keccak256 : Bytes → Bytes
  /-- The address of the public key that a digest, `r`, `s` and the parity of the curve point
  determine. -/
  recoverAddress : Bytes → Nat → Nat → UInt8 → Option EthAddress
  /-- `bech32.DecodeAndConvert`: the human readable part and the decoded bytes. -/
  decodeBech32 : Bytes → Option (Bytes × Bytes)
  /-- `bech32.ConvertAndEncode`. -/
  encodeBech32 : Bytes → Bytes → Bytes
  /-- The prefix of the chain's own account addresses, and that of its validators' operator
  addresses. -/
  accountPrefix : Bytes
  validatorPrefix : Bytes
  gravityModule : AccAddress
  distributionModule : AccAddress
  auctionPool : AccAddress
  feeCollector : AccAddress
  /-- `bankKeeper.BlockedAddr`. -/
  blockedAddr : AccAddress → Bool
  /-- The account that `ibcTransferKeeper.Transfer` escrows a channel's coins in. -/
  ibcEscrow : Bytes → AccAddress
  /-- Whether `MustUnmarshal` resets what it reads into, or leaves there what the bytes do not
  mention. -/
  unmarshalResets : Bool
  blocked_gravity : blockedAddr gravityModule = true
  distribution_ne : distributionModule ≠ gravityModule
  auctionPool_ne : auctionPool ≠ gravityModule
  feeCollector_ne : feeCollector ≠ gravityModule
  ibcEscrow_ne : ∀ channel, ibcEscrow channel ≠ gravityModule

/-- The bytes before the last occurrence of a byte, if it occurs. -/
def beforeLast (byte : UInt8) (text : Bytes) : Option Bytes :=
  match text.reverse.dropWhile (· != byte) with
  | [] => none
  | _ :: front => some front.reverse

/-- A surrounding chain with transparent encodings, on which runs can be evaluated. -/
def localnet : External where
  checksum _ _ := false
  tmhash := id
  keccak256 := id
  recoverAddress _ r _ _ := some (Fin.ofNat (2 ^ 160) r)
  decodeBech32 text := (beforeLast 49 text).map (fun hrp => (hrp, text.drop (hrp.length + 1)))
  encodeBech32 hrp address := hrp ++ ascii "1" ++ address
  accountPrefix := ascii "gravity"
  validatorPrefix := ascii "gravityvaloper"
  gravityModule := ascii "module/gravity"
  distributionModule := ascii "module/distribution"
  auctionPool := ascii "module/auctionpool"
  feeCollector := ascii "module/feecollector"
  blockedAddr address := address == ascii "module/gravity"
  ibcEscrow channel := ascii "escrow/" ++ channel
  unmarshalResets := true
  blocked_gravity := by decide
  distribution_ne := by decide
  auctionPool_ne := by decide
  feeCollector_ne := by decide
  ibcEscrow_ne channel := by simp [ascii]

/-- `sdk.VerifyAddressFormat` with the default verifier. -/
def verifyAddressFormat (address : Bytes) : Go Unit := do
  require (address ≠ []) ⟨.unknownAddress, "addresses cannot be empty"⟩
  require (address.length ≤ 255) ⟨.unknownAddress, "address max length is 255"⟩

variable (ext : External)

/-- `sdk.AccAddressFromBech32`. -/
def accAddressFromBech32 (text : Bytes) : Go AccAddress := do
  require (text ≠ []) ⟨.plain, "empty address string is not allowed"⟩
  let (hrp, address) ← fromOption ⟨.plain, "decoding bech32 failed"⟩ (ext.decodeBech32 text)
  require (hrp = ext.accountPrefix) ⟨.plain, "invalid Bech32 prefix"⟩
  verifyAddressFormat address
  pure address

/-- `sdk.ValAddressFromBech32`. -/
def valAddressFromBech32 (text : Bytes) : Go ValAddress := do
  require (text ≠ []) ⟨.plain, "empty address string is not allowed"⟩
  let (hrp, address) ← fromOption ⟨.plain, "decoding bech32 failed"⟩ (ext.decodeBech32 text)
  require (hrp = ext.validatorPrefix) ⟨.plain, "invalid Bech32 prefix"⟩
  verifyAddressFormat address
  pure address

def accAddressString (address : AccAddress) : Bytes := ext.encodeBech32 ext.accountPrefix address

def valAddressString (address : ValAddress) : Bytes := ext.encodeBech32 ext.validatorPrefix address

def ibcAddressFromBech32 (text : Bytes) : Go Bytes := do
  require (text ≠ []) ⟨.empty, "empty"⟩
  let (_, address) ← fromOption ⟨.plain, "decoding bech32 failed"⟩ (ext.decodeBech32 text)
  verifyAddressFormat address
  pure address

def getPrefixFromBech32 (text : Bytes) : Go Bytes := do
  require (8 ≤ text.length) ⟨.plain, "invalid bech32 string length"⟩
  let hrp ← fromOption ⟨.plain, "invalid index of 1"⟩ (beforeLast 49 text)
  require (1 ≤ hrp.length ∧ hrp.length + 7 ≤ text.length) ⟨.plain, "invalid index of 1"⟩
  pure hrp

end GravityBridge.Types
