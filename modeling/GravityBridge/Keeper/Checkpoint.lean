import GravityBridge.Keeper.State
import GravityBridge.Lib.Abi

/-!
# Checkpoints

A checkpoint is the hash that validators sign for a validator set, a batch or a
logic call. The ledger keeps the checkpoints it asked for, so that a signature of
one of them is never taken as evidence of misbehaviour.
-/

namespace GravityBridge.Keeper

open Lib.Fallible Lib.ByteString Lib.Store Lib.Abi
open GravityBridge.Types

structure OutgoingLogicCall where
  transfers : List (Bytes × Nat)
  fees : List (Bytes × Nat)
  logicContractAddress : Bytes
  payload : Bytes
  timeout : U64
  invalidationId : Bytes
  invalidationNonce : U64
  cosmosBlockCreated : Nat
  deriving DecidableEq, Repr

/-! ## What is hashed -/

/-- Conversion of an unsigned to a signed 64-bit integer. -/
def int64 (number : Nat) : Int :=
  if number % 2 ^ 64 < 2 ^ 63 then (number % 2 ^ 64 : Nat) else (number % 2 ^ 64 : Nat) - 2 ^ 64

theorem int64_le (number : Nat) : int64 number ≤ number := by
  unfold int64
  split_ifs <;> omega

def strToFixByteArray (text : Bytes) : Go Bytes := do
  require (text.length ≤ 32) ⟨.plain, "string too long"⟩
  pure (text ++ List.replicate (32 - text.length) 0)

def OutgoingTxBatch.checkpointArguments (gravityID : Bytes) (batch : OutgoingTxBatch) :
    List Argument :=
  [.fixed gravityID, .fixed (ascii "transactionBatch"),
    .array (batch.transactions.map (fun tx => (tx.erc20Token.amount : Int))),
    .array (batch.transactions.map (fun tx => (tx.destAddress.val : Int))),
    .array (batch.transactions.map (fun tx => (tx.erc20Fee.amount : Int))),
    .number (int64 batch.batchNonce), .number batch.tokenContract.val,
    .number (int64 batch.batchTimeout)]

def Valset.checkpointArguments (gravityID : Bytes) (valset : Valset) (rewardAmount : Int) :
    List Argument :=
  [.fixed gravityID, .fixed (ascii "checkpoint"), .number (int64 valset.nonce),
    .array (valset.members.map (fun member => ((hexToAddress member.ethereumAddress).val : Int))),
    .array (valset.members.map (fun member => int64 member.power.val)),
    .number rewardAmount, .number (hexToAddress valset.rewardToken).val]

def OutgoingLogicCall.checkpointArguments (gravityID : Bytes) (call : OutgoingLogicCall) :
    List Argument :=
  [.fixed gravityID, .fixed (ascii "logicCall"),
    .array (call.transfers.map (fun token => (token.2 : Int))),
    .array (call.transfers.map (fun token => ((hexToAddress token.1).val : Int))),
    .array (call.fees.map (fun token => (token.2 : Int))),
    .array (call.fees.map (fun token => ((hexToAddress token.1).val : Int))),
    .number (hexToAddress call.logicContractAddress).val, .bytes call.payload,
    .number (int64 call.timeout.val), .fixed (call.invalidationId.take 32),
    .number (int64 call.invalidationNonce.val)]

section

variable (ext : External)

def OutgoingTxBatch.getCheckpoint (gravityID : Bytes) (batch : OutgoingTxBatch) : Go Bytes := do
  let gravityID ← orPanic "string too long" (strToFixByteArray gravityID)
  pure (ext.keccak256 (encode (batch.checkpointArguments gravityID)))

def Valset.getCheckpoint (gravityID : Bytes) (valset : Valset) : Go Bytes := do
  let gravityID ← orPanic "string too long" (strToFixByteArray gravityID)
  orPanic "invalid reward token" (validateEthAddress valset.rewardToken)
  let rewardAmount ← unwrap "Invalid reward amount passed in valset GetCheckpoint!"
    valset.rewardAmount
  pure (ext.keccak256 (encode (valset.checkpointArguments gravityID rewardAmount)))

def OutgoingLogicCall.getCheckpoint (gravityID : Bytes) (call : OutgoingLogicCall) : Go Bytes := do
  let gravityID ← orPanic "string too long" (strToFixByteArray gravityID)
  pure (ext.keccak256 (encode (call.checkpointArguments gravityID)))

end

/-! ## The archive -/

/-- `string(value[i])` writes a byte as the UTF-8 encoding of the code point of that number. -/
def convertByteArrToString (bytes : Bytes) : Bytes :=
  bytes.flatMap (fun byte => if byte < 128 then [byte] else [192 + byte / 64, 128 + byte % 64])

/-- `GetPastEthSignatureCheckpointKey`, without the prefix of the store. -/
def getPastEthSignatureCheckpointKey (checkpoint : Bytes) : Bytes := convertByteArrToString checkpoint

def Ledger.setPastEthSignatureCheckpoint (ledger : Ledger) (checkpoint : Bytes) : Ledger :=
  { ledger with pastEthSignatureCheckpoints :=
      ledger.pastEthSignatureCheckpoints.set (getPastEthSignatureCheckpointKey checkpoint) [1] }

def Ledger.getPastEthSignatureCheckpoint (ledger : Ledger) (checkpoint : Bytes) : Bool :=
  ledger.pastEthSignatureCheckpoints.get (getPastEthSignatureCheckpointKey checkpoint) == some [1]

end GravityBridge.Keeper
