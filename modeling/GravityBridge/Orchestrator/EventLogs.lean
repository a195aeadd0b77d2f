import GravityBridge.Orchestrator.EventDecoders

/-!
# Events from logs

A log of the contract becomes an event, and an event becomes the message that claims it. The five
kinds of events share what is done with lists of them. Block numbers are numbers of 256 bits, and no
sum of them leaves that range.
-/

namespace GravityBridge.Orchestrator

open Lib.Fallible Lib.ByteString Lib.Reading GravityBridge.Types

/-- `web30::types::Log`, without what the orchestrator does not read. -/
structure Log where
  topics : List Bytes
  data : ByteSlice
  blockNumber : Option Nat

structure ValsetUpdatedEvent where
  valsetNonce : U64
  eventNonce : U64
  blockHeight : Nat
  rewardAmount : U256
  rewardToken : Option EthAddress
  members : List ValsetMember
  deriving DecidableEq, Repr

structure TransactionBatchExecutedEvent where
  batchNonce : U64
  blockHeight : Nat
  erc20 : EthAddress
  eventNonce : U64
  deriving DecidableEq, Repr

structure SendToCosmosEvent where
  erc20 : EthAddress
  sender : EthAddress
  destination : Bytes
  amount : U256
  eventNonce : U64
  blockHeight : Nat
  deriving DecidableEq, Repr

structure Erc20DeployedEvent where
  cosmosDenom : Bytes
  erc20Address : EthAddress
  name : Bytes
  symbol : Bytes
  decimals : Fin (2 ^ 8)
  eventNonce : U64
  blockHeight : Nat
  deriving DecidableEq, Repr

structure LogicCallExecutedEvent where
  invalidationId : Bytes
  invalidationNonce : U64
  returnData : Bytes
  eventNonce : U64
  blockHeight : Nat
  deriving DecidableEq, Repr

/-! ## Reading a log -/

/-- The block of a log that is in a block. -/
def Log.readBlockHeight (log : Log) (overflow : String) : Decoded Nat := do
  let blockNumber ← fromOption
    ⟨"Log does not have block number, we only search logs already in blocks?"⟩ log.blockNumber
  require (blockNumber < 2 ^ 64) ⟨overflow⟩
  pure blockNumber

/-- The address in the last twenty bytes of a topic. -/
def topicAddress (topic : Bytes) : Decoded EthAddress := do
  fromOption ⟨"Address should be exactly 20 bytes"⟩ (fromSlice (← slice topic 12 32))

def Log.topic (log : Log) (index : Nat) : Decoded Bytes :=
  fromOption ⟨"Too few topics"⟩ log.topics[index]?

def ValsetUpdatedEvent.fromLog (log : Log) : Decoded ValsetUpdatedEvent := do
  let valsetNonce := fromBeBytes (← log.topic 1)
  require (valsetNonce.val < 2 ^ 64) ⟨"Nonce overflow, probably incorrect parsing"⟩
  let valsetNonce ← parse 64 valsetNonce
  let blockHeight ← log.readBlockHeight "Event nonce overflow! probably incorrect parsing"
  let decoded ← decodeValsetUpdated log.data
  pure ⟨valsetNonce, decoded.eventNonce, blockHeight, decoded.rewardAmount, decoded.rewardToken,
    decoded.members⟩

def TransactionBatchExecutedEvent.fromLog (log : Log) : Decoded TransactionBatchExecutedEvent := do
  let batchNonce := fromBeBytes (← log.topic 1)
  let erc20 ← topicAddress (← log.topic 2)
  let eventNonce := fromBeBytes log.data.bytes
  let blockHeight ← log.readBlockHeight "Block height overflow! probably incorrect parsing"
  require (eventNonce.val < 2 ^ 64 ∧ batchNonce.val < 2 ^ 64 ∧ blockHeight < 2 ^ 64)
    ⟨"Event nonce overflow, probably incorrect parsing"⟩
  pure ⟨← parse 64 batchNonce, blockHeight, erc20, ← parse 64 eventNonce⟩

/-- Whether the destination is an address is only logged. -/
def SendToCosmosEvent.fromLog (log : Log) : Decoded SendToCosmosEvent := do
  let erc20Data ← log.topic 1
  let senderData ← log.topic 2
  let erc20 ← topicAddress erc20Data
  let sender ← topicAddress senderData
  let blockHeight ← log.readBlockHeight "Block height overflow! probably incorrect parsing"
  let data ← decodeSendToCosmos log.data
  require (data.eventNonce.val < 2 ^ 64 ∧ blockHeight < 2 ^ 64)
    ⟨"Event nonce overflow, probably incorrect parsing"⟩
  pure ⟨erc20, sender, data.destination, data.amount, ← parse 64 data.eventNonce, blockHeight⟩

/-- Data that cannot be decoded still has its nonce at a fixed position. -/
def Erc20DeployedEvent.fallback (ext : External) (erc20 : EthAddress) (blockHeight : Nat)
    (data : Bytes) : Decoded Erc20DeployedEvent := do
  require (5 * 32 ≤ data.length) ⟨"ERC20 deployed log too short to extract event nonce"⟩
  let nonce ← readUint data 128 160
  require (nonce.val < 2 ^ 64) ⟨"ERC20 deployed event nonce overflow in fallback extraction"⟩
  pure ⟨gravityDenom ext erc20, erc20, [], [], 0, ← parse 64 nonce, blockHeight⟩

def Erc20DeployedEvent.fromLog (ext : External) (log : Log) : Decoded Erc20DeployedEvent := do
  let erc20 ← topicAddress (← log.topic 1)
  let blockHeight ← log.readBlockHeight "Event nonce overflow! probably incorrect parsing"
  match decodeErc20Deployed log.data with
  | .ok data => pure ⟨data.cosmosDenom, erc20, data.name, data.symbol, data.decimals,
      data.eventNonce, blockHeight⟩
  | .error (.error _) => fallback ext erc20 blockHeight log.data.bytes
  | .error (.panic message) => panicking message

def LogicCallExecutedEvent.fromLog (_ : Log) : Decoded LogicCallExecutedEvent :=
  panicking "not implemented"

/-! ## The trait -/

/-- The trait of events, with what the rest of the trait is built from. -/
class EthereumEvent (ε : Type) where
  eventNonce : ε → U64
  blockHeight : ε → Nat
  fromLog : External → Log → Decoded ε
  claim : External → (orchestrator : Bytes) → (ethBlockHeight : U64) → ε → EthereumClaim
  claim_nonce : ∀ ext orchestrator height event,
  (claim ext orchestrator height event).getEventNonce = eventNonce event
  fromLog_height : ∀ ext log event, fromLog ext log = .ok event →
    log.blockNumber = some (blockHeight event) ∧ blockHeight event < 2 ^ 64

theorem readBlockHeight_eq_ok {log : Log} {overflow : String} {height : Nat} :
    log.readBlockHeight overflow = .ok height ↔ log.blockNumber = some height ∧ height < 2 ^ 64 := by
  simp only [Log.readBlockHeight, bind_eq_ok, fromOption_eq_ok, require_eq_ok, pure_eq_ok]
  constructor
  · rintro ⟨_, found, _, fits, rfl⟩
    exact ⟨found, fits⟩
  · rintro ⟨found, fits⟩
    exact ⟨height, found, (), fits, rfl⟩

instance : EthereumEvent ValsetUpdatedEvent where
  eventNonce := ValsetUpdatedEvent.eventNonce
  blockHeight := ValsetUpdatedEvent.blockHeight
  fromLog _ := ValsetUpdatedEvent.fromLog
  claim ext orchestrator height event := .valsetUpdated ⟨event.eventNonce, event.valsetNonce, height,
    event.members.map (fun member => ⟨member.power, hex ext member.ethAddress⟩),
    some event.rewardAmount.val, hex ext (event.rewardToken.getD zeroAddress), orchestrator⟩
  claim_nonce _ _ _ _ := rfl
  fromLog_height _ log event read := by
    simp only [ValsetUpdatedEvent.fromLog, bind_eq_ok, readBlockHeight_eq_ok, pure_eq_ok] at read
    obtain ⟨_, _, _, _, _, _, _, height, _, _, rfl⟩ := read
    exact height

instance : EthereumEvent TransactionBatchExecutedEvent where
  eventNonce := TransactionBatchExecutedEvent.eventNonce
  blockHeight := TransactionBatchExecutedEvent.blockHeight
  fromLog _ := TransactionBatchExecutedEvent.fromLog
  claim ext orchestrator height event :=
    .batchSendToEth ⟨event.eventNonce, height, event.batchNonce, hex ext event.erc20, orchestrator⟩
  claim_nonce _ _ _ _ := rfl
  fromLog_height _ log event read := by
    simp only [TransactionBatchExecutedEvent.fromLog, bind_eq_ok, readBlockHeight_eq_ok,
      pure_eq_ok] at read
    obtain ⟨_, _, _, _, _, _, _, height, _, _, _, _, _, _, rfl⟩ := read
    exact height

instance : EthereumEvent SendToCosmosEvent where
  eventNonce := SendToCosmosEvent.eventNonce
  blockHeight := SendToCosmosEvent.blockHeight
  fromLog _ := SendToCosmosEvent.fromLog
  claim ext orchestrator height event :=
    .sendToCosmos ⟨event.eventNonce, height, hex ext event.erc20, some event.amount.val,
      hex ext event.sender, event.destination, orchestrator⟩
  claim_nonce _ _ _ _ := rfl
  fromLog_height _ log event read := by
    simp only [SendToCosmosEvent.fromLog, bind_eq_ok, readBlockHeight_eq_ok, pure_eq_ok] at read
    obtain ⟨_, _, _, _, _, _, _, _, _, height, _, _, _, _, _, _, rfl⟩ := read
    exact height

instance : EthereumEvent Erc20DeployedEvent where
  eventNonce := Erc20DeployedEvent.eventNonce
  blockHeight := Erc20DeployedEvent.blockHeight
  fromLog := Erc20DeployedEvent.fromLog
  claim ext orchestrator height event := .erc20Deployed ⟨event.eventNonce, height, event.cosmosDenom,
    hex ext event.erc20Address, event.name, event.symbol, Fin.castLE (by decide) event.decimals,
    orchestrator⟩
  claim_nonce _ _ _ _ := rfl
  fromLog_height ext log event read := by
    simp only [Erc20DeployedEvent.fromLog, bind_eq_ok, readBlockHeight_eq_ok] at read
    obtain ⟨_, _, _, _, _, height, read⟩ := read
    split at read
    · obtain rfl := pure_eq_ok.mp read
      exact height
    · simp only [Erc20DeployedEvent.fallback, bind_eq_ok, pure_eq_ok] at read
      obtain ⟨_, _, _, _, _, _, _, _, rfl⟩ := read
      exact height
    · contradiction

instance : EthereumEvent LogicCallExecutedEvent where
  eventNonce := LogicCallExecutedEvent.eventNonce
  blockHeight := LogicCallExecutedEvent.blockHeight
  fromLog _ := LogicCallExecutedEvent.fromLog
  claim _ orchestrator height event :=
    .logicCallExecuted ⟨event.eventNonce, height, event.invalidationId, event.invalidationNonce,
      orchestrator⟩
  claim_nonce _ _ _ _ := rfl
  fromLog_height _ _ _ read := nomatch read

/-! ## Lists of events -/

namespace EthereumEvent

section

variable {ε : Type} [EthereumEvent ε] (ext : External)

def getBlockHeight (event : ε) : Decoded U64 := do
  unwrap "called `Option::unwrap()` on a `None` value"
    (if fits : blockHeight event < 2 ^ 64 then some ⟨blockHeight event, fits⟩ else none)

def fromLogs (input : List Log) : Decoded (List ε) := input.mapM (fromLog ext)

/-- The events with a greater nonce. -/
def filterByEventNonce (nonce : U64) (input : List ε) : List ε :=
  input.filter (fun item => nonce < eventNonce item)

def getBlockForNonce (nonce : U64) (input : List ε) : Option Nat :=
  (input.find? (fun item => eventNonce item = nonce)).map blockHeight

def toClaimMsg (orchestrator : Bytes) (event : ε) : Decoded EthereumClaim := do
  pure (claim ext orchestrator (← getBlockHeight event) event)

end

end EthereumEvent

end GravityBridge.Orchestrator
