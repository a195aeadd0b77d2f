import GravityBridge.Keeper.Bank
import GravityBridge.Lib.Store
import GravityBridge.Types.Claims

/-!
# State of the gravity module

The state is split by what writes it. The oracle holds the votes on Ethereum
events, the ledger everything that an observed event, a message or a timeout can
change, and the context the values that the ledger's operations only read.
-/

namespace GravityBridge.Keeper

open Lib.Fallible Lib.ByteString Lib.Store
open GravityBridge.Types

/-! ## Outgoing transfers -/

structure ERC20Token where
  contract : EthAddress
  amount : Nat
  deriving DecidableEq, Repr

structure OutgoingTransferTx where
  id : Nat
  sender : AccAddress
  destAddress : EthAddress
  erc20Token : ERC20Token
  erc20Fee : ERC20Token
  deriving DecidableEq, Repr

/-- What the sender locked for a transfer. -/
def OutgoingTransferTx.total (tx : OutgoingTransferTx) : Nat :=
  tx.erc20Token.amount + tx.erc20Fee.amount

structure OutgoingTxBatch where
  batchNonce : Nat
  batchTimeout : Nat
  transactions : List OutgoingTransferTx
  tokenContract : EthAddress
  cosmosBlockCreated : Nat
  deriving DecidableEq, Repr

def OutgoingTxBatch.total (batch : OutgoingTxBatch) : Nat :=
  (batch.transactions.map OutgoingTransferTx.total).sum

def OutgoingTxBatch.getFees (batch : OutgoingTxBatch) : Nat :=
  (batch.transactions.map (fun tx => tx.erc20Fee.amount)).sum

structure MsgConfirmBatch where
  nonce : U64
  tokenContract : Bytes
  ethSigner : Bytes
  orchestrator : Bytes
  signature : Bytes
  deriving DecidableEq, Repr

abbrev PoolKey := EthAddress ×ₗ Nat ×ₗ Nat

abbrev BatchKey := EthAddress ×ₗ Nat

abbrev ConfirmKey := EthAddress ×ₗ Nat ×ₗ AccAddress

/-- `GetOutgoingTxPoolKey`: the contract, the fee and the id, in this order. -/
def getOutgoingTxPoolKey (fee : ERC20Token) (id : Nat) : PoolKey :=
  toLex (fee.contract, toLex (fee.amount, id))

def getOutgoingTxBatchKey (tokenContract : EthAddress) (nonce : Nat) : BatchKey :=
  toLex (tokenContract, nonce)

def getBatchConfirmKey (tokenContract : EthAddress) (nonce : Nat) (validator : AccAddress) :
    ConfirmKey :=
  toLex (tokenContract, toLex (nonce, validator))

/-- Transfers and batches are numbered from one on. The source's counters are 64-bit numbers; here
they do not wrap, so that no number is given twice. -/
structure Outgoing where
  pool : KVStore PoolKey OutgoingTransferTx
  batches : KVStore BatchKey OutgoingTxBatch
  batchConfirms : KVStore ConfirmKey MsgConfirmBatch
  lastTXPoolID : Nat
  lastOutgoingBatchID : Nat

/-! ## Registered tokens, validator sets and forwards -/

/-- Whether a denom reads as a voucher of some ERC20, in either namespace and any casing. -/
def isVoucher (denom : Denom) : Bool :=
  succeeds (gravityDenomToERC20 denom) || succeeds (gravity2DenomToERC20 denom)

/-- The cosmos-originated index in both directions, the remapped tokens and the allowlist. -/
structure Registry where
  denomToERC20 : KVStore Denom EthAddress
  erc20ToDenom : KVStore EthAddress Denom
  remappedERC20s : List EthAddress
  cosmosBridgeableTokens : KVStore Denom Metadata
  paired : ∀ denom token, denomToERC20.get denom = some token ↔ erc20ToDenom.get token = some denom
  notVoucher : ∀ denom token, denomToERC20.get denom = some token → isVoucher denom = false
  notRemapped : ∀ denom token, denomToERC20.get denom = some token → token ∉ remappedERC20s

structure Valset where
  nonce : Nat
  members : List BridgeValidator
  height : Nat
  rewardAmount : Option Int
  rewardToken : Bytes
  deriving DecidableEq, Repr

structure Valsets where
  requests : KVStore Nat Valset
  latestValsetNonce : Nat
  lastObservedValset : Option Valset

structure PendingIbcAutoForward where
  foreignReceiver : Bytes
  token : Coin
  ibcChannel : Bytes
  eventNonce : Nat
  deriving DecidableEq, Repr

/-- What observed events, messages and timeouts change. -/
structure Ledger where
  outgoing : Outgoing
  registry : Registry
  valsets : Valsets
  pendingIbcAutoForwards : KVStore Nat PendingIbcAutoForward
  bank : Bank
  communityPool : Denom → Nat
  /-- The checkpoints that validators were asked to sign, each stored with the byte one. -/
  pastEthSignatureCheckpoints : KVStore Bytes Bytes

/-- A bridge that nobody has used yet. -/
def Ledger.unused (remappedERC20s : List EthAddress) (bank : Bank) : Ledger where
  outgoing := ⟨.empty, .empty, .empty, 0, 0⟩
  registry := ⟨.empty, .empty, remappedERC20s, .empty, by simp, by simp, by simp⟩
  valsets := ⟨.empty, 0, none⟩
  pendingIbcAutoForwards := .empty
  bank := bank
  communityPool _ := 0
  pastEthSignatureCheckpoints := .empty

/-! ## The oracle -/

structure Attestation where
  observed : Bool
  votes : List ValAddress
  height : Nat
  claim : EthereumClaim
  claimType : ClaimType
  claimComponents : ClaimHashComponents
  deriving DecidableEq, Repr

structure LastObservedEthereumBlockHeight where
  cosmosBlockHeight : Nat
  ethereumBlockHeight : Nat
  deriving DecidableEq, Repr

abbrev AttestationKey := Nat ×ₗ Bytes

def getAttestationKey (eventNonce : U64) (claimHash : Bytes) : AttestationKey :=
  toLex (eventNonce.val, claimHash)

structure Oracle where
  attestations : KVStore AttestationKey Attestation
  lastEventNonceByValidator : KVStore ValAddress Nat
  lastObservedEventNonce : Nat
  lastObservedEthereumBlockHeight : LastObservedEthereumBlockHeight

/-! ## The whole state -/

structure Params where
  gravityId : Bytes
  bridgeEthereumAddress : Bytes
  bridgeActive : Bool
  signedValsetsWindow : Nat
  signedBatchesWindow : Nat
  targetBatchTimeout : Nat
  averageBlockTime : Nat
  averageEthereumBlockTime : Nat
  valsetReward : Coin
  ethereumBlacklist : List EthAddress
  minChainFeeBasisPoints : Nat
  /-- In units of ten to the power of minus eighteen. -/
  chainFeeAuctionPoolFraction : Nat
  unbondSlashingValsetsWindow : Nat
  deriving DecidableEq, Repr

/-- `DefaultParams`. -/
def defaultParams : Params where
  gravityId := ascii "defaultgravityid"
  bridgeEthereumAddress := zeroAddressString
  bridgeActive := true
  signedValsetsWindow := 10000
  signedBatchesWindow := 10000
  targetBatchTimeout := 43200000
  averageBlockTime := 5000
  averageEthereumBlockTime := 15000
  valsetReward := ⟨[], 0⟩
  ethereumBlacklist := []
  minChainFeeBasisPoints := 0
  chainFeeAuctionPoolFraction := 500000000000000000
  unbondSlashingValsetsWindow := 10000

/-- What the ledger's operations read and never write. -/
structure Context where
  params : Params
  blockHeight : Nat
  lastObservedEventNonce : Nat
  lastObservedEthereumBlockHeight : LastObservedEthereumBlockHeight
  nativeHrp : Option Bytes
  hrpIbcRecords : KVStore Bytes Bytes

structure State where
  params : Params
  blockHeight : Nat
  nativeHrp : Option Bytes
  hrpIbcRecords : KVStore Bytes Bytes
  oracle : Oracle
  ledger : Ledger

def State.context (state : State) : Context :=
  ⟨state.params, state.blockHeight, state.oracle.lastObservedEventNonce,
    state.oracle.lastObservedEthereumBlockHeight, state.nativeHrp, state.hrpIbcRecords⟩

/-- One more in 64-bit arithmetic. -/
def succU64 (number : Nat) : Nat := (number + 1) % 2 ^ 64

/-- `GetBridgeContractAddress`. Every event of the module names the contract, and the address may be
unset. -/
def Params.getBridgeContractAddress (params : Params) : Go EthAddress :=
  orPanic "failed to parse bridge ethereum address" (newEthAddress params.bridgeEthereumAddress)

/-- The address of the bridge contract can be named in an event. -/
def Params.NamesBridge (params : Params) : Prop :=
  validateEthAddress params.bridgeEthereumAddress = .ok ()

instance decidableNamesBridge (params : Params) : Decidable params.NamesBridge :=
  inferInstanceAs (Decidable (_ = _))

theorem getBridgeContractAddress_eq_ok {params : Params} :
    (∃ address, params.getBridgeContractAddress = .ok address) ↔ params.NamesBridge := by
  simp [Params.getBridgeContractAddress, newEthAddress_eq_ok, Params.NamesBridge]

theorem getBridgeContractAddress_of_not {params : Params} (unnamed : ¬ params.NamesBridge) :
    params.getBridgeContractAddress = panicking "failed to parse bridge ethereum address" := by
  rcases parsed : newEthAddress params.bridgeEthereumAddress with ⟨_ | message⟩ | address
  · rw [Params.getBridgeContractAddress, parsed]
    rfl
  · have safe : Avoids [message] (newEthAddress params.bridgeEthereumAddress) := by
      simp [newEthAddress, validateEthAddress]
    exact absurd (List.mem_singleton_self message) (safe message parsed)
  · exact absurd (newEthAddress_eq_ok.mp parsed).1 unnamed

def Params.requireBridgeActive (params : Params) : Go Unit :=
  require (params.bridgeActive = true) ⟨.invalid, "bridge paused"⟩

/-- `IsOnBlacklist`. -/
def Params.isOnBlacklist (params : Params) (address : EthAddress) : Bool :=
  params.ethereumBlacklist.contains address

def Params.invalidSendToEthAddress (params : Params) (address : EthAddress) : Bool :=
  params.isOnBlacklist address || address == zeroAddress

end GravityBridge.Keeper
