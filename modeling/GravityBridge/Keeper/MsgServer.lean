import GravityBridge.Keeper.Attestation

/-!
# The message server

Each message runs its stateless checks and then its handler. What other modules
know about the signer (which validator it votes for, whether that validator is
bonded, whether a signature is its own) is an argument.
-/

namespace GravityBridge.Keeper

open Lib.Fallible Lib.ByteString Lib.Store
open GravityBridge.Types

/-- Only listed tokens with unchanged metadata are bridged when they are cosmos-originated. -/
def Ledger.requireListed (ledger : Ledger) (origin : AssetOrigin) (denom : Denom)
    (notListed : String) : Go Unit :=
  match origin.origin with
  | .cosmos => do
      let _ ← rewrap ⟨.plain, notListed⟩ (ledger.assertMetadataWhitelisted denom)
      pure ()
  | .ethereum => pure ()

section

variable (ext : External)

/-! ## Sending to Ethereum -/

structure MsgSendToEth where
  sender : Bytes
  ethDest : Bytes
  amount : Coin
  bridgeFee : Coin
  chainFee : Coin
  deriving DecidableEq, Repr

def MsgSendToEth.validateBasic (msg : MsgSendToEth) : Go Unit := do
  rewrap ⟨.plain, "amount denom"⟩ (validateStrictDenom msg.amount.denom)
  rewrap ⟨.plain, "bridge fee denom"⟩ (validateStrictDenom msg.bridgeFee.denom)
  rewrap ⟨.plain, "chain fee denom"⟩ (validateStrictDenom msg.chainFee.denom)
  let _ ← rewrap ⟨.invalidAddress, "sender"⟩ (accAddressFromBech32 ext msg.sender)
  require (msg.amount.denom = msg.bridgeFee.denom)
    ⟨.invalidCoins, "bridge fee (paid to relayers) and amount must be the same type"⟩
  require (msg.amount.denom = msg.chainFee.denom)
    ⟨.invalidCoins, "chain fee (paid to stakers) and amount must be the same type"⟩
  require (msg.amount.isValid = true ∧ msg.amount.amount ≠ 0) ⟨.invalidCoins, "amount"⟩
  require (msg.bridgeFee.isValid = true) ⟨.invalidCoins, "bridge fee"⟩
  require (msg.chainFee.isValid = true) ⟨.invalidCoins, "chain fee"⟩
  rewrap ⟨.plain, "ethereum address"⟩ (validateEthAddress msg.ethDest)

def basisPointDivisor : Nat := 10000

def Ledger.payFee (ledger : Ledger) (sender collector : AccAddress) (fee : Coin) : Go Ledger := do
  let bank ← ledger.bank.sendCoins sender collector fee
  pure { ledger with bank := bank }

/-- Take the chain fee: a share of it goes to the auction pool when the denom is auctionable,
the rest to the stakers. -/
def Ledger.checkAndDeductSendToEthFees (params : Params) (auctionable : Bool) (ledger : Ledger)
    (sender : AccAddress) (sendAmount chainFee : Coin) : Go Ledger := do
  require (sendAmount.amount * params.minChainFeeBasisPoints / basisPointDivisor ≤ chainFee.amount)
    ⟨.insufficientFee, "chain fee provided is insufficient"⟩
  if chainFee.amount = 0 then pure ledger
  else if auctionable then do
    let poolFee := params.chainFeeAuctionPoolFraction * chainFee.amount / 10 ^ 18
    let pooled ← ledger.payFee sender ext.auctionPool ⟨chainFee.denom, poolFee⟩
    check (poolFee ≤ chainFee.amount) "negative coin amount"
    pooled.payFee sender ext.feeCollector ⟨chainFee.denom, chainFee.amount - poolFee⟩
  else ledger.payFee sender ext.feeCollector chainFee

def Ledger.sendToEth (context : Context) (auctionable : Bool) (ledger : Ledger) (msg : MsgSendToEth) :
    Go Ledger := do
  context.params.requireBridgeActive
  rewrap ⟨.plain, "invalid amount denom"⟩ (validateStrictDenom msg.amount.denom)
  rewrap ⟨.plain, "invalid bridge fee denom"⟩ (validateStrictDenom msg.bridgeFee.denom)
  rewrap ⟨.plain, "invalid chain fee denom"⟩ (validateStrictDenom msg.chainFee.denom)
  require (msg.amount.denom = msg.bridgeFee.denom ∧ msg.amount.denom = msg.chainFee.denom)
    ⟨.invalid, "amount, bridge fee, and chain fee must all be the same denom"⟩
  let amountOrigin ← rewrap ⟨.plain, "failed to classify amount denom"⟩
    (ledger.classifyDenom msg.amount.denom)
  ledger.requireListed amountOrigin msg.amount.denom "token not whitelisted for SendToEth"
  let sender ← rewrap ⟨.plain, "invalid sender"⟩ (accAddressFromBech32 ext msg.sender)
  let dest ← rewrap ⟨.plain, "invalid eth dest"⟩ (newEthAddress msg.ethDest)
  require (context.params.invalidSendToEthAddress dest = false)
    ⟨.invalid, "destination address is invalid or blacklisted"⟩
  let charged ← rewrap ⟨.plain, "Could not deduct chainFee from account"⟩
    (ledger.checkAndDeductSendToEthFees ext context.params auctionable sender msg.amount msg.chainFee)
  let (_, next) ← rewrap ⟨.plain, "Could not add to outgoing pool"⟩
    (charged.addToOutgoingPool ext context.params sender dest msg.amount msg.bridgeFee)
  pure next

structure MsgCancelSendToEth where
  transactionId : U64
  sender : Bytes
  deriving DecidableEq, Repr

def Ledger.cancelSendToEth (params : Params) (ledger : Ledger) (msg : MsgCancelSendToEth) :
    Go Ledger := do
  let sender ← accAddressFromBech32 ext msg.sender
  ledger.removeFromOutgoingPoolAndRefund ext params msg.transactionId.val sender

/-! ## Batches -/

structure MsgRequestBatch where
  sender : Bytes
  denom : Denom
  deriving DecidableEq, Repr

def MsgRequestBatch.validateBasic (msg : MsgRequestBatch) : Go Unit := do
  let _ ← rewrap ⟨.invalidAddress, "sender"⟩ (accAddressFromBech32 ext msg.sender)
  rewrap ⟨.plain, "denom"⟩ (validateStrictDenom msg.denom)

def Ledger.requestBatch (context : Context) (ledger : Ledger) (msg : MsgRequestBatch) :
    Go Ledger := do
  context.params.requireBridgeActive
  rewrap ⟨.plain, "invalid denom in request batch"⟩ (validateStrictDenom msg.denom)
  let batchOrigin ← rewrap ⟨.plain, "failed to classify denom in request batch"⟩
    (ledger.classifyDenom msg.denom)
  ledger.requireListed batchOrigin msg.denom "token not whitelisted for RequestBatch"
  let (_, next) ← rewrap ⟨.plain, "Could not build outgoing tx batch"⟩
    (ledger.buildOutgoingTXBatch ext context batchOrigin.erc20 outgoingTxBatchSize)
  pure next

def MsgConfirmBatch.validateBasic (msg : MsgConfirmBatch) : Go Unit := do
  let _ ← rewrap ⟨.invalidAddress, "orchestrator"⟩ (accAddressFromBech32 ext msg.orchestrator)
  rewrap ⟨.plain, "eth signer"⟩ (validateEthAddress msg.ethSigner)
  rewrap ⟨.plain, "token contract"⟩ (validateEthAddress msg.tokenContract)
  require (decodesAsHex msg.signature = true) ⟨.invalidClaim, "could not decode hex string"⟩

/-- The checks on a token that messages about it make before anything else. -/
def Ledger.requireBridgeable (ledger : Ledger) (tokenContract : Bytes)
    (unclassified notListed : String) : Go EthAddress := do
  let contract ← rewrap ⟨.invalid, "eth address invalid"⟩ (newEthAddress tokenContract)
  let contractOrigin ← rewrap ⟨.plain, unclassified⟩ (ledger.classifyERC20 ext contract)
  ledger.requireListed contractOrigin contractOrigin.denom notListed
  pure contract

/-- `confirmHandlerCommon` looks up the key of the signer and verifies the signature with it. -/
def Ledger.confirmBatch (ledger : Ledger) (msg : MsgConfirmBatch) (signatureOk : Bool) :
    Go Ledger := do
  rewrap ⟨.plain, "invalid MsgConfirmBatch"⟩ (msg.validateBasic ext)
  let contract ← ledger.requireBridgeable ext msg.tokenContract
    "failed to classify ERC20 in ConfirmBatch" "token not whitelisted for ConfirmBatch"
  require ((ledger.outgoing.getOutgoingTXBatch contract msg.nonce.val).isSome = true)
    ⟨.invalid, "couldn't find batch"⟩
  let orchestrator ← rewrap ⟨.invalid, "acc address invalid"⟩
    (accAddressFromBech32 ext msg.orchestrator)
  require (signatureOk = true) ⟨.invalid, "signature verification failed"⟩
  require (ledger.outgoing.batchConfirms.get
    (getBatchConfirmKey contract msg.nonce.val orchestrator) = none)
    ⟨.duplicate, "duplicate signature"⟩
  pure { ledger with outgoing := { ledger.outgoing with
    batchConfirms := ledger.outgoing.batchConfirms.set
      (getBatchConfirmKey contract msg.nonce.val orchestrator) msg } }

/-! ## Claims -/

/-- The validator that an orchestrator votes for, and whether it is bonded. -/
structure Voter where
  validator : Option ValAddress
  bonded : Bool
  deriving DecidableEq, Repr

def checkOrchestratorValidatorInSet (orchestrator : Bytes) (voter : Voter) : Go Unit := do
  let _ ← rewrap ⟨.invalid, "acc address invalid"⟩ (accAddressFromBech32 ext orchestrator)
  require (voter.validator.isSome = true) ⟨.unknown, "validator"⟩
  require (voter.bonded = true) ⟨.plain, "validator not in active set"⟩

/-- Claims on batches that already timed out panic before they are stored. -/
def Ledger.additionalPatchChecks (ledger : Ledger) (msg : MsgBatchSendToEthClaim) : Go Unit := do
  let contractAddress ← orPanic "Invalid TokenContract on MsgBatchSendToEthClaim"
    (newEthAddress msg.tokenContract)
  check (∀ batch ∈ ledger.outgoing.getOutgoingTXBatch contractAddress msg.batchNonce.val,
    msg.ethBlockHeight.val < batch.batchTimeout) "batch submitted after it timed out"

/-- The checks that depend on the kind of claim. -/
def Ledger.checkClaim (ledger : Ledger) (voter : Voter) : EthereumClaim → Go Unit
  | .sendToCosmos msg => do
      checkOrchestratorValidatorInSet ext msg.orchestrator voter
      let _ ← ledger.requireBridgeable ext msg.tokenContract
        "failed to classify ERC20 in SendToCosmosClaim" "token not whitelisted for SendToCosmos"
      pure ()
  | .batchSendToEth msg => do
      checkOrchestratorValidatorInSet ext msg.orchestrator voter
      ledger.additionalPatchChecks msg
      let _ ← ledger.requireBridgeable ext msg.tokenContract
        "failed to classify ERC20 in BatchSendToEthClaim" "token not whitelisted for SendToEth"
      pure ()
  | .erc20Deployed msg => do
      rewrap ⟨.plain, "invalid cosmos denom in ERC20 deployed claim"⟩
        (validateStrictDenom msg.cosmosDenom)
      checkOrchestratorValidatorInSet ext msg.orchestrator voter
      let _ ← ledger.requireBridgeable ext msg.tokenContract
        "failed to classify ERC20 in ERC20DeployedClaim" "token not whitelisted for DeployErc20"
      pure ()
  | .logicCallExecuted msg => checkOrchestratorValidatorInSet ext msg.orchestrator voter
  | .valsetUpdated msg => checkOrchestratorValidatorInSet ext msg.orchestrator voter

def State.claimHandlerCommon (state : State) (voter : Voter) (claim : EthereumClaim) : Go State := do
  state.params.requireBridgeActive
  validateClaimFieldLengths claim
  let oracle ← rewrap ⟨.plain, "create attestation"⟩
    (state.oracle.attest ext state.blockHeight voter.validator claim)
  pure { state with oracle := oracle }

/-- The five claim messages. -/
def State.submitClaim (state : State) (voter : Voter) (claim : EthereumClaim) : Go State := do
  claim.validateBasic ext
  state.params.requireBridgeActive
  state.ledger.checkClaim ext voter claim
  state.claimHandlerCommon ext voter claim

end

end GravityBridge.Keeper
