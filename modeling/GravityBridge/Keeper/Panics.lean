import GravityBridge.Keeper.EndBlocker

/-!
# Which panics the handlers can reach

The oracle guards the order of events with panics of its own, and the execution of
a batch guards itself with two more. No other function of a block's end reports
with one of these messages.
-/

namespace GravityBridge.Keeper

open Lib.Fallible Lib.ByteString Lib.Store
open GravityBridge.Types

/-- The panics that guard the order in which events are applied. -/
def orderPanics : List String :=
  ["attempting to apply events to state out of order", "attempting to process observed attestation",
    "Event nonce going backwards or replay!"]

/-- The panics of an executed batch that the module does not have, or that timed out. -/
def executionPanics : List String :=
  ["unknown batch nonce for outgoing tx batch", "Batch submitted after it timed out"]

def guardPanics : List String := orderPanics ++ executionPanics

variable {message : String}

@[simp] theorem mem_guardPanics : message ∈ guardPanics ↔
    message = "attempting to apply events to state out of order" ∨
      message = "attempting to process observed attestation" ∨
      message = "Event nonce going backwards or replay!" ∨
      message = "unknown batch nonce for outgoing tx batch" ∨
        message = "Batch submitted after it timed out" := by
  simp [guardPanics, orderPanics, executionPanics]

variable {ext : External} {messages : List String} {params : Params} {context : Context}
  {ledger : Ledger} {bank : Bank}

/-! ## Functions without panics -/

variable {text : Bytes}

@[simp] theorem avoids_getPrefixFromBech32 : Avoids messages (getPrefixFromBech32 text) := by
  simp [getPrefixFromBech32]

@[simp] theorem avoids_validateEthAddress : Avoids messages (validateEthAddress text) := by
  simp [validateEthAddress]

@[simp] theorem avoids_newEthAddress : Avoids messages (newEthAddress text) := by
  simp [newEthAddress]

@[simp] theorem avoids_getBridgeContractAddress :
    Avoids guardPanics params.getBridgeContractAddress :=
  avoids_orPanic avoids_newEthAddress (by simp)

variable {denom : Denom}

@[simp] theorem avoids_validateStrictDenom : Avoids messages (validateStrictDenom denom) := by
  simp [validateStrictDenom, validateIbcDenom, gravity2DenomToERC20, gravityDenomToERC20]

@[simp] theorem avoids_validateClaimFieldLengths {claim : EthereumClaim} :
    Avoids messages (validateClaimFieldLengths claim) := by
  cases claim <;> simp [validateClaimFieldLengths, validateERC20AddressField]

@[simp] theorem avoids_membersToInternal {members : List BridgeValidator} :
    Avoids messages (membersToInternal members) := by
  unfold membersToInternal
  induction members with
  | nil => simp
  | cons member rest ih =>
    rw [List.mapM_cons, avoids_bind, avoids_rewrap]
    exact ⟨by simp [newInternalBridgeValidator], fun _ _ => avoids_bind.mpr ⟨ih, by simp⟩⟩

@[simp] theorem avoids_claimHash {claim : EthereumClaim} : Avoids messages (claim.claimHash ext) := by
  cases claim <;> simp [EthereumClaim.claimHash, EthereumClaim.path, MsgValsetUpdatedClaim.path,
    canonicalMembers]

variable {receiver : AccAddress} {coin : Coin} {sender account : AccAddress}

@[simp] theorem avoids_sendCoins : Avoids messages (bank.sendCoins sender receiver coin) := by
  unfold Bank.sendCoins
  split_ifs <;> simp

@[simp] theorem avoids_burnCoins : Avoids messages (bank.burnCoins account coin) := by
  unfold Bank.burnCoins
  split_ifs <;> simp

@[simp] theorem avoids_sendCoinsFromModuleToAccount :
    Avoids messages (bank.sendCoinsFromModuleToAccount ext sender receiver coin) := by
  simp [Bank.sendCoinsFromModuleToAccount]

@[simp] theorem avoids_assertMetadataWhitelisted :
    Avoids messages (ledger.assertMetadataWhitelisted denom) := by
  simp [Ledger.assertMetadataWhitelisted]

variable {token : EthAddress}

@[simp] theorem avoids_classifyCosmosOriginated :
    Avoids messages (ledger.classifyCosmosOriginated denom token) := by
  simp [Ledger.classifyCosmosOriginated]

@[simp] theorem avoids_classifyEthOriginated {isRemapped : Bool} :
    Avoids messages (ledger.classifyEthOriginated denom token isRemapped) := by
  simp [Ledger.classifyEthOriginated]

@[simp] theorem avoids_classifyERC20 : Avoids messages (ledger.classifyERC20 ext token) := by
  unfold Ledger.classifyERC20
  split <;> simp

@[simp] theorem avoids_classifyDenom : Avoids messages (ledger.classifyDenom denom) := by
  unfold Ledger.classifyDenom
  split
  · simp
  · split
    · simp
    · split <;> simp

@[simp] theorem avoids_addPendingIbcAutoForward {forward : PendingIbcAutoForward} :
    Avoids messages (ledger.addPendingIbcAutoForward ext context forward) := by
  simp [Ledger.addPendingIbcAutoForward, Ledger.validatePendingIbcAutoForward,
    PendingIbcAutoForward.validateBasic]

@[simp] theorem avoids_sendToCommunityPool :
    Avoids messages (ledger.sendToCommunityPool ext coin) := by
  simp [Ledger.sendToCommunityPool]

/-! ## Functions with panics of their own -/

@[simp] theorem avoids_newCoin {amount : Option Int} : Avoids guardPanics (newCoin denom amount) := by
  simp [newCoin]

@[simp] theorem avoids_singleCoins : Avoids messages (singleCoins coin) := by
  simp [singleCoins]

@[simp] theorem avoids_mintCoins : Avoids guardPanics (bank.mintCoins account coin) := by
  simp [Bank.mintCoins]

@[simp] theorem avoids_mintEthereumOriginatedVouchers :
    Avoids guardPanics (ledger.mintEthereumOriginatedVouchers ext coin) := by
  simp [Ledger.mintEthereumOriginatedVouchers]

variable {claim : MsgSendToCosmosClaim} {registry : Registry} {outgoing : Outgoing}
  {bonded : List BondedValidator} {env : ValsetEnv}

@[simp] theorem avoids_forwardOrSend {accountPrefix channel : Bytes} :
    Avoids guardPanics (ledger.forwardOrSend ext context claim accountPrefix channel receiver
      coin) := by
  have queue : Avoids guardPanics
      (ledger.addToIbcAutoForwardQueue ext context accountPrefix coin channel claim) := by
    simp [Ledger.addToIbcAutoForwardQueue]
  unfold Ledger.forwardOrSend
  split
  · simp
  · rename_i message panics
    exact avoids_panicking.mpr (queue message panics)
  · simp [Ledger.sendCoinToLocalAddress]

@[simp] theorem avoids_sendCoinToCosmosAccount :
    Avoids guardPanics (ledger.sendCoinToCosmosAccount ext context claim receiver coin) := by
  simp only [Ledger.sendCoinToCosmosAccount, avoids_bind, avoids_getPrefixFromBech32,
    avoids_unwrap, true_and, avoids_ite]
  refine fun accountPrefix _ => ⟨by simp, fun nativePrefix _ => ⟨fun _ => ?_, fun _ => ?_⟩⟩
  · simp [Ledger.sendCoinToLocalAddress]
  · split
    · simp [Ledger.sendCoinToLocalAddress]
    · simp

@[simp] theorem avoids_deliverDeposit {receiver : Option AccAddress} :
    Avoids guardPanics (ledger.deliverDeposit ext context claim receiver coin) := by
  unfold Ledger.deliverDeposit
  split
  · simp [Ledger.depositToCommunityPool]
  · rename_i address
    split
    · simp [assertBalance]
    · rename_i message panics
      exact avoids_panicking.mpr (avoids_sendCoinToCosmosAccount message panics)
    · simp [assertBalance, Ledger.depositToCommunityPool]

@[simp] theorem avoids_classifyAccepted {notListed : String} :
    Avoids messages (ledger.classifyAccepted ext token notListed) := by
  simp only [Ledger.classifyAccepted, avoids_bind, avoids_rewrap, avoids_classifyERC20,
    avoids_validateStrictDenom, true_and]
  intro origin _ _ _
  split <;> simp

@[simp] theorem avoids_mintIfEthereum {origin : AssetOrigin} :
    Avoids guardPanics (ledger.mintIfEthereum ext origin coin) := by
  unfold Ledger.mintIfEthereum
  split <;> simp

@[simp] theorem avoids_handleSendToCosmos :
    Avoids guardPanics (ledger.handleSendToCosmos ext context claim) := by
  simp only [Ledger.handleSendToCosmos, avoids_bind, avoids_rewrap, avoids_newEthAddress, true_and]
  intro token _
  split <;> simp

@[simp] theorem avoids_validateCosmosOriginatedMapping :
    Avoids messages (registry.validateCosmosOriginatedMapping denom token) := by
  simp [Registry.validateCosmosOriginatedMapping]

@[simp] theorem avoids_setCosmosOriginatedMapping :
    Avoids messages (registry.setCosmosOriginatedMapping denom token) := by
  have checks : Avoids messages (registry.checkCosmosOriginatedMapping denom token) := by
    simp [Registry.checkCosmosOriginatedMapping]
  unfold Registry.setCosmosOriginatedMapping
  split
  · simp
  · rename_i failed
    rw [failed] at checks
    simpa [Avoids] using checks

@[simp] theorem avoids_handleErc20Deployed {claim : MsgERC20DeployedClaim} :
    Avoids messages (ledger.handleErc20Deployed claim) := by
  simp [Ledger.handleErc20Deployed]

@[simp] theorem avoids_handleValsetUpdated {claim : MsgValsetUpdatedClaim} :
    Avoids guardPanics (ledger.handleValsetUpdated ext claim) := by
  have reward : ∀ (observed : Ledger) (token : EthAddress),
      Avoids guardPanics (observed.mintReward ext claim token) := by
    intro observed token
    simp only [Ledger.mintReward, avoids_bind, avoids_unwrap, avoids_ite, avoids_rewrap,
      avoids_classifyERC20, avoids_validateStrictDenom, avoids_pure, true_and, implies_true, and_true]
    refine ⟨by simp, fun amount _ _ origin _ _ _ => ?_⟩
    split <;> simp
  simp [Ledger.handleValsetUpdated, Ledger.observeValset, reward]

/-- The only handler that can reach the guards of an execution is the one for batches. -/
theorem avoids_handle {claim : EthereumClaim}
    (batch : ∀ msg, claim = .batchSendToEth msg →
      Avoids messages (ledger.handleBatchSendToEth ext context.params msg))
    (guards : messages ⊆ guardPanics) : Avoids messages (ledger.handle ext context claim) := by
  simp only [Ledger.handle, avoids_bind, avoids_validateClaimFieldLengths, true_and]
  intro _ _
  cases claim with
  | sendToCosmos msg => exact avoids_handleSendToCosmos.mono guards
  | batchSendToEth msg => exact batch msg rfl
  | erc20Deployed msg => exact avoids_handleErc20Deployed
  | logicCallExecuted msg =>
    refine avoids_panicking.mpr fun member => ?_
    simpa using guards member
  | valsetUpdated msg => exact avoids_handleValsetUpdated.mono guards

/-! ## Batches -/

@[simp] theorem avoids_cancelOutgoingTXBatch {nonce : Nat} :
    Avoids guardPanics (outgoing.cancelOutgoingTXBatch ext params token nonce) := by
  simp only [Outgoing.cancelOutgoingTXBatch, avoids_bind, avoids_fromOption,
    avoids_getBridgeContractAddress, avoids_pure, true_and, implies_true, and_true]
  intro batch _
  refine avoids_foldlM fun current tx _ => avoids_orPanic ?_ (by simp)
  simp [Outgoing.addUnbatchedTX]

theorem avoids_cancelWhere {batches : List OutgoingTxBatch} {condition : OutgoingTxBatch → Prop}
    [DecidablePred condition] {token : OutgoingTxBatch → EthAddress}
    (other : message ∉ guardPanics) :
    Avoids guardPanics (batches.foldlM (fun current batch => if condition batch then
      orPanic message (current.cancelOutgoingTXBatch ext params (token batch) batch.batchNonce)
      else pure current) outgoing) := by
  refine avoids_foldlM fun current batch _ => ?_
  rw [avoids_ite]
  exact ⟨fun _ => avoids_orPanic avoids_cancelOutgoingTXBatch other, fun _ => avoids_pure _⟩

/-- Executing a batch reaches its guards only without a stored batch or after its timeout. -/
theorem avoids_outgoingTxBatchExecuted {claim : MsgBatchSendToEthClaim}
    (guards : messages ⊆ guardPanics)
    (known : ledger.outgoing.getOutgoingTXBatch token claim.batchNonce.val ≠ none ∨
      "unknown batch nonce for outgoing tx batch" ∉ messages)
    (early : ∀ batch, ledger.outgoing.getOutgoingTXBatch token claim.batchNonce.val = some batch →
      claim.ethBlockHeight.val < batch.batchTimeout ∨
        "Batch submitted after it timed out" ∉ messages) :
    Avoids messages (ledger.outgoingTxBatchExecuted ext params token claim) := by
  simp only [Ledger.outgoingTxBatchExecuted, avoids_bind, avoids_unwrap, unwrap_eq_ok, avoids_check,
    avoids_pure, implies_true, and_true]
  refine ⟨known, fun batch found =>
    ⟨early batch found, fun _ _ => ⟨?_, fun origin _ => ⟨?_, fun _ _ => ?_⟩⟩⟩⟩
  · exact (avoids_orPanic avoids_classifyERC20 (by simp)).mono guards
  · refine Avoids.mono ?_ guards
    unfold Ledger.burnVouchers
    split
    · simp only [avoids_bind, avoids_newCoin, true_and]
      exact fun _ _ => avoids_orPanic avoids_burnCoins (by simp)
    · simp
  · exact (avoids_cancelWhere (by simp)).mono guards

theorem avoids_handleBatchSendToEth {claim : MsgBatchSendToEthClaim} (guards : messages ⊆ guardPanics)
    (known : ∀ token, newEthAddress claim.tokenContract = .ok token →
      ledger.outgoing.getOutgoingTXBatch token claim.batchNonce.val ≠ none ∨
        "unknown batch nonce for outgoing tx batch" ∉ messages)
    (early : ∀ token batch, newEthAddress claim.tokenContract = .ok token →
      ledger.outgoing.getOutgoingTXBatch token claim.batchNonce.val = some batch →
      claim.ethBlockHeight.val < batch.batchTimeout ∨
        "Batch submitted after it timed out" ∉ messages) :
    Avoids messages (ledger.handleBatchSendToEth ext params claim) := by
  simp only [Ledger.handleBatchSendToEth, avoids_bind, avoids_rewrap, avoids_newEthAddress,
    avoids_classifyAccepted, rewrap_eq_ok, true_and]
  intro token parsed _ _
  exact avoids_outgoingTxBatchExecuted guards (known token parsed)
    (fun batch => early token batch parsed)

/-! ## The rest of a block's end -/

@[simp] theorem avoids_getCurrentValset :
    Avoids guardPanics (ledger.getCurrentValset ext context bonded) := by
  have reward : Avoids guardPanics (ledger.valsetReward context) := by
    simp only [Ledger.valsetReward, Ledger.rewardToERC20Lookup, avoids_ite, avoids_bind,
      avoids_pure, avoids_check, implies_true, and_true, true_and]
    exact fun _ => ⟨by simp, fun _ _ => avoids_orPanic avoids_classifyDenom (by simp)⟩
  simp [Ledger.getCurrentValset, newValset, reward]

@[simp] theorem avoids_getCheckpoint {gravityID : Bytes} {valset : Valset} :
    Avoids guardPanics (valset.getCheckpoint ext gravityID) := by
  simp only [Valset.getCheckpoint, avoids_bind, avoids_pure, implies_true, and_true]
  exact ⟨avoids_orPanic (by simp [strToFixByteArray]) (by simp),
    fun _ _ => ⟨avoids_orPanic avoids_validateEthAddress (by simp), fun _ _ => by simp⟩⟩

@[simp] theorem avoids_setValsetRequest :
    Avoids guardPanics (ledger.setValsetRequest ext context bonded) := by
  simp only [Ledger.setValsetRequest, Ledger.storeValset, Ledger.setLatestValsetNonce, avoids_bind,
    avoids_check, avoids_pure, implies_true, and_true]
  exact ⟨avoids_orPanic avoids_getCurrentValset (by simp), fun _ _ =>
    ⟨by simp, fun _ _ =>
      ⟨by simp, fun _ _ => ⟨avoids_getCheckpoint, fun _ _ => avoids_getBridgeContractAddress⟩⟩⟩⟩

@[simp] theorem avoids_createValsets : Avoids guardPanics (ledger.createValsets ext context env) := by
  unfold Ledger.createValsets
  split
  · simp
  · split
    · simp
    · rename_i message panics
      exact avoids_panicking.mpr (avoids_getCurrentValset message panics)
    · simp only [Ledger.requestIfDue, avoids_bind, avoids_ite, avoids_setValsetRequest, avoids_pure,
        implies_true, and_true]
      exact ⟨avoids_orPanic avoids_membersToInternal (by simp), fun _ _ =>
        avoids_orPanic avoids_membersToInternal (by simp)⟩

@[simp] theorem avoids_maintain : Avoids guardPanics (ledger.maintain ext context env) := by
  simp only [Ledger.maintain, avoids_bind, avoids_createValsets, avoids_pure, implies_true, and_true]
  exact avoids_cancelWhere (by simp)

@[simp] theorem avoids_pruneAttestations {oracle : Oracle} :
    Avoids guardPanics (oracle.pruneAttestations ext) := by
  simp only [Oracle.pruneAttestations, Oracle.deleteWhere, avoids_ite, avoids_pure,
    implies_true, true_and]
  refine fun _ => avoids_foldlM fun current att _ => ?_
  simp only [avoids_ite, Oracle.deleteAttestation, avoids_bind, avoids_pure, implies_true, and_true]
  exact fun _ => avoids_orPanic avoids_claimHash (by simp)

end GravityBridge.Keeper
