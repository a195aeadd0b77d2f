import GravityBridge.Keeper.Checkpoint
import GravityBridge.Keeper.Pool

/-!
# Outgoing batches

A batch takes transfers of one token out of the pool. It leaves the store in one
of two ways: cancelled, which puts its transfers back, or executed on Ethereum,
which finishes them and cancels every earlier batch of the token.
-/

namespace GravityBridge.Keeper

open Lib.Fallible Lib.ByteString Lib.Store
open GravityBridge.Types

def outgoingTxBatchSize : Nat := 100

/-- `getBatchTimeoutHeight`, with the wrap-around of 64-bit arithmetic. Division by a zero
block time panics. -/
def Context.getBatchTimeoutHeight (context : Context) : Go Nat :=
  let heights := context.lastObservedEthereumBlockHeight
  if heights.cosmosBlockHeight = 0 ∨ heights.ethereumBlockHeight = 0 then pure 0
  else do
    let elapsed := (2 ^ 64 + context.blockHeight - heights.cosmosBlockHeight) % 2 ^ 64
    let projectedMillis := elapsed * context.params.averageBlockTime % 2 ^ 64
    check (context.params.averageEthereumBlockTime ≠ 0) "integer divide by zero"
    let projectedCurrentEthereumHeight :=
      (projectedMillis / context.params.averageEthereumBlockTime + heights.ethereumBlockHeight) %
        2 ^ 64
    let blocksToAdd := context.params.targetBatchTimeout / context.params.averageEthereumBlockTime
    pure ((projectedCurrentEthereumHeight + blocksToAdd) % 2 ^ 64)

namespace Outgoing

/-- The loop of `pickUnbatchedTxs` over the pool entries of a contract. -/
def pickLoop (params : Params) (maxElements : Nat) :
    Outgoing → List OutgoingTransferTx → List OutgoingTransferTx →
      Go (List OutgoingTransferTx × Outgoing)
  | outgoing, selected, [] => pure (selected, outgoing)
  | outgoing, selected, tx :: rest =>
      if params.isOnBlacklist tx.destAddress then pickLoop params maxElements outgoing selected rest
      else do
        let removed ← orPanic "Failed to remote tx from unbatched queue"
          (outgoing.removeUnbatchedTX tx.erc20Fee tx.id)
        check (succeeds (removed.getUnbatchedTxByFeeAndId tx.erc20Fee tx.id) = false)
          "picked a duplicate transaction from the pool, duplicates should never exist!"
        if (selected ++ [tx]).length = maxElements then pure (selected ++ [tx], removed)
        else pickLoop params maxElements removed (selected ++ [tx]) rest

def pickUnbatchedTxs (outgoing : Outgoing) (params : Params) (contract : EthAddress)
    (maxElements : Nat) : Go (List OutgoingTransferTx × Outgoing) :=
  pickLoop params maxElements outgoing [] (outgoing.getUnbatchedTransactionsByContract contract)

/-- `IterateOutgoingTxBatches`: the greatest key first. -/
def getOutgoingTxBatches (outgoing : Outgoing) : List OutgoingTxBatch :=
  outgoing.batches.values.reverse

/-- `GetLastOutgoingBatchByTokenType`. -/
def getLastOutgoingBatchByTokenType (outgoing : Outgoing) (token : EthAddress) :
    Option OutgoingTxBatch :=
  outgoing.getOutgoingTxBatches.foldl (fun last batch =>
    if batch.tokenContract = token ∧ (last.map OutgoingTxBatch.batchNonce).getD 0 < batch.batchNonce
    then some batch else last) none

def storeBatch (outgoing : Outgoing) (batch : OutgoingTxBatch) : Go Outgoing := do
  check (outgoing.batches.get (getOutgoingTxBatchKey batch.tokenContract batch.batchNonce) = none)
    "Should never overwrite batch!"
  pure { outgoing with
    batches := outgoing.batches.set (getOutgoingTxBatchKey batch.tokenContract batch.batchNonce)
      batch }

def deleteBatch (outgoing : Outgoing) (batch : OutgoingTxBatch) : Outgoing :=
  { outgoing with
    batches := outgoing.batches.delete (getOutgoingTxBatchKey batch.tokenContract batch.batchNonce) }

/-- `GetOutgoingTXBatch` sets the contract of every loaded transfer to the requested one. -/
def getOutgoingTXBatch (outgoing : Outgoing) (tokenContract : EthAddress) (nonce : Nat) :
    Option OutgoingTxBatch :=
  (outgoing.batches.get (getOutgoingTxBatchKey tokenContract nonce)).map (fun batch =>
    { batch with transactions := batch.transactions.map (fun tx =>
        { tx with erc20Token := ⟨tokenContract, tx.erc20Token.amount⟩,
                  erc20Fee := ⟨tokenContract, tx.erc20Fee.amount⟩ }) })

end Outgoing

variable (ext : External)

namespace Outgoing

def getBatchConfirmByNonceAndTokenContract (outgoing : Outgoing) (nonce : Nat)
    (tokenContract : EthAddress) : List MsgConfirmBatch :=
  (outgoing.batchConfirms.filter (fun key _ =>
    (ofLex key).1 == tokenContract && (ofLex (ofLex key).2).1 == nonce)).values

/-- Every confirm of the batch is deleted under the key made from its own orchestrator. -/
def deleteBatchConfirms (outgoing : Outgoing) (batch : OutgoingTxBatch) : Outgoing :=
  (outgoing.getBatchConfirmByNonceAndTokenContract batch.batchNonce batch.tokenContract).foldl
    (fun current confirm =>
      match accAddressFromBech32 ext confirm.orchestrator with
      | .ok orchestrator => { current with
          batchConfirms := current.batchConfirms.delete
            (getBatchConfirmKey batch.tokenContract batch.batchNonce orchestrator) }
      | .error _ => current) outgoing

def cancelOutgoingTXBatch (params : Params) (outgoing : Outgoing) (tokenContract : EthAddress)
    (nonce : Nat) : Go Outgoing := do
  let batch ← fromOption ⟨.unknown, "unknown"⟩ (outgoing.getOutgoingTXBatch tokenContract nonce)
  let restored ← batch.transactions.foldlM (fun current tx =>
    orPanic "unable to add batched transaction back into pool" (current.addUnbatchedTX tx)) outgoing
  let _ ← params.getBridgeContractAddress
  pure ((restored.deleteBatch batch).deleteBatchConfirms ext batch)

end Outgoing

/-- A new batch has to be worth more than the last one of its token. -/
def Ledger.requireProfitable (params : Params) (contract : EthAddress) (maxElements : Nat)
    (ledger : Ledger) : Go Unit :=
  match ledger.outgoing.getLastOutgoingBatchByTokenType contract with
  | some lastBatch => do
      let currentFees ← ledger.outgoing.getBatchFeeByTokenType params contract maxElements
      require (lastBatch.getFees < currentFees.totalFees)
        ⟨.invalid, "new batch would not be more profitable"⟩
  | none => pure ()

def Ledger.buildOutgoingTXBatch (context : Context) (ledger : Ledger) (contract : EthAddress)
    (maxElements : Nat) : Go (OutgoingTxBatch × Ledger) := do
  require (maxElements ≠ 0) ⟨.invalid, "max elements value"⟩
  context.params.requireBridgeActive
  ledger.requireProfitable context.params contract maxElements
  let (selectedTxs, picked) ← ledger.outgoing.pickUnbatchedTxs context.params contract maxElements
  require (selectedTxs ≠ []) ⟨.invalid, "no transactions of this type to batch"⟩
  let nextID := picked.lastOutgoingBatchID + 1
  let timeout ← context.getBatchTimeoutHeight
  let batch : OutgoingTxBatch := ⟨nextID, timeout, selectedTxs, contract, context.blockHeight⟩
  let outgoing ← { picked with lastOutgoingBatchID := nextID }.storeBatch batch
  let checkpoint ← batch.getCheckpoint ext context.params.gravityId
  let _ ← context.params.getBridgeContractAddress
  pure (batch, { ledger with outgoing := outgoing }.setPastEthSignatureCheckpoint checkpoint)

/-- The loop of `OutgoingTxBatchExecuted` over the stored batches. -/
def Outgoing.cancelEarlier (params : Params) (outgoing : Outgoing) (tokenContract : EthAddress)
    (nonce : Nat) : Go Outgoing :=
  outgoing.getOutgoingTxBatches.foldlM (fun current batch =>
    if batch.batchNonce < nonce ∧ batch.tokenContract = tokenContract then
      orPanic "Failed cancel out batch"
        (current.cancelOutgoingTXBatch ext params tokenContract batch.batchNonce)
    else pure current) outgoing

/-- Executing a batch burns the vouchers of an Ethereum-originated token. -/
def Ledger.burnVouchers (ledger : Ledger) (contractOrigin : AssetOrigin)
    (totalToBurn : Nat) : Go Bank :=
  match contractOrigin.origin with
  | .ethereum => do
      let burnVouchers ← newCoin contractOrigin.denom (some (totalToBurn : Int))
      orPanic "failed to burn vouchers" (ledger.bank.burnCoins ext.gravityModule burnVouchers)
  | .cosmos => pure ledger.bank

/-- `OutgoingTxBatchExecuted` panics instead of returning errors. -/
def Ledger.outgoingTxBatchExecuted (params : Params) (ledger : Ledger) (tokenContract : EthAddress)
    (claim : MsgBatchSendToEthClaim) : Go Ledger := do
  let batch ← unwrap "unknown batch nonce for outgoing tx batch"
    (ledger.outgoing.getOutgoingTXBatch tokenContract claim.batchNonce.val)
  check (claim.ethBlockHeight.val < batch.batchTimeout) "Batch submitted after it timed out"
  let contractOrigin ← orPanic "failed to classify" (ledger.classifyERC20 ext batch.tokenContract)
  let bank ← ledger.burnVouchers ext contractOrigin batch.total
  let outgoing ← ledger.outgoing.cancelEarlier ext params tokenContract batch.batchNonce
  pure { ledger with
    bank := bank
    outgoing := (outgoing.deleteBatch batch).deleteBatchConfirms ext batch }

end GravityBridge.Keeper
