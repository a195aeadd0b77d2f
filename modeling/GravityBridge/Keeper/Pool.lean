import GravityBridge.Keeper.Registry

/-!
# The pool of unbatched transfers

Sending to Ethereum locks the amount and the bridge fee in the module account
and puts a transfer in the pool; cancelling takes it out again and refunds it.
The pool is ordered by contract, fee and id, and is read backwards.
-/

namespace GravityBridge.Keeper

open Lib.Fallible Lib.ByteString Lib.Store
open GravityBridge.Types

namespace Outgoing

def addUnbatchedTX (outgoing : Outgoing) (tx : OutgoingTransferTx) : Go Outgoing := do
  require (outgoing.pool.get (getOutgoingTxPoolKey tx.erc20Fee tx.id) = none)
    ⟨.duplicate, "transaction already in pool"⟩
  pure { outgoing with pool := outgoing.pool.set (getOutgoingTxPoolKey tx.erc20Fee tx.id) tx }

def removeUnbatchedTX (outgoing : Outgoing) (fee : ERC20Token) (id : Nat) : Go Outgoing := do
  require ((outgoing.pool.get (getOutgoingTxPoolKey fee id)).isSome = true)
    ⟨.unknown, "pool transaction"⟩
  pure { outgoing with pool := outgoing.pool.delete (getOutgoingTxPoolKey fee id) }

/-- `IterateUnbatchedTransactions`: every pool entry, the greatest key first. -/
def getUnbatchedTransactions (outgoing : Outgoing) : List OutgoingTransferTx :=
  outgoing.pool.values.reverse

def getUnbatchedTransactionsByContract (outgoing : Outgoing) (contract : EthAddress) :
    List OutgoingTransferTx :=
  (outgoing.pool.filter (fun key _ => (ofLex key).1 == contract)).values.reverse

def getUnbatchedTxByFeeAndId (outgoing : Outgoing) (fee : ERC20Token) (id : Nat) :
    Go OutgoingTransferTx :=
  fromOption ⟨.unknown, "pool transaction"⟩ (outgoing.pool.get (getOutgoingTxPoolKey fee id))

def getUnbatchedTxById (outgoing : Outgoing) (id : Nat) : Go OutgoingTransferTx :=
  fromOption ⟨.unknown, "pool transaction"⟩
    (outgoing.getUnbatchedTransactions.find? (fun tx => tx.id == id))

/-- What a batch would be worth, and how many transfers it would have. -/
structure BatchFees where
  totalFees : Nat
  txCount : Nat
  deriving DecidableEq, Repr

/-- The loop of `GetBatchFeeByTokenType` over the pool entries of a contract. -/
def batchFeeLoop (params : Params) (contract : EthAddress) (maxElements : Nat) :
    BatchFees → List OutgoingTransferTx → Go BatchFees
  | batchFee, [] => pure batchFee
  | batchFee, tx :: rest =>
      if params.isOnBlacklist tx.destAddress then
        batchFeeLoop params contract maxElements batchFee rest
      else do
        check (tx.erc20Fee.contract = contract) "unexpected fee contract"
        let batchFee : BatchFees := ⟨batchFee.totalFees + tx.erc20Fee.amount, batchFee.txCount + 1⟩
        if batchFee.txCount = maxElements then pure batchFee
        else batchFeeLoop params contract maxElements batchFee rest

/-- The fees of the first transfers that a batch would pick. -/
def getBatchFeeByTokenType (outgoing : Outgoing) (params : Params) (contract : EthAddress)
    (maxElements : Nat) : Go BatchFees :=
  batchFeeLoop params contract maxElements ⟨0, 0⟩
    (outgoing.getUnbatchedTransactionsByContract contract)

end Outgoing

variable (ext : External) (params : Params)

/-- Lock a coin of the sender in the module account and queue its transfer. -/
def Ledger.addToOutgoingPool (ledger : Ledger) (sender : AccAddress)
    (counterpartReceiver : EthAddress) (amount fee : Coin) : Go (Nat × Ledger) := do
  require (succeeds (verifyAddressFormat sender) = true ∧ amount.isValid = true ∧ fee.isValid = true ∧
      fee.denom = amount.denom)
    ⟨.invalid, "arguments"⟩
  check (amount.amount + fee.amount < 2 ^ 256) "Int overflow"
  let poolOrigin ← ledger.classifyDenom amount.denom
  let totalInVouchers ← singleCoins ⟨amount.denom, amount.amount + fee.amount⟩
  let bank ← ledger.bank.sendCoins sender ext.gravityModule totalInVouchers
  let nextID := ledger.outgoing.lastTXPoolID + 1
  let outgoing ← orPanic "transaction already in pool"
    ({ ledger.outgoing with lastTXPoolID := nextID }.addUnbatchedTX
      ⟨nextID, sender, counterpartReceiver, ⟨poolOrigin.erc20, amount.amount⟩,
        ⟨poolOrigin.erc20, fee.amount⟩⟩)
  let _ ← params.getBridgeContractAddress
  pure (nextID, { ledger with bank := bank, outgoing := outgoing })

/-- Take a transfer out of the pool and pay what was locked for it back to its sender. -/
def Ledger.removeFromOutgoingPoolAndRefund (ledger : Ledger) (txId : Nat) (sender : AccAddress) :
    Go Ledger := do
  require (1 ≤ txId ∧ succeeds (verifyAddressFormat sender) = true) ⟨.invalid, "arguments"⟩
  let tx ← ledger.outgoing.getUnbatchedTxById txId
  require (tx.sender = sender) ⟨.invalid, "Sender did not send Id"⟩
  require (tx.erc20Fee.contract = tx.erc20Token.contract) ⟨.invalid, "Inconsistent tokens to cancel!"⟩
  let outgoing ← rewrap ⟨.invalid, "not in unbatched index! Must be in a batch!"⟩
    (ledger.outgoing.removeUnbatchedTX tx.erc20Fee txId)
  require (succeeds (outgoing.getUnbatchedTxByFeeAndId tx.erc20Fee tx.id) = false)
    ⟨.invalid, "tx was not fully removed from the pool, a duplicate must exist"⟩
  let refundOrigin ← ledger.classifyERC20 ext tx.erc20Token.contract
  let totalToRefund ← newCoin refundOrigin.denom (some (tx.erc20Token.amount : Int))
  let bank ← ledger.bank.sendCoinsFromModuleToAccount ext ext.gravityModule sender
    ⟨totalToRefund.denom, totalToRefund.amount + tx.erc20Fee.amount⟩
  let _ ← params.getBridgeContractAddress
  pure { ledger with bank := bank, outgoing := outgoing }

end GravityBridge.Keeper
