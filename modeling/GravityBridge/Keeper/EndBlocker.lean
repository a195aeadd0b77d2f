import GravityBridge.Keeper.MsgServer
import GravityBridge.Keeper.Valset

/-!
# The end of a block

Tally the votes, cancel the batches that Ethereum can no longer execute, request
a validator set when the powers moved, and prune.
-/

namespace GravityBridge.Keeper

open Lib.Fallible Lib.ByteString Lib.Store
open GravityBridge.Types

variable (ext : External)

/-- `cleanupTimedOutBatches`: timeouts do not increase with nonces, so each batch is checked on its
own. -/
def Outgoing.cleanupTimedOutBatches (params : Params) (outgoing : Outgoing) (ethereumHeight : Nat) :
    Go Outgoing :=
  outgoing.getOutgoingTxBatches.foldlM (fun current batch =>
    if batch.batchTimeout < ethereumHeight then
      orPanic "Failed to cancel outgoing txbatch!"
        (current.cancelOutgoingTXBatch ext params batch.tokenContract batch.batchNonce)
    else pure current) outgoing

/-- What the end of a block does to the ledger after the tally. -/
def Ledger.maintain (context : Context) (ledger : Ledger) (env : ValsetEnv) : Go Ledger := do
  let outgoing ← ledger.outgoing.cleanupTimedOutBatches ext context.params
    context.lastObservedEthereumBlockHeight.ethereumBlockHeight
  let requested ← { ledger with outgoing := outgoing }.createValsets ext context env
  pure (requested.pruneValsets context)

/-- `EndBlocker`, with the claims that the tally passed to the handler. -/
def State.endBlocker (powers : PowerTable) (env : ValsetEnv) (state : State) :
    List EthereumClaim × Go State :=
  let (handled, tallied) := state.attestationTally ext powers
  (handled, do
    let tally ← tallied
    let ledger ← tally.ledger.maintain ext tally.context env
    let oracle ← tally.oracle.pruneAttestations ext
    pure { tally with ledger := ledger, oracle := oracle })

end GravityBridge.Keeper
