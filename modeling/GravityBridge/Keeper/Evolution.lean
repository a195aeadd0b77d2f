import GravityBridge.Keeper.Moves

/-!
# What no step takes away

Whatever state the ledger is in, well formed or not, a step never takes a
checkpoint out of the archive, never reuses the nonce of a batch, and deletes the
confirms of a batch only together with the batch. A batch or a validator set that
a step adds has its checkpoint archived by the same step.
-/

namespace GravityBridge.Keeper

open Lib.Fallible Lib.ByteString Lib.Store
open GravityBridge.Types KVStore

variable {ext : External} {params : Params} {context : Context} {outgoing middle next : Outgoing}

/-! ## Batches that go -/

/-- Batches may have gone, the others have kept their confirms. -/
structure Outgoing.Thinned (outgoing next : Outgoing) : Prop where
  counter : next.lastOutgoingBatchID = outgoing.lastOutgoingBatchID
  kept : ∀ token nonce batch, next.batches.get (getOutgoingTxBatchKey token nonce) = some batch →
    outgoing.batches.get (getOutgoingTxBatchKey token nonce) = some batch ∧
    ∀ orchestrator confirm,
    outgoing.batchConfirms.get (getBatchConfirmKey token nonce orchestrator) = some confirm →
      next.batchConfirms.get (getBatchConfirmKey token nonce orchestrator) = some confirm

namespace Outgoing

theorem Thinned.refl (outgoing : Outgoing) : Thinned outgoing outgoing :=
  ⟨rfl, fun _ _ _ stored => ⟨stored, fun _ _ found => found⟩⟩

/-- A batch is deleted together with its confirms, and nobody else's. -/
theorem thinned_deleteBatch (ext : External) (outgoing : Outgoing) (batch : OutgoingTxBatch) :
    Thinned outgoing ((outgoing.deleteBatch batch).deleteBatchConfirms ext batch) := by
  have frame := deleteBatchConfirms_frame ext (outgoing.deleteBatch batch) batch
  have confirms := (foldl_deleteConfirm ext (outgoing.deleteBatch batch) batch
    ((outgoing.deleteBatch batch).getBatchConfirmByNonceAndTokenContract batch.batchNonce
      batch.tokenContract)).2
  refine ⟨by rw [frame]; rfl, fun token nonce other stored => ?_⟩
  rw [frame] at stored
  simp only [deleteBatch, get_delete] at stored
  split_ifs at stored with same
  refine ⟨stored, fun orchestrator confirm found => ?_⟩
  rcases confirms (getBatchConfirmKey token nonce orchestrator) with ⟨unchanged, _⟩ | ⟨_, inside⟩
  · exact Eq.trans unchanged found
  · obtain ⟨rfl, rfl⟩ : token = batch.tokenContract ∧ nonce = batch.batchNonce := inside
    exact absurd rfl same

end Outgoing

/-! ## The ledger -/

/-- The checkpoint of something to sign is in the archive. -/
def Ledger.Archived (ledger : Ledger) (checkpoint : Go Bytes) : Prop :=
  ∃ bytes, checkpoint = .ok bytes ∧ ledger.getPastEthSignatureCheckpoint bytes = true

/-- Nonces of batches are not used again, and a batch that is still there has kept its confirms. -/
structure Lasting (ledger next : Ledger) : Prop where
  counter : ledger.outgoing.lastOutgoingBatchID ≤ next.outgoing.lastOutgoingBatchID
  kept : ∀ token nonce batch, nonce ≤ ledger.outgoing.lastOutgoingBatchID →
    next.outgoing.batches.get (getOutgoingTxBatchKey token nonce) = some batch →
    ledger.outgoing.batches.get (getOutgoingTxBatchKey token nonce) = some batch ∧
    ∀ orchestrator confirm,
      ledger.outgoing.batchConfirms.get (getBatchConfirmKey token nonce orchestrator) = some confirm →
      next.outgoing.batchConfirms.get (getBatchConfirmKey token nonce orchestrator) = some confirm

/-- What every step leaves of the earlier ledger, with the gravity id it signs under. -/
structure Evolves (ext : External) (gravityId : Bytes) (ledger next : Ledger) :
    Prop extends Lasting ledger next where
  archive : ∀ checkpoint, ledger.getPastEthSignatureCheckpoint checkpoint = true →
    next.getPastEthSignatureCheckpoint checkpoint = true
  batches : ∀ token nonce batch, next.outgoing.batches.get (getOutgoingTxBatchKey token nonce) =
    some batch → ledger.outgoing.batches.get (getOutgoingTxBatchKey token nonce) = some batch ∨
      next.Archived (batch.getCheckpoint ext gravityId)
  valsets : ∀ nonce valset, next.valsets.requests.get nonce = some valset →
    ledger.valsets.requests.get nonce = some valset ∨
    next.Archived (valset.getCheckpoint ext gravityId)

variable {gravityId : Bytes} {ledger between result : Ledger} {sender : AccAddress}
  {auctionable : Bool} {msg : LedgerMsg} {batch : OutgoingTxBatch} {token : EthAddress}
  {env : ValsetEnv}

theorem Lasting.refl (ledger : Ledger) : Lasting ledger ledger :=
  ⟨le_refl _, fun _ _ _ _ stored => ⟨stored, fun _ _ found => found⟩⟩

theorem Lasting.trans (left : Lasting ledger between) (right : Lasting between result) :
    Lasting ledger result where
  counter := left.counter.trans right.counter
  kept token nonce batch old stored := by
    obtain ⟨inMiddle, confirmsRight⟩ := right.kept token nonce batch (old.trans left.counter) stored
    obtain ⟨inFirst, confirmsLeft⟩ := left.kept token nonce batch old inMiddle
    exact ⟨inFirst, fun orchestrator confirm found =>
      confirmsRight _ _ (confirmsLeft orchestrator confirm found)⟩

theorem Ledger.Archived.mono {checkpoint : Go Bytes} (archived : ledger.Archived checkpoint)
    (archive : ∀ bytes, ledger.getPastEthSignatureCheckpoint bytes = true →
      result.getPastEthSignatureCheckpoint bytes = true) : result.Archived checkpoint := by
  obtain ⟨bytes, hashed, found⟩ := archived
  exact ⟨bytes, hashed, archive bytes found⟩

/-- Batches were at most deleted, and everything else that matters stayed. -/
theorem Evolves.of_thinned (ext : External) (gravityId : Bytes)
    (outgoing : Outgoing.Thinned ledger.outgoing result.outgoing)
    (requests : ∀ nonce valset, result.valsets.requests.get nonce = some valset →
      ledger.valsets.requests.get nonce = some valset)
    (archive : result.pastEthSignatureCheckpoints = ledger.pastEthSignatureCheckpoints) :
    Evolves ext gravityId ledger result where
  counter := outgoing.counter.ge
  kept token nonce batch _ stored := outgoing.kept token nonce batch stored
  archive checkpoint found := by
    unfold Ledger.getPastEthSignatureCheckpoint
    rwa [archive]
  batches token nonce batch stored := .inl (outgoing.kept token nonce batch stored).1
  valsets nonce valset stored := .inl (requests nonce valset stored)

/-- Neither batches nor validator sets nor checkpoints are touched. -/
theorem Evolves.of_same (ext : External) (gravityId : Bytes)
    (outgoing : result.outgoing = ledger.outgoing)
    (valsets : result.valsets.requests = ledger.valsets.requests)
    (archive : result.pastEthSignatureCheckpoints = ledger.pastEthSignatureCheckpoints) :
    Evolves ext gravityId ledger result :=
  .of_thinned ext gravityId (outgoing ▸ .refl _) (fun _ _ stored => valsets ▸ stored) archive

theorem Evolves.refl (ext : External) (gravityId : Bytes) (ledger : Ledger) :
    Evolves ext gravityId ledger ledger :=
  .of_same ext gravityId rfl rfl rfl

theorem Evolves.trans (left : Evolves ext gravityId ledger between)
    (right : Evolves ext gravityId between result) : Evolves ext gravityId ledger result where
  toLasting := left.toLasting.trans right.toLasting
  archive checkpoint found := right.archive checkpoint (left.archive checkpoint found)
  batches token nonce batch stored := by
    rcases right.batches token nonce batch stored with earlier | archived
    · exact (left.batches token nonce batch earlier).imp_right (·.mono right.archive)
    · exact .inr archived
  valsets nonce valset stored := by
    rcases right.valsets nonce valset stored with earlier | archived
    · exact (left.valsets nonce valset earlier).imp_right (·.mono right.archive)
    · exact .inr archived

theorem getPastEthSignatureCheckpoint_set (ledger : Ledger) (checkpoint : Bytes) :
    (ledger.setPastEthSignatureCheckpoint checkpoint).getPastEthSignatureCheckpoint checkpoint =
      true ∧
    ∀ other, ledger.getPastEthSignatureCheckpoint other = true →
      (ledger.setPastEthSignatureCheckpoint checkpoint).getPastEthSignatureCheckpoint other =
        true := by
  unfold Ledger.getPastEthSignatureCheckpoint Ledger.setPastEthSignatureCheckpoint
  refine ⟨by simp, fun other found => ?_⟩
  rw [get_set]
  split_ifs
  · rfl
  · exact found

/-! ## One change -/

/-- One change of the ledger by a message, a proposal, a handled claim or a timeout, other than a
new confirm. -/
inductive Ledger.Change (ext : External) (gravityId : Bytes) (ledger : Ledger) : Ledger → Prop
  | coins (bank : Bank) (communityPool : Denom → Nat) (forwards : KVStore Nat PendingIbcAutoForward) :
      Change ext gravityId ledger { ledger with
        bank := bank, communityPool := communityPool, pendingIbcAutoForwards := forwards }
  | pooled (pool : KVStore PoolKey OutgoingTransferTx) (lastTXPoolID : Nat) :
      Change ext gravityId ledger { ledger with
        outgoing := { ledger.outgoing with pool := pool, lastTXPoolID := lastTXPoolID } }
  | stored {batch : OutgoingTxBatch} {checkpoint : Bytes} :
      ledger.outgoing.batches.get (getOutgoingTxBatchKey batch.tokenContract batch.batchNonce) =
        none →
      batch.batchNonce = ledger.outgoing.lastOutgoingBatchID + 1 →
      batch.getCheckpoint ext gravityId = .ok checkpoint →
      Change ext gravityId ledger ({ ledger with
        outgoing := { ledger.outgoing with
          batches := ledger.outgoing.batches.set
            (getOutgoingTxBatchKey batch.tokenContract batch.batchNonce) batch
          lastOutgoingBatchID := batch.batchNonce } }.setPastEthSignatureCheckpoint checkpoint)
  | dropped (batch : OutgoingTxBatch) : Change ext gravityId ledger { ledger with
      outgoing := (ledger.outgoing.deleteBatch batch).deleteBatchConfirms ext batch }
  | relisted {next : Ledger} : Relisted ledger next → Change ext gravityId ledger next
  | registered {registry : Registry} {denom : Denom} {token : EthAddress} :
      ledger.registry.setCosmosOriginatedMapping denom token = .ok registry →
      Change ext gravityId ledger { ledger with registry := registry }
  | observed {claim : MsgValsetUpdatedClaim} {next : Ledger} : ledger.observeValset claim = .ok next →
      Change ext gravityId ledger next

abbrev Ledger.Changes (ext : External) (gravityId : Bytes) : Ledger → Ledger → Prop :=
  Relation.ReflTransGen (Ledger.Change ext gravityId)

/-- A relation that every change keeps is kept by changes one after the other. -/
theorem Ledger.Changes.related {motive : Ledger → Ledger → Prop}
    (refl : ∀ ledger, motive ledger ledger)
    (trans : ∀ {ledger between result}, motive ledger between → motive between result →
      motive ledger result)
    (change : ∀ {ledger result}, Ledger.Change ext gravityId ledger result → motive ledger result)
    (changes : Ledger.Changes ext gravityId ledger result) : motive ledger result := by
  induction changes with
  | refl => exact refl ledger
  | tail _ last ih => exact trans ih (change last)

/-! ## Messages and proposals -/

theorem payFee_changes {collector : AccAddress} {fee : Coin}
    (paid : ledger.payFee sender collector fee = .ok result) :
    Ledger.Changes ext gravityId ledger result := by
  simp only [Ledger.payFee, bind_eq_ok, pure_eq_ok] at paid
  obtain ⟨bank, _, rfl⟩ := paid
  exact .single (.coins bank _ _)

theorem checkAndDeductSendToEthFees_changes {sendAmount chainFee : Coin}
    (charged : ledger.checkAndDeductSendToEthFees ext params auctionable sender sendAmount
      chainFee = .ok result) :
    Ledger.Changes ext gravityId ledger result := by
  simp only [Ledger.checkAndDeductSendToEthFees, bind_eq_ok] at charged
  obtain ⟨_, _, charged⟩ := charged
  split_ifs at charged
  · exact pure_eq_ok.mp charged ▸ .refl
  · simp only [bind_eq_ok] at charged
    obtain ⟨pooled, toPool, _, _, toCollector⟩ := charged
    exact (payFee_changes toPool).trans (payFee_changes toCollector)
  · exact payFee_changes charged

theorem sendToEth_changes {msg : MsgSendToEth}
    (sent : ledger.sendToEth ext context auctionable msg = .ok result) :
    Ledger.Changes ext gravityId ledger result := by
  simp only [Ledger.sendToEth, bind_eq_ok, rewrap_eq_ok, pure_eq_ok, Prod.exists] at sent
  obtain ⟨_, _, _, _, _, _, _, _, _, _, _, _, _, _, _, _, _, _, _, _, charged, paid, _, _, added,
    rfl⟩ := sent
  obtain ⟨tx, _, _, _, _, _, issued⟩ := addToOutgoingPool_issued added
  obtain ⟨enough, rfl⟩ := issued.result
  exact ((checkAndDeductSendToEthFees_changes paid).tail
    (.pooled (charged.outgoing.pool.set _ tx) tx.id)).tail
    (.coins (charged.bank.move _ _ _ enough) _ _)

theorem removeFromOutgoingPoolAndRefund_changes {id : Nat}
    (removed : ledger.removeFromOutgoingPoolAndRefund ext params id sender = .ok result) :
    Ledger.Changes ext gravityId ledger result := by
  simp only [Ledger.removeFromOutgoingPoolAndRefund, bind_eq_ok, rewrap_eq_ok,
    Outgoing.removeUnbatchedTX_eq_ok, pure_eq_ok] at removed
  obtain ⟨_, _, tx, _, _, _, _, _, _, ⟨_, rfl⟩, _, _, _, _, _, _, bank, _, -, -, rfl⟩ := removed
  exact .tail (.single (.pooled (ledger.outgoing.pool.delete (getOutgoingTxPoolKey tx.erc20Fee id))
    ledger.outgoing.lastTXPoolID)) (.coins bank _ _)

/-- A new batch takes a new nonce, and its checkpoint is archived. -/
theorem buildOutgoingTXBatch_changes {contract : EthAddress} {maxElements : Nat}
    (built : ledger.buildOutgoingTXBatch ext context contract maxElements = .ok (batch, result)) :
    Ledger.Changes ext context.params.gravityId ledger result := by
  obtain ⟨selected, picked, timeout, outgoing, checkpoint, ran, _, made, stored, hashed, rfl, _⟩ :=
    buildOutgoingTXBatch_eq_ok built
  have taken : Ledger.Change ext context.params.gravityId ledger { ledger with
      outgoing := picked } := by
    rw [(pickLoop_extends ran).2]
    exact .pooled _ _
  simp only [Outgoing.storeBatch, bind_eq_ok, check_eq_ok, pure_eq_ok] at stored
  obtain ⟨_, fresh, rfl⟩ := stored
  have nonce : batch.batchNonce = picked.lastOutgoingBatchID + 1 := by rw [made]
  exact .tail (.single taken) (nonce ▸ .stored fresh nonce hashed)

theorem processPendingIbcAutoForwards_changes {effects : List TransferEffect}
    (processed : ledger.processPendingIbcAutoForwards ext effects = .ok result) :
    Ledger.Changes ext gravityId ledger result := by
  induction effects generalizing ledger with
  | nil =>
    obtain rfl : ledger = result := by simpa [Ledger.processPendingIbcAutoForwards] using processed
    exact .refl
  | cons effect rest ih =>
    unfold Ledger.processPendingIbcAutoForwards at processed
    split at processed
    · exact pure_eq_ok.mp processed ▸ .refl
    · simp only [bind_eq_ok, Prod.exists] at processed
      obtain ⟨_, between, ran, processed⟩ := processed
      obtain ⟨_, _, frame⟩ := handleForward_paidOut ran
      have first : Ledger.Change ext gravityId ledger between := by
        rw [frame]
        exact .coins _ _ _
      exact .head first (ih processed)

/-- A message is a confirm or changes the ledger as described. -/
theorem deliver_changes (delivered : ledger.deliver ext context msg = .ok result) :
    (∃ confirm signatureOk, msg = .confirmBatch confirm signatureOk) ∨
      Ledger.Changes ext context.params.gravityId ledger result := by
  cases msg with
  | sendToEth auctionable msg =>
    simp only [Ledger.deliver, bind_eq_ok] at delivered
    obtain ⟨_, _, _, _, sent⟩ := delivered
    exact .inr (sendToEth_changes sent)
  | cancelSendToEth msg =>
    simp only [Ledger.deliver, Ledger.cancelSendToEth, bind_eq_ok] at delivered
    obtain ⟨_, _, _, _, removed⟩ := delivered
    exact .inr (removeFromOutgoingPoolAndRefund_changes removed)
  | requestBatch msg =>
    simp only [Ledger.deliver, Ledger.requestBatch, bind_eq_ok, rewrap_eq_ok, pure_eq_ok,
      Prod.exists] at delivered
    obtain ⟨_, _, _, _, _, _, _, _, _, _, batch, _, built, rfl⟩ := delivered
    exact .inr (buildOutgoingTXBatch_changes built)
  | confirmBatch confirm signatureOk => exact .inl ⟨confirm, signatureOk, rfl⟩
  | executeIbcAutoForwards effects => exact .inr (processPendingIbcAutoForwards_changes delivered)
  | setCosmosBridgeableTokens metadatas =>
    exact .inr (.single (.relisted (handleSetCosmosBridgeableTokensProposal_relisted delivered)))
  | deleteCosmosBridgeableTokens metadatas =>
    exact .inr (.single (.relisted (handleDeleteCosmosBridgeableTokensProposal_relisted delivered)))
  | setDenomMetaData metadata => exact .inr (pure_eq_ok.mp delivered ▸ .single (.coins _ _ _))
  | bankSend sender receiver coin =>
    simp only [Ledger.deliver, bind_eq_ok, pure_eq_ok] at delivered
    obtain ⟨_, _, _, _, bank, _, rfl⟩ := delivered
    exact .inr (.single (.coins bank _ _))

/-! ## Handled claims and timeouts -/

theorem cancelOutgoingTXBatch_changes {nonce : Nat}
    (cancelled : ledger.outgoing.cancelOutgoingTXBatch ext params token nonce = .ok next) :
    Ledger.Changes ext gravityId ledger { ledger with outgoing := next } := by
  simp only [Outgoing.cancelOutgoingTXBatch, bind_eq_ok, pure_eq_ok] at cancelled
  obtain ⟨batch, _, restored, added, -, -, rfl⟩ := cancelled
  have pooled : Ledger.Change ext gravityId ledger { ledger with outgoing := restored } := by
    rw [(Outgoing.foldlM_addUnbatchedTX added).frame]
    exact .pooled _ _
  exact .tail (.single pooled) (.dropped batch)

/-- A loop that cancels some of the batches it visits. -/
theorem foldlM_cancel_changes (keyOf : OutgoingTxBatch → EthAddress × Nat) {message : String}
    {condition : OutgoingTxBatch → Prop} [DecidablePred condition] {batches : List OutgoingTxBatch}
    (ran : batches.foldlM (fun current batch => if condition batch then
      orPanic message (current.cancelOutgoingTXBatch ext params (keyOf batch).1 (keyOf batch).2)
        else pure current)
      ledger.outgoing = .ok next) :
      Ledger.Changes ext gravityId ledger { ledger with outgoing := next } := by
  refine foldlM_invariant (fun current =>
    Ledger.Changes ext gravityId ledger { ledger with outgoing := current }) ?_ .refl ran
  intro current batch result _ changes visited
  split_ifs at visited
  · have cancelled := orPanic_eq_ok.mp visited
    exact changes.trans (@cancelOutgoingTXBatch_changes ext _ _ gravityId
      { ledger with outgoing := current } _ _ cancelled)
  · exact pure_eq_ok.mp visited ▸ changes

theorem cleanupTimedOutBatches_changes {ethereumHeight : Nat}
    (ran : ledger.outgoing.cleanupTimedOutBatches ext params ethereumHeight = .ok next) :
    Ledger.Changes ext gravityId ledger { ledger with outgoing := next } :=
  foldlM_cancel_changes (fun batch => (batch.tokenContract, batch.batchNonce)) ran

theorem outgoingTxBatchExecuted_changes {claim : MsgBatchSendToEthClaim}
    (executed : ledger.outgoingTxBatchExecuted ext params token claim = .ok result) :
    Ledger.Changes ext gravityId ledger result := by
  simp only [Ledger.outgoingTxBatchExecuted, bind_eq_ok, pure_eq_ok] at executed
  obtain ⟨batch, _, _, _, bank, _, _, _, outgoing, cancelled, rfl⟩ := executed
  have earlier : Ledger.Changes ext gravityId ledger { ledger with outgoing := outgoing } :=
    foldlM_cancel_changes (fun batch => (token, batch.batchNonce)) cancelled
  exact (earlier.tail (.dropped batch)).tail (.coins _ _ _)

theorem handle_changes {claim : EthereumClaim} (ran : ledger.handle ext context claim = .ok result) :
    Ledger.Changes ext gravityId ledger result := by
  simp only [Ledger.handle, bind_eq_ok] at ran
  obtain ⟨_, _, ran⟩ := ran
  cases claim with
  | sendToCosmos msg =>
    obtain ⟨_, _, ⟨rfl, _⟩ | ⟨_, _, deposited⟩⟩ := handleSendToCosmos_cases ran
    · exact .refl
    · rw [deposited.frame]
      exact .single (.coins _ _ _)
  | batchSendToEth msg =>
    simp only [Ledger.handleBatchSendToEth, bind_eq_ok] at ran
    obtain ⟨_, _, _, _, executed⟩ := ran
    exact outgoingTxBatchExecuted_changes executed
  | erc20Deployed msg =>
    simp only [Ledger.handleErc20Deployed, bind_eq_ok, rewrap_eq_ok, pure_eq_ok] at ran
    obtain ⟨_, _, _, _, _, _, _, _, _, _, _, _, _, _, _, _, _, _, _, written, rfl⟩ := ran
    exact .single (.registered written)
  | valsetUpdated msg =>
    simp only [Ledger.handleValsetUpdated, bind_eq_ok] at ran
    obtain ⟨_, _, observed, observes, ran⟩ := ran
    have seen : Ledger.Changes ext gravityId ledger observed := .single (.observed observes)
    obtain ⟨_, _, ⟨rfl, _⟩ | rewarded⟩ := mintReward_cases ran
    · exact seen
    · rw [rewarded.result]
      exact seen.tail (.coins _ _ _)
  | logicCallExecuted msg => simp at ran

/-! ## What a change leaves -/

/-- The nonce of a new batch was not used, and its checkpoint is in the archive. -/
theorem Evolves.of_stored {checkpoint : Bytes}
    (nonce : batch.batchNonce = ledger.outgoing.lastOutgoingBatchID + 1)
    (hashed : batch.getCheckpoint ext gravityId = .ok checkpoint) :
    Evolves ext gravityId ledger ({ ledger with
      outgoing := { ledger.outgoing with
        batches := ledger.outgoing.batches.set
          (getOutgoingTxBatchKey batch.tokenContract batch.batchNonce) batch
        lastOutgoingBatchID := batch.batchNonce } }.setPastEthSignatureCheckpoint checkpoint) := by
  obtain ⟨inArchive, archive⟩ := getPastEthSignatureCheckpoint_set { ledger with
    outgoing := { ledger.outgoing with
      batches := ledger.outgoing.batches.set
        (getOutgoingTxBatchKey batch.tokenContract batch.batchNonce) batch
      lastOutgoingBatchID := batch.batchNonce } } checkpoint
  have cases : ∀ token other name,
  (ledger.outgoing.batches.set (getOutgoingTxBatchKey batch.tokenContract batch.batchNonce)
      batch).get (getOutgoingTxBatchKey token name) = some other →
      (name = batch.batchNonce ∧ other = batch) ∨
        ledger.outgoing.batches.get (getOutgoingTxBatchKey token name) = some other := by
    intro token other name found
    rw [get_set] at found
    split_ifs at found with same
    · exact .inl ⟨congrArg (fun key : BatchKey => (ofLex key).2) same, (Option.some.inj found).symm⟩
    · exact .inr found
  refine ⟨⟨?_, fun token name other old found => ?_⟩, archive, fun token name other found => ?_,
    fun _ _ found => .inl found⟩
  · change ledger.outgoing.lastOutgoingBatchID ≤ batch.batchNonce
    omega
  · rcases cases token other name found with ⟨fresh, _⟩ | earlier
    · omega
    · exact ⟨earlier, fun _ _ confirmed => confirmed⟩
  · rcases cases token other name found with ⟨_, rfl⟩ | earlier
    · exact .inr ⟨checkpoint, hashed, inArchive⟩
    · exact .inl earlier

theorem Ledger.Change.evolves (change : Ledger.Change ext gravityId ledger result) :
    Evolves ext gravityId ledger result := by
  cases change with
  | coins bank communityPool forwards => exact .of_same ext gravityId rfl rfl rfl
  | pooled pool lastTXPoolID =>
    exact .of_thinned ext gravityId ⟨rfl, fun _ _ _ stored => ⟨stored, fun _ _ found => found⟩⟩
      (fun _ _ stored => stored) rfl
  | stored _ nonce hashed => exact .of_stored nonce hashed
  | dropped batch =>
    exact .of_thinned ext gravityId (Outgoing.thinned_deleteBatch ext _ batch)
      (fun _ _ stored => stored) rfl
  | relisted relisted =>
    rw [relisted.frame]
    exact .of_same ext gravityId rfl rfl rfl
  | registered _ => exact .of_same ext gravityId rfl rfl rfl
  | observed observes =>
    obtain ⟨_, _, rfl⟩ := observeValset_eq_ok observes
    exact .of_same ext gravityId rfl rfl rfl

theorem Ledger.Changes.evolves (changes : Ledger.Changes ext gravityId ledger result) :
    Evolves ext gravityId ledger result :=
  changes.related (Evolves.refl ext gravityId) Evolves.trans Ledger.Change.evolves

/-- A confirm never replaces another. -/
theorem confirmBatch_evolves {msg : MsgConfirmBatch} {signatureOk : Bool}
    (confirmed : ledger.confirmBatch ext msg signatureOk = .ok result) :
    Evolves ext gravityId ledger result := by
  simp only [Ledger.confirmBatch, bind_eq_ok, rewrap_eq_ok, require_eq_ok, pure_eq_ok] at confirmed
  obtain ⟨_, _, contract, _, _, _, orchestrator, _, _, _, _, fresh, rfl⟩ := confirmed
  refine .of_thinned ext gravityId ⟨rfl, fun token nonce batch stored =>
    ⟨stored, fun other confirm found => ?_⟩⟩ (fun _ _ stored => stored) rfl
  rw [get_set]
  split_ifs with same
  · rw [same, fresh] at found
    contradiction
  · exact found

theorem deliver_evolves (delivered : ledger.deliver ext context msg = .ok result) :
    Evolves ext context.params.gravityId ledger result := by
  rcases deliver_changes delivered with ⟨confirm, signatureOk, rfl⟩ | changes
  · exact confirmBatch_evolves delivered
  · exact changes.evolves

/-! ## The end of a block -/

/-- A new validator set is archived as it is stored. -/
theorem setValsetRequest_evolves {bonded : List BondedValidator}
    (requested : ledger.setValsetRequest ext context bonded = .ok result) :
    Evolves ext context.params.gravityId ledger result := by
  obtain ⟨valset, checkpoint, _, _, _, hashed, rfl⟩ := setValsetRequest_eq_ok requested
  obtain ⟨inArchive, archive⟩ := getPastEthSignatureCheckpoint_set { ledger with
    valsets := { ledger.valsets with
      requests := ledger.valsets.requests.set valset.nonce valset,
      latestValsetNonce := valset.nonce } } checkpoint
  refine ⟨⟨le_refl _, fun _ _ _ _ stored => ⟨stored, fun _ _ found => found⟩⟩, archive,
    fun _ _ _ stored => .inl stored, fun nonce other found => ?_⟩
  simp only [Ledger.setPastEthSignatureCheckpoint, get_set] at found
  split_ifs at found
  · exact .inr ⟨checkpoint, Option.some.inj found ▸ hashed, inArchive⟩
  · exact .inl found

theorem createValsets_evolves (created : ledger.createValsets ext context env = .ok result) :
    Evolves ext context.params.gravityId ledger result := by
  rcases createValsets_cases created with requested | ⟨rfl, -⟩
  · exact setValsetRequest_evolves requested
  · exact .refl ext _ _

theorem pruneValsets_evolves (ext : External) (gravityId : Bytes) (context : Context)
    (ledger : Ledger) : Evolves ext gravityId ledger (ledger.pruneValsets context) := by
  unfold Ledger.pruneValsets
  split
  · exact .refl ext gravityId ledger
  · split_ifs
    · exact .refl ext gravityId ledger
    · refine .of_thinned ext gravityId (.refl _) (fun nonce valset stored => ?_) rfl
      rw [get_filter, Option.filter_eq_some_iff] at stored
      exact stored.1

theorem maintain_evolves (maintained : ledger.maintain ext context env = .ok result) :
    Evolves ext context.params.gravityId ledger result := by
  simp only [Ledger.maintain, bind_eq_ok, pure_eq_ok] at maintained
  obtain ⟨outgoing, cleaned, requested, created, rfl⟩ := maintained
  have cancelled : Evolves ext context.params.gravityId ledger { ledger with outgoing := outgoing } :=
    (cleanupTimedOutBatches_changes cleaned).evolves
  exact (cancelled.trans (createValsets_evolves created)).trans
    (pruneValsets_evolves ext _ context requested)

/-! ## Steps -/

variable {powers : PowerTable} {state final : State} {handled : List EthereumClaim}

section

variable {motive : Ledger → Ledger → Prop} (refl : ∀ ledger, motive ledger ledger)
  (handles : ∀ {context ledger claim result}, Ledger.handle ext context ledger claim = .ok result →
    motive ledger result)
  (trans : ∀ {ledger between result}, motive ledger between → motive between result →
    motive ledger result)

include refl handles

theorem tryAttestation_related {att : Attestation}
    (tried : state.tryAttestation ext powers att = (handled, .ok final)) :
    final = { state with oracle := final.oracle, ledger := final.ledger } ∧
      motive state.ledger final.ledger := by
  unfold State.tryAttestation at tried
  split at tried
  · simp [panicking] at tried
  · split_ifs at tried
    · simp [panicking] at tried
    · split at tried
      · simp at tried
      · rename_i marked marks
        have processed := (Prod.mk.inj tried).2
        simp only [State.markObserved, bind_eq_ok, pure_eq_ok] at marks
        obtain ⟨_, _, _, _, _, _, rfl⟩ := marks
        simp only [State.processAttestation, State.emitObservedEvent_eq_ok, bind_eq_ok,
          pure_eq_ok] at processed
        obtain ⟨_, ⟨ledger, caching, rfl⟩, -, rfl⟩ := processed
        refine ⟨rfl, ?_⟩
        rcases cached_eq_ok.mp caching with handled | ⟨_, same⟩
        · exact handles handled
        · rw [same]
          exact refl state.ledger
    · obtain ⟨_, same⟩ := Prod.mk.inj tried
      obtain rfl := Except.ok.inj same
      exact ⟨rfl, refl state.ledger⟩

include trans

theorem tallyLoop_related {atts : List Attestation}
    (ran : state.tallyLoop ext powers atts = (handled, .ok final)) :
    final = { state with oracle := final.oracle, ledger := final.ledger } ∧
      motive state.ledger final.ledger := by
  induction atts generalizing state handled with
  | nil =>
    obtain ⟨_, rfl⟩ : [] = handled ∧ state = final := by simpa [State.tallyLoop] using ran
    exact ⟨rfl, refl state.ledger⟩
  | cons att rest ih =>
    unfold State.tallyLoop at ran
    split_ifs at ran
    · split at ran
      · simp at ran
      · rename_i claims between tried
        obtain ⟨_, ranRest⟩ := Prod.mk.inj ran
        obtain ⟨frameRest, related⟩ := ih (Prod.ext rfl ranRest)
        obtain ⟨frame, first⟩ := tryAttestation_related refl handles tried
        exact ⟨by rw [frameRest, frame], trans first related⟩
    · exact ih ran

/-- What relates the ledgers before and after every handled claim relates those of a tally, which
changes nothing but the oracle and the ledger. -/
theorem attestationTally_related (ran : state.attestationTally ext powers = (handled, .ok final)) :
    final = { state with oracle := final.oracle, ledger := final.ledger } ∧
      motive state.ledger final.ledger := by
  unfold State.attestationTally at ran
  split_ifs at ran
  · exact tallyLoop_related refl handles trans ran
  · obtain ⟨_, same⟩ := Prod.mk.inj ran
    obtain rfl := Except.ok.inj same
    exact ⟨rfl, refl state.ledger⟩

end

/-- Every step leaves batches, confirms, validator sets and the archive as described. -/
theorem LedgerStep.evolves (stepped : LedgerStep ext state handled final) :
    Evolves ext state.params.gravityId state.ledger final.ledger := by
  cases stepped with
  | unchanged same => exact .of_same ext _ (by rw [same]) (by rw [same]) (by rw [same])
  | delivered delivered => exact deliver_evolves delivered
  | @ended _ tallied _ _ _ tally maintained =>
    obtain ⟨frame, evolves⟩ := attestationTally_related (Evolves.refl ext state.params.gravityId)
      (fun ran => (handle_changes ran).evolves) Evolves.trans tally
    have rest : Evolves ext tallied.params.gravityId tallied.ledger final.ledger :=
      maintain_evolves maintained
    rw [show tallied.params = state.params by rw [frame]] at rest
    exact evolves.trans rest

end GravityBridge.Keeper
