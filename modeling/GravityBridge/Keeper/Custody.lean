import GravityBridge.Keeper.Vouchers

/-!
# Custody of transfers

A transfer gets its id when it enters the pool. From then on it is in the pool,
in one stored batch, executed or refunded, whatever order of sends, refunds,
batches, timeouts and executions follows, and no guard of the store against
duplicate or missing transfers can fire.
-/

namespace GravityBridge.Keeper

open Lib.Fallible Lib.ByteString Lib.Store Lib.Runs
open GravityBridge.Types List

open Outgoing (WellFormed Cancelled ConfirmKeyed)

/-- The calls of the keeper that move transfers. -/
inductive TransferOp where
  | addToOutgoingPool (params : Params) (sender : AccAddress) (counterpartReceiver : EthAddress)
      (amount fee : Coin)
  | removeFromOutgoingPoolAndRefund (params : Params) (txId : Nat) (sender : AccAddress)
  | buildOutgoingTXBatch (context : Context) (contract : EthAddress) (maxElements : Nat)
  | cleanupTimedOutBatches (params : Params) (ethereumHeight : Nat)
  | outgoingTxBatchExecuted (params : Params) (tokenContract : EthAddress)
      (claim : MsgBatchSendToEthClaim)
  /-- Whatever else the chain does between two calls. -/
  | elsewhere (next : Ledger)

inductive TransferEvent where
  | issued (tx : OutgoingTransferTx)
  | refunded (id : Nat)
  | executed (ids : List Nat)

def TransferEvent.issuedTxs : TransferEvent → List OutgoingTransferTx
  | .issued tx => [tx]
  | _ => []

def TransferEvent.refundedIds : TransferEvent → List Nat
  | .refunded id => [id]
  | _ => []

def TransferEvent.executedIds : TransferEvent → List Nat
  | .executed ids => ids
  | _ => []

variable (ext : External)

/-- `AddToOutgoingPool`, with the transfer that the returned id stands for. -/
def Ledger.issue (params : Params) (ledger : Ledger) (sender : AccAddress)
    (counterpartReceiver : EthAddress) (amount fee : Coin) : Go (OutgoingTransferTx × Ledger) := do
  let (id, next) ← ledger.addToOutgoingPool ext params sender counterpartReceiver amount fee
  let origin ← ledger.classifyDenom amount.denom
  pure (⟨id, sender, counterpartReceiver, ⟨origin.erc20, amount.amount⟩,
    ⟨origin.erc20, fee.amount⟩⟩, next)

/-- The ids of the batch that an execution finishes. -/
def Outgoing.batchIds (outgoing : Outgoing) (tokenContract : EthAddress) (nonce : Nat) : List Nat :=
  ((outgoing.getOutgoingTXBatch tokenContract nonce).map (fun batch =>
    batch.transactions.map OutgoingTransferTx.id)).getD []

def TransferOp.step : TransferOp → Ledger → List TransferEvent × Go Ledger
  | .addToOutgoingPool params sender counterpartReceiver amount fee, ledger =>
      match ledger.issue ext params sender counterpartReceiver amount fee with
      | .ok (tx, next) => ([.issued tx], .ok next)
      | .error fault => ([], .error fault)
  | .removeFromOutgoingPoolAndRefund params txId sender, ledger =>
      ([.refunded txId], ledger.removeFromOutgoingPoolAndRefund ext params txId sender)
  | .buildOutgoingTXBatch context contract maxElements, ledger =>
      ([], Prod.snd <$> ledger.buildOutgoingTXBatch ext context contract maxElements)
  | .cleanupTimedOutBatches params ethereumHeight, ledger =>
      ([], (fun outgoing => { ledger with outgoing := outgoing }) <$>
        ledger.outgoing.cleanupTimedOutBatches ext params ethereumHeight)
  | .outgoingTxBatchExecuted params tokenContract claim, ledger =>
      ([.executed (ledger.outgoing.batchIds tokenContract claim.batchNonce.val)],
        ledger.outgoingTxBatchExecuted ext params tokenContract claim)
  | .elsewhere next, _ => ([], .ok next)

/-- Between two calls anything may change except the transfers and their counters; confirms are
stored under their own keys. -/
structure Elsewhere (ledger next : Ledger) : Prop where
  outgoing : next.outgoing = { ledger.outgoing with batchConfirms := next.outgoing.batchConfirms }
  confirmKeys : ∀ key confirm, next.outgoing.batchConfirms.get key = some confirm →
    ConfirmKeyed ext key confirm

def TransferOp.allowed (ledger : Ledger) (op : TransferOp) (_ : List TransferEvent)
    (_ : Ledger) : Prop :=
  ∀ other, op = .elsewhere other → Elsewhere ext ledger other

/-- No transfer was ever sent. -/
def Outgoing.unused : Outgoing := ⟨.empty, .empty, .empty, 0, 0⟩

/-- Ledgers that calls of the keeper lead to, with what happened to transfers on the way. -/
def Served : List TransferEvent → Ledger → Prop :=
  Reach (TransferOp.step ext) (fun ledger => ledger.outgoing = .unused) (TransferOp.allowed ext)

variable {ext : External} {outgoing : Outgoing} {ledger next : Ledger}
  {trace emitted : List TransferEvent}
  {params : Params} {denom : Denom} {sender : AccAddress} {receiver contract : EthAddress}
  {maxElements : Nat} {txs : List OutgoingTransferTx} {tx : OutgoingTransferTx}

/-! ## Guards of the store -/

/-- The panics over duplicate or missing transfers and batches. -/
def custodyPanics : List String :=
  ["transaction already in pool", "unable to add batched transaction back into pool",
    "Failed to remote tx from unbatched queue",
    "picked a duplicate transaction from the pool, duplicates should never exist!",
    "Should never overwrite batch!", "Failed cancel out batch", "Failed to cancel outgoing txbatch!"]

@[simp] theorem getBridgeContractAddress_avoids :
    Avoids custodyPanics params.getBridgeContractAddress :=
  avoids_orPanic avoids_newEthAddress (by simp [custodyPanics])

theorem announcing_avoids {victims : List OutgoingTxBatch} {next : Outgoing} :
    Avoids custodyPanics (Outgoing.announcing params victims next) := by
  unfold Outgoing.announcing
  split_ifs
  · exact avoids_pure _
  · exact avoids_bind.mpr ⟨getBridgeContractAddress_avoids, fun _ _ => avoids_pure _⟩

@[simp] theorem newCoin_avoids_custody {amount : Option Int} :
    Avoids custodyPanics (newCoin denom amount) := by
  simp [newCoin, custodyPanics]

theorem Outgoing.WellFormed.pool_fresh (wellFormed : WellFormed ext outgoing) (fee : ERC20Token)
    {id : Nat}
    (later : outgoing.lastTXPoolID < id) :
    outgoing.pool.get (getOutgoingTxPoolKey fee id) = none := by
  rw [Option.eq_none_iff_forall_ne_some]
  intro tx found
  have same := getOutgoingTxPoolKey_id (wellFormed.poolKeys _ tx found)
  have bound := wellFormed.idBound tx (mem_append_left _ (KVStore.mem_values.mpr ⟨_, found⟩))
  omega

theorem Outgoing.WellFormed.batch_fresh (wellFormed : WellFormed ext outgoing) (token : EthAddress)
    {nonce : Nat} (later : outgoing.lastOutgoingBatchID < nonce) :
    outgoing.batches.get (getOutgoingTxBatchKey token nonce) = none := by
  rw [Option.eq_none_iff_forall_ne_some]
  intro batch found
  obtain ⟨_, same⟩ : token = batch.tokenContract ∧ nonce = batch.batchNonce := by
    simpa [getOutgoingTxBatchKey] using wellFormed.batchKeys _ batch found
  have bound := wellFormed.nonceBound batch (KVStore.mem_values.mpr ⟨_, found⟩)
  omega

theorem addToOutgoingPool_avoids (wellFormed : WellFormed ext ledger.outgoing) {amount fee : Coin} :
    Avoids custodyPanics (ledger.addToOutgoingPool ext params sender receiver amount fee) := by
  simp only [Ledger.addToOutgoingPool, avoids_bind, avoids_require, avoids_classifyDenom,
    avoids_singleCoins, avoids_sendCoins, avoids_pure, true_and, implies_true, and_true]
  refine fun _ _ => ⟨by simp [custodyPanics], fun _ _ origin _ coins _ bank _ => ?_⟩
  have fresh := wellFormed.pool_fresh ⟨origin.erc20, fee.amount⟩ (Nat.lt_succ_self _)
  rw [orPanic_eq_ok.mpr (Outgoing.addUnbatchedTX_eq_ok.mpr ⟨fresh, rfl⟩)]
  exact ⟨avoids_ok _, fun _ _ => getBridgeContractAddress_avoids⟩

/-- Stored transfers with different keys can all be picked. -/
theorem pickLoop_succeeds {selected : List OutgoingTransferTx}
    (pooled : ∀ tx ∈ txs, outgoing.pool.get (getOutgoingTxPoolKey tx.erc20Fee tx.id) = some tx)
    (distinct : (txs.map OutgoingTransferTx.id).Nodup) :
    ∃ result, Outgoing.pickLoop params maxElements outgoing selected txs = .ok result := by
  induction txs generalizing outgoing selected with
  | nil => exact ⟨_, rfl⟩
  | cons tx rest ih =>
    obtain ⟨notInRest, restDistinct⟩ := nodup_cons.mp distinct
    unfold Outgoing.pickLoop
    by_cases blacklisted : params.isOnBlacklist tx.destAddress = true
    · rw [if_pos blacklisted]
      exact ih (fun other member => pooled other (mem_cons_of_mem _ member)) restDistinct
    · have removed := Outgoing.removeUnbatchedTX_eq_ok.mpr ⟨⟨tx, pooled tx mem_cons_self⟩, rfl⟩
      have gone : succeeds (Outgoing.getUnbatchedTxByFeeAndId
          { outgoing with pool := outgoing.pool.delete (getOutgoingTxPoolKey tx.erc20Fee tx.id) }
          tx.erc20Fee tx.id) = false := by
        rw [Outgoing.getUnbatchedTxByFeeAndId, KVStore.get_delete, if_pos rfl]
        rfl
      rw [if_neg blacklisted, removed]
      simp only [orPanic, ok_bind, check, gone, if_true]
      by_cases full : (selected ++ [tx]).length = maxElements
      · rw [if_pos full]
        exact ⟨_, rfl⟩
      · rw [if_neg full]
        refine ih (fun other member => ?_) restDistinct
        have different : getOutgoingTxPoolKey other.erc20Fee other.id ≠
            getOutgoingTxPoolKey tx.erc20Fee tx.id :=
          fun same => notInRest (Outgoing.getOutgoingTxPoolKey_id same ▸ mem_map_of_mem member)
        rw [KVStore.get_delete, if_neg different]
        exact pooled other (mem_cons_of_mem _ member)

theorem Outgoing.WellFormed.pickUnbatchedTxs_succeeds (wellFormed : WellFormed ext outgoing)
    (params : Params) (contract : EthAddress) (maxElements : Nat) :
    ∃ result, outgoing.pickUnbatchedTxs params contract maxElements = .ok result := by
  refine pickLoop_succeeds (fun tx member => (wellFormed.mem_byContract member).1) ?_
  have ids := wellFormed.ids
  rw [Outgoing.carried, map_append] at ids
  rw [Outgoing.getUnbatchedTransactionsByContract, map_reverse, nodup_reverse]
  exact (nodup_append.mp ids).1.sublist ((filter_sublist.map Prod.snd).map _)

theorem batchFeeLoop_avoids {batchFee : Outgoing.BatchFees} :
    Avoids custodyPanics (Outgoing.batchFeeLoop params contract maxElements batchFee txs) := by
  induction txs generalizing batchFee with
  | nil => exact avoids_pure _
  | cons tx rest ih =>
    simp only [Outgoing.batchFeeLoop, avoids_ite, avoids_bind, avoids_check, avoids_pure, ih,
      implies_true, and_true, true_and]
    exact fun _ => .inr (by simp [custodyPanics])

section

variable (wellFormed : WellFormed ext ledger.outgoing)

include wellFormed

theorem buildOutgoingTXBatch_avoids {context : Context} :
    Avoids custodyPanics (ledger.buildOutgoingTXBatch ext context contract maxElements) := by
  have timeout : Avoids custodyPanics context.getBatchTimeoutHeight := by
    unfold Context.getBatchTimeoutHeight
    simp [custodyPanics]
  have profitable :
      Avoids custodyPanics (ledger.requireProfitable context.params contract maxElements) := by
    unfold Ledger.requireProfitable
    split
    · exact avoids_bind.mpr ⟨batchFeeLoop_avoids, fun _ _ => avoids_require⟩
    · exact avoids_pure ()
  obtain ⟨⟨selected, picked⟩, ran⟩ :=
    wellFormed.pickUnbatchedTxs_succeeds context.params contract maxElements
  have fresh : picked.batches.get
      (getOutgoingTxBatchKey contract (picked.lastOutgoingBatchID + 1)) = none := by
    rw [(pickLoop_extends ran).2]
    exact wellFormed.batch_fresh contract (Nat.lt_succ_self _)
  simp only [Ledger.buildOutgoingTXBatch, ran, ok_bind, avoids_bind, avoids_require, profitable,
    timeout, avoids_pure, true_and, implies_true, and_true]
  refine fun _ _ => ⟨by simp [Params.requireBridgeActive], fun _ _ _ _ _ _ height _ =>
    ⟨by simp [Outgoing.storeBatch, fresh], fun _ _ =>
      ⟨?_, fun _ _ => getBridgeContractAddress_avoids⟩⟩⟩
  simp only [OutgoingTxBatch.getCheckpoint, avoids_bind, avoids_pure, implies_true, and_true]
  exact avoids_orPanic (by simp [strToFixByteArray]) (by simp [custodyPanics])

theorem outgoingTxBatchExecuted_avoids
    {token : EthAddress} {claim : MsgBatchSendToEthClaim} :
    Avoids custodyPanics (ledger.outgoingTxBatchExecuted ext params token claim) := by
  simp only [Ledger.outgoingTxBatchExecuted, avoids_bind, avoids_unwrap, avoids_check, avoids_pure,
    implies_true, and_true]
  refine ⟨.inr (by simp [custodyPanics]), fun batch _ => ⟨.inr (by simp [custodyPanics]), fun _ _ =>
    ⟨avoids_orPanic avoids_classifyERC20 (by simp [custodyPanics]),
      fun origin _ => ⟨?_, fun _ _ => ?_⟩⟩⟩⟩
  · unfold Ledger.burnVouchers
    split
    · simp only [avoids_bind, newCoin_avoids_custody, true_and]
      exact fun _ _ => avoids_orPanic avoids_burnCoins (by simp [custodyPanics])
    · simp
  · obtain ⟨middle, ran, _⟩ := wellFormed.cancelEarlier params token batch.batchNonce
    rw [ran]
    exact announcing_avoids

theorem TransferOp.avoids (op : TransferOp) :
    Avoids custodyPanics (op.step ext ledger).2 := by
  cases op with
  | addToOutgoingPool params sender receiver amount fee =>
    have issue : Avoids custodyPanics (ledger.issue ext params sender receiver amount fee) := by
      simp only [Ledger.issue, avoids_bind, avoids_classifyDenom, avoids_pure, implies_true, and_true]
      exact addToOutgoingPool_avoids wellFormed
    simp only [TransferOp.step]
    split
    · simp
    · rename_i fault failed
      intro message panics
      refine issue message ?_
      rw [failed]
      simpa using panics
  | removeFromOutgoingPoolAndRefund params txId sender =>
    simp [TransferOp.step, Ledger.removeFromOutgoingPoolAndRefund, Outgoing.getUnbatchedTxById,
      Outgoing.removeUnbatchedTX]
  | buildOutgoingTXBatch context contract maxElements =>
    exact avoids_map.mpr (buildOutgoingTXBatch_avoids wellFormed)
  | cleanupTimedOutBatches params ethereumHeight =>
    obtain ⟨result, ran, _⟩ := wellFormed.cleanupTimedOutBatches params ethereumHeight
    exact avoids_map.mpr (ran ▸ announcing_avoids)
  | outgoingTxBatchExecuted params token claim => exact outgoingTxBatchExecuted_avoids wellFormed
  | elsewhere next => exact avoids_ok next

end

/-! ## Places -/

/-- Every issued transfer is carried, executed or refunded, and nothing else is. -/
structure Custody (ext : External) (trace : List TransferEvent) (ledger : Ledger) : Prop where
  wellFormed : WellFormed ext ledger.outgoing
  places : ((trace.flatMap TransferEvent.issuedTxs).map OutgoingTransferTx.id).Perm
    (ledger.outgoing.carried.map OutgoingTransferTx.id ++
      (trace.flatMap TransferEvent.executedIds ++ trace.flatMap TransferEvent.refundedIds))
  kept : ∀ tx ∈ ledger.outgoing.carried, tx ∈ trace.flatMap TransferEvent.issuedTxs
  ids : ((trace.flatMap TransferEvent.issuedTxs).map OutgoingTransferTx.id).Nodup
  bound : ∀ tx ∈ trace.flatMap TransferEvent.issuedTxs, tx.id ≤ ledger.outgoing.lastTXPoolID

theorem Custody.start (unused : ledger.outgoing = .unused) : Custody ext [] ledger := by
  constructor
  · rw [unused]
    constructor <;> simp [Outgoing.unused, Outgoing.carried]
  all_goals simp [unused, Outgoing.unused, Outgoing.carried]

/-- Transfers that stay or leave keep custody, provided that those that leave are on the trace. -/
theorem Custody.leave (custody : Custody ext trace ledger) (gone : List OutgoingTransferTx)
    (wellFormed : WellFormed ext next.outgoing)
    (moved : ledger.outgoing.carried.Perm (gone ++ next.outgoing.carried))
    (counter : next.outgoing.lastTXPoolID = ledger.outgoing.lastTXPoolID)
    (noneIssued : emitted.flatMap TransferEvent.issuedTxs = [])
    (left : (emitted.flatMap TransferEvent.executedIds ++
      emitted.flatMap TransferEvent.refundedIds).Perm
      (gone.map OutgoingTransferTx.id)) : Custody ext (trace ++ emitted) next := by
  have same : (trace ++ emitted).flatMap TransferEvent.issuedTxs =
      trace.flatMap TransferEvent.issuedTxs := by
    rw [flatMap_append, noneIssued, append_nil]
  refine ⟨wellFormed, ?_, fun tx member => ?_, same ▸ custody.ids,
    by rw [same, counter]; exact custody.bound⟩
  · rw [same, flatMap_append, flatMap_append]
    have places := custody.places.trans ((moved.map OutgoingTransferTx.id).append_right _)
    rw [map_append] at places
    refine places.trans ?_
    rw [perm_iff_count] at left ⊢
    intro id
    have leftId := left id
    simp only [count_append] at leftId ⊢
    omega
  · rw [same]
    exact custody.kept tx (moved.mem_iff.mpr (mem_append_right _ member))

theorem Custody.issue (custody : Custody ext trace ledger)
    (issued : Issued ext ledger denom tx next) : Custody ext (trace ++ [.issued tx]) next := by
  obtain ⟨wellFormed, carried⟩ := custody.wellFormed.issued issued
  have counter : next.outgoing.lastTXPoolID = tx.id := by
    obtain ⟨_, rfl⟩ := issued.result
    rfl
  have older : ∀ other ∈ trace.flatMap TransferEvent.issuedTxs, other.id < tx.id := by
    intro other member
    rw [issued.id]
    exact Nat.lt_succ_of_le (custody.bound other member)
  have grown : (trace ++ [TransferEvent.issued tx]).flatMap TransferEvent.issuedTxs =
      trace.flatMap TransferEvent.issuedTxs ++ [tx] := by
    simp [TransferEvent.issuedTxs]
  refine ⟨wellFormed, ?_, fun other member => ?_, ?_, fun other member => ?_⟩
  · rw [grown, map_append, flatMap_append, flatMap_append]
    refine ((custody.places.append_right _).trans ?_).trans
      ((carried.map OutgoingTransferTx.id).append_right _).symm
    simp only [map_cons, map_nil, flatMap_cons, flatMap_nil, TransferEvent.executedIds,
      TransferEvent.refundedIds, append_nil]
    exact perm_append_singleton _ _
  · rw [grown, mem_append, mem_singleton]
    rcases mem_cons.mp (carried.mem_iff.mp member) with rfl | earlier
    · exact .inr rfl
    · exact .inl (custody.kept other earlier)
  · rw [grown, map_append, nodup_append]
    refine ⟨custody.ids, nodup_singleton _, fun id member other last => ?_⟩
    obtain ⟨earlier, inTrace, rfl⟩ := mem_map.mp member
    obtain rfl : other = tx.id := by simpa using last
    exact (older earlier inTrace).ne
  · rw [counter]
    rw [grown, mem_append, mem_singleton] at member
    rcases member with earlier | rfl
    · exact (older other earlier).le
    · exact le_refl _

theorem issue_eq_ok {amount fee : Coin}
    (issued : ledger.issue ext params sender receiver amount fee = .ok (tx, next)) :
    Issued ext ledger amount.denom tx next := by
  simp only [Ledger.issue, bind_eq_ok, pure_eq_ok, Prod.exists, Prod.mk.injEq] at issued
  obtain ⟨id, _, added, origin, classified, rfl, rfl⟩ := issued
  obtain ⟨tx, rfl, rfl, rfl, amountSame, feeSame, issued⟩ := addToOutgoingPool_issued added
  obtain ⟨other, classifiedAgain, token, feeToken⟩ := issued.classified
  obtain rfl : other = origin := Except.ok.inj (classifiedAgain.symm.trans classified)
  have same : (⟨tx.id, tx.sender, tx.destAddress, ⟨other.erc20, amount.amount⟩,
      ⟨other.erc20, fee.amount⟩⟩ : OutgoingTransferTx) = tx := by
    rw [← token, ← amountSame, ← feeSame]
    nth_rewrite 2 [token]
    rw [← feeToken]
  rw [same]
  exact issued

theorem Custody.step {op : TransferOp} (custody : Custody ext trace ledger)
    (took : op.step ext ledger = (emitted, .ok next)) (allowed : op.allowed ext ledger emitted next) :
    Custody ext (trace ++ emitted) next := by
  cases op with
  | addToOutgoingPool params sender receiver amount fee =>
    simp only [TransferOp.step] at took
    split at took
    · rename_i tx _ issued
      obtain ⟨rfl, rfl⟩ : [TransferEvent.issued tx] = emitted ∧ _ = next := by simpa using took
      exact custody.issue (issue_eq_ok issued)
    · simp at took
  | removeFromOutgoingPoolAndRefund params txId sender =>
    obtain ⟨rfl, removed⟩ := Prod.mk.inj took
    obtain ⟨tx, rfl, _, refunded⟩ := custody.wellFormed.removeFromOutgoingPoolAndRefund removed
    obtain ⟨wellFormed, carried⟩ := custody.wellFormed.refunded refunded
    obtain ⟨_, _, _, rfl⟩ := refunded.result
    exact custody.leave [tx] wellFormed carried rfl rfl (List.Perm.refl _)
  | buildOutgoingTXBatch context contract maxElements =>
    obtain ⟨rfl, mapped⟩ := Prod.mk.inj took
    obtain ⟨⟨batch, _⟩, ran, rfl⟩ := map_eq_ok.mp mapped
    obtain ⟨_, built⟩ := custody.wellFormed.buildOutgoingTXBatch ran
    exact custody.leave [] built.wellFormed built.carried built.counters.1 rfl (List.Perm.refl _)
  | cleanupTimedOutBatches params ethereumHeight =>
    obtain ⟨rfl, mapped⟩ := Prod.mk.inj took
    obtain ⟨outgoing, ran, rfl⟩ := map_eq_ok.mp mapped
    obtain ⟨result, cleaned, cancelled⟩ :=
      custody.wellFormed.cleanupTimedOutBatches params ethereumHeight
    rw [cleaned, Outgoing.announcing_eq_ok] at ran
    obtain ⟨-, rfl⟩ := ran
    exact custody.leave [] cancelled.wellFormed cancelled.carried cancelled.counters.1 rfl
      (List.Perm.refl _)
  | outgoingTxBatchExecuted params token claim =>
    obtain ⟨rfl, ran⟩ := Prod.mk.inj took
    obtain ⟨batch, found, _, executed⟩ := custody.wellFormed.outgoingTxBatchExecuted ran
    have ids : ledger.outgoing.batchIds token claim.batchNonce.val =
        batch.transactions.map OutgoingTransferTx.id := by
      rw [Outgoing.batchIds, custody.wellFormed.getOutgoingTXBatch_eq, found]
      rfl
    refine custody.leave batch.transactions executed.finished.wellFormed executed.finished.carried
      executed.finished.counters.1 rfl ?_
    simp [TransferEvent.executedIds, TransferEvent.refundedIds, ids]
  | elsewhere other =>
    obtain ⟨rfl, rfl⟩ : [] = emitted ∧ other = next := by simpa [TransferOp.step] using took
    have elsewhere := allowed other rfl
    have carried : ledger.outgoing.carried.Perm ([] ++ other.outgoing.carried) := by
      rw [elsewhere.outgoing]
      exact List.Perm.refl _
    refine custody.leave [] ?_ carried (by rw [elsewhere.outgoing]) rfl (List.Perm.refl _)
    have wellFormed :
        WellFormed ext { ledger.outgoing with batchConfirms := other.outgoing.batchConfirms } :=
      { custody.wellFormed with confirmKeys := elsewhere.confirmKeys }
    rwa [← elsewhere.outgoing] at wellFormed

theorem custody_of_served (served : Served ext trace ledger) : Custody ext trace ledger :=
  Reach.invariant (fun _ unused => Custody.start unused)
    (fun _ _ _ _ _ _ custody took allowed => custody.step took allowed) served

/-- Ids are given once; the transfer of an id is under one key of the pool, once in one stored
batch, executed once or refunded once, and only one of these; what the store carries is what was
issued, field by field; and none of the guards against duplicates can panic next. -/
theorem transfer_in_one_place (served : Served ext trace ledger) :
    ((trace.flatMap TransferEvent.issuedTxs).map OutgoingTransferTx.id).Nodup ∧
    (∀ tx ∈ trace.flatMap TransferEvent.issuedTxs,
      (ledger.outgoing.pool.entries.map (fun entry => entry.2.id)).count tx.id +
        ((ledger.outgoing.batches.entries.flatMap (fun entry => entry.2.transactions)).map
          OutgoingTransferTx.id).count tx.id +
        (trace.flatMap TransferEvent.executedIds).count tx.id +
        (trace.flatMap TransferEvent.refundedIds).count tx.id = 1) ∧
    (∀ key tx, ledger.outgoing.pool.get key = some tx → tx ∈ trace.flatMap TransferEvent.issuedTxs) ∧
    (∀ key batch tx, ledger.outgoing.batches.get key = some batch → tx ∈ batch.transactions →
      tx ∈ trace.flatMap TransferEvent.issuedTxs) ∧
    ∀ op : TransferOp, Avoids custodyPanics (op.step ext ledger).2 := by
  have custody := custody_of_served served
  refine ⟨custody.ids, fun tx member => ?_, fun key tx found => ?_,
    fun key batch tx found member => ?_, TransferOp.avoids custody.wellFormed⟩
  · have once := (List.perm_iff_count.mp custody.places tx.id).symm.trans
      (List.count_eq_one_of_mem custody.ids (List.mem_map_of_mem member))
    rw [Outgoing.carried, List.map_append, KVStore.values, KVStore.values, List.flatMap_map] at once
    simp only [List.count_append, List.map_map] at once
    simp only [Function.comp_def] at once
    omega
  · exact custody.kept tx (List.mem_append_left _ (KVStore.mem_values.mpr ⟨key, found⟩))
  · exact custody.kept tx (List.mem_append_right _
      (List.mem_flatMap.mpr ⟨batch, KVStore.mem_values.mpr ⟨key, found⟩, member⟩))

/-- A holder of vouchers, and heights of both chains to reckon timeouts from. -/
def exampleHolding : Ledger :=
  .unused [] (Bank.empty.mint (ascii "recipient") ⟨gravityDenom localnet 5, 100⟩)

def exampleHeights : Context :=
  { exampleGenesis.context with lastObservedEthereumBlockHeight := ⟨1, 100⟩ }

def exampleSend (amount fee : Nat) : TransferOp :=
  .addToOutgoingPool defaultParams (ascii "recipient") 7 ⟨gravityDenom localnet 5, amount⟩
    ⟨gravityDenom localnet 5, fee⟩

/-- Of four transfers one is refunded, one comes back from a batch that timed out, and the batch
that takes it again and one more is executed. -/
def exampleCustody : List TransferOp :=
  [exampleSend 10 1, exampleSend 7 2, exampleSend 4 3, exampleSend 5 4,
    .buildOutgoingTXBatch exampleHeights 5 1,
    .cleanupTimedOutBatches defaultParams 1000000,
    .buildOutgoingTXBatch exampleHeights 5 2,
    .removeFromOutgoingPoolAndRefund defaultParams 1 (ascii "recipient"),
    .outgoingTxBatchExecuted defaultParams 5 ⟨5, 200, 2, hex localnet 5,
      ascii "gravity1orchestrator"⟩]

def custodyRun : Option (List TransferEvent × Ledger) :=
  run (TransferOp.step localnet) (fun _ op _ _ => match op with | .elsewhere _ => false | _ => true)
    exampleCustody exampleHolding

theorem custodyRun_ran : custodyRun.isSome = true := by decide +kernel

theorem custodyRun_in_one_place :
    ∃ trace ledger, Served localnet trace ledger ∧
      (trace.flatMap TransferEvent.executedIds) = [4, 3] ∧
      (trace.flatMap TransferEvent.refundedIds) = [1] ∧
      ledger.outgoing.pool.values.map OutgoingTransferTx.id = [2] ∧
      ∀ op : TransferOp, Avoids custodyPanics (op.step localnet ledger).2 := by
  have sound : ∀ (ledger : Ledger) (op : TransferOp) (emitted : List TransferEvent) (next : Ledger),
      (match op with | .elsewhere _ => false | _ => true) = true →
      op.allowed localnet ledger emitted next := by
    rintro ledger op emitted next permitted other rfl
    contradiction
  have served : Served localnet (custodyRun.get custodyRun_ran).1
      (custodyRun.get custodyRun_ran).2 := by
    refine reach_of_isSome sound ?_ custodyRun_ran
    rfl
  exact ⟨_, _, served, by decide +kernel, by decide +kernel, by decide +kernel,
    (transfer_in_one_place served).2.2.2.2⟩

end GravityBridge.Keeper
