import GravityBridge.Keeper.Transfers

/-!
# What each operation on outgoing transfers does

One statement per operation lists everything that a successful call changes in
the ledger, under the assumption that the store of transfers is well formed, and
shows that it stays well formed.
-/

namespace GravityBridge.Keeper

open Lib.Fallible Lib.ByteString Lib.Store
open GravityBridge.Types List KVStore

open Outgoing (WellFormed Cancelled)

variable {ext : External} {params : Params} {outgoing : Outgoing} {ledger next : Ledger}
  {sender : AccAddress} {id : Nat}

/-! ## Sending and cancelling -/

/-- A coin was locked and its transfer put in the pool. -/
structure Issued (ext : External) (ledger : Ledger) (denom : Denom) (tx : OutgoingTransferTx)
    (next : Ledger) : Prop where
  classified : ∃ origin, ledger.classifyDenom denom = .ok origin ∧
    tx.erc20Token.contract = origin.erc20 ∧ tx.erc20Fee.contract = origin.erc20
  id : tx.id = ledger.outgoing.lastTXPoolID + 1
  positive : 0 < tx.total
  fresh : ledger.outgoing.pool.get (getOutgoingTxPoolKey tx.erc20Fee tx.id) = none
  result : ∃ held, next = { ledger with
    bank := ledger.bank.move tx.sender ext.gravityModule ⟨denom, tx.total⟩ held
    outgoing := { ledger.outgoing with
      pool := ledger.outgoing.pool.set (getOutgoingTxPoolKey tx.erc20Fee tx.id) tx
      lastTXPoolID := tx.id } }

theorem addToOutgoingPool_issued {receiver : EthAddress} {amount fee : Coin}
    (added : ledger.addToOutgoingPool ext params sender receiver amount fee = .ok (id, next)) :
    ∃ tx : OutgoingTransferTx, tx.id = id ∧ tx.sender = sender ∧ tx.destAddress = receiver ∧
      tx.erc20Token.amount = amount.amount ∧ tx.erc20Fee.amount = fee.amount ∧
      Issued ext ledger amount.denom tx next := by
  simp only [Ledger.addToOutgoingPool, bind_eq_ok, require_eq_ok, check_eq_ok, singleCoins_eq_ok,
    Bank.sendCoins_eq_ok, orPanic_eq_ok, Outgoing.addUnbatchedTX_eq_ok, pure_eq_ok,
    Prod.mk.injEq] at added
  obtain ⟨_, _, _, _, origin, classified, _, ⟨positive, rfl⟩, _, ⟨held, rfl⟩, _, ⟨fresh, rfl⟩, -, -,
    rfl, rfl⟩ := added
  refine ⟨⟨_, sender, receiver, ⟨origin.erc20, amount.amount⟩, ⟨origin.erc20, fee.amount⟩⟩,
    rfl, rfl, rfl, rfl, rfl, ⟨⟨origin, classified, rfl, rfl⟩, rfl, positive, fresh, held, rfl⟩⟩

variable {tx : OutgoingTransferTx}

theorem Outgoing.WellFormed.issued (wellFormed : WellFormed ext ledger.outgoing) {denom : Denom}
    (issued : Issued ext ledger denom tx next) :
    WellFormed ext next.outgoing ∧ next.outgoing.carried.Perm (tx :: ledger.outgoing.carried) := by
  obtain ⟨held, rfl⟩ := issued.result
  obtain ⟨origin, _, token, fee⟩ := issued.classified
  have values := values_set_perm tx issued.fresh
  have carried : ((ledger.outgoing.pool.set (getOutgoingTxPoolKey tx.erc20Fee tx.id) tx).values ++
      ledger.outgoing.batches.values.flatMap OutgoingTxBatch.transactions).Perm
      (tx :: ledger.outgoing.carried) := values.append_right _
  have older : ∀ other ∈ ledger.outgoing.carried, other.id < tx.id := by
    intro other member
    rw [issued.id]
    exact Nat.lt_succ_of_le (wellFormed.idBound other member)
  refine ⟨⟨?_, wellFormed.batchKeys, wellFormed.batchContracts, wellFormed.nonceBound,
    wellFormed.confirmKeys, ?_, ?_, ?_⟩, carried⟩
  · intro key other found
    simp only [get_set] at found
    split_ifs at found with here
    · exact Option.some.inj found ▸ here
    · exact wellFormed.poolKeys key other found
  · intro other member
    rcases mem_cons.mp (carried.mem_iff.mp member) with rfl | earlier
    · rw [token, fee]
    · exact wellFormed.contracts other earlier
  · refine (carried.map OutgoingTransferTx.id).nodup_iff.mpr ?_
    rw [map_cons, nodup_cons]
    refine ⟨fun member => ?_, wellFormed.ids⟩
    obtain ⟨other, inCarried, same⟩ := mem_map.mp member
    exact (older other inCarried).ne same
  · intro other member
    rcases mem_cons.mp (carried.mem_iff.mp member) with rfl | earlier
    · exact le_refl _
    · exact (older other earlier).le

/-- A transfer was taken out of the pool and what was locked for it paid back. -/
structure Refunded (ext : External) (ledger : Ledger) (tx : OutgoingTransferTx)
    (next : Ledger) : Prop where
  pooled : ledger.outgoing.pool.get (getOutgoingTxPoolKey tx.erc20Fee tx.id) = some tx
  notBlocked : ext.blockedAddr tx.sender = false
  result : ∃ origin held, ledger.classifyERC20 ext tx.erc20Token.contract = .ok origin ∧
    next = { ledger with
      bank := ledger.bank.move ext.gravityModule tx.sender ⟨origin.denom, tx.total⟩ held
      outgoing := { ledger.outgoing with
        pool := ledger.outgoing.pool.delete (getOutgoingTxPoolKey tx.erc20Fee tx.id) } }

theorem Outgoing.WellFormed.removeFromOutgoingPoolAndRefund
    (wellFormed : WellFormed ext ledger.outgoing)
    (removed : ledger.removeFromOutgoingPoolAndRefund ext params id sender = .ok next) :
    ∃ tx, tx.id = id ∧ tx.sender = sender ∧ Refunded ext ledger tx next := by
  simp only [Ledger.removeFromOutgoingPoolAndRefund, bind_eq_ok, require_eq_ok, rewrap_eq_ok,
    Outgoing.getUnbatchedTxById, fromOption_eq_ok, Outgoing.removeUnbatchedTX_eq_ok, newCoin_eq_ok,
    Bank.sendCoinsFromModuleToAccount_eq_ok, pure_eq_ok] at removed
  obtain ⟨_, _, tx, found, _, rfl, _, _, _, ⟨_, rfl⟩, _, _, origin, classified, _,
    ⟨_, amount, read, rfl⟩, _, ⟨notBlocked, held, rfl⟩, -, -, rfl⟩ := removed
  obtain rfl : tx.id = id := by simpa using find?_some found
  obtain rfl : tx.erc20Token.amount = amount := by simpa using read
  have pooled : tx ∈ ledger.outgoing.pool.values := by
    simpa [Outgoing.getUnbatchedTransactions] using mem_of_find?_eq_some found
  exact ⟨tx, rfl, rfl, wellFormed.mem_pool.mp pooled, notBlocked, origin, held, classified, rfl⟩

theorem Outgoing.WellFormed.refunded (wellFormed : WellFormed ext ledger.outgoing)
    (refunded : Refunded ext ledger tx next) :
    WellFormed ext next.outgoing ∧ ledger.outgoing.carried.Perm (tx :: next.outgoing.carried) := by
  obtain ⟨origin, held, _, rfl⟩ := refunded.result
  have carried : ledger.outgoing.carried.Perm
      (tx :: ((ledger.outgoing.pool.delete (getOutgoingTxPoolKey tx.erc20Fee tx.id)).values ++
        ledger.outgoing.batches.values.flatMap OutgoingTxBatch.transactions)) :=
    (values_delete_perm refunded.pooled).append_right _
  refine ⟨wellFormed.of_perm [tx] carried ?_ wellFormed.batchKeys wellFormed.batchContracts
    wellFormed.nonceBound wellFormed.confirmKeys rfl, carried⟩
  intro key other found
  simp only [get_delete] at found
  split_ifs at found
  exact wellFormed.poolKeys key other found

/-! ## Building a batch -/

variable {maxElements : Nat} {txs selected result : List OutgoingTransferTx} {picked : Outgoing}

/-- Picking transfers only adds to the selected ones, and changes nothing but the pool. -/
theorem pickLoop_extends
    (ran : Outgoing.pickLoop params maxElements outgoing selected txs = .ok (result, picked)) :
    (∃ chosen, result = selected ++ chosen) ∧ picked = { outgoing with pool := picked.pool } := by
  induction txs generalizing outgoing selected with
  | nil =>
    obtain ⟨rfl, rfl⟩ : selected = result ∧ outgoing = picked := by
      simpa [Outgoing.pickLoop] using ran
    exact ⟨⟨[], by simp⟩, rfl⟩
  | cons tx rest ih =>
    unfold Outgoing.pickLoop at ran
    split_ifs at ran with blacklisted full
    · exact ih ran
    · simp only [bind_eq_ok, orPanic_eq_ok, Outgoing.removeUnbatchedTX_eq_ok, pure_eq_ok,
        Prod.mk.injEq] at ran
      obtain ⟨_, ⟨_, rfl⟩, _, _, rfl, rfl⟩ := ran
      exact ⟨⟨[tx], rfl⟩, rfl⟩
    · simp only [bind_eq_ok, orPanic_eq_ok, Outgoing.removeUnbatchedTX_eq_ok] at ran
      obtain ⟨_, ⟨_, rfl⟩, _, _, ran⟩ := ran
      obtain ⟨⟨chosen, rfl⟩, frame⟩ := ih ran
      exact ⟨⟨tx :: chosen, by simp⟩, frame⟩

/-- Transfers picked from the pool are the ones that are gone from it. -/
theorem pickLoop_picked
    (own : ∀ tx ∈ txs, ∀ other, outgoing.pool.get (getOutgoingTxPoolKey tx.erc20Fee tx.id) =
      some other →
      other = tx) (ran : Outgoing.pickLoop params maxElements outgoing selected txs =
        .ok (result, picked)) :
    ∃ chosen, result = selected ++ chosen ∧ (∀ tx ∈ chosen, tx ∈ txs) ∧
      outgoing.pool.values.Perm (chosen ++ picked.pool.values) ∧
      ∀ key tx, picked.pool.get key = some tx → outgoing.pool.get key = some tx := by
  induction txs generalizing outgoing selected with
  | nil =>
    obtain ⟨rfl, rfl⟩ : selected = result ∧ outgoing = picked := by
      simpa [Outgoing.pickLoop] using ran
    exact ⟨[], by simp, by simp, List.Perm.refl _, fun _ _ found => found⟩
  | cons tx rest ih =>
    unfold Outgoing.pickLoop at ran
    by_cases blacklisted : params.isOnBlacklist tx.destAddress = true
    · rw [if_pos blacklisted] at ran
      obtain ⟨chosen, same, subset, others⟩ :=
        ih (fun other member => own other (mem_cons_of_mem _ member)) ran
      exact ⟨chosen, same, fun other member => mem_cons_of_mem _ (subset other member), others⟩
    · rw [if_neg blacklisted] at ran
      simp only [bind_eq_ok, orPanic_eq_ok, Outgoing.removeUnbatchedTX_eq_ok, check_eq_ok] at ran
      obtain ⟨removed, ⟨⟨stored, found⟩, rfl⟩, _, _, ran⟩ := ran
      obtain rfl := own tx mem_cons_self stored found
      have values := values_delete_perm found
      have fewer : ∀ key other, (outgoing.pool.delete
          (getOutgoingTxPoolKey stored.erc20Fee stored.id)).get key = some other →
          outgoing.pool.get key = some other := by
        intro key other inRest
        rw [get_delete] at inRest
        split_ifs at inRest
        exact inRest
      split_ifs at ran with full
      · obtain ⟨rfl, rfl⟩ := Prod.mk.inj (pure_eq_ok.mp ran)
        exact ⟨[stored], rfl, by simp, values, fewer⟩
      · obtain ⟨chosen, rfl, subset, perm, sub⟩ := ih
          (fun other member found inRest =>
            own other (mem_cons_of_mem _ member) found (fewer _ _ inRest)) ran
        refine ⟨stored :: chosen, by simp, ?_, ?_, ?_⟩
        · intro other member
          rcases mem_cons.mp member with rfl | tail
          · exact mem_cons_self
          · exact mem_cons_of_mem _ (subset other tail)
        · exact values.trans (perm.cons stored)
        · exact fun key other found => fewer key other (sub key other found)

/-- The transfers a batch may take, in the order in which they are picked. -/
def Outgoing.pickable (outgoing : Outgoing) (params : Params) (contract : EthAddress) :
    List OutgoingTransferTx :=
  (outgoing.getUnbatchedTransactionsByContract contract).filter
    (fun tx => !params.isOnBlacklist tx.destAddress)

/-- The loop takes transfers until it has enough of them, skipping those to blacklisted addresses. -/
theorem pickLoop_selected (room : selected.length < maxElements)
    (ran : Outgoing.pickLoop params maxElements outgoing selected txs = .ok (result, picked)) :
    result = selected ++ (txs.filter (fun tx => !params.isOnBlacklist tx.destAddress)).take
      (maxElements - selected.length) := by
  induction txs generalizing outgoing selected with
  | nil =>
    obtain ⟨rfl, rfl⟩ : selected = result ∧ outgoing = picked := by
      simpa [Outgoing.pickLoop] using ran
    simp
  | cons tx rest ih =>
    unfold Outgoing.pickLoop at ran
    by_cases blacklisted : params.isOnBlacklist tx.destAddress = true
    · rw [if_pos blacklisted] at ran
      rw [ih room ran, filter_cons_of_neg (by simp [blacklisted])]
    · rw [if_neg blacklisted] at ran
      simp only [bind_eq_ok] at ran
      obtain ⟨removed, _, _, _, ran⟩ := ran
      have left : maxElements - selected.length = maxElements - (selected ++ [tx]).length + 1 := by
        rw [length_append, length_singleton]
        omega
      rw [filter_cons_of_pos (by simp [blacklisted]), left, take_succ_cons]
      split_ifs at ran with full
      · obtain ⟨rfl, rfl⟩ := Prod.mk.inj (pure_eq_ok.mp ran)
        simp [full]
      · have smaller : (selected ++ [tx]).length < maxElements := by
          rw [length_append, length_singleton] at full ⊢
          omega
        rw [ih smaller ran, append_assoc, singleton_append]

/-- The estimate adds up the fees of the transfers that would be picked. -/
theorem batchFeeLoop_eq_ok {contract : EthAddress}
    {total count : Nat} {fees : Outgoing.BatchFees} (room : count < maxElements)
    (ran : Outgoing.batchFeeLoop params contract maxElements ⟨total, count⟩ txs = .ok fees) :
    let chosen := (txs.filter (fun tx => !params.isOnBlacklist tx.destAddress)).take
      (maxElements - count)
    fees = ⟨total + (chosen.map (fun tx => tx.erc20Fee.amount)).sum, count + chosen.length⟩ := by
  induction txs generalizing total count with
  | nil =>
    obtain rfl := pure_eq_ok.mp ran
    simp
  | cons tx rest ih =>
    obtain ⟨left, more⟩ : ∃ left, maxElements - count = left + 1 :=
      ⟨maxElements - count - 1, by omega⟩
    unfold Outgoing.batchFeeLoop at ran
    cases blacklisted : params.isOnBlacklist tx.destAddress with
    | true =>
      rw [if_pos blacklisted] at ran
      simpa [blacklisted] using ih room ran
    | false =>
      rw [if_neg (by simp [blacklisted])] at ran
      simp only [bind_eq_ok] at ran
      obtain ⟨_, _, ran⟩ := ran
      simp only [blacklisted, Bool.not_false, filter_cons_of_pos, more, take_succ_cons, map_cons,
        sum_cons, length_cons]
      split_ifs at ran with full
      · obtain rfl := pure_eq_ok.mp ran
        obtain rfl : left = 0 := by omega
        simp
      · obtain rfl : left = maxElements - (count + 1) := by omega
        rw [ih (by omega) ran]
        simp only [Outgoing.BatchFees.mk.injEq]
        exact ⟨by ring, by ring⟩

/-- Transfers of one token moved from the pool into a new batch. -/
structure Built (ext : External) (ledger : Ledger) (batch : OutgoingTxBatch)
    (next : Ledger) : Prop where
  frame : next = { ledger with
    outgoing := next.outgoing
    pastEthSignatureCheckpoints := next.pastEthSignatureCheckpoints }
  counters : next.outgoing.lastTXPoolID = ledger.outgoing.lastTXPoolID ∧
    next.outgoing.lastOutgoingBatchID = batch.batchNonce
  nonce : batch.batchNonce = ledger.outgoing.lastOutgoingBatchID + 1
  contracts : ∀ tx ∈ batch.transactions, tx.erc20Token.contract = batch.tokenContract
  pool : ledger.outgoing.pool.values.Perm (batch.transactions ++ next.outgoing.pool.values)
  stored : next.outgoing.batches.values.Perm (batch :: ledger.outgoing.batches.values)
  profitable : ∀ last ∈ ledger.outgoing.getLastOutgoingBatchByTokenType batch.tokenContract,
  last.getFees < batch.getFees
  wellFormed : WellFormed ext next.outgoing

variable {contract : EthAddress}

theorem Outgoing.WellFormed.mem_byContract (wellFormed : WellFormed ext outgoing)
    (member : tx ∈ outgoing.getUnbatchedTransactionsByContract contract) :
    outgoing.pool.get (getOutgoingTxPoolKey tx.erc20Fee tx.id) = some tx ∧
      tx.erc20Token.contract = contract := by
  rw [Outgoing.getUnbatchedTransactionsByContract, mem_reverse] at member
  obtain ⟨key, found⟩ := mem_values.mp member
  rw [get_filter, Option.filter_eq_some_iff] at found
  obtain ⟨stored, contractKey⟩ := found
  have keyed := wellFormed.poolKeys key tx stored
  have inCarried : tx ∈ outgoing.carried := mem_append_left _ (mem_values.mpr ⟨key, stored⟩)
  have sameContract : tx.erc20Fee.contract = contract := by
    rw [keyed] at contractKey
    simpa [getOutgoingTxPoolKey] using contractKey
  exact ⟨keyed ▸ stored, (wellFormed.contracts tx inCarried).symm.trans sameContract⟩

variable {context : Context} {batch : OutgoingTxBatch} {claim : MsgBatchSendToEthClaim}

/-- The new batch, and where it and its checkpoint are stored. -/
theorem buildOutgoingTXBatch_eq_ok
    (built : ledger.buildOutgoingTXBatch ext context contract maxElements = .ok (batch, next)) :
    ∃ selected picked timeout outgoing checkpoint,
      ledger.outgoing.pickUnbatchedTxs context.params contract maxElements =
        .ok (selected, picked) ∧ selected ≠ [] ∧
      batch = ⟨picked.lastOutgoingBatchID + 1, timeout, selected, contract, context.blockHeight⟩ ∧
      { picked with lastOutgoingBatchID := picked.lastOutgoingBatchID + 1 }.storeBatch batch =
        .ok outgoing ∧
      batch.getCheckpoint ext context.params.gravityId = .ok checkpoint ∧
      next = { ledger with outgoing := outgoing }.setPastEthSignatureCheckpoint checkpoint ∧
      maxElements ≠ 0 ∧ ledger.requireProfitable context.params contract maxElements = .ok () ∧
      context.getBatchTimeoutHeight = .ok timeout := by
  simp only [Ledger.buildOutgoingTXBatch, bind_eq_ok, require_eq_ok, pure_eq_ok, Prod.exists] at built
  obtain ⟨_, some, _, _, _, profitable, selected, picked, ran, _, nonempty, timeout, computed,
    outgoing, stored, checkpoint, hashed, -, -, same⟩ := built
  obtain ⟨rfl, rfl⟩ := Prod.mk.inj same
  exact ⟨selected, picked, timeout, outgoing, checkpoint, ran, nonempty, rfl, stored, hashed, rfl,
    some, profitable, computed⟩

/-- What a new batch takes, and why it was allowed. -/
theorem buildOutgoingTXBatch_selected
    (built : ledger.buildOutgoingTXBatch ext context contract maxElements = .ok (batch, next)) :
    batch.transactions = (ledger.outgoing.pickable context.params contract).take maxElements ∧
      ∀ last ∈ ledger.outgoing.getLastOutgoingBatchByTokenType contract, last.getFees <
        batch.getFees := by
  obtain ⟨selected, picked, timeout, _, _, ran, _, rfl, _, _, _, some, profitable, _⟩ :=
    buildOutgoingTXBatch_eq_ok built
  obtain rfl : selected = (ledger.outgoing.pickable context.params contract).take maxElements := by
    have room : ([] : List OutgoingTransferTx).length < maxElements := Nat.pos_of_ne_zero some
    simpa [Outgoing.pickable] using pickLoop_selected room ran
  refine ⟨rfl, fun last found => ?_⟩
  simp only [Ledger.requireProfitable, Option.mem_def.mp found, bind_eq_ok, require_eq_ok]
    at profitable
  obtain ⟨fees, estimated, more⟩ := profitable
  rw [batchFeeLoop_eq_ok (Nat.pos_of_ne_zero some) estimated] at more
  simpa [OutgoingTxBatch.getFees, Outgoing.pickable] using more

theorem Outgoing.WellFormed.buildOutgoingTXBatch (wellFormed : WellFormed ext ledger.outgoing)
    (built : ledger.buildOutgoingTXBatch ext context contract maxElements = .ok (batch, next)) :
    batch.tokenContract = contract ∧ Built ext ledger batch next := by
  have profitable := (buildOutgoingTXBatch_selected built).2
  obtain ⟨selected, picked, timeout, outgoing, checkpoint, ran, _, rfl, stored, _, rfl, _⟩ :=
    buildOutgoingTXBatch_eq_ok built
  have listed := fun tx (member : tx ∈ ledger.outgoing.getUnbatchedTransactionsByContract contract) =>
    wellFormed.mem_byContract member
  obtain ⟨_, frame⟩ := pickLoop_extends ran
  obtain ⟨_, rfl, subset, values, fewer⟩ := pickLoop_picked
    (fun tx member other found => Option.some.inj (found.symm.trans (listed tx member).1)) ran
  obtain ⟨fresh, rfl⟩ :
      picked.batches.get (getOutgoingTxBatchKey contract (picked.lastOutgoingBatchID + 1)) =
      none ∧ _ = outgoing := by simpa [Outgoing.storeBatch] using stored
  have sameBatches : picked.batches = ledger.outgoing.batches := by rw [frame]
  have sameConfirms : picked.batchConfirms = ledger.outgoing.batchConfirms := by rw [frame]
  have sameTx : picked.lastTXPoolID = ledger.outgoing.lastTXPoolID := by rw [frame]
  have sameBatch : picked.lastOutgoingBatchID = ledger.outgoing.lastOutgoingBatchID := by rw [frame]
  have contracts : ∀ tx ∈ selected, tx.erc20Token.contract = contract :=
    fun tx member => (listed tx (subset tx member)).2
  have storedBatches := values_set_perm (⟨picked.lastOutgoingBatchID + 1, timeout, selected,
    contract, context.blockHeight⟩ : OutgoingTxBatch) fresh
  refine ⟨rfl, rfl, ⟨sameTx, rfl⟩, by rw [sameBatch], contracts, values,
    by rw [← sameBatches]; exact storedBatches, profitable, ?_⟩
  have cases : ∀ batch ∈
      (picked.batches.set (getOutgoingTxBatchKey contract (picked.lastOutgoingBatchID + 1))
        ⟨picked.lastOutgoingBatchID + 1, timeout, selected, contract, context.blockHeight⟩).values,
      batch = ⟨picked.lastOutgoingBatchID + 1, timeout, selected, contract, context.blockHeight⟩ ∨
        batch ∈ ledger.outgoing.batches.values := by
    intro batch member
    rw [← sameBatches]
    exact mem_cons.mp (storedBatches.mem_iff.mp member)
  refine wellFormed.of_perm [] ?_ ?_ ?_ ?_ ?_ ?_ sameTx
  · rw [Outgoing.carried, Outgoing.carried, nil_append]
    refine (values.append_right _).trans ?_
    refine List.Perm.trans ?_ ((storedBatches.flatMap_right _).append_left _).symm
    rw [flatMap_cons, sameBatches, ← append_assoc]
    exact perm_append_comm.append_right _
  · exact fun key tx found => wellFormed.poolKeys key tx (fewer key tx found)
  · intro key batch found
    simp only [Ledger.setPastEthSignatureCheckpoint, get_set] at found
    split_ifs at found with here
    · exact Option.some.inj found ▸ here
    · exact wellFormed.batchKeys key batch (sameBatches ▸ found)
  · intro batch member
    rcases cases batch member with rfl | earlier
    · exact contracts
    · exact wellFormed.batchContracts batch earlier
  · intro batch member
    rcases cases batch member with rfl | earlier
    · exact le_refl _
    · exact (wellFormed.nonceBound batch earlier).trans (sameBatch ▸ Nat.le_succ _)
  · exact fun key confirm found => wellFormed.confirmKeys key confirm (sameConfirms ▸ found)

/-! ## Executing a batch -/

/-- The batch is gone and every earlier batch of its token is back in the pool. -/
structure Finished (ext : External) (outgoing : Outgoing) (batch : OutgoingTxBatch)
    (next : Outgoing) : Prop where
  counters : next.lastTXPoolID = outgoing.lastTXPoolID ∧
    next.lastOutgoingBatchID = outgoing.lastOutgoingBatchID
  pool : next.pool.values.Perm ((outgoing.earlier batch.tokenContract batch.batchNonce).flatMap
    OutgoingTxBatch.transactions ++ outgoing.pool.values)
  stored : outgoing.batches.values.Perm
    (batch :: (outgoing.earlier batch.tokenContract batch.batchNonce ++ next.batches.values))
  confirms : ∀ key, Outgoing.confirmsOf batch.tokenContract batch.batchNonce key →
    next.batchConfirms.get key = none
  wellFormed : WellFormed ext next

theorem Outgoing.WellFormed.finish (wellFormed : WellFormed ext outgoing)
    (stored : batch ∈ outgoing.batches.values) :
    ∃ middle, outgoing.cancelEarlier ext params batch.tokenContract batch.batchNonce =
        Outgoing.announcing params (outgoing.earlier batch.tokenContract batch.batchNonce) middle ∧
      Finished ext outgoing batch ((middle.deleteBatch batch).deleteBatchConfirms ext batch) := by
  obtain ⟨middle, ran, cancelled⟩ :=
    wellFormed.cancelEarlier params batch.tokenContract batch.batchNonce
  refine ⟨middle, ran, ?_⟩
  have survives : batch ∈ middle.batches.values := by
    rcases mem_append.mp (cancelled.stored.mem_iff.mp stored) with victim | kept
    · exact absurd (Outgoing.mem_earlier.mp victim).2.1 (lt_irrefl _)
    · exact kept
  have remaining := values_delete_perm (cancelled.wellFormed.mem_batches.mp survives)
  have frame := Outgoing.deleteBatchConfirms_frame ext (middle.deleteBatch batch) batch
  have batches : ((middle.deleteBatch batch).deleteBatchConfirms ext batch).batches =
      middle.batches.delete (getOutgoingTxBatchKey batch.tokenContract batch.batchNonce) := by
    rw [frame]
    rfl
  have pool : ((middle.deleteBatch batch).deleteBatchConfirms ext batch).pool = middle.pool := by
    rw [frame]
    rfl
  have counters : ((middle.deleteBatch batch).deleteBatchConfirms ext batch).lastTXPoolID =
      middle.lastTXPoolID ∧
      ((middle.deleteBatch batch).deleteBatchConfirms ext batch).lastOutgoingBatchID =
        middle.lastOutgoingBatchID := by
    rw [frame]
    exact ⟨rfl, rfl⟩
  have stillStored : ∀ other, other ∈ (middle.batches.delete
      (getOutgoingTxBatchKey batch.tokenContract batch.batchNonce)).values →
      other ∈ middle.batches.values :=
    fun other member => remaining.mem_iff.mpr (mem_cons_of_mem _ member)
  refine ⟨⟨counters.1.trans cancelled.counters.1, counters.2.trans cancelled.counters.2⟩,
    by rw [pool]; exact cancelled.pool, ?_, ?_, ?_⟩
  · rw [batches]
    exact (cancelled.stored.trans (remaining.append_left _)).trans perm_middle
  · intro key inside
    exact (Outgoing.deleteBatchConfirms_get (middle.deleteBatch batch) batch key
      cancelled.wellFormed.confirmKeys).1 inside
  · refine cancelled.wellFormed.of_perm batch.transactions ?_ ?_ ?_ ?_ ?_ ?_ counters.1
    · rw [Outgoing.carried, Outgoing.carried, pool, batches]
      refine ((remaining.flatMap_right _).append_left _).trans ?_
      rw [flatMap_cons]
      exact perm_append_comm_assoc _ _ _
    · rw [pool]
      exact cancelled.wellFormed.poolKeys
    · intro key other found
      rw [batches, get_delete] at found
      split_ifs at found
      exact cancelled.wellFormed.batchKeys key other found
    · rw [batches]
      exact fun other member => cancelled.wellFormed.batchContracts other (stillStored other member)
    · rw [batches, counters.2]
      exact fun other member => cancelled.wellFormed.nonceBound other (stillStored other member)
    · exact fun key confirm found => cancelled.wellFormed.confirmKeys key confirm
        (Outgoing.deleteBatchConfirms_sub (middle.deleteBatch batch) batch
          cancelled.wellFormed.confirmKeys found)

/-- The vouchers of an Ethereum-originated token are burned and its batch finished. -/
structure Executed (ext : External) (ledger : Ledger) (batch : OutgoingTxBatch)
    (next : Ledger) : Prop where
  frame : next = { ledger with bank := next.bank, outgoing := next.outgoing }
  bank : ∃ origin, ledger.classifyERC20 ext batch.tokenContract = .ok origin ∧
    (origin.origin = .cosmos → next.bank = ledger.bank) ∧
    (origin.origin = .ethereum → ∃ held,
      next.bank = ledger.bank.burn ext.gravityModule ⟨origin.denom, batch.total⟩ held)
  finished : Finished ext ledger.outgoing batch next.outgoing

theorem Outgoing.WellFormed.outgoingTxBatchExecuted (wellFormed : WellFormed ext ledger.outgoing)
    {token : EthAddress}
    (executed : ledger.outgoingTxBatchExecuted ext params token claim = .ok next) :
    ∃ batch, ledger.outgoing.batches.get (getOutgoingTxBatchKey token claim.batchNonce.val) =
      some batch ∧
      claim.ethBlockHeight.val < batch.batchTimeout ∧ Executed ext ledger batch next := by
  simp only [Ledger.outgoingTxBatchExecuted, wellFormed.getOutgoingTXBatch_eq, bind_eq_ok,
    unwrap_eq_ok, check_eq_ok, orPanic_eq_ok, pure_eq_ok] at executed
  obtain ⟨batch, found, _, inTime, origin, classified, bank, paid, middle, cancelled, rfl⟩ := executed
  obtain ⟨rfl, nonce⟩ : token = batch.tokenContract ∧ claim.batchNonce.val = batch.batchNonce := by
    simpa [getOutgoingTxBatchKey] using wellFormed.batchKeys _ _ found
  obtain ⟨_, ran, finished⟩ := wellFormed.finish (mem_values.mpr ⟨_, found⟩)
  rw [ran, Outgoing.announcing_eq_ok] at cancelled
  obtain ⟨-, rfl⟩ := cancelled
  refine ⟨batch, found, inTime, rfl, ⟨origin, classified, fun cosmos => ?_, fun ethereum => ?_⟩,
    finished⟩
  · simp only [Ledger.burnVouchers, cosmos, pure_eq_ok] at paid
    exact paid.symm
  · simp only [Ledger.burnVouchers, ethereum, bind_eq_ok, newCoin_eq_ok, Bank.burnCoins_eq_ok,
      orPanic_eq_ok] at paid
    obtain ⟨_, ⟨_, amount, read, rfl⟩, held, rfl⟩ := paid
    obtain rfl : batch.total = amount := by simpa using read
    exact ⟨held, rfl⟩

/-- A stored batch whose token is classified and whose vouchers are held can be executed. -/
theorem Outgoing.WellFormed.outgoingTxBatchExecuted_succeeds
    (wellFormed : WellFormed ext ledger.outgoing)
    (named : params.NamesBridge) (stored : batch ∈ ledger.outgoing.batches.values)
    (nonce : claim.batchNonce.val = batch.batchNonce)
    (inTime : claim.ethBlockHeight.val < batch.batchTimeout) {origin : AssetOrigin}
    (classified : ledger.classifyERC20 ext batch.tokenContract = .ok origin)
    (held : origin.origin = .ethereum →
      batch.total ≤ ledger.bank.balances ext.gravityModule origin.denom) :
    ∃ next, ledger.outgoingTxBatchExecuted ext params batch.tokenContract claim = .ok next := by
  obtain ⟨middle, ran, _⟩ := wellFormed.finish stored
  have ran := ran.trans (Outgoing.announcing_eq_ok.mpr ⟨fun _ => named, rfl⟩)
  have found := wellFormed.mem_batches.mp stored
  have paid : ∃ bank, ledger.burnVouchers ext origin batch.total = .ok bank := by
    cases chain : origin.origin with
    | cosmos => exact ⟨ledger.bank, by simp [Ledger.burnVouchers, chain]⟩
    | ethereum =>
      have valid : sdkValidateDenom origin.denom = true := by
        cases mapped : ledger.registry.erc20ToDenom.get batch.tokenContract with
        | some denom =>
          obtain ⟨_, rfl⟩ := (classifyERC20_mapped mapped).mp classified
          contradiction
        | none =>
          obtain ⟨_, rfl⟩ := (classifyERC20_unmapped mapped).mp classified
          exact sdkValidateDenom_voucherDenom
      refine ⟨ledger.bank.burn ext.gravityModule ⟨origin.denom, batch.total⟩ (held chain), ?_⟩
      simp only [Ledger.burnVouchers, chain, bind_eq_ok, newCoin_eq_ok, orPanic_eq_ok,
        Bank.burnCoins_eq_ok]
      exact ⟨_, ⟨valid, batch.total, rfl, rfl⟩, held chain, rfl⟩
  obtain ⟨bank, paid⟩ := paid
  refine ⟨{ ledger with
    bank := bank
    outgoing := (middle.deleteBatch batch).deleteBatchConfirms ext batch }, ?_⟩
  simp only [Ledger.outgoingTxBatchExecuted, wellFormed.getOutgoingTXBatch_eq, bind_eq_ok,
    unwrap_eq_ok, check_eq_ok, orPanic_eq_ok, pure_eq_ok]
  exact ⟨batch, by rw [nonce]; exact found, (), inTime, origin, classified, bank, paid,
    middle, ran, rfl⟩

end GravityBridge.Keeper
