import GravityBridge.Keeper.Batch

/-!
# Every transfer is in one place

A well-formed store holds each outgoing transfer once, in the pool or in one
batch, under the key made from its own fields. The operations of the module move
transfers between the two and take finished ones out; they never copy one.
-/

namespace GravityBridge.Keeper

open Lib.Fallible Lib.ByteString Lib.Store
open GravityBridge.Types List KVStore

namespace Outgoing

/-- The transfers that the module still owes, batched or not. -/
def carried (outgoing : Outgoing) : List OutgoingTransferTx :=
  outgoing.pool.values ++ outgoing.batches.values.flatMap OutgoingTxBatch.transactions

/-- The confirm's own fields give the key it is stored under. -/
def ConfirmKeyed (ext : External) (key : ConfirmKey) (confirm : MsgConfirmBatch) : Prop :=
  ∃ token orchestrator, accAddressFromBech32 ext confirm.orchestrator = .ok orchestrator ∧
    key = getBatchConfirmKey token confirm.nonce.val orchestrator

structure WellFormed (ext : External) (outgoing : Outgoing) : Prop where
  poolKeys : ∀ key tx, outgoing.pool.get key = some tx → key = getOutgoingTxPoolKey tx.erc20Fee tx.id
  batchKeys : ∀ key batch, outgoing.batches.get key = some batch →
    key = getOutgoingTxBatchKey batch.tokenContract batch.batchNonce
  batchContracts : ∀ batch ∈ outgoing.batches.values, ∀ tx ∈ batch.transactions,
    tx.erc20Token.contract = batch.tokenContract
  nonceBound : ∀ batch ∈ outgoing.batches.values, batch.batchNonce ≤ outgoing.lastOutgoingBatchID
  confirmKeys : ∀ key confirm, outgoing.batchConfirms.get key = some confirm →
    ConfirmKeyed ext key confirm
  contracts : ∀ tx ∈ outgoing.carried, tx.erc20Fee.contract = tx.erc20Token.contract
  ids : (outgoing.carried.map OutgoingTransferTx.id).Nodup
  idBound : ∀ tx ∈ outgoing.carried, tx.id ≤ outgoing.lastTXPoolID

variable {ext : External} {outgoing next : Outgoing}

variable {batch : OutgoingTxBatch} {tx : OutgoingTransferTx} {fee : ERC20Token}
  {txs : List OutgoingTransferTx} {token : EthAddress} {nonce : Nat} {params : Params}
  {victims : List OutgoingTxBatch}

section

variable (wellFormed : WellFormed ext outgoing)

include wellFormed

theorem WellFormed.mem_batches : batch ∈ outgoing.batches.values ↔
      outgoing.batches.get (getOutgoingTxBatchKey batch.tokenContract batch.batchNonce) =
        some batch := by
  rw [mem_values]
  constructor
  · rintro ⟨key, found⟩
    rwa [← wellFormed.batchKeys key batch found]
  · intro found
    exact ⟨_, found⟩

theorem WellFormed.mem_pool :
    tx ∈ outgoing.pool.values ↔ outgoing.pool.get (getOutgoingTxPoolKey tx.erc20Fee tx.id) =
      some tx := by
  rw [mem_values]
  constructor
  · rintro ⟨key, found⟩
    rwa [← wellFormed.poolKeys key tx found]
  · intro found
    exact ⟨_, found⟩

/-- Loading a stored batch returns it as it was stored. -/
theorem WellFormed.getOutgoingTXBatch_eq (token : EthAddress) (nonce : Nat) :
    outgoing.getOutgoingTXBatch token nonce =
      outgoing.batches.get (getOutgoingTxBatchKey token nonce) := by
  unfold getOutgoingTXBatch
  cases found : outgoing.batches.get (getOutgoingTxBatchKey token nonce) with
  | none => rfl
  | some batch =>
    have keyed := wellFormed.batchKeys _ _ found
    obtain ⟨rfl, rfl⟩ : token = batch.tokenContract ∧ nonce = batch.batchNonce := by
      simpa [getOutgoingTxBatchKey] using keyed
    have stored := wellFormed.mem_batches.mpr found
    have same : ∀ tx ∈ batch.transactions, ({ tx with
        erc20Token := ⟨batch.tokenContract, tx.erc20Token.amount⟩
        erc20Fee := ⟨batch.tokenContract, tx.erc20Fee.amount⟩ } : OutgoingTransferTx) = tx := by
      intro tx member
      have inCarried : tx ∈ outgoing.carried :=
        mem_append_right _ (mem_flatMap.mpr ⟨batch, stored, member⟩)
      have token := wellFormed.batchContracts batch stored tx member
      have fee := wellFormed.contracts tx inCarried
      rcases tx with ⟨id, sender, destAddress, ⟨contract, amount⟩, ⟨feeContract, feeAmount⟩⟩
      simp only at token fee
      rw [token] at fee
      rw [token, fee]
    simp only [Option.map_some, Option.some.injEq]
    rw [map_congr_left same, map_id']

/-- A store that lost some transfers, and none of whose entries moved to a foreign key, is
still well formed. -/
theorem WellFormed.of_perm (gone : List OutgoingTransferTx)
    (moved : outgoing.carried.Perm (gone ++ next.carried))
    (poolKeys : ∀ key tx, next.pool.get key = some tx → key = getOutgoingTxPoolKey tx.erc20Fee tx.id)
    (batchKeys : ∀ key batch, next.batches.get key = some batch →
      key = getOutgoingTxBatchKey batch.tokenContract batch.batchNonce)
    (batchContracts : ∀ batch ∈ next.batches.values, ∀ tx ∈ batch.transactions,
      tx.erc20Token.contract = batch.tokenContract)
    (nonceBound : ∀ batch ∈ next.batches.values, batch.batchNonce ≤ next.lastOutgoingBatchID)
    (confirmKeys : ∀ key confirm, next.batchConfirms.get key = some confirm →
      ConfirmKeyed ext key confirm)
    (sameCounter : next.lastTXPoolID = outgoing.lastTXPoolID) : WellFormed ext next where
  poolKeys := poolKeys
  batchKeys := batchKeys
  batchContracts := batchContracts
  nonceBound := nonceBound
  confirmKeys := confirmKeys
  contracts tx member := wellFormed.contracts tx (moved.mem_iff.mpr (mem_append_right _ member))
  ids := by
    have nodup := (moved.map OutgoingTransferTx.id).nodup_iff.mp wellFormed.ids
    rw [map_append] at nodup
    exact (nodup_append.mp nodup).2.1
  idBound tx member := by
    rw [sameCounter]
    exact wellFormed.idBound tx (moved.mem_iff.mpr (mem_append_right _ member))

end

/-! ## The pool -/

theorem addUnbatchedTX_eq_ok : outgoing.addUnbatchedTX tx = .ok next ↔
      outgoing.pool.get (getOutgoingTxPoolKey tx.erc20Fee tx.id) = none ∧
      { outgoing with pool := outgoing.pool.set (getOutgoingTxPoolKey tx.erc20Fee tx.id) tx } =
        next := by
  simp [addUnbatchedTX]

theorem removeUnbatchedTX_eq_ok {id : Nat} : outgoing.removeUnbatchedTX fee id = .ok next ↔
      (∃ tx, outgoing.pool.get (getOutgoingTxPoolKey fee id) = some tx) ∧
      { outgoing with pool := outgoing.pool.delete (getOutgoingTxPoolKey fee id) } = next := by
  simp [removeUnbatchedTX, Option.isSome_iff_exists]

/-- What a run of additions to the pool does. -/
structure Added (outgoing : Outgoing) (txs : List OutgoingTransferTx) (next : Outgoing) : Prop where
  frame : next = { outgoing with pool := next.pool }
  values : next.pool.values.Perm (txs ++ outgoing.pool.values)
  keyed : ∀ key tx, next.pool.get key = some tx →
    outgoing.pool.get key = some tx ∨ (tx ∈ txs ∧ key = getOutgoingTxPoolKey tx.erc20Fee tx.id)

theorem foldlM_addUnbatchedTX {message : String}
    (ran : txs.foldlM (fun current tx => orPanic message (current.addUnbatchedTX tx)) outgoing =
      .ok next) :
    Added outgoing txs next := by
  induction txs generalizing outgoing with
  | nil =>
    obtain rfl : outgoing = next := by simpa using ran
    exact ⟨rfl, List.Perm.refl _, fun key tx found => .inl found⟩
  | cons tx rest ih =>
    simp only [foldlM_cons, bind_eq_ok, orPanic_eq_ok, addUnbatchedTX_eq_ok] at ran
    obtain ⟨middle, ⟨fresh, rfl⟩, ran⟩ := ran
    have tail := ih ran
    refine ⟨by simpa using tail.frame, ?_, ?_⟩
    · refine tail.values.trans ?_
      refine ((values_set_perm tx fresh).append_left rest).trans ?_
      exact perm_middle
    · intro key found inNext
      rcases tail.keyed key found inNext with earlier | ⟨member, keyed⟩
      · rw [get_set] at earlier
        split_ifs at earlier with same
        · obtain rfl := Option.some.inj earlier
          exact .inr ⟨mem_cons_self, same⟩
        · exact .inl earlier
      · exact .inr ⟨mem_cons_of_mem _ member, keyed⟩

/-! ## Confirms -/

/-- The confirms stored for one batch. -/
def confirmsOf (token : EthAddress) (nonce : Nat) (key : ConfirmKey) : Prop :=
  (ofLex key).1 = token ∧ (ofLex (ofLex key).2).1 = nonce

theorem confirmsOf_key {orchestrator : AccAddress} :
    confirmsOf token nonce (getBatchConfirmKey token nonce orchestrator) := ⟨rfl, rfl⟩

/-- Deleting a list of confirms touches only the keys made from them. -/
theorem foldl_deleteConfirm (ext : External) (outgoing : Outgoing) (batch : OutgoingTxBatch)
    (confirms : List MsgConfirmBatch) :
    let result := confirms.foldl (fun current confirm =>
      match accAddressFromBech32 ext confirm.orchestrator with
      | .ok orchestrator => { current with
          batchConfirms := current.batchConfirms.delete
            (getBatchConfirmKey batch.tokenContract batch.batchNonce orchestrator) }
      | .error _ => current) outgoing
    result = { outgoing with batchConfirms := result.batchConfirms } ∧
    ∀ key, (result.batchConfirms.get key = outgoing.batchConfirms.get key ∧
        ∀ confirm ∈ confirms, ∀ orchestrator, accAddressFromBech32 ext confirm.orchestrator =
          .ok orchestrator →
          key ≠ getBatchConfirmKey batch.tokenContract batch.batchNonce orchestrator) ∨
      (result.batchConfirms.get key = none ∧
        confirmsOf batch.tokenContract batch.batchNonce key) := by
  induction confirms generalizing outgoing with
  | nil => exact ⟨rfl, fun key => .inl ⟨rfl, by simp⟩⟩
  | cons confirm rest ih =>
    rw [foldl_cons]
    cases read : accAddressFromBech32 ext confirm.orchestrator with
    | error fault =>
      obtain ⟨frame, keys⟩ := ih outgoing
      refine ⟨frame, fun key => (keys key).imp_left (fun ⟨same, others⟩ => ⟨same, ?_⟩)⟩
      intro other member orchestrator found
      rcases mem_cons.mp member with rfl | tail
      · rw [read] at found
        contradiction
      · exact others other tail orchestrator found
    | ok orchestrator =>
      obtain ⟨frame, keys⟩ := ih ({ outgoing with
        batchConfirms := outgoing.batchConfirms.delete
          (getBatchConfirmKey batch.tokenContract batch.batchNonce orchestrator) })
      refine ⟨by simpa using frame, fun key => ?_⟩
      rcases keys key with ⟨same, others⟩ | deleted
      · rw [get_delete] at same
        split_ifs at same with here
        · exact .inr ⟨same, here ▸ confirmsOf_key⟩
        · refine .inl ⟨same, fun other member found parsed => ?_⟩
          rcases mem_cons.mp member with rfl | tail
          · rw [read] at parsed
            exact Except.ok.inj parsed ▸ here
          · exact others other tail found parsed
      · exact .inr deleted

theorem deleteBatchConfirms_frame (ext : External) (outgoing : Outgoing) (batch : OutgoingTxBatch) :
    outgoing.deleteBatchConfirms ext batch =
      { outgoing with batchConfirms := (outgoing.deleteBatchConfirms ext batch).batchConfirms } :=
  (foldl_deleteConfirm ext outgoing batch _).1

/-- Exactly the confirms of the batch are deleted. -/
theorem deleteBatchConfirms_get (outgoing : Outgoing) (batch : OutgoingTxBatch) (key : ConfirmKey)
    (confirmKeys : ∀ key confirm, outgoing.batchConfirms.get key = some confirm →
      ConfirmKeyed ext key confirm) :
    (confirmsOf batch.tokenContract batch.batchNonce key →
      (outgoing.deleteBatchConfirms ext batch).batchConfirms.get key = none) ∧
    (¬ confirmsOf batch.tokenContract batch.batchNonce key →
      (outgoing.deleteBatchConfirms ext batch).batchConfirms.get key =
        outgoing.batchConfirms.get key) := by
  rcases (foldl_deleteConfirm ext outgoing batch
    (outgoing.getBatchConfirmByNonceAndTokenContract batch.batchNonce batch.tokenContract)).2 key
    with ⟨same, others⟩ | ⟨deleted, inside⟩
  · refine ⟨fun inside => ?_, fun _ => same⟩
    refine Eq.trans same ?_
    by_contra occupied
    obtain ⟨confirm, found⟩ := Option.ne_none_iff_exists'.mp occupied
    obtain ⟨token, orchestrator, parsed, keyed⟩ := confirmKeys key confirm found
    have listed : confirm ∈ outgoing.getBatchConfirmByNonceAndTokenContract batch.batchNonce
        batch.tokenContract := by
      refine mem_values.mpr ⟨key, ?_⟩
      rw [get_filter, found]
      simp [Option.filter, inside.1, inside.2]
    refine others confirm listed orchestrator parsed ?_
    rw [keyed] at inside ⊢
    rw [← inside.1, ← inside.2]
    rfl
  · exact ⟨fun _ => deleted, fun outside => absurd inside outside⟩

theorem deleteBatchConfirms_sub (outgoing : Outgoing) (batch : OutgoingTxBatch)
    (confirmKeys : ∀ key confirm, outgoing.batchConfirms.get key = some confirm →
      ConfirmKeyed ext key confirm) {key : ConfirmKey} {confirm : MsgConfirmBatch}
    (found : (outgoing.deleteBatchConfirms ext batch).batchConfirms.get key = some confirm) :
    outgoing.batchConfirms.get key = some confirm := by
  obtain ⟨inside, outside⟩ := deleteBatchConfirms_get outgoing batch key confirmKeys
  by_cases here : confirmsOf batch.tokenContract batch.batchNonce key
  · rw [inside here] at found
    contradiction
  · rwa [outside here] at found

/-! ## Cancelling batches -/

theorem getOutgoingTxPoolKey_id {other : ERC20Token} {id number : Nat}
    (same : getOutgoingTxPoolKey fee id = getOutgoingTxPoolKey other number) : id = number :=
  congrArg (fun key : PoolKey => (ofLex (ofLex key).2).2) same

theorem foldlM_addUnbatchedTX_succeeds (message : String)
    (fresh : ∀ tx ∈ txs, outgoing.pool.get (getOutgoingTxPoolKey tx.erc20Fee tx.id) = none)
    (distinct : (txs.map OutgoingTransferTx.id).Nodup) :
    ∃ next, txs.foldlM (fun current tx => orPanic message (current.addUnbatchedTX tx)) outgoing =
      .ok next := by
  induction txs generalizing outgoing with
  | nil => exact ⟨outgoing, rfl⟩
  | cons tx rest ih =>
    obtain ⟨notInRest, restDistinct⟩ := nodup_cons.mp distinct
    have added := addUnbatchedTX_eq_ok.mpr ⟨fresh tx mem_cons_self, rfl⟩
    have freshRest : ∀ other ∈ rest,
    (outgoing.pool.set (getOutgoingTxPoolKey tx.erc20Fee tx.id) tx).get
        (getOutgoingTxPoolKey other.erc20Fee other.id) = none := by
      intro other member
      rw [get_set, if_neg]
      · exact fresh other (mem_cons_of_mem _ member)
      · intro same
        exact notInRest (getOutgoingTxPoolKey_id same ▸ mem_map_of_mem member)
    obtain ⟨next, ran⟩ := @ih ({ outgoing with
      pool := outgoing.pool.set (getOutgoingTxPoolKey tx.erc20Fee tx.id) tx }) freshRest restDistinct
    refine ⟨next, ?_⟩
    simp only [foldlM_cons, bind_eq_ok, orPanic_eq_ok]
    exact ⟨_, added, ran⟩

/-- The effect of cancelling some stored batches. -/
structure Cancelled (ext : External) (outgoing : Outgoing) (victims : List OutgoingTxBatch)
    (next : Outgoing) : Prop where
  counters : next.lastTXPoolID = outgoing.lastTXPoolID ∧
    next.lastOutgoingBatchID = outgoing.lastOutgoingBatchID
  pool : next.pool.values.Perm (victims.flatMap OutgoingTxBatch.transactions ++ outgoing.pool.values)
  stored : outgoing.batches.values.Perm (victims ++ next.batches.values)
  confirms : ∀ key, ((∃ batch ∈ victims, confirmsOf batch.tokenContract batch.batchNonce key) →
      next.batchConfirms.get key = none) ∧
    ((∀ batch ∈ victims, ¬ confirmsOf batch.tokenContract batch.batchNonce key) →
      next.batchConfirms.get key = outgoing.batchConfirms.get key)
  wellFormed : WellFormed ext next

/-- The keys of a batch's transfers are free in the pool, and differ from each other. -/
theorem WellFormed.fresh_of_stored (wellFormed : WellFormed ext outgoing)
    (stored : batch ∈ outgoing.batches.values) :
    (∀ tx ∈ batch.transactions, outgoing.pool.get (getOutgoingTxPoolKey tx.erc20Fee tx.id) = none) ∧
    (batch.transactions.map OutgoingTransferTx.id).Nodup := by
  have ids := wellFormed.ids
  rw [carried, map_append] at ids
  obtain ⟨_, batched, disjoint⟩ := nodup_append.mp ids
  refine ⟨fun tx member => ?_, ?_⟩
  · by_contra occupied
    obtain ⟨other, found⟩ := Option.ne_none_iff_exists'.mp occupied
    refine disjoint other.id (mem_map_of_mem (mem_values.mpr ⟨_, found⟩)) tx.id ?_ ?_
    · exact mem_map_of_mem (mem_flatMap.mpr ⟨batch, stored, member⟩)
    · exact (getOutgoingTxPoolKey_id (wellFormed.poolKeys _ _ found)).symm
  · rw [map_flatMap] at batched
    exact (nodup_flatMap.mp batched).1 batch stored

/-- Every cancelled batch is announced: the address must parse unless there is none. -/
def announcing (params : Params) (victims : List OutgoingTxBatch) (next : Outgoing) : Go Outgoing :=
  if victims = [] then pure next
  else do
    let _ ← params.getBridgeContractAddress
    pure next

theorem announcing_eq_ok {result : Outgoing} :
    announcing params victims next = .ok result ↔ (victims ≠ [] → params.NamesBridge) ∧
      next = result := by
  unfold announcing
  split_ifs with none
  · simp [none]
  · simp [none, ← getBridgeContractAddress_eq_ok]

/-- What is announced either succeeds or panics, so wrapping errors changes nothing. -/
theorem wrap_announcing :
    (∀ message, orPanic message (announcing params victims next) = announcing params victims next) ∧
      ∀ cause, rewrap cause (announcing params victims next) = announcing params victims next := by
  unfold announcing
  split_ifs
  · exact ⟨fun _ => rfl, fun _ => rfl⟩
  · rcases parsed : params.getBridgeContractAddress with ⟨_ | _⟩ | address
    · exact absurd parsed (orPanic_ne_error _ _)
    · exact ⟨fun _ => rfl, fun _ => rfl⟩
    · exact ⟨fun _ => rfl, fun _ => rfl⟩

/-- A stored batch can always be cancelled, up to the event. -/
theorem WellFormed.cancelOutgoingTXBatch (wellFormed : WellFormed ext outgoing)
    (stored : batch ∈ outgoing.batches.values) (params : Params) :
    ∃ next, outgoing.cancelOutgoingTXBatch ext params batch.tokenContract batch.batchNonce =
        announcing params [batch] next ∧ Cancelled ext outgoing [batch] next := by
  have found := wellFormed.mem_batches.mp stored
  obtain ⟨fresh, distinct⟩ := wellFormed.fresh_of_stored stored
  obtain ⟨restored, ran⟩ := foldlM_addUnbatchedTX_succeeds
    "unable to add batched transaction back into pool" fresh distinct
  have added := foldlM_addUnbatchedTX ran
  have frame := added.frame
  refine ⟨(restored.deleteBatch batch).deleteBatchConfirms ext batch, ?_, ?_⟩
  · simp only [Outgoing.cancelOutgoingTXBatch, wellFormed.getOutgoingTXBatch_eq, found, fromOption,
      ok_bind, ran]
    rfl
  have confirmFrame := deleteBatchConfirms_frame ext (restored.deleteBatch batch) batch
  have keyed : ∀ key confirm, (restored.deleteBatch batch).batchConfirms.get key = some confirm →
      ConfirmKeyed ext key confirm := by
    rw [frame]
    exact wellFormed.confirmKeys
  have batches : ((restored.deleteBatch batch).deleteBatchConfirms ext batch).batches =
      outgoing.batches.delete (getOutgoingTxBatchKey batch.tokenContract batch.batchNonce) := by
    rw [confirmFrame, frame]
    rfl
  have pool : ((restored.deleteBatch batch).deleteBatchConfirms ext batch).pool = restored.pool := by
    rw [confirmFrame]
    rfl
  have remaining := values_delete_perm found
  have counters : ((restored.deleteBatch batch).deleteBatchConfirms ext batch).lastTXPoolID =
      outgoing.lastTXPoolID ∧
      ((restored.deleteBatch batch).deleteBatchConfirms ext batch).lastOutgoingBatchID =
      outgoing.lastOutgoingBatchID := by
    rw [confirmFrame, frame]
    exact ⟨rfl, rfl⟩
  have stillStored : ∀ other, other ∈ (outgoing.batches.delete
      (getOutgoingTxBatchKey batch.tokenContract batch.batchNonce)).values →
      other ∈ outgoing.batches.values :=
    fun other member => remaining.mem_iff.mpr (mem_cons_of_mem _ member)
  refine ⟨counters, by rw [pool]; simpa using added.values, by rw [batches]; exact remaining, ?_, ?_⟩
  · intro key
    obtain ⟨inside, outside⟩ := deleteBatchConfirms_get (restored.deleteBatch batch) batch key keyed
    refine ⟨by simpa using inside, fun others => ?_⟩
    rw [outside (others batch (mem_singleton_self _)), frame]
    rfl
  · refine wellFormed.of_perm [] ?_ ?_ ?_ ?_ ?_ ?_ counters.1
    · rw [carried, carried, pool, batches, nil_append]
      refine ((remaining.flatMap_right _).append_left _).trans ?_
      rw [flatMap_cons, ← append_assoc]
      exact (perm_append_comm.trans added.values.symm).append_right _
    · intro key tx inPool
      rw [pool] at inPool
      rcases added.keyed key tx inPool with earlier | ⟨_, keyed⟩
      · exact wellFormed.poolKeys key tx earlier
      · exact keyed
    · intro key other inBatches
      rw [batches, get_delete] at inBatches
      split_ifs at inBatches
      exact wellFormed.batchKeys key other inBatches
    · rw [batches]
      exact fun other member => wellFormed.batchContracts other (stillStored other member)
    · rw [batches, counters.2]
      exact fun other member => wellFormed.nonceBound other (stillStored other member)
    · exact fun key confirm inConfirms =>
        keyed key confirm (deleteBatchConfirms_sub _ batch keyed inConfirms)

theorem Cancelled.refl (wellFormed : WellFormed ext outgoing) :
    Cancelled ext outgoing [] outgoing where
  counters := ⟨rfl, rfl⟩
  pool := List.Perm.refl _
  stored := List.Perm.refl _
  confirms key := ⟨by simp, fun _ => rfl⟩
  wellFormed := wellFormed

theorem Cancelled.cons {middle : Outgoing} {rest : List OutgoingTxBatch}
    (first : Cancelled ext outgoing [batch] middle) (others : Cancelled ext middle rest next) :
    Cancelled ext outgoing (batch :: rest) next where
  counters := ⟨others.counters.1.trans first.counters.1, others.counters.2.trans first.counters.2⟩
  pool := by
    refine others.pool.trans ((first.pool.append_left _).trans ?_)
    rw [flatMap_cons, flatMap_cons, flatMap_nil, append_nil, ← append_assoc]
    exact perm_append_comm.append_right _
  stored := first.stored.trans (others.stored.cons batch)
  confirms key := by
    obtain ⟨deleted, kept⟩ := first.confirms key
    obtain ⟨restDeleted, restKept⟩ := others.confirms key
    constructor
    · rintro ⟨victim, member, inside⟩
      by_cases inRest : ∃ other ∈ rest, confirmsOf other.tokenContract other.batchNonce key
      · exact restDeleted inRest
      · rw [restKept (fun other member here => inRest ⟨other, member, here⟩)]
        rcases mem_cons.mp member with rfl | tail
        · exact deleted ⟨_, mem_singleton_self _, inside⟩
        · exact absurd ⟨victim, tail, inside⟩ inRest
    · intro outside
      rw [restKept (fun other member => outside other (mem_cons_of_mem _ member))]
      exact kept (fun other member => outside other (by simp_all))
  wellFormed := others.wellFormed

/-- Stored batches can be cancelled one after the other. -/
theorem WellFormed.foldlM_cancel (wellFormed : WellFormed ext outgoing)
    {body : Outgoing → OutgoingTxBatch → Go Outgoing} (cancels : ∀ batch ∈ victims, ∀ current next,
      current.cancelOutgoingTXBatch ext params batch.tokenContract batch.batchNonce =
        announcing params [batch] next →
      body current batch = announcing params [batch] next)
    (stored : ∀ batch ∈ victims, batch ∈ outgoing.batches.values) (distinct : victims.Nodup) :
    ∃ next, victims.foldlM body outgoing = announcing params victims next ∧
      Cancelled ext outgoing victims next := by
  induction victims generalizing outgoing with
  | nil => exact ⟨outgoing, rfl, Cancelled.refl wellFormed⟩
  | cons batch rest ih =>
    obtain ⟨notInRest, restDistinct⟩ := nodup_cons.mp distinct
    obtain ⟨middle, cancelled, first⟩ :=
      wellFormed.cancelOutgoingTXBatch (stored batch mem_cons_self) params
    have restStored : ∀ other ∈ rest, other ∈ middle.batches.values := by
      intro other member
      have inStore := first.stored.mem_iff.mp (stored other (mem_cons_of_mem _ member))
      rcases mem_cons.mp inStore with rfl | tail
      · exact absurd member notInRest
      · exact tail
    obtain ⟨next, ran, others⟩ := ih first.wellFormed
      (fun other member => cancels other (mem_cons_of_mem _ member)) restStored restDistinct
    refine ⟨next, ?_, first.cons others⟩
    rw [foldlM_cons, cancels batch mem_cons_self outgoing middle cancelled, announcing, announcing,
      if_neg (cons_ne_nil _ _), if_neg (cons_ne_nil _ _)]
    -- the address either parses for every batch or stops the first one
    rcases parsed : params.getBridgeContractAddress with _ | address
    · rfl
    · rw [ok_bind]
      exact ran.trans (by simp [announcing, parsed])

theorem WellFormed.values_nodup (wellFormed : WellFormed ext outgoing) :
    outgoing.batches.values.Nodup :=
  List.Nodup.of_map _ (nodup_of_keyed wellFormed.batchKeys)

/-- The stored batches of a token below a nonce, in the order in which they are visited. -/
def earlier (outgoing : Outgoing) (tokenContract : EthAddress) (nonce : Nat) : List OutgoingTxBatch :=
  outgoing.getOutgoingTxBatches.filter (fun batch =>
    batch.batchNonce < nonce ∧ batch.tokenContract = tokenContract)

theorem mem_earlier : batch ∈ outgoing.earlier token nonce ↔
      batch ∈ outgoing.batches.values ∧ batch.batchNonce < nonce ∧ batch.tokenContract = token := by
  simp [earlier, getOutgoingTxBatches]

theorem WellFormed.cancelEarlier (wellFormed : WellFormed ext outgoing) (params : Params)
    (token : EthAddress) (nonce : Nat) :
    ∃ next, outgoing.cancelEarlier ext params token nonce =
        announcing params (outgoing.earlier token nonce) next ∧
      Cancelled ext outgoing (outgoing.earlier token nonce) next := by
  obtain ⟨next, ran, cancelled⟩ := wellFormed.foldlM_cancel
    (fun batch _ current next cancelled =>
      (congrArg (orPanic "Failed cancel out batch") cancelled).trans (wrap_announcing.1 _))
    (fun batch member => (mem_earlier.mp member).1)
    ((nodup_reverse.mpr wellFormed.values_nodup).filter _)
  refine ⟨next, ?_, cancelled⟩
  rw [← ran, earlier, foldlM_filter]
  unfold Outgoing.cancelEarlier
  congr 1
  funext current batch
  by_cases here : batch.batchNonce < nonce ∧ batch.tokenContract = token
  · simp [here]
  · simp [here]

end Outgoing

end GravityBridge.Keeper
