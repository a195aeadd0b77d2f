import GravityBridge.Keeper.Custody
import GravityBridge.Keeper.Params

/-!
# Cancelling everything of a token

The recovery upgrade cancels the batches of a token, which puts their transfers back into the
pool, and then refunds the pool entries of the token one by one. Both calls emit an event that
names the bridge contract, which the parameters may leave unset. Only the confirms of the
cancelled batches are deleted: a confirm whose batch is gone stays.
-/

namespace GravityBridge.Keeper

open Lib.Fallible Lib.ByteString Lib.Store Lib.Runs
open GravityBridge.Types List KVStore

open Outgoing (WellFormed Cancelled confirmsOf)

/-! ## Source -/

section

variable (ext : External) (params : Params)

/-- The batches of a token, in the order in which they are visited. -/
def Outgoing.batchesOf (outgoing : Outgoing) (tokenContract : EthAddress) : List OutgoingTxBatch :=
  outgoing.getOutgoingTxBatches.filter (fun batch => batch.tokenContract = tokenContract)

/-- The totals are only logged, but they are added up in integers of 256 bits. -/
def Ledger.cancelAllOutgoingTxsForContract (ledger : Ledger) (tokenContract : EthAddress) :
    Go Ledger := do
  let batches := ledger.outgoing.batchesOf tokenContract
  check ((batches.map OutgoingTxBatch.total).sum < 2 ^ 256) "Int overflow"
  let outgoing ← (batches.map OutgoingTxBatch.batchNonce).foldlM (fun current nonce =>
    rewrap ⟨.unknown, "recovery: failed to cancel batch"⟩
      (current.cancelOutgoingTXBatch ext params tokenContract nonce)) ledger.outgoing
  let pending := outgoing.getUnbatchedTransactionsByContract tokenContract
  check ((pending.map OutgoingTransferTx.total).sum < 2 ^ 256) "Int overflow"
  (pending.map fun tx => (tx.id, tx.sender)).foldlM (fun current entry =>
    rewrap ⟨.invalid, "recovery: failed to refund tx"⟩
      (current.removeFromOutgoingPoolAndRefund ext params entry.1 entry.2))
        { ledger with outgoing := outgoing }

end

/-! ## States -/

/-- The transfers of a token, batched or not. -/
def Outgoing.carriedOf (outgoing : Outgoing) (token : EthAddress) : List OutgoingTransferTx :=
  outgoing.carried.filter (fun tx => tx.erc20Token.contract = token)

/-- What a list of transfers has locked for an account. -/
def lockedBy (txs : List OutgoingTransferTx) (account : AccAddress) : Nat :=
  ((txs.filter (fun tx => tx.sender = account)).map OutgoingTransferTx.total).sum

/-- Every transfer is in one place, as it was issued. -/
structure Conserved (ext : External) (outgoing : Outgoing) : Prop where
  wellFormed : WellFormed ext outgoing
  issued : ∀ tx ∈ outgoing.carried, 1 ≤ tx.id ∧ verifyAddressFormat tx.sender = .ok () ∧ 0 < tx.total

/-- Every confirm of the token is for a stored batch. -/
def Outgoing.NoOrphanedConfirm (outgoing : Outgoing) (token : EthAddress) : Prop :=
  ∀ nonce validator confirm,
    outgoing.batchConfirms.get (getBatchConfirmKey token nonce validator) = some confirm →
      ∃ batch, outgoing.batches.get (getOutgoingTxBatchKey token nonce) = some batch

/-- What the bank module keeps: coins of well-formed denoms, in integers of 256 bits. -/
structure Bank.WellKept (bank : Bank) : Prop where
  denoms : ∀ account denom, 0 < bank.balances account denom → sdkValidateDenom denom = true
  fits : ∀ account denom, bank.balances account denom < 2 ^ 256

/-- Nothing of the token is left, its transfers were refunded in a denom, and everything else is as
it was. -/
structure Recovered (ext : External) (ledger : Ledger) (token : EthAddress) (denom : Denom)
    (next : Ledger) : Prop where
  noBatch : ∀ nonce, next.outgoing.batches.get (getOutgoingTxBatchKey token nonce) = none
  noConfirm : ∀ nonce validator, next.outgoing.batchConfirms.get
    (getBatchConfirmKey token nonce validator) = none
  noPoolEntry : ∀ fee id, next.outgoing.pool.get (getOutgoingTxPoolKey ⟨token, fee⟩ id) = none
  received : ∀ account, account ≠ ext.gravityModule → next.bank.balances account denom =
    ledger.bank.balances account denom + lockedBy (ledger.outgoing.carriedOf token) account
  paid : next.bank.balances ext.gravityModule denom +
    ((ledger.outgoing.carriedOf token).map OutgoingTransferTx.total).sum =
      ledger.bank.balances ext.gravityModule denom
  otherBatches : ∀ other nonce, other ≠ token →
    next.outgoing.batches.get (getOutgoingTxBatchKey other nonce) =
    ledger.outgoing.batches.get (getOutgoingTxBatchKey other nonce)
  otherConfirms : ∀ other nonce validator, other ≠ token →
    next.outgoing.batchConfirms.get (getBatchConfirmKey other nonce validator) =
      ledger.outgoing.batchConfirms.get (getBatchConfirmKey other nonce validator)
  otherPoolEntries : ∀ other fee id, other ≠ token →
    next.outgoing.pool.get (getOutgoingTxPoolKey ⟨other, fee⟩ id) =
    ledger.outgoing.pool.get (getOutgoingTxPoolKey ⟨other, fee⟩ id)
  otherDenoms : ∀ account other, other ≠ denom →
    next.bank.balances account other = ledger.bank.balances account other

section

variable {ext : External} {params : Params} {outgoing : Outgoing} {ledger next : Ledger}
  {token : EthAddress} {origin : AssetOrigin} {batch : OutgoingTxBatch}

/-! ## Cancelling -/

theorem mem_batchesOf :
    batch ∈ outgoing.batchesOf token ↔ batch ∈ outgoing.batches.values ∧
      batch.tokenContract = token := by
  simp [Outgoing.batchesOf, Outgoing.getOutgoingTxBatches]

theorem cancelBatches_eq (wellFormed : WellFormed ext outgoing) (params : Params)
    (token : EthAddress) :
    ∃ cancelled, ((outgoing.batchesOf token).map OutgoingTxBatch.batchNonce).foldlM
      (fun current nonce =>
        rewrap ⟨.unknown, "recovery: failed to cancel batch"⟩
          (current.cancelOutgoingTXBatch ext params token nonce)) outgoing =
            Outgoing.announcing params (outgoing.batchesOf token) cancelled ∧
      Cancelled ext outgoing (outgoing.batchesOf token) cancelled := by
  rw [foldlM_map]
  refine wellFormed.foldlM_cancel (fun batch member current next pass => ?_)
    (fun batch member => (mem_batchesOf.mp member).1)
      ((nodup_reverse.mpr wellFormed.values_nodup).filter _)
  rw [(mem_batchesOf.mp member).2] at pass
  rw [pass, Outgoing.wrap_announcing.2]

/-! ## Refunding -/

variable {tx : OutgoingTransferTx} {denom : Denom} {txs : List OutgoingTransferTx}

theorem getUnbatchedTxById_eq (wellFormed : WellFormed ext outgoing)
    (pooled : tx ∈ outgoing.pool.values) : outgoing.getUnbatchedTxById tx.id = .ok tx := by
  have ids : (outgoing.pool.values.map OutgoingTransferTx.id).Nodup := by
    have all := wellFormed.ids
    rw [Outgoing.carried, map_append] at all
    exact (nodup_append.mp all).1
  have visited : tx ∈ outgoing.getUnbatchedTransactions := mem_reverse.mpr pooled
  rw [Outgoing.getUnbatchedTxById, fromOption_eq_ok]
  cases found : outgoing.getUnbatchedTransactions.find? (fun other => other.id == tx.id) with
  | none => exact absurd (find?_eq_none.mp found tx visited) (by simp)
  | some other =>
    have same : other.id = tx.id := by simpa using find?_some found
    have inside : other ∈ outgoing.pool.values := mem_reverse.mp (mem_of_find?_eq_some found)
    rw [inj_on_of_nodup_map ids inside pooled same]

/-- A pooled transfer of a classified token can be refunded to a sender that is not blocked. -/
theorem removeFromOutgoingPoolAndRefund_eq (wellFormed : WellFormed ext ledger.outgoing)
    (named : params.NamesBridge) (pooled : tx ∈ ledger.outgoing.pool.values)
    (issued : 1 ≤ tx.id ∧ verifyAddressFormat tx.sender = .ok ())
    (notBlocked : ext.blockedAddr tx.sender = false)
    (classified : ledger.classifyERC20 ext tx.erc20Token.contract = .ok origin)
    (valid : sdkValidateDenom origin.denom = true)
    (held : tx.total ≤ ledger.bank.balances ext.gravityModule origin.denom) :
    ledger.removeFromOutgoingPoolAndRefund ext params tx.id tx.sender = .ok { ledger with
      bank := ledger.bank.move ext.gravityModule tx.sender ⟨origin.denom, tx.total⟩ held
      outgoing := { ledger.outgoing with
        pool := ledger.outgoing.pool.delete (getOutgoingTxPoolKey tx.erc20Fee tx.id) } } := by
  have contracts := wellFormed.contracts tx (mem_append_left _ pooled)
  have format : succeeds (verifyAddressFormat tx.sender) = true := by rw [issued.2]; rfl
  have gone : succeeds (Outgoing.getUnbatchedTxByFeeAndId { ledger.outgoing with
      pool := ledger.outgoing.pool.delete (getOutgoingTxPoolKey tx.erc20Fee tx.id) } tx.erc20Fee
        tx.id) = false := by
    rw [Outgoing.getUnbatchedTxByFeeAndId, get_delete, if_pos rfl]
    rfl
  obtain ⟨address, parsed⟩ := getBridgeContractAddress_eq_ok.mpr named
  simp only [Ledger.removeFromOutgoingPoolAndRefund, bind_eq_ok, require_eq_ok, rewrap_eq_ok,
    newCoin_eq_ok, Outgoing.removeUnbatchedTX_eq_ok, Bank.sendCoinsFromModuleToAccount_eq_ok,
    pure_eq_ok]
  exact ⟨(), ⟨issued.1, format⟩, tx, getUnbatchedTxById_eq wellFormed pooled, (), rfl, (),
    contracts, _, ⟨⟨tx, wellFormed.mem_pool.mp pooled⟩, rfl⟩, (), gone, origin, classified, _,
    ⟨valid, _, rfl, rfl⟩, _, ⟨notBlocked, held, rfl⟩, address, parsed, rfl⟩

/-- The effect of refunding a list of pooled transfers in a denom. -/
structure RefundedAll (ext : External) (ledger : Ledger) (txs : List OutgoingTransferTx)
    (denom : Denom) (next : Ledger) : Prop where
  frame : next.outgoing = { ledger.outgoing with pool := next.outgoing.pool }
  pool : ∀ key, next.outgoing.pool.get key =
    if ∃ tx ∈ txs, getOutgoingTxPoolKey tx.erc20Fee tx.id = key then
      none else ledger.outgoing.pool.get key
  balances : ∀ account other, next.bank.balances account other +
      (if account = ext.gravityModule ∧ other = denom then
        (txs.map OutgoingTransferTx.total).sum else 0) =
    ledger.bank.balances account other + (if other = denom then lockedBy txs account else 0)

theorem lockedBy_cons (tx : OutgoingTransferTx) (rest : List OutgoingTransferTx)
    (account : AccAddress) :
    lockedBy (tx :: rest) account = (if tx.sender = account then
      tx.total else 0) + lockedBy rest account := by
  by_cases own : tx.sender = account <;> simp [lockedBy, own]

/-- What one refund does, followed by others. -/
theorem RefundedAll.cons {rest : List OutgoingTransferTx}
    {held : tx.total ≤ ledger.bank.balances ext.gravityModule denom}
    (others : RefundedAll ext { ledger with
      bank := ledger.bank.move ext.gravityModule tx.sender ⟨denom, tx.total⟩ held
      outgoing := { ledger.outgoing with
        pool := ledger.outgoing.pool.delete (getOutgoingTxPoolKey tx.erc20Fee tx.id) } } rest
          denom next) :
    RefundedAll ext ledger (tx :: rest) denom next where
  frame := others.frame
  pool key := by
    rw [others.pool key, get_delete]
    by_cases own : getOutgoingTxPoolKey tx.erc20Fee tx.id = key
    · simp [own]
    · simp [own, Ne.symm own]
  balances account other := by
    have first : (ledger.bank.move ext.gravityModule tx.sender ⟨denom, tx.total⟩ held).balances
        account other +
        (if account = ext.gravityModule then Coin.amountOf ⟨denom, tx.total⟩ other else 0) =
      ledger.bank.balances account other + (if account = tx.sender then
        Coin.amountOf ⟨denom, tx.total⟩ other else 0) :=
      Bank.move_balances held account other
    have later := others.balances account other
    rw [lockedBy_cons, map_cons, sum_cons]
    by_cases same : other = denom
    · have amount : Coin.amountOf ⟨denom, tx.total⟩ other = tx.total := by simp [Coin.amountOf, same]
      rw [amount] at first
      rw [if_pos same] at later ⊢
      simp only [same, and_true, eq_comm (a := account) (b := tx.sender)] at first later ⊢
      split_ifs at first later ⊢ <;> omega
    · have amount : Coin.amountOf ⟨denom, tx.total⟩ other = 0 := by
        simp only [Coin.amountOf, if_neg same]
      rw [amount] at first
      simp only [same, and_false, if_false, ite_self, add_zero] at first later ⊢
      exact later.trans first

/-- Pooled transfers of a classified token can be refunded one after the other, as long as the
module holds enough. -/
theorem refundAll_succeeds (wellFormed : WellFormed ext ledger.outgoing)
    (pooled : ∀ tx ∈ txs, tx ∈ ledger.outgoing.pool.values)
    (distinct : (txs.map OutgoingTransferTx.id).Nodup)
    (issued : ∀ tx ∈ txs, 1 ≤ tx.id ∧ verifyAddressFormat tx.sender = .ok ())
    (notBlocked : ∀ tx ∈ txs, ext.blockedAddr tx.sender = false)
    (ofToken : ∀ tx ∈ txs, tx.erc20Token.contract = token)
    (classified : ledger.classifyERC20 ext token = .ok origin)
    (valid : txs ≠ [] → sdkValidateDenom origin.denom = true)
    (held : (txs.map OutgoingTransferTx.total).sum ≤
      ledger.bank.balances ext.gravityModule origin.denom)
    (named : txs ≠ [] → params.NamesBridge) :
    ∃ next, (txs.map fun tx => (tx.id, tx.sender)).foldlM (fun current entry =>
        rewrap ⟨.invalid, "recovery: failed to refund tx"⟩
          (current.removeFromOutgoingPoolAndRefund ext params entry.1 entry.2)) ledger = .ok next ∧
      RefundedAll ext ledger txs origin.denom next := by
  induction txs generalizing ledger with
  | nil => exact ⟨ledger, rfl, ⟨rfl, fun key => by simp, fun account other => by simp [lockedBy]⟩⟩
  | cons tx rest ih =>
    obtain ⟨pooledFirst, pooledRest⟩ := forall_mem_cons.mp pooled
    obtain ⟨notAgain, distinctRest⟩ := nodup_cons.mp distinct
    obtain ⟨issuedFirst, issuedRest⟩ := forall_mem_cons.mp issued
    obtain ⟨openFirst, openRest⟩ := forall_mem_cons.mp notBlocked
    obtain ⟨tokenFirst, tokenRest⟩ := forall_mem_cons.mp ofToken
    rw [map_cons, sum_cons] at held
    have holdsFirst : tx.total ≤ ledger.bank.balances ext.gravityModule origin.denom := by omega
    have found := wellFormed.mem_pool.mp pooledFirst
    have refunded :=
      removeFromOutgoingPoolAndRefund_eq wellFormed (named (cons_ne_nil _ _)) pooledFirst issuedFirst
      openFirst (tokenFirst ▸ classified) (valid (cons_ne_nil _ _)) holdsFirst
    have effect : Refunded ext ledger tx _ :=
      ⟨found, openFirst, origin, holdsFirst, tokenFirst ▸ classified, rfl⟩
    have notModule : ext.gravityModule ≠ tx.sender := by
      intro same
      rw [← same, ext.blocked_gravity] at openFirst
      contradiction
    have stillPooled : ∀ other ∈ rest, other ∈ (ledger.outgoing.pool.delete
        (getOutgoingTxPoolKey tx.erc20Fee tx.id)).values := by
      intro other member
      rcases mem_cons.mp ((values_delete_perm found).mem_iff.mp (pooledRest other member)) with
        same | stays
      · exact absurd (mem_map.mpr ⟨other, member, congrArg OutgoingTransferTx.id same⟩) notAgain
      · exact stays
    have holdsRest : (rest.map OutgoingTransferTx.total).sum ≤
        (ledger.bank.move ext.gravityModule tx.sender ⟨origin.denom, tx.total⟩ holdsFirst).balances
          ext.gravityModule origin.denom := by
      have left : (ledger.bank.move ext.gravityModule tx.sender ⟨origin.denom, tx.total⟩
          holdsFirst).balances
          ext.gravityModule origin.denom + Coin.amountOf ⟨origin.denom, tx.total⟩ origin.denom =
        ledger.bank.balances ext.gravityModule origin.denom := Bank.move_balances_sender notModule
      simp only [Coin.amountOf, if_true] at left
      omega
    obtain ⟨next, ran, others⟩ :=
      ih (wellFormed.refunded effect).1 stillPooled distinctRest issuedRest openRest tokenRest
      classified (fun _ => valid (cons_ne_nil _ _)) holdsRest (fun _ => named (cons_ne_nil _ _))
    refine ⟨next, ?_, others.cons⟩
    rw [map_cons, foldlM_cons, refunded]
    exact ran

/-- Refunds leave the confirms alone. -/
theorem refundAll_batchConfirms {entries : List (Nat × AccAddress)}
    (ran : entries.foldlM (fun current entry => rewrap ⟨.invalid, "recovery: failed to refund tx"⟩
      (current.removeFromOutgoingPoolAndRefund ext params entry.1 entry.2)) ledger = .ok next) :
    next.outgoing.batchConfirms = ledger.outgoing.batchConfirms := by
  refine foldlM_invariant (fun current => current.outgoing.batchConfirms =
    ledger.outgoing.batchConfirms) ?_ rfl ran
  intro current entry result _ kept pass
  simp only [Ledger.removeFromOutgoingPoolAndRefund, bind_eq_ok, rewrap_eq_ok,
    Outgoing.removeUnbatchedTX_eq_ok, pure_eq_ok] at pass
  obtain ⟨_, _, _, _, _, _, _, _, _, ⟨_, rfl⟩, _, _, _, _, _, _, _, _, _, _, rfl⟩ := pass
  exact kept

/-! ## What is left -/

variable {cancelled : Outgoing}

section

variable (wellFormed : WellFormed ext outgoing)

include wellFormed

theorem mem_batchesOf_of_get {nonce : Nat}
    (found : outgoing.batches.get (getOutgoingTxBatchKey token nonce) = some batch) :
    batch ∈ outgoing.batchesOf token ∧ nonce = batch.batchNonce := by
  obtain ⟨sameToken, sameNonce⟩ : token = batch.tokenContract ∧ nonce = batch.batchNonce := by
    simpa [getOutgoingTxBatchKey] using wellFormed.batchKeys _ _ found
  exact ⟨mem_batchesOf.mpr ⟨mem_values.mpr ⟨_, found⟩, sameToken.symm⟩, sameNonce⟩

theorem pooled_of_get {fee id : Nat}
    (found : outgoing.pool.get (getOutgoingTxPoolKey ⟨token, fee⟩ id) = some tx) :
    tx ∈ outgoing.pool.values ∧ tx.erc20Token.contract = token := by
  have pooled : tx ∈ outgoing.pool.values := mem_values.mpr ⟨_, found⟩
  have keyed : token = tx.erc20Fee.contract :=
    congrArg (fun key => (ofLex key).1) (wellFormed.poolKeys _ _ found)
  exact ⟨pooled, (keyed.trans (wellFormed.contracts tx (mem_append_left _ pooled))).symm⟩

/-- The batches that stay are those of the other tokens. -/
theorem Cancelled.mem_batches
    (effect : Cancelled ext outgoing (outgoing.batchesOf token) cancelled) :
    batch ∈ cancelled.batches.values ↔ batch ∈ outgoing.batches.values ∧
      batch.tokenContract ≠ token := by
  have apart := (nodup_append.mp (effect.stored.nodup_iff.mp wellFormed.values_nodup)).2.2
  rw [effect.stored.mem_iff, mem_append]
  constructor
  · intro stays
    exact ⟨.inr stays, fun own => apart batch
      (mem_batchesOf.mpr ⟨effect.stored.mem_iff.mpr (mem_append_right _ stays), own⟩) batch stays rfl⟩
  · rintro ⟨victim | stays, other⟩
    · exact absurd (mem_batchesOf.mp victim).2 other
    · exact stays

/-- Transfers of other tokens are in the pool when they were before. -/
theorem Cancelled.mem_pool
    (effect : Cancelled ext outgoing (outgoing.batchesOf token) cancelled)
    (other : tx.erc20Fee.contract ≠ token) : tx ∈ cancelled.pool.values ↔
      tx ∈ outgoing.pool.values := by
  rw [effect.pool.mem_iff, mem_append, or_iff_right]
  intro batched
  obtain ⟨batch, victim, inside⟩ := mem_flatMap.mp batched
  obtain ⟨stored, own⟩ := mem_batchesOf.mp victim
  have contracts :=
    wellFormed.contracts tx (mem_append_right _ (mem_flatMap.mpr ⟨batch, stored, inside⟩))
  exact other (contracts.trans ((wellFormed.batchContracts batch stored tx inside).trans own))

theorem mem_getUnbatchedTransactionsByContract :
    tx ∈ outgoing.getUnbatchedTransactionsByContract token ↔
      tx ∈ outgoing.pool.values ∧ tx.erc20Token.contract = token := by
  rw [Outgoing.getUnbatchedTransactionsByContract,
    values_filter_of_keyed wellFormed.poolKeys (fun key => (ofLex key).1 == token), mem_reverse,
    mem_filter]
  refine and_congr_right fun pooled => ?_
  rw [← wellFormed.contracts tx (mem_append_left _ pooled), beq_iff_eq]
  rfl

/-- After the batches of a token are cancelled, the pool has all its transfers. -/
theorem Cancelled.pending_perm
    (effect : Cancelled ext outgoing (outgoing.batchesOf token) cancelled) :
    (cancelled.getUnbatchedTransactionsByContract token).Perm (outgoing.carriedOf token) := by
  have pendingNodup : (cancelled.getUnbatchedTransactionsByContract token).Nodup := by
    rw [Outgoing.getUnbatchedTransactionsByContract,
      values_filter_of_keyed effect.wellFormed.poolKeys (fun key => (ofLex key).1 == token),
      nodup_reverse]
    exact (nodup_of_keyed effect.wellFormed.poolKeys).of_map.filter _
  have carriedNodup : (outgoing.carriedOf token).Nodup := wellFormed.ids.of_map.filter _
  refine (perm_ext_iff_of_nodup pendingNodup carriedNodup).mpr fun tx => ?_
  rw [mem_getUnbatchedTransactionsByContract effect.wellFormed, Outgoing.carriedOf, mem_filter,
    decide_eq_true_eq, effect.pool.mem_iff, Outgoing.carried, mem_append, mem_append, or_comm]
  refine and_congr_left fun own => or_congr_right ?_
  simp only [mem_flatMap, mem_batchesOf]
  constructor
  · rintro ⟨batch, ⟨stored, _⟩, inside⟩
    exact ⟨batch, stored, inside⟩
  · rintro ⟨batch, stored, inside⟩
    exact ⟨batch, ⟨stored, (wellFormed.batchContracts batch stored tx inside).symm.trans own⟩, inside⟩

end

theorem lockedBy_perm {others : List OutgoingTransferTx} (same : txs.Perm others)
    (account : AccAddress) : lockedBy txs account = lockedBy others account :=
  ((same.filter _).map _).sum_eq

/-- Cancelling the batches and then refunding the refilled pool leaves nothing of the token. -/
theorem recovered_of_refunded (wellFormed : WellFormed ext ledger.outgoing)
    (noOrphan : ledger.outgoing.NoOrphanedConfirm token)
    (notBlocked : ∀ tx ∈ ledger.outgoing.carriedOf token, ext.blockedAddr tx.sender = false)
    (effect : Cancelled ext ledger.outgoing (ledger.outgoing.batchesOf token) cancelled)
    (refunded : RefundedAll ext { ledger with outgoing := cancelled }
      (cancelled.getUnbatchedTransactionsByContract token) denom next) :
      Recovered ext ledger token denom next := by
  have perm := Cancelled.pending_perm wellFormed effect
  have batches : next.outgoing.batches = cancelled.batches := by rw [refunded.frame]
  have confirms : next.outgoing.batchConfirms = cancelled.batchConfirms := by rw [refunded.frame]
  have noneOfModule : lockedBy (cancelled.getUnbatchedTransactionsByContract token)
      ext.gravityModule = 0 := by
    rw [lockedBy_perm perm, lockedBy, filter_eq_nil_iff.mpr]
    · rfl
    · intro tx member own
      have openAccount := notBlocked tx member
      rw [of_decide_eq_true own, ext.blocked_gravity] at openAccount
      contradiction
  constructor
  case noBatch =>
    intro nonce
    rw [batches, Option.eq_none_iff_forall_ne_some]
    intro batch found
    obtain ⟨stored, own⟩ := mem_batchesOf.mp (mem_batchesOf_of_get effect.wellFormed found).1
    exact ((Cancelled.mem_batches wellFormed effect).mp stored).2 own
  case noConfirm =>
    intro nonce validator
    rw [confirms]
    by_cases victim : ∃ batch ∈ ledger.outgoing.batchesOf token,
        confirmsOf batch.tokenContract batch.batchNonce (getBatchConfirmKey token nonce validator)
    · exact (effect.confirms _).1 victim
    · rw [(effect.confirms _).2 (fun batch member own => victim ⟨batch, member, own⟩),
        Option.eq_none_iff_forall_ne_some]
      intro confirm found
      obtain ⟨batch, stored⟩ := noOrphan nonce validator confirm found
      obtain ⟨own, sameNonce⟩ := mem_batchesOf_of_get wellFormed stored
      exact victim ⟨batch, own, (mem_batchesOf.mp own).2.symm, sameNonce⟩
  case noPoolEntry =>
    intro fee id
    rw [refunded.pool, ite_eq_left_iff]
    intro notRefunded
    rw [Option.eq_none_iff_forall_ne_some]
    intro tx found
    exact notRefunded ⟨tx, (mem_getUnbatchedTransactionsByContract effect.wellFormed).mpr
      (pooled_of_get effect.wellFormed found), (effect.wellFormed.poolKeys _ _ found).symm⟩
  case received =>
    intro account notModule
    have changed := refunded.balances account denom
    rwa [if_neg (fun both => notModule both.1), if_pos rfl, lockedBy_perm perm] at changed
  case paid =>
    have changed := refunded.balances ext.gravityModule denom
    rwa [if_pos ⟨rfl, rfl⟩, if_pos rfl, noneOfModule, (perm.map _).sum_eq] at changed
  case otherBatches =>
    intro other nonce different
    rw [batches]
    refine get_eq_of_keyed effect.wellFormed.batchKeys wellFormed.batchKeys fun batch key => ?_
    have ofOther : batch.tokenContract = other := congrArg (fun key => (ofLex key).1) key
    rw [Cancelled.mem_batches wellFormed effect, ofOther, and_iff_left different]
  case otherConfirms =>
    intro other nonce validator different
    rw [confirms]
    refine (effect.confirms _).2 fun batch victim own => different ?_
    exact own.1.trans (mem_batchesOf.mp victim).2
  case otherPoolEntries =>
    intro other fee id different
    rw [refunded.pool, if_neg]
    · refine get_eq_of_keyed effect.wellFormed.poolKeys wellFormed.poolKeys fun tx key => ?_
      have ofOther : tx.erc20Fee.contract = other := congrArg (fun key => (ofLex key).1) key
      exact Cancelled.mem_pool wellFormed effect (ofOther ▸ different)
    · rintro ⟨tx, pending, key⟩
      obtain ⟨pooled, own⟩ := (mem_getUnbatchedTransactionsByContract effect.wellFormed).mp pending
      have ofOther : tx.erc20Fee.contract = other := congrArg (fun key => (ofLex key).1) key
      rw [effect.wellFormed.contracts tx (mem_append_left _ pooled), own] at ofOther
      exact different ofOther.symm
  case otherDenoms =>
    intro account other different
    have changed := refunded.balances account other
    rwa [if_neg (fun both => different both.2), if_neg different] at changed

/-- The totals that are logged fit, since the module holds what the transfers of the token lock. -/
theorem batchesOf_total_le (wellFormed : WellFormed ext outgoing) (token : EthAddress) :
    ((outgoing.batchesOf token).map OutgoingTxBatch.total).sum ≤
      ((outgoing.carriedOf token).map OutgoingTransferTx.total).sum := by
  have own : ∀ tx ∈ (outgoing.batchesOf token).flatMap OutgoingTxBatch.transactions,
  tx.erc20Token.contract = token := by
    intro tx batched
    obtain ⟨batch, victim, inside⟩ := mem_flatMap.mp batched
    obtain ⟨stored, ofToken⟩ := mem_batchesOf.mp victim
    exact (wellFormed.batchContracts batch stored tx inside).trans ofToken
  have inside : ((outgoing.batchesOf token).flatMap OutgoingTxBatch.transactions).Subperm
      (outgoing.carriedOf token) := by
    rw [← filter_eq_self.mpr (fun tx member => decide_eq_true (own tx member))]
    refine List.Subperm.filter _ (List.Subperm.trans ?_ (sublist_append_right _ _).subperm)
    refine (List.Sublist.flatMap filter_sublist _).subperm.trans ?_
    exact ((reverse_perm _).flatMap_right _).subperm
  calc ((outgoing.batchesOf token).map OutgoingTxBatch.total).sum
      = (((outgoing.batchesOf token).flatMap OutgoingTxBatch.transactions).map
        OutgoingTransferTx.total).sum := by
        rw [map_flatMap, List.flatMap, sum_flatten, map_map]
        rfl
    _ ≤ _ := by
        obtain ⟨chosen, same, sublist⟩ := inside
        rw [← (same.map _).sum_eq]
        exact (sublist.map _).sum_le_sum (fun _ _ => Nat.zero_le _)

theorem batchesOf_eq_nil (wellFormed : WellFormed ext outgoing)
    (noBatch : ∀ nonce, outgoing.batches.get (getOutgoingTxBatchKey token nonce) = none) :
    outgoing.batchesOf token = [] := by
  refine eq_nil_iff_forall_not_mem.mpr fun batch victim => ?_
  obtain ⟨stored, rfl⟩ := mem_batchesOf.mp victim
  have found := wellFormed.mem_batches.mp stored
  rw [noBatch] at found
  contradiction

theorem carriedOf_eq_nil (wellFormed : WellFormed ext outgoing)
    (noBatch : ∀ nonce, outgoing.batches.get (getOutgoingTxBatchKey token nonce) = none)
    (noPoolEntry : ∀ fee id, outgoing.pool.get (getOutgoingTxPoolKey ⟨token, fee⟩ id) = none) :
    outgoing.carriedOf token = [] := by
  refine eq_nil_iff_forall_not_mem.mpr fun tx member => ?_
  obtain ⟨there, own⟩ := mem_filter.mp member
  obtain rfl := of_decide_eq_true own
  rcases mem_append.mp there with pooled | batched
  · have found := wellFormed.mem_pool.mp pooled
    have absent := noPoolEntry tx.erc20Fee.amount tx.id
    rw [← wellFormed.contracts tx there] at absent
    exact absurd (absent.symm.trans found) (by simp)
  · obtain ⟨batch, stored, inside⟩ := mem_flatMap.mp batched
    have victim := mem_batchesOf.mpr ⟨stored, (wellFormed.batchContracts batch stored tx inside).symm⟩
    rw [batchesOf_eq_nil wellFormed noBatch] at victim
    contradiction

/-- A confirm whose batch is not stored survives the recovery. -/
theorem noOrphan_of_recovered (wellFormed : WellFormed ext ledger.outgoing)
    (effect : Cancelled ext ledger.outgoing (ledger.outgoing.batchesOf token) cancelled)
    (kept : next.outgoing.batchConfirms = cancelled.batchConfirms)
    (recovered : Recovered ext ledger token denom next) :
    ledger.outgoing.NoOrphanedConfirm token := by
  intro nonce validator confirm found
  by_contra orphaned
  have stays : cancelled.batchConfirms.get (getBatchConfirmKey token nonce validator) =
      some confirm := by
    rw [(effect.confirms _).2, found]
    intro batch victim own
    obtain ⟨stored, rfl⟩ := mem_batchesOf.mp victim
    have key := wellFormed.mem_batches.mp stored
    rw [← show nonce = batch.batchNonce from own.2] at key
    exact orphaned ⟨batch, key⟩
  rw [← kept, recovered.noConfirm] at stays
  contradiction

/-- The recovery of a token succeeds, and leaves nothing of it, exactly when the bridge contract is
set or there is nothing of the token to cancel, and no confirm of the token is left over from an
earlier batch. -/
theorem recovery_of_one_token_iff (conserved : Conserved ext ledger.outgoing)
    (kept : ledger.bank.WellKept) (classified : ledger.classifyERC20 ext token = .ok origin)
    (held : ((ledger.outgoing.carriedOf token).map OutgoingTransferTx.total).sum ≤
      ledger.bank.balances ext.gravityModule origin.denom)
    (notBlocked : ∀ tx ∈ ledger.outgoing.carriedOf token, ext.blockedAddr tx.sender = false) :
    (∃ next, ledger.cancelAllOutgoingTxsForContract ext params token = .ok next ∧
      Recovered ext ledger token origin.denom next) ↔
    (params.NamesBridge ∨
      (∀ nonce, ledger.outgoing.batches.get (getOutgoingTxBatchKey token nonce) = none) ∧
      (∀ fee id, ledger.outgoing.pool.get (getOutgoingTxPoolKey ⟨token, fee⟩ id) = none)) ∧
    ledger.outgoing.NoOrphanedConfirm token := by
  have wellFormed := conserved.wellFormed
  obtain ⟨cancelled, cancelling, effect⟩ := cancelBatches_eq wellFormed params token
  have perm := Cancelled.pending_perm wellFormed effect
  constructor
  · rintro ⟨next, ran, recovered⟩
    simp only [Ledger.cancelAllOutgoingTxsForContract, bind_eq_ok, check_eq_ok, cancelling,
      Outgoing.announcing_eq_ok] at ran
    obtain ⟨_, _, _, ⟨named, rfl⟩, _, _, refunding⟩ := ran
    refine ⟨or_iff_not_imp_left.mpr fun unset => ?_,
      noOrphan_of_recovered wellFormed effect (refundAll_batchConfirms refunding) recovered⟩
    constructor
    · intro nonce
      rw [Option.eq_none_iff_forall_ne_some]
      intro batch found
      exact unset (named (ne_nil_of_mem (mem_batchesOf_of_get wellFormed found).1))
    · intro fee id
      rw [Option.eq_none_iff_forall_ne_some]
      intro tx found
      obtain ⟨pooled, own⟩ := pooled_of_get wellFormed found
      have pending :=
        perm.mem_iff.mpr (List.mem_filter.mpr ⟨List.mem_append_left _ pooled, decide_eq_true own⟩)
      obtain ⟨before, after, pass⟩ := pass_of_foldlM refunding (List.mem_map_of_mem pending)
      simp only [rewrap_eq_ok, Ledger.removeFromOutgoingPoolAndRefund, bind_eq_ok] at pass
      obtain ⟨_, _, _, _, _, _, _, _, _, _, _, _, _, _, _, _, _, _, address, parsed, _⟩ := pass
      exact unset (getBridgeContractAddress_eq_ok.mp ⟨address, parsed⟩)
  · rintro ⟨condition, noOrphan⟩
    have named : ledger.outgoing.carriedOf token ≠ [] ∨ ledger.outgoing.batchesOf token ≠ [] →
        params.NamesBridge := by
      intro something
      rcases condition with named | ⟨noBatch, noPoolEntry⟩
      · exact named
      · rcases something with carried | batched
        · exact absurd (carriedOf_eq_nil wellFormed noBatch noPoolEntry) carried
        · exact absurd (batchesOf_eq_nil wellFormed noBatch) batched
    have total := (perm.map OutgoingTransferTx.total).sum_eq
    have inCarried : ∀ tx ∈ cancelled.getUnbatchedTransactionsByContract token,
        tx ∈ ledger.outgoing.carriedOf token := fun tx pending => perm.mem_iff.mp pending
    have issued : ∀ tx ∈ cancelled.getUnbatchedTransactionsByContract token,
        1 ≤ tx.id ∧ verifyAddressFormat tx.sender = .ok () ∧ 0 < tx.total :=
      fun tx pending => conserved.issued tx (List.mem_filter.mp (inCarried tx pending)).1
    have fits := kept.fits ext.gravityModule origin.denom
    have valid : cancelled.getUnbatchedTransactionsByContract token ≠ [] →
        sdkValidateDenom origin.denom = true := by
      intro some
      obtain ⟨tx, pending⟩ := List.exists_mem_of_ne_nil _ some
      have positive := (issued tx pending).2.2
      have part := List.single_le_sum (fun _ _ => Nat.zero_le _) _
        (List.mem_map_of_mem (f := OutgoingTransferTx.total) pending)
      exact kept.denoms ext.gravityModule origin.denom (by omega)
    have refilled : WellFormed ext ({ ledger with outgoing := cancelled } : Ledger).outgoing :=
      effect.wellFormed
    obtain ⟨next, refunding, refunded⟩ := refundAll_succeeds refilled
      (fun tx pending => ((mem_getUnbatchedTransactionsByContract effect.wellFormed).mp pending).1)
      ((perm.map _).nodup_iff.mpr (wellFormed.ids.sublist (List.filter_sublist.map _)))
      (fun tx pending => ⟨(issued tx pending).1, (issued tx pending).2.1⟩)
      (fun tx pending => notBlocked tx (inCarried tx pending))
      (fun tx pending => ((mem_getUnbatchedTransactionsByContract effect.wellFormed).mp pending).2)
      classified valid (total.trans_le held) (fun some => named (.inl fun none => some (by
        rw [none] at perm
        exact perm.eq_nil)))
    refine ⟨next, ?_, recovered_of_refunded wellFormed noOrphan notBlocked effect refunded⟩
    have logged := batchesOf_total_le wellFormed token
    simp only [Ledger.cancelAllOutgoingTxsForContract, bind_eq_ok, check_eq_ok, cancelling,
      Outgoing.announcing_eq_ok]
    exact ⟨(), by omega, cancelled, ⟨fun batched => named (.inr batched), rfl⟩, (), by omega,
      refunding⟩

end

/-- One transfer of ERC20 five waits in the pool and one is batched; the module holds what both
lock. -/
def pendingLedger : Ledger :=
  { Ledger.unused [] (Bank.empty.mint localnet.gravityModule ⟨gravityDenom localnet 5, 20⟩) with
    outgoing := ⟨KVStore.empty.set (getOutgoingTxPoolKey ⟨5, 1⟩ 1) ⟨1, ascii "holder", 7,
      ⟨5, 10⟩, ⟨5, 1⟩⟩, KVStore.empty.set (getOutgoingTxBatchKey 5 1)
        ⟨1, 1000, [⟨2, ascii "recipient", 7, ⟨5, 7⟩, ⟨5, 2⟩⟩], 5, 5⟩,
      .empty, 2, 1⟩ }

theorem conserved_pendingLedger : Conserved localnet pendingLedger.outgoing where
  wellFormed := {
    poolKeys := fun key tx found => by
      obtain ⟨rfl, rfl⟩ : key = getOutgoingTxPoolKey ⟨5, 1⟩ 1 ∧ _ = tx := by
        simpa [pendingLedger, get_set] using found
      rfl
    batchKeys := fun key batch found => by
      obtain ⟨rfl, rfl⟩ : key = getOutgoingTxBatchKey 5 1 ∧ _ = batch := by
        simpa [pendingLedger, get_set] using found
      rfl
    batchContracts := by decide +kernel
    nonceBound := by decide +kernel
    confirmKeys := nofun
    contracts := by decide +kernel
    ids := by decide +kernel
    idBound := by decide +kernel }
  issued := by decide +kernel

theorem wellKept_pendingLedger : pendingLedger.bank.WellKept := by
  have minted : ∀ account denom, pendingLedger.bank.balances account denom =
      if account = localnet.gravityModule ∧ denom = gravityDenom localnet 5 then 20 else 0 := by
    intro account denom
    simp [pendingLedger, Ledger.unused, Bank.mint, Bank.empty, credit]
  constructor
  · intro account denom held
    rw [minted] at held
    split_ifs at held with own
    · rw [own.2]
      decide +kernel
    · contradiction
  · intro account denom
    rw [minted]
    split_ifs <;> simp

theorem pendingLedger_classified :
    pendingLedger.classifyERC20 localnet 5 =
      .ok ⟨.ethereum, false, gravityDenom localnet 5, 5⟩ := by decide +kernel

theorem pendingLedger_held : ((pendingLedger.outgoing.carriedOf 5).map OutgoingTransferTx.total).sum ≤
    pendingLedger.bank.balances localnet.gravityModule (gravityDenom localnet 5) := by decide +kernel

/-- With the bridge contract set, the pending ledger is recovered. -/
theorem pendingLedger_recovered :
    ∃ next, pendingLedger.cancelAllOutgoingTxsForContract localnet defaultParams 5 = .ok next ∧
      Recovered localnet pendingLedger 5 (gravityDenom localnet 5) next :=
  (recovery_of_one_token_iff conserved_pendingLedger wellKept_pendingLedger pendingLedger_classified
    pendingLedger_held (by decide +kernel)).mpr ⟨.inl (by decide +kernel), nofun⟩

/-- Parameters without a bridge contract are valid, and the recovery panics under them. -/
theorem recovery_panics_without_bridge :
    Conserved localnet pendingLedger.outgoing ∧ pendingLedger.bank.WellKept ∧
    pendingLedger.classifyERC20 localnet 5 = .ok ⟨.ethereum, false, gravityDenom localnet 5, 5⟩ ∧
    ((pendingLedger.outgoing.carriedOf 5).map OutgoingTransferTx.total).sum ≤
      pendingLedger.bank.balances localnet.gravityModule (gravityDenom localnet 5) ∧
    (∀ tx ∈ pendingLedger.outgoing.carriedOf 5, localnet.blockedAddr tx.sender = false) ∧
    { defaultParams with bridgeEthereumAddress := [] }.validateBasic = .ok () ∧
    (pendingLedger.cancelAllOutgoingTxsForContract localnet { defaultParams with
      bridgeEthereumAddress := [] } 5).map (fun _ => ()) =
      .error (.panic "failed to parse bridge ethereum address") :=
  ⟨conserved_pendingLedger, wellKept_pendingLedger, pendingLedger_classified, pendingLedger_held,
    by decide +kernel, by decide +kernel, by decide +kernel⟩

end GravityBridge.Keeper
