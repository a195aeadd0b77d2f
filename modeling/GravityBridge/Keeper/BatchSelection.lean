import GravityBridge.Keeper.Vouchers
import GravityBridge.Lib.Selection
import GravityBridge.Lib.Writes

/-!
# What a new batch takes

The pool is read from the greatest key down, and the fee comes before the id in the key of a transfer.
A batch thus takes the transfers with the highest fees, and is worth what the check before it
estimated. Since a batch has to be worth more than the last one of its token, later batches are
worth more than earlier ones as long as both are stored.
-/

namespace GravityBridge.Keeper

open Lib.Fallible Lib.Store Lib.Selection Lib.Writes
open Lib.Runs GravityBridge.Types KVStore

variable {ext : External} {context : Context} {outgoing : Outgoing} {ledger next : Ledger}
  {params : Params} {contract : EthAddress} {maxElements : Nat} {batch : OutgoingTxBatch}

variable {txs : List OutgoingTransferTx}

namespace Outgoing

/-- Every transfer in the pool is stored under its own key. -/
def PoolKeyed (outgoing : Outgoing) : Prop :=
  ∀ key tx, outgoing.pool.get key = some tx → key = getOutgoingTxPoolKey tx.erc20Fee tx.id

/-- The transfers of a token in the pool that do not go to a blacklisted address. -/
def eligible (outgoing : Outgoing) (params : Params) (contract : EthAddress) :
    List OutgoingTransferTx :=
  outgoing.pool.values.filter (fun tx => tx.erc20Fee.contract = contract ∧
    params.isOnBlacklist tx.destAddress = false)

theorem mem_eligible {tx : OutgoingTransferTx} : tx ∈ outgoing.eligible params contract ↔
    tx ∈ outgoing.pool.values ∧ tx.erc20Fee.contract = contract ∧
      params.isOnBlacklist tx.destAddress = false := by
  simp [eligible]

section

variable (keyed : outgoing.PoolKeyed)

include keyed

theorem PoolKeyed.nodup : outgoing.pool.values.Nodup :=
  List.Nodup.of_map _ (nodup_of_keyed keyed)

/-- Transfers are picked in the order of the pool, backwards. -/
theorem PoolKeyed.pickable_eq (params : Params) (contract : EthAddress) :
    outgoing.pickable params contract = (outgoing.eligible params contract).reverse := by
  unfold pickable eligible getUnbatchedTransactionsByContract
  rw [values_filter_of_keyed keyed (fun key => (ofLex key).1 == contract), ← List.filter_reverse,
    List.filter_filter, ← List.filter_reverse]
  refine List.filter_congr fun tx _ => ?_
  cases params.isOnBlacklist tx.destAddress <;> simp [getOutgoingTxPoolKey, beq_eq_decide]

theorem PoolKeyed.pickable_nodup (params : Params) (contract : EthAddress) :
    (outgoing.pickable params contract).Nodup := by
  rw [keyed.pickable_eq, List.nodup_reverse]
  exact keyed.nodup.filter _

/-- The transfers with the highest fees come first. -/
theorem PoolKeyed.pickable_sorted (params : Params) (contract : EthAddress) :
    (outgoing.pickable params contract).Pairwise
    (fun first second => second.erc20Fee.amount ≤ first.erc20Fee.amount) := by
  have listed : outgoing.pool.values.Pairwise (fun first second =>
      getOutgoingTxPoolKey first.erc20Fee first.id <
        getOutgoingTxPoolKey second.erc20Fee second.id) :=
    values_pairwise keyed
  rw [keyed.pickable_eq, List.pairwise_reverse]
  refine (listed.filter _).imp_of_mem fun {first second} firstIn secondIn less => ?_
  have sameContract : first.erc20Fee.contract = second.erc20Fee.contract :=
    (mem_eligible.mp firstIn).2.1.trans (mem_eligible.mp secondIn).2.1.symm
  simp only [getOutgoingTxPoolKey, Prod.Lex.toLex_lt_toLex, sameContract, lt_irrefl, true_and,
    false_or] at less
  rcases less with lower | ⟨same, -⟩
  · exact lower.le
  · exact same.le

theorem mem_pickable {tx : OutgoingTransferTx} :
    tx ∈ outgoing.pickable params contract ↔ tx ∈ outgoing.eligible params contract := by
  rw [keyed.pickable_eq, List.mem_reverse]

end

/-! ## The estimate of the fees -/

theorem batchFeeLoop_succeeds (own : ∀ tx ∈ txs, tx.erc20Fee.contract = contract)
    (batchFee : BatchFees) :
    ∃ fees, batchFeeLoop params contract maxElements batchFee txs = .ok fees := by
  induction txs generalizing batchFee with
  | nil => exact ⟨batchFee, rfl⟩
  | cons tx rest ih =>
    obtain ⟨ownHead, ownRest⟩ := List.forall_mem_cons.mp own
    unfold batchFeeLoop
    simp only [check, ownHead, if_true, ok_bind]
    split_ifs
    · exact ih ownRest _
    · exact ⟨_, rfl⟩
    · exact ih ownRest _

/-- The estimate counts the transfers that would be picked. -/
theorem PoolKeyed.getBatchFeeByTokenType_eq (keyed : outgoing.PoolKeyed) (params : Params)
    (contract : EthAddress) (positive : maxElements ≠ 0) :
    let chosen := (outgoing.pickable params contract).take maxElements
    outgoing.getBatchFeeByTokenType params contract maxElements =
      .ok ⟨(chosen.map (fun tx => tx.erc20Fee.amount)).sum, chosen.length⟩ := by
  have own : ∀ tx ∈ outgoing.getUnbatchedTransactionsByContract contract, tx.erc20Fee.contract =
      contract := by
    intro tx member
    obtain ⟨key, inside⟩ := mem_values.mp (List.mem_reverse.mp member)
    rw [get_filter, Option.filter_eq_some_iff] at inside
    simpa [keyed key tx inside.1, getOutgoingTxPoolKey] using inside.2
  obtain ⟨fees, ran⟩ := batchFeeLoop_succeeds own ⟨0, 0⟩
  have counted := batchFeeLoop_eq_ok (Nat.pos_of_ne_zero positive) ran
  rw [getBatchFeeByTokenType, ran, counted]
  simp [pickable]

end Outgoing

theorem pool_of_built (keyed : ledger.outgoing.PoolKeyed)
    (built : ledger.buildOutgoingTXBatch ext context contract maxElements = .ok (batch, next)) :
    ledger.outgoing.pool.values.Perm (batch.transactions ++ next.outgoing.pool.values) := by
  obtain ⟨selected, picked, timeout, outgoing, checkpoint, ran, _, rfl, stored, _, rfl, _⟩ :=
    buildOutgoingTXBatch_eq_ok built
  have own : ∀ tx ∈ ledger.outgoing.getUnbatchedTransactionsByContract contract,
      ∀ other, ledger.outgoing.pool.get (getOutgoingTxPoolKey tx.erc20Fee tx.id) = some other →
      other = tx := by
    intro tx member other found
    obtain ⟨key, inside⟩ := mem_values.mp (List.mem_reverse.mp member)
    rw [get_filter, Option.filter_eq_some_iff] at inside
    rw [keyed key tx inside.1] at inside
    exact Option.some.inj (found.symm.trans inside.1)
  obtain ⟨_, rfl, -, values, -⟩ := pickLoop_picked own ran
  obtain ⟨-, rfl⟩ :
      picked.batches.get (getOutgoingTxBatchKey contract (picked.lastOutgoingBatchID + 1)) =
      none ∧ _ = outgoing := by simpa [Outgoing.storeBatch] using stored
  exact values

/-! ## A batch that could be built -/

/-- The batch is the most valuable one that could be built, and the pool has lost its transfers. -/
structure FeeOptimal (params : Params) (outgoing : Outgoing) (contract : EthAddress)
    (maxElements : Nat) (batch : OutgoingTxBatch) (after : Outgoing) : Prop where
  size : batch.transactions.length = min maxElements (outgoing.eligible params contract).length
  distinct : batch.transactions.Nodup
  eligible : ∀ tx ∈ batch.transactions, tx ∈ outgoing.eligible params contract
  highest : ∀ tx ∈ batch.transactions, ∀ other ∈ outgoing.eligible params contract,
  other ∉ batch.transactions → other.erc20Fee.amount ≤ tx.erc20Fee.amount
  estimated : outgoing.getBatchFeeByTokenType params contract maxElements =
    .ok ⟨batch.getFees, batch.transactions.length⟩
  maximal : ∀ choice : List OutgoingTransferTx, choice.Nodup →
    (∀ tx ∈ choice, tx ∈ outgoing.eligible params contract) →
    choice.length ≤ maxElements → (choice.map (fun tx => tx.erc20Fee.amount)).sum ≤ batch.getFees
  taken : ∀ tx, tx ∈ after.pool.values ↔ tx ∈ outgoing.pool.values ∧ tx ∉ batch.transactions

theorem feeOptimal_of_built (keyed : ledger.outgoing.PoolKeyed)
    (built : ledger.buildOutgoingTXBatch ext context contract maxElements = .ok (batch, next)) :
    FeeOptimal context.params ledger.outgoing contract maxElements batch next.outgoing := by
  obtain ⟨taken, -⟩ := buildOutgoingTXBatch_selected built
  have distinct := keyed.pickable_nodup context.params contract
  have sorted := keyed.pickable_sorted context.params contract
  have left : ∀ other ∈ ledger.outgoing.eligible context.params contract, other ∉ batch.transactions →
      other ∈ (ledger.outgoing.pickable context.params contract).drop maxElements := by
    intro other member missing
    rw [← Outgoing.mem_pickable keyed,
      ← List.take_append_drop maxElements (Outgoing.pickable _ _ _), List.mem_append,
      ← taken] at member
    exact member.resolve_left missing
  refine ⟨?_, ?_, ?_, ?_, ?_, ?_, ?_⟩
  · rw [taken, List.length_take, keyed.pickable_eq, List.length_reverse]
  · rw [taken]
    exact distinct.sublist (List.take_sublist _ _)
  · intro tx member
    rw [taken] at member
    exact (Outgoing.mem_pickable keyed).mp (List.mem_of_mem_take member)
  · intro tx member other inPool missing
    rw [taken] at member
    exact weight_drop_le_take sorted maxElements member (left other inPool missing)
  · have positive : maxElements ≠ 0 := by
      simp only [Ledger.buildOutgoingTXBatch, bind_eq_ok, require_eq_ok] at built
      exact built.choose_spec.1
    rw [OutgoingTxBatch.getFees, taken]
    exact keyed.getBatchFeeByTokenType_eq context.params contract positive
  · intro choice once inside few
    rw [OutgoingTxBatch.getFees, taken]
    refine sum_le_sum_take sorted (once.subperm fun tx member => ?_) few
    exact (Outgoing.mem_pickable keyed).mpr (inside tx member)
  · intro tx
    have pool := pool_of_built keyed built
    have apart := List.nodup_append.mp (pool.nodup_iff.mp keyed.nodup)
    rw [pool.mem_iff, List.mem_append]
    constructor
    · intro inAfter
      exact ⟨.inr inAfter, fun inBatch => apart.2.2 tx inBatch tx inAfter rfl⟩
    · rintro ⟨inBatch | inAfter, missing⟩
      · exact absurd inBatch missing
      · exact inAfter

/-! ## A batch that could not be built -/

/-- The loop of `pickUnbatchedTxs` on the store itself. -/
def Ledger.pickInPlace (params : Params) (maxElements : Nat) :
    List OutgoingTransferTx → List OutgoingTransferTx → InPlace Ledger Err (List OutgoingTransferTx)
  | selected, [] => pure selected
  | selected, tx :: rest =>
      if params.isOnBlacklist tx.destAddress then Ledger.pickInPlace params maxElements selected rest
      else do
        writing fun ledger => do
          let removed ← orPanic "Failed to remote tx from unbatched queue"
            (ledger.outgoing.removeUnbatchedTX tx.erc20Fee tx.id)
          pure { ledger with outgoing := removed }
        reading fun ledger =>
          check (succeeds (ledger.outgoing.getUnbatchedTxByFeeAndId tx.erc20Fee tx.id) = false)
          "picked a duplicate transaction from the pool, duplicates should never exist!"
        if (selected ++ [tx]).length = maxElements then pure (selected ++ [tx])
        else Ledger.pickInPlace params maxElements (selected ++ [tx]) rest

/-- `BuildOutgoingTXBatch` on the store itself, with its writes in the order of the source. -/
def Ledger.buildInPlace (ext : External) (context : Context) (contract : EthAddress)
    (maxElements : Nat) : InPlace Ledger Err OutgoingTxBatch := do
  reading fun _ => require (maxElements ≠ 0) ⟨.invalid, "max elements value"⟩
  reading fun _ => context.params.requireBridgeActive
  reading fun ledger => ledger.requireProfitable context.params contract maxElements
  let pool ← reading fun ledger => pure (ledger.outgoing.getUnbatchedTransactionsByContract contract)
  let selectedTxs ← Ledger.pickInPlace context.params maxElements [] pool
  reading fun _ => require (selectedTxs ≠ []) ⟨.invalid, "no transactions of this type to batch"⟩
  writing fun ledger => pure { ledger with
    outgoing := { ledger.outgoing with
      lastOutgoingBatchID := ledger.outgoing.lastOutgoingBatchID + 1 } }
  let nextID ← reading fun ledger => pure ledger.outgoing.lastOutgoingBatchID
  let timeout ← reading fun _ => context.getBatchTimeoutHeight
  let batch : OutgoingTxBatch := ⟨nextID, timeout, selectedTxs, contract, context.blockHeight⟩
  writing fun ledger => do
    let outgoing ← ledger.outgoing.storeBatch batch
    pure { ledger with outgoing := outgoing }
  let checkpoint ← reading fun _ => batch.getCheckpoint ext context.params.gravityId
  writing fun ledger => pure (ledger.setPastEthSignatureCheckpoint checkpoint)
  let _ ← reading fun _ => context.params.getBridgeContractAddress
  pure batch

variable {selected : List OutgoingTransferTx}

theorem pickInPlace_eq_ok {result : List OutgoingTransferTx} :
    Ledger.pickInPlace params maxElements selected txs ledger = (.ok result, next) ↔
      ∃ picked, Outgoing.pickLoop params maxElements ledger.outgoing selected txs =
        .ok (result, picked) ∧ { ledger with outgoing := picked } = next := by
  induction txs generalizing ledger selected with
  | nil => simp [Ledger.pickInPlace, Outgoing.pickLoop]
  | cons tx rest ih =>
    unfold Ledger.pickInPlace Outgoing.pickLoop
    split_ifs with blacklisted full
    · exact ih
    · simp only [bind_run_eq_ok, writing_eq_ok, reading_eq_ok, pure_run_eq_ok, bind_eq_ok, pure_eq_ok]
      constructor
      · rintro ⟨_, _, ⟨removed, ran, rfl⟩, _, _, ⟨gone, rfl⟩, rfl, rfl⟩
        exact ⟨removed, ⟨removed, ran, _, gone, rfl⟩, rfl⟩
      · rintro ⟨_, ⟨removed, ran, _, gone, same⟩, rfl⟩
        obtain ⟨rfl, rfl⟩ := Prod.mk.inj same
        exact ⟨(), _, ⟨removed, ran, rfl⟩, (), _, ⟨gone, rfl⟩, rfl, rfl⟩
    · simp only [bind_run_eq_ok, writing_eq_ok, reading_eq_ok, bind_eq_ok, pure_eq_ok, ih]
      constructor
      · rintro ⟨_, _, ⟨removed, ran, rfl⟩, _, _, ⟨gone, rfl⟩, picked, looped, rfl⟩
        exact ⟨picked, ⟨removed, ran, _, gone, looped⟩, rfl⟩
      · rintro ⟨picked, ⟨removed, ran, _, gone, looped⟩, rfl⟩
        exact ⟨(), _, ⟨removed, ran, rfl⟩, (), _, ⟨gone, rfl⟩, picked, looped, rfl⟩

/-- On the store itself the batch is built with the same result. -/
theorem buildInPlace_eq_ok : Ledger.buildInPlace ext context contract maxElements ledger =
    (.ok batch, next) ↔
    ledger.buildOutgoingTXBatch ext context contract maxElements = .ok (batch, next) := by
  simp only [Ledger.buildOutgoingTXBatch, Ledger.buildInPlace, bind_run_eq_ok, reading_eq_ok,
    writing_eq_ok, pure_run_eq_ok, pickInPlace_eq_ok, bind_eq_ok, pure_eq_ok, Prod.exists]
  constructor
  · rintro ⟨_, _, ⟨some, rfl⟩, _, _, ⟨active, rfl⟩, _, _, ⟨profitable, rfl⟩, _, _, ⟨rfl, rfl⟩,
      selected, _, ⟨picked, ran, rfl⟩, _, _, ⟨nonempty, rfl⟩, _, _, rfl, _, _, ⟨rfl, rfl⟩, timeout,
      _, ⟨projected, rfl⟩, _, _, ⟨outgoing, stored, rfl⟩, checkpoint, _, ⟨hashed, rfl⟩, _, _, rfl,
      address, _, ⟨named, rfl⟩, rfl, rfl⟩
    exact ⟨_, some, _, active, _, profitable, selected, picked, ran, _, nonempty, timeout,
      projected, outgoing, stored, checkpoint, hashed, address, named, rfl⟩
  · rintro ⟨_, some, _, active, _, profitable, selected, picked, ran, _, nonempty, timeout,
      projected, outgoing, stored, checkpoint, hashed, address, named, same⟩
    obtain ⟨rfl, rfl⟩ := Prod.mk.inj same
    exact ⟨_, _, ⟨some, rfl⟩, _, _, ⟨active, rfl⟩, _, _, ⟨profitable, rfl⟩, _, _, ⟨rfl, rfl⟩,
      selected, _, ⟨picked, ran, rfl⟩, _, _, ⟨nonempty, rfl⟩, (), _, rfl, _, _, ⟨rfl, rfl⟩, timeout,
      _, ⟨projected, rfl⟩, (), _, ⟨outgoing, stored, rfl⟩, checkpoint, _, ⟨hashed, rfl⟩, (), _, rfl,
      address, _, ⟨named, rfl⟩, rfl, rfl⟩

theorem noError_pickInPlace : NoError (Ledger.pickInPlace params maxElements selected txs) := by
  induction txs generalizing selected with
  | nil => exact noError_pure _
  | cons tx rest ih =>
    unfold Ledger.pickInPlace
    split_ifs with blacklisted full
    · exact ih
    all_goals
      refine .bind (noError_writing fun ledger cause => ?_) fun _ =>
        .bind (noError_reading fun ledger cause => check_ne_error cause) fun _ => ?_
      · exact bind_ne_error (orPanic_ne_error _ cause) fun _ => pure_ne_error
    · exact noError_pure _
    · exact ih

/-- Nothing has been taken from the pool when nothing was selected. -/
theorem pickInPlace_empty
    (ran : Ledger.pickInPlace params maxElements [] txs ledger = (.ok [], next)) : next = ledger := by
  induction txs generalizing ledger with
  | nil => exact (pure_run_eq_ok.mp ran).2.symm
  | cons tx rest ih =>
    obtain ⟨picked, looped, same⟩ := pickInPlace_eq_ok.mp ran
    unfold Outgoing.pickLoop at looped
    split_ifs at looped with blacklisted full
    · exact ih (pickInPlace_eq_ok.mpr ⟨picked, looped, same⟩)
    · simp at looped
    · simp only [bind_eq_ok] at looped
      obtain ⟨_, _, _, _, looped⟩ := looped
      obtain ⟨⟨chosen, taken⟩, _⟩ := pickLoop_extends looped
      simp at taken

theorem getBatchTimeoutHeight_ne_error (cause : Err) :
    context.getBatchTimeoutHeight ≠ .error (.error cause) := by
  unfold Context.getBatchTimeoutHeight
  dsimp only
  split_ifs
  · exact pure_ne_error
  · exact bind_ne_error (check_ne_error cause) fun _ => pure_ne_error

/-- The only error after the pool has been read is that there was nothing to take from it. -/
theorem cleanOnError_buildInPlace :
    CleanOnError (Ledger.buildInPlace ext context contract maxElements) := by
  unfold Ledger.buildInPlace
  refine cleanOnError_reading_bind fun _ => cleanOnError_reading_bind fun _ =>
    cleanOnError_reading_bind fun _ =>
    cleanOnError_reading_bind fun pool => ?_
  intro ledger cause after returned
  rcases bind_run_eq_error returned with early | ⟨selected, picked, ran, late⟩
  · exact absurd early (noError_pickInPlace ledger cause after)
  rcases bind_run_eq_error late with refused | ⟨_, _, _, later⟩
  · have empty : selected = [] := by
      have failed := congrArg Prod.fst refused
      by_contra nonempty
      simp [reading, require, nonempty] at failed
    subst empty
    have unwritten : after = picked := (congrArg Prod.snd refused).symm
    rw [unwritten, pickInPlace_empty ran]
  · refine absurd later
      (NoError.bind ?_ (fun _ => .bind ?_ fun nextID => .bind ?_ fun timeout => .bind ?_ fun _ =>
        .bind ?_ fun checkpoint => .bind ?_ fun _ => .bind ?_ fun _ => noError_pure _) _ _ _)
    · exact noError_writing fun _ _ => pure_ne_error
    · exact noError_reading fun _ _ => pure_ne_error
    · exact noError_reading fun _ => getBatchTimeoutHeight_ne_error
    · exact noError_writing fun _ cause => bind_ne_error
        (bind_ne_error (check_ne_error cause) fun _ => pure_ne_error) fun _ => pure_ne_error
    · exact noError_reading fun _ cause => bind_ne_error (orPanic_ne_error _ cause) fun _ =>
        pure_ne_error
    · exact noError_writing fun _ _ => pure_ne_error
    · exact noError_reading fun _ => orPanic_ne_error _

/-! ## Stored batches are ranked by their nonces -/

/-- Among the stored batches of a token, the later one is worth more. -/
def Outgoing.RankedFees (outgoing : Outgoing) : Prop :=
  ∀ first ∈ outgoing.batches.values, ∀ second ∈ outgoing.batches.values, first.tokenContract =
    second.tokenContract →
    first.batchNonce < second.batchNonce → first.getFees < second.getFees

/-- The stored batches are ranked, and none has nonce zero, which stands for no batch in the search
for the last one. -/
def Outgoing.Ranked (outgoing : Outgoing) : Prop :=
  outgoing.RankedFees ∧ ∀ batch ∈ outgoing.batches.values, 0 < batch.batchNonce

theorem Outgoing.Ranked.of_subset {after : Outgoing} (ranked : outgoing.Ranked)
    (fewer : ∀ batch ∈ after.batches.values, batch ∈ outgoing.batches.values) : after.Ranked :=
  ⟨fun first firstIn second secondIn =>
    ranked.1 first (fewer first firstIn) second (fewer second secondIn), fun batch member =>
      ranked.2 batch (fewer batch member)⟩

/-- The search keeps the batch of the greatest nonce it has seen. -/
theorem foldl_last_batch (token : EthAddress) (batches : List OutgoingTxBatch)
    (last : Option OutgoingTxBatch) :
    let found := batches.foldl (fun last batch =>
      if batch.tokenContract = token ∧ (last.map OutgoingTxBatch.batchNonce).getD 0 < batch.batchNonce
      then some batch else last) last
    (found = last ∨ ∃ batch ∈ batches, found = some batch ∧ batch.tokenContract = token) ∧
      (last.map OutgoingTxBatch.batchNonce).getD 0 ≤ (found.map OutgoingTxBatch.batchNonce).getD 0 ∧
      ∀ batch ∈ batches, batch.tokenContract = token →
        batch.batchNonce ≤ (found.map OutgoingTxBatch.batchNonce).getD 0 := by
  induction batches generalizing last with
  | nil => simp
  | cons head rest ih =>
    simp only [List.foldl_cons]
    split_ifs with later
    · obtain ⟨origin, above, greatest⟩ := ih (some head)
      simp only [Option.map_some, Option.getD_some] at above
      refine ⟨.inr ?_, later.2.le.trans above, ?_⟩
      · rcases origin with same | ⟨batch, member, same, contract⟩
        · exact ⟨head, List.mem_cons_self, same, later.1⟩
        · exact ⟨batch, List.mem_cons_of_mem _ member, same, contract⟩
      · intro batch member contract
        rcases List.mem_cons.mp member with rfl | inRest
        · exact above
        · exact greatest batch inRest contract
    · obtain ⟨origin, above, greatest⟩ := ih last
      refine ⟨origin.imp_right ?_, above, ?_⟩
      · rintro ⟨batch, member, same, contract⟩
        exact ⟨batch, List.mem_cons_of_mem _ member, same, contract⟩
      · intro batch member contract
        rcases List.mem_cons.mp member with rfl | inRest
        · exact (not_lt.mp fun less => later ⟨contract, less⟩).trans above
        · exact greatest batch inRest contract

/-- `GetLastOutgoingBatchByTokenType` finds a batch of the token that no other one has a greater
nonce than. -/
theorem Outgoing.Ranked.last (ranked : outgoing.Ranked) (stored : batch ∈ outgoing.batches.values) :
    ∃ last ∈ outgoing.getLastOutgoingBatchByTokenType batch.tokenContract,
      last ∈ outgoing.batches.values ∧
      last.tokenContract = batch.tokenContract ∧ batch.batchNonce ≤ last.batchNonce := by
  obtain ⟨origin, -, greatest⟩ :=
    foldl_last_batch batch.tokenContract outgoing.getOutgoingTxBatches none
  have listed : batch ∈ outgoing.getOutgoingTxBatches := List.mem_reverse.mpr stored
  have reached := greatest batch listed rfl
  rcases origin with missing | ⟨last, member, found, contract⟩
  · rw [missing] at reached
    exact absurd reached (ranked.2 batch stored).not_ge
  · rw [found] at reached
    exact ⟨last, found, List.mem_reverse.mp member, contract, reached⟩

/-- A new batch is worth more than every stored batch of its token. -/
theorem Built.getFees_lt (built : Built ext ledger batch next)
    (wellFormed : Outgoing.WellFormed ext ledger.outgoing)
    (ranked : ledger.outgoing.Ranked) {earlier : OutgoingTxBatch}
    (stored : earlier ∈ ledger.outgoing.batches.values)
    (contract : earlier.tokenContract = batch.tokenContract) : earlier.getFees < batch.getFees := by
  obtain ⟨last, found, lastStored, lastContract, above⟩ := ranked.last stored
  have profitable : last.getFees < batch.getFees := built.profitable last (contract ▸ found)
  rcases above.lt_or_eq with less | same
  · exact (ranked.1 earlier stored last lastStored lastContract.symm less).trans profitable
  · have key : getOutgoingTxBatchKey earlier.tokenContract earlier.batchNonce =
        getOutgoingTxBatchKey last.tokenContract last.batchNonce := by rw [lastContract, same]
    have found := wellFormed.mem_batches.mp stored
    rw [key, wellFormed.mem_batches.mp lastStored] at found
    exact Option.some.inj found ▸ profitable

theorem Built.ranked (built : Built ext ledger batch next)
    (wellFormed : Outgoing.WellFormed ext ledger.outgoing)
    (ranked : ledger.outgoing.Ranked) : next.outgoing.Ranked := by
  have members : ∀ stored, stored ∈ next.outgoing.batches.values ↔
      stored = batch ∨ stored ∈ ledger.outgoing.batches.values := fun stored => by
    rw [built.stored.mem_iff, List.mem_cons]
  refine ⟨fun first firstIn second secondIn contract less => ?_, fun stored member => ?_⟩
  · rcases (members first).mp firstIn with rfl | firstBefore
    · -- nothing comes after the new batch
      rcases (members second).mp secondIn with rfl | secondBefore
      · exact absurd less (lt_irrefl _)
      · have bound := wellFormed.nonceBound second secondBefore
        have newest := built.nonce
        omega
    · rcases (members second).mp secondIn with rfl | secondBefore
      · exact built.getFees_lt wellFormed ranked firstBefore contract
      · exact ranked.1 first firstBefore second secondBefore contract less
  · rcases (members stored).mp member with rfl | before
    · rw [built.nonce]
      exact Nat.succ_pos _
    · exact ranked.2 stored before

theorem Move.ranked {entry : Entry} (move : Move ext ledger entry next) (tidy : Tidy ext ledger)
    (ranked : ledger.outgoing.Ranked) : next.outgoing.Ranked := by
  cases move with
  | settled settled =>
    rw [settled.outgoing]
    exact ranked
  | forwarded _ _ frame =>
    rw [frame]
    exact ranked
  | issued _ issued =>
    obtain ⟨_, rfl⟩ := issued.result
    exact ranked
  | refunded refunded =>
    obtain ⟨_, _, _, rfl⟩ := refunded.result
    exact ranked
  | built built => exact built.ranked tidy.outgoing ranked
  | cancelled _ cancelled =>
    exact ranked.of_subset fun batch member =>
      cancelled.stored.mem_iff.mpr (List.mem_append_right _ member)
  | executed executed =>
    exact ranked.of_subset fun batch member => executed.finished.stored.mem_iff.mpr
      (List.mem_cons_of_mem _ (List.mem_append_right _ member))
  | registered registered =>
    obtain ⟨_, rfl⟩ := registered.result
    exact ranked
  | deposited deposited =>
    rw [deposited.frame]
    exact ranked
  | rewarded rewarded =>
    rw [rewarded.result]
    exact ranked

/-- A bridge before its first message, whatever the accounts hold and whatever nonce the events
start with. -/
structure UnusedBridge (state : State) : Prop where
  unvoted : ∃ initial, BeforeVotes initial state
  unused : state.ledger = .unused state.ledger.registry.remappedERC20s state.ledger.bank

/-- Events came in order, the stores are tidy and the stored batches are ranked. -/
structure Ranking (ext : External) (trace : List EthereumClaim) (state : State) : Prop where
  ordered : ∃ initial, Ordered ext initial trace state
  tidy : Tidy ext state.ledger
  ranked : state.ledger.outgoing.Ranked

variable {trace handled : List EthereumClaim} {state final : State}

theorem UnusedBridge.ranking (started : UnusedBridge state) : Ranking ext [] state := by
  obtain ⟨⟨initial, fresh, last⟩, unused⟩ := started
  refine ⟨⟨initial, fresh.sound, rfl, last, by simp [fresh.attestations]⟩, ?_, ?_⟩
  · rw [unused]
    exact Ledger.tidy_unused ext _ _
  · rw [unused]
    simp [Ledger.unused, Outgoing.Ranked, Outgoing.RankedFees]

theorem Ranking.step {label : Label} (ranking : Ranking ext trace state)
    (took : step ext label state = (handled, .ok final)) : Ranking ext (trace ++ handled) final := by
  obtain ⟨initial, ordered⟩ := ranking.ordered
  obtain ⟨tidy, ranked⟩ :=
    (step_ledger took).invariant Move.ranked ordered.sound ranking.tidy ranking.ranked
  exact ⟨⟨initial, ordered.step (step_oracle took)⟩, tidy, ranked⟩

theorem ranking_of_reachable (reach : Reachable ext UnusedBridge trace state) :
    Ranking ext trace state :=
  Reach.invariant (fun _ unused => unused.ranking) (fun _ _ _ _ _ _ ranking took _ =>
    ranking.step took) reach

/-- A batch that is built is the most valuable one, a batch that is not built leaves no trace, and
over every run the stored batches of a token are ranked. -/
theorem batch_building (ext : External) :
    (∀ (context : Context) (ledger next : Ledger) (contract : EthAddress) (maxElements : Nat)
      (batch : OutgoingTxBatch), ledger.outgoing.PoolKeyed →
      ledger.buildOutgoingTXBatch ext context contract maxElements = .ok (batch, next) →
      FeeOptimal context.params ledger.outgoing contract maxElements batch next.outgoing) ∧
    (∀ (context : Context) (ledger after : Ledger) (contract : EthAddress) (maxElements : Nat),
      (∀ batch, Ledger.buildInPlace ext context contract maxElements ledger = (.ok batch, after) ↔
        ledger.buildOutgoingTXBatch ext context contract maxElements = .ok (batch, after)) ∧
      ∀ cause, Ledger.buildInPlace ext context contract maxElements ledger =
        (.error (.error cause), after) → after = ledger) ∧
    ∀ (trace : List EthereumClaim) (state : State), Reachable ext UnusedBridge trace state →
      state.ledger.outgoing.PoolKeyed ∧ state.ledger.outgoing.RankedFees := by
  refine ⟨?_, ?_, ?_⟩
  · intro context ledger next contract maxElements batch keyed built
    exact feeOptimal_of_built keyed built
  · intro context ledger after contract maxElements
    exact ⟨fun batch => buildInPlace_eq_ok, fun cause returned =>
      cleanOnError_buildInPlace ledger cause after returned⟩
  · intro trace state reach
    have ranking := ranking_of_reachable reach
    exact ⟨ranking.tidy.outgoing.poolKeys, ranking.ranked.1⟩

/-- A batch of fee one is stored and a transfer of fee two is in the pool. -/
def pooledState : State :=
  ((execute localnet exampleTransfers exampleGenesis).get exampleTransfers_ran).2

/-- The fees of a batch for the token of that transfer, and of all batches stored with it. -/
def pooledFees : Option (Nat × List Nat) :=
  (pooledState.ledger.buildOutgoingTXBatch localnet pooledState.context 5 100).toOption.map
    (fun built =>
      (built.1.getFees, built.2.outgoing.batches.values.map OutgoingTxBatch.getFees))

theorem second_batch_worth_more :
    ∃ trace batch next, Reachable localnet UnusedBridge trace pooledState ∧
      pooledState.ledger.buildOutgoingTXBatch localnet pooledState.context 5 100 = .ok (batch, next) ∧
      batch.getFees = 2 ∧ FeeOptimal pooledState.context.params pooledState.ledger.outgoing 5 100
        batch next.outgoing ∧
      next.outgoing.batches.values.map OutgoingTxBatch.getFees = [1, 2] ∧
        pooledState.ledger.outgoing.RankedFees := by
  obtain ⟨optimal, -, ranked⟩ := batch_building localnet
  have unused : UnusedBridge exampleGenesis :=
    ⟨⟨0, ⟨rfl, by simp [exampleGenesis, genesis]⟩, rfl⟩, rfl⟩
  have reach : Reachable localnet UnusedBridge _ pooledState :=
    reachable_of_execute unused exampleTransfers_ran
  obtain ⟨keyed, byNonce⟩ := ranked _ _ reach
  have fees : pooledFees = some (2, [1, 2]) := by decide +kernel
  unfold pooledFees at fees
  cases built : pooledState.ledger.buildOutgoingTXBatch localnet pooledState.context 5 100 with
  | error fault => simp [built, Except.toOption] at fees
  | ok result =>
      obtain ⟨batch, next⟩ := result
      rw [built] at fees
      obtain ⟨worth, stored⟩ := Prod.mk.inj (Option.some.inj fees)
      exact ⟨_, batch, next, reach, rfl, worth,
        optimal pooledState.context pooledState.ledger next 5 100 batch keyed built, stored, byNonce⟩

end GravityBridge.Keeper
