import GravityBridge.Keeper.BatchSelection

/-!
# The fees shown to relayers

Relayers are shown one entry for each token in the pool, counted in one pass over the whole pool. A
batch is counted in a pass over the transfers of its token, and leaves out those to blacklisted
addresses. The pass over the whole pool does not.
-/

namespace GravityBridge.Keeper

open Lib.Fallible Lib.ByteString Lib.Store Lib.Selection
open GravityBridge.Types List KVStore

namespace Outgoing

/-- An entry of the list for relayers. -/
structure TokenFees where
  token : Bytes
  fees : BatchFees
  deriving DecidableEq, Repr

section

variable (ext : External) (maxElements : Nat)

/-- The visit of `createBatchFees` to one transfer. -/
def countFees (batchFeesMap : KVStore Bytes TokenFees) (tx : OutgoingTransferTx) :
    KVStore Bytes TokenFees :=
  let feeAddrStr := hex ext tx.erc20Fee.contract
  match batchFeesMap.get feeAddrStr with
  | some entry =>
      if entry.fees.txCount < maxElements then
        batchFeesMap.set feeAddrStr
          ⟨entry.token, entry.fees.totalFees + tx.erc20Fee.amount, entry.fees.txCount + 1⟩
      else batchFeesMap
  | none => batchFeesMap.set feeAddrStr ⟨feeAddrStr, tx.erc20Fee.amount, 1⟩

def createBatchFees (outgoing : Outgoing) : KVStore Bytes TokenFees :=
  outgoing.getUnbatchedTransactions.foldl (countFees ext maxElements) .empty

/-- `GetAllBatchFees`. The entries are sorted, so the order in which the map is read does not
matter. -/
def getAllBatchFees (outgoing : Outgoing) : List TokenFees :=
  (outgoing.createBatchFees ext maxElements).values.mergeSort
    (fun first second => decide (first.token ≤ second.token))

end

variable {ext : External} {outgoing : Outgoing} {params : Params} {contract : EthAddress}
  {maxElements : Nat}

/-! ## One token -/

/-- The transfers of a token, those to blacklisted addresses included, in the order in which the
pool is read. -/
def pooled (outgoing : Outgoing) (contract : EthAddress) : List OutgoingTransferTx :=
  outgoing.getUnbatchedTransactions.filter (fun tx => tx.erc20Fee.contract = contract)

/-- What the first transfers of a list would be worth in a batch. -/
def firstFees (maxElements : Nat) (txs : List OutgoingTransferTx) : BatchFees :=
  ⟨((txs.take maxElements).map (fun tx => tx.erc20Fee.amount)).sum, (txs.take maxElements).length⟩

/-- What a visit makes of the entry of a token. -/
def countOwn (maxElements : Nat) (fees : Option BatchFees) (tx : OutgoingTransferTx) :
    Option BatchFees :=
  match fees with
  | some fees =>
      if fees.txCount < maxElements then
        some ⟨fees.totalFees + tx.erc20Fee.amount, fees.txCount + 1⟩ else some fees
  | none => some ⟨tx.erc20Fee.amount, 1⟩

theorem foldl_countOwn_some {txs : List OutgoingTransferTx} {total count : Nat}
    (room : count ≤ maxElements) : txs.foldl (countOwn maxElements) (some ⟨total, count⟩) =
      some ⟨total + (firstFees (maxElements - count) txs).totalFees,
        count + (firstFees (maxElements - count) txs).txCount⟩ := by
  induction txs generalizing total count with
  | nil => simp [firstFees]
  | cons tx rest ih =>
    simp only [foldl_cons, countOwn]
    by_cases full : count < maxElements
    · obtain ⟨left, more⟩ : ∃ left, maxElements - count = left + 1 :=
        ⟨maxElements - count - 1, by omega⟩
      obtain rfl : left = maxElements - (count + 1) := by omega
      rw [if_pos full, ih (by omega), more]
      simp only [firstFees, take_succ_cons, map_cons, sum_cons, length_cons]
      rw [Nat.add_assoc, Nat.add_right_comm count, Nat.add_assoc count]
    · obtain rfl : count = maxElements := by omega
      rw [if_neg full, ih room]
      simp [firstFees]

theorem foldl_countOwn (positive : 1 ≤ maxElements) (txs : List OutgoingTransferTx) :
    txs.foldl (countOwn maxElements) none = if txs = [] then
      none else some (firstFees maxElements txs) := by
  cases txs with
  | nil => rfl
  | cons tx rest =>
    obtain ⟨left, rfl⟩ : ∃ left, maxElements = left + 1 := ⟨maxElements - 1, by omega⟩
    rw [foldl_cons, countOwn, foldl_countOwn_some positive, if_neg (cons_ne_nil _ _)]
    simp [firstFees, Nat.add_comm]

/-! ## The whole pool -/

/-- Every entry is stored under its token. -/
def TokenKeyed (batchFeesMap : KVStore Bytes TokenFees) : Prop :=
  ∀ token entry, batchFeesMap.get token = some entry → entry.token = token

theorem TokenKeyed.countFees {batchFeesMap : KVStore Bytes TokenFees}
    (keyed : TokenKeyed batchFeesMap)
    (tx : OutgoingTransferTx) : TokenKeyed (countFees ext maxElements batchFeesMap tx) := by
  intro token entry found
  unfold Outgoing.countFees at found
  dsimp only at found
  split at found
  · rename_i old stored
    split_ifs at found
    · rw [get_set] at found
      split_ifs at found with same
      · rw [← Option.some.inj found, same]
        exact keyed _ old stored
      · exact keyed token entry found
    · exact keyed token entry found
  · rw [get_set] at found
    split_ifs at found with same
    · rw [← Option.some.inj found, same]
    · exact keyed token entry found

/-- A visit changes the entry of its own token only. -/
theorem get_countFees (batchFeesMap : KVStore Bytes TokenFees) (tx : OutgoingTransferTx)
    (token : Bytes) : ((countFees ext maxElements batchFeesMap tx).get token).map TokenFees.fees =
      if token = hex ext tx.erc20Fee.contract then
        countOwn maxElements ((batchFeesMap.get token).map TokenFees.fees) tx
      else (batchFeesMap.get token).map TokenFees.fees := by
  unfold Outgoing.countFees
  dsimp only
  split
  · rename_i old stored
    split_ifs with room same same
    · subst same
      rw [get_set, if_pos rfl, stored]
      simp [countOwn, room]
    · rw [get_set, if_neg same]
    · subst same
      rw [stored]
      simp [countOwn, room]
    · rfl
  · rename_i absent
    rw [get_set]
    split_ifs with same
    · subst same
      rw [absent]
      rfl
    · rfl

theorem get_foldl_countFees (txs : List OutgoingTransferTx) (start : KVStore Bytes TokenFees)
    (token : Bytes) : ((txs.foldl (countFees ext maxElements) start).get token).map TokenFees.fees =
      (txs.filter (fun tx => token = hex ext tx.erc20Fee.contract)).foldl (countOwn maxElements)
        ((start.get token).map TokenFees.fees) := by
  induction txs generalizing start with
  | nil => rfl
  | cons tx rest ih =>
    rw [foldl_cons, ih, get_countFees, filter_cons]
    split_ifs with same <;> simp_all

theorem tokenKeyed_createBatchFees (outgoing : Outgoing) :
    TokenKeyed (outgoing.createBatchFees ext maxElements) := by
  unfold createBatchFees
  refine List.foldlRecOn (motive := TokenKeyed) _ _ ?_ fun batchFeesMap keyed tx _ =>
    keyed.countFees tx
  intro token entry found
  simp at found

/-- There is an entry for every token in the pool, for its first transfers. -/
theorem mem_getAllBatchFees (positive : 1 ≤ maxElements) {entry : TokenFees} :
    entry ∈ outgoing.getAllBatchFees ext maxElements ↔
      ∃ contract, outgoing.pooled contract ≠ [] ∧
        entry = ⟨hex ext contract, firstFees maxElements (outgoing.pooled contract)⟩ := by
  have own : ∀ contract, (outgoing.getUnbatchedTransactions.filter
      (fun tx => hex ext contract = hex ext tx.erc20Fee.contract)) = outgoing.pooled contract := by
    intro contract
    refine filter_congr fun tx _ =>
      decide_eq_decide.mpr ⟨fun same => (hex_injective ext same).symm, fun same => by rw [same]⟩
  have counted : ∀ token, ((outgoing.createBatchFees ext maxElements).get token).map
      TokenFees.fees = _ := fun token =>
    (get_foldl_countFees outgoing.getUnbatchedTransactions .empty token).trans
      (foldl_countOwn positive _)
  rw [getAllBatchFees, mem_mergeSort, mem_values]
  constructor
  · rintro ⟨token, found⟩
    have fees := counted token
    rw [found, Option.map_some] at fees
    split_ifs at fees with none
    obtain ⟨tx, member⟩ := exists_mem_of_ne_nil _ none
    have named : token = hex ext tx.erc20Fee.contract := by simpa using (mem_filter.mp member).2
    subst named
    rw [own] at none fees
    refine ⟨tx.erc20Fee.contract, none, ?_⟩
    have token := tokenKeyed_createBatchFees outgoing _ entry found
    cases entry
    simp_all
  · rintro ⟨contract, some, rfl⟩
    have fees := counted (hex ext contract)
    rw [own, if_neg some] at fees
    obtain ⟨entry, found, same⟩ := Option.map_eq_some_iff.mp fees
    refine ⟨hex ext contract, ?_⟩
    have token := tokenKeyed_createBatchFees outgoing _ entry found
    cases entry
    simp_all

/-- The entries come in the order of their tokens, each token once. -/
theorem getAllBatchFees_sorted (outgoing : Outgoing) :
    (outgoing.getAllBatchFees ext maxElements).Pairwise
    (fun first second => first.token < second.token) := by
  have sorted : (outgoing.getAllBatchFees ext maxElements).Pairwise
      (fun first second => first.token ≤ second.token) := by
    refine (pairwise_mergeSort ?_ ?_ _).imp of_decide_eq_true
    · intro first second third
      simpa using le_trans
    · intro first second
      simpa using le_total first.token second.token
  have once : ((outgoing.getAllBatchFees ext maxElements).map TokenFees.token).Nodup := by
    refine ((mergeSort_perm _ _).map _).nodup_iff.mpr (nodup_of_keyed fun token entry found => ?_)
    exact (tokenKeyed_createBatchFees outgoing token entry found).symm
  exact sorted.imp₂ (fun _ _ => lt_of_le_of_ne) (pairwise_map.mp once)

/-! ## Against the batch of a token -/

/-- Without a blacklist everything of a token could be picked. -/
theorem PoolKeyed.pooled_eq (keyed : outgoing.PoolKeyed) (params : Params) (contract : EthAddress) :
    outgoing.pooled contract = outgoing.pickable { params with ethereumBlacklist := [] }
      contract := by
  rw [keyed.pickable_eq, eligible, ← filter_reverse]
  exact filter_congr fun tx _ => by simp [Params.isOnBlacklist]

theorem PoolKeyed.pickable_sublist (keyed : outgoing.PoolKeyed) (params : Params)
    (contract : EthAddress) :
    (outgoing.pickable params contract).Sublist (outgoing.pooled contract) := by
  rw [keyed.pickable_eq, eligible, ← filter_reverse, pooled, getUnbatchedTransactions]
  refine monotone_filter_right _ fun tx => ?_
  simp +contextual

/-- The list for relayers has one entry for every token with a transfer that could be picked, with
what the batch of this token would be worth. -/
structure ShownExactly (ext : External) (params : Params) (outgoing : Outgoing)
    (maxElements : Nat) : Prop where
  sorted : (outgoing.getAllBatchFees ext maxElements).Pairwise
    (fun first second => first.token < second.token)
  tokens : ∀ token, token ∈ (outgoing.getAllBatchFees ext maxElements).map TokenFees.token ↔
    ∃ contract, token = hex ext contract ∧ outgoing.eligible params contract ≠ []
  entries : ∀ contract, ∀ entry ∈ outgoing.getAllBatchFees ext maxElements,
  entry.token = hex ext contract →
    outgoing.getBatchFeeByTokenType params contract maxElements = .ok entry.fees

/-- The highest fees of a token are those of transfers that could be picked. -/
def UnspoiledFees (params : Params) (outgoing : Outgoing) (maxElements : Nat) : Prop :=
  ∀ contract, ((outgoing.pickable params contract).take maxElements).map
    (fun tx => tx.erc20Fee.amount) =
    ((outgoing.pooled contract).take maxElements).map (fun tx => tx.erc20Fee.amount)

theorem PoolKeyed.shownExactly_iff (keyed : outgoing.PoolKeyed) (positive : 1 ≤ maxElements) :
    outgoing.ShownExactly ext params maxElements ↔ outgoing.UnspoiledFees params maxElements := by
  have fees : ∀ contract, outgoing.getBatchFeeByTokenType params contract maxElements =
      .ok (firstFees maxElements (outgoing.pickable params contract)) :=
    fun contract =>
      keyed.getBatchFeeByTokenType_eq params contract (Nat.one_le_iff_ne_zero.mp positive)
  constructor
  · rintro ⟨-, tokens, entries⟩ contract
    have sublist := keyed.pickable_sublist params contract
    by_cases none : outgoing.pooled contract = []
    · rw [none, sublist_nil] at sublist
      rw [none, sublist]
    · have shown : _ ∈ outgoing.getAllBatchFees ext maxElements :=
        (mem_getAllBatchFees positive).mpr ⟨contract, none, rfl⟩
      have same := (fees contract).symm.trans (entries contract _ shown rfl)
      obtain ⟨total, count⟩ := BatchFees.mk.inj (Except.ok.inj same)
      have sorted := keyed.pickable_sorted { params with ethereumBlacklist := [] } contract
      rw [← keyed.pooled_eq params contract] at sorted
      exact map_take_eq_of_sublist sorted sublist count total
  · intro unspoiled
    have some : ∀ contract, outgoing.pooled contract ≠ [] ↔
        outgoing.eligible params contract ≠ [] := by
      intro contract
      have eligible : outgoing.eligible params contract = [] ↔
          outgoing.pickable params contract = [] := by
        rw [keyed.pickable_eq, reverse_eq_nil_iff]
      rw [ne_eq, ne_eq, eligible, not_iff_not]
      have same := unspoiled contract
      obtain ⟨left, rfl⟩ : ∃ left, maxElements = left + 1 := ⟨maxElements - 1, by omega⟩
      cases pooled : outgoing.pooled contract <;> cases pickable : outgoing.pickable params contract
        <;> simp_all
    refine ⟨getAllBatchFees_sorted outgoing, fun token => ?_, fun contract entry member named => ?_⟩
    · simp only [mem_map, mem_getAllBatchFees positive, some]
      constructor
      · rintro ⟨_, ⟨contract, batchable, rfl⟩, rfl⟩
        exact ⟨contract, rfl, batchable⟩
      · rintro ⟨contract, rfl, batchable⟩
        exact ⟨_, ⟨contract, batchable, rfl⟩, rfl⟩
    · obtain ⟨other, -, rfl⟩ := (mem_getAllBatchFees positive).mp member
      obtain rfl := hex_injective ext named
      have same := unspoiled other
      have length := congrArg List.length same
      simp only [length_map] at length
      rw [fees, firstFees, same, length]
      rfl

end Outgoing

variable {ext : External} {context : Context} {ledger : Ledger} {maxElements : Nat}

/-- Relayers see what they would get exactly when the highest fees of every token are those of
transfers that could be picked. What a batch would be worth is what it is worth once it is built. -/
theorem all_batch_fees_exact (keyed : ledger.outgoing.PoolKeyed) (positive : 1 ≤ maxElements) :
    (ledger.outgoing.ShownExactly ext context.params maxElements ↔
      ledger.outgoing.UnspoiledFees context.params maxElements) ∧
      ∀ contract batch next, ledger.buildOutgoingTXBatch ext context contract maxElements =
        .ok (batch, next) →
        ledger.outgoing.getBatchFeeByTokenType context.params contract maxElements =
          .ok ⟨batch.getFees, batch.transactions.length⟩ :=
  ⟨keyed.shownExactly_iff positive, fun _ _ _ built => (feeOptimal_of_built keyed built).estimated⟩

/-- A transfer of ERC20 five with this fee, named after its destination. -/
def feeTransfer (destAddress : EthAddress) (fee : Nat) : OutgoingTransferTx :=
  ⟨destAddress.val, ascii "holder", destAddress, ⟨5, 10⟩, ⟨5, fee⟩⟩

/-- Two transfers wait, one to address seven with the higher fee. -/
def feeLedger : Ledger :=
  { Ledger.unused [] Bank.empty with
    outgoing := ⟨(KVStore.empty.set (getOutgoingTxPoolKey ⟨5, 1⟩ 3) (feeTransfer 3 1)).set
      (getOutgoingTxPoolKey ⟨5, 9⟩ 7) (feeTransfer 7 9), .empty, .empty, 7, 0⟩ }

def feeContext (ethereumBlacklist : List EthAddress) : Context :=
  { exampleGenesis.context with
    params := { exampleGenesis.params with ethereumBlacklist := ethereumBlacklist } }

theorem poolKeyed_feeLedger : feeLedger.outgoing.PoolKeyed := by
  intro key tx found
  simp only [feeLedger, get_set, get_empty] at found
  split_ifs at found with second first
  · rw [second, ← Option.some.inj found]
    rfl
  · rw [first, ← Option.some.inj found]
    rfl

/-- Nobody is blacklisted: relayers see the batch of both transfers. -/
theorem both_fees_shown :
    feeLedger.outgoing.ShownExactly localnet (feeContext []).params 100 ∧
      feeLedger.outgoing.getAllBatchFees localnet 100 = [⟨hex localnet 5, 10, 2⟩] := by
  obtain ⟨shown, -⟩ : (feeLedger.outgoing.ShownExactly localnet (feeContext []).params 100 ↔ _) ∧ _ :=
    all_batch_fees_exact poolKeyed_feeLedger (by decide)
  refine ⟨shown.mpr fun contract => ?_, by decide +kernel⟩
  rw [poolKeyed_feeLedger.pooled_eq (feeContext []).params contract]
  rfl

/-- Address seven is blacklisted: relayers still see both fees, and the batch is worth the lower
one. -/
theorem blacklisted_fee_shown :
    feeLedger.outgoing.getAllBatchFees localnet 100 = [⟨hex localnet 5, 10, 2⟩] ∧
      feeLedger.outgoing.getBatchFeeByTokenType (feeContext [7]).params 5 100 = .ok ⟨1, 1⟩ := by
  exact ⟨by decide +kernel, by decide +kernel⟩

end GravityBridge.Keeper
