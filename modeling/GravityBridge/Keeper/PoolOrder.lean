import GravityBridge.Keeper.BatchSelection
import GravityBridge.Keeper.StoreKeys
import GravityBridge.Lib.Iteration

/-!
# The order of the pool

A transfer of the pool is stored under bytes that are made from its contract, its fee and
its id. The bytes are ordered as these three, so a backwards iterator over the keys of a
contract visits its transfers from the highest fee to the lowest. The store also holds
everything else of the module.
-/

namespace GravityBridge.Keeper

open Lib.Fallible Lib.ByteString Lib.Store Lib.Digits
open Lib.Reading Lib.ByteOrder Lib.Iteration GravityBridge.Types List KVStore

/-! ## Keys -/

/-- `GetAddress().Bytes()`. -/
def addressBytes (address : EthAddress) : Bytes := (bigEndian 256 20 address.val).map UInt8.ofNat

/-- `FillBytes` on a buffer of thirty-two bytes. -/
def fillBytes (number : Nat) : Go Bytes := do
  check (number < 2 ^ 256) "math/big: buffer too small to fit value"
  pure ((bigEndian 256 32 number).map UInt8.ofNat)

namespace StoreKeys

def getOutgoingTxPoolContractPrefix (contract : EthAddress) : Bytes :=
  StoreName.outgoingTXPoolKey.bytes ++ addressBytes contract

def getOutgoingTxPoolKey (fee : ERC20Token) (id : U64) : Go Bytes := do
  let amount ← fillBytes fee.amount
  pure (StoreName.outgoingTXPoolKey.bytes ++
    (addressBytes fee.contract ++ (amount ++ uint64Bytes id)))

end StoreKeys

/-- The key of a fee that fits into the buffer. -/
def poolKey (contract : EthAddress) (fee : U256) (id : U64) : Bytes :=
  StoreName.outgoingTXPoolKey.bytes ++
    (addressBytes contract ++ ((bigEndian 256 32 fee.val).map UInt8.ofNat ++ uint64Bytes id))

theorem getOutgoingTxPoolKey_eq (contract : EthAddress) (fee : U256) (id : U64) :
    StoreKeys.getOutgoingTxPoolKey ⟨contract, fee.val⟩ id = .ok (poolKey contract fee id) := by
  have fits : fillBytes fee.val = .ok ((bigEndian 256 32 fee.val).map UInt8.ofNat) := by
    simp [fillBytes]
  rw [StoreKeys.getOutgoingTxPoolKey, fits]
  rfl

section

variable {first second : EthAddress} {fee other : U256} {id number : U64}

@[simp] theorem length_addressBytes (address : EthAddress) : (addressBytes address).length = 20 := by
  simp [addressBytes]

theorem addressBytes_inj : addressBytes first = addressBytes second ↔ first = second :=
  fin_bytes_inj (by decide)

/-- The bytes of the keys are ordered as the contracts, then the fees, then the ids. -/
theorem poolKey_lt_iff : poolKey first fee id < poolKey second other number ↔
    addressBytes first < addressBytes second ∨ first = second ∧
      (fee < other ∨ fee = other ∧ id < number) := by
  rw [poolKey, poolKey, append_lt_append_iff rfl, append_lt_append_iff (by simp),
    append_lt_append_iff (by simp), fin_bytes_lt_iff (by decide), fin_bytes_inj (by decide),
    addressBytes_inj, uint64Bytes, uint64Bytes, fin_bytes_lt_iff (by decide),
    or_iff_right (lt_irrefl _), and_iff_right rfl]

theorem poolKey_inj : poolKey first fee id = poolKey second other number ↔
    first = second ∧ fee = other ∧ id = number := by
  constructor
  · intro same
    rw [poolKey, poolKey, append_right_inj] at same
    obtain ⟨contracts, rest⟩ := append_inj same (by simp)
    obtain ⟨fees, ids⟩ := append_inj rest (by simp)
    have fits : 2 ^ 256 ≤ 256 ^ 32 ∧ 2 ^ 64 ≤ 256 ^ 8 := by decide
    exact ⟨addressBytes_inj.mp contracts, (fin_bytes_inj fits.1).mp fees,
      (fin_bytes_inj fits.2).mp ids⟩
  · rintro ⟨rfl, rfl, rfl⟩
    rfl

/-- A key starts with what the keys of a contract start with if it is one of them. -/
theorem contractPrefix_poolKey_iff :
    StoreKeys.getOutgoingTxPoolContractPrefix first <+: poolKey second fee id ↔ second = first := by
  rw [StoreKeys.getOutgoingTxPoolContractPrefix, poolKey, prefix_append_right_inj]
  constructor
  · rintro ⟨tail, same⟩
    exact (addressBytes_inj.mp (append_inj same (by simp)).1).symm
  · rintro rfl
    exact prefix_append _ _

end

/-! ## Iterating -/

section

variable {ν σ : Type} (codec : Codec ν OutgoingTransferTx)

/-- The loop over the entries that the iterator gives. -/
def visitTransfers (callback : Bytes × OutgoingTransferTx → σ → σ × Bool) :
    List (Bytes × ν) → σ → Go σ
  | [], state => pure state
  | entry :: rest, state => do
      let transact ← unwrap "invalid unbatched transaction in store" (codec.unmarshal entry.2)
      if (callback (entry.1, transact) state).2 then pure (callback (entry.1, transact) state).1
      else visitTransfers callback rest (callback (entry.1, transact) state).1

def filterAndIterateUnbatchedTransactions (store : KVStore Bytes ν) (prefixKey : Bytes)
    (callback : Bytes × OutgoingTransferTx → σ → σ × Bool) (state : σ) : Go σ := do
  let range ← prefixRange (some prefixKey)
  visitTransfers codec callback (reverseIterator store range) state

/-- The key of a transfer whose fee and id have the sizes of the source. -/
def transferKey (tx : OutgoingTransferTx) : Bytes :=
  poolKey tx.erc20Fee.contract (Fin.ofNat _ tx.erc20Fee.amount) (Fin.ofNat _ tx.id)

/-- The pool in the store of the module, among everything else that the module stores. -/
structure StoresPool (store : KVStore Bytes ν) (pool : KVStore PoolKey OutgoingTransferTx) :
    Prop where
  named : Named store
  keyed : ∀ key tx, pool.get key = some tx → key = getOutgoingTxPoolKey tx.erc20Fee tx.id
  fits : ∀ tx ∈ pool.values, tx.erc20Fee.amount < 2 ^ 256 ∧ tx.id < 2 ^ 64
  stored : ∀ tx ∈ pool.values, ∃ value, store.get (transferKey tx) = some value ∧
    codec.unmarshal value = some tx
  only : ∀ key value, store.get key = some value → StoreName.outgoingTXPoolKey.bytes <+: key →
    ∃ tx ∈ pool.values, key = transferKey tx ∧ codec.unmarshal value = some tx

variable {codec}

theorem visitTransfers_eq {callback : Bytes × OutgoingTransferTx → σ → σ × Bool}
    {entries : List (Bytes × ν)}
    {transfers : List OutgoingTransferTx} (read : List.Forall₂ (fun entry tx =>
      entry.1 = transferKey tx ∧ codec.unmarshal entry.2 = some tx) entries transfers) (state : σ) :
    visitTransfers codec callback entries state =
      .ok (deliver callback (transfers.map fun tx => (transferKey tx, tx)) state) := by
  induction read generalizing state with
  | nil => rfl
  | cons first _ ih =>
    obtain ⟨key, unmarshalled⟩ := first
    rw [visitTransfers, unmarshalled, key, map_cons, deliver]
    split_ifs with stop
    · simp [unwrap, stop]
    · simp [unwrap, stop, ih]

variable {store : KVStore Bytes ν} {pool : KVStore PoolKey OutgoingTransferTx}

/-- Transfers with fees and ids of the sizes of the source are stored in the order of the pool. -/
theorem transferKey_lt {first second : OutgoingTransferTx}
    (firstFits : first.erc20Fee.amount < 2 ^ 256 ∧ first.id < 2 ^ 64)
    (secondFits : second.erc20Fee.amount < 2 ^ 256 ∧ second.id < 2 ^ 64)
    (less : getOutgoingTxPoolKey first.erc20Fee first.id <
      getOutgoingTxPoolKey second.erc20Fee second.id) :
    transferKey first < transferKey second := by
  have number : ∀ {bound value : Nat} [NeZero bound], value < bound →
      (Fin.ofNat bound value).val = value :=
    fun fits => Nat.mod_eq_of_lt fits
  rw [transferKey, transferKey, poolKey_lt_iff, addressBytes, addressBytes,
    fin_bytes_lt_iff (by decide)]
  simp only [Fin.lt_def, Fin.ext_iff, number firstFits.1, number firstFits.2, number secondFits.1,
    number secondFits.2]
  simpa only [getOutgoingTxPoolKey, Prod.Lex.toLex_lt_toLex, Fin.lt_def, Fin.ext_iff] using less

theorem transferKey_inj {first second : OutgoingTransferTx}
    (firstFits : first.erc20Fee.amount < 2 ^ 256 ∧ first.id < 2 ^ 64)
    (secondFits : second.erc20Fee.amount < 2 ^ 256 ∧ second.id < 2 ^ 64)
    (same : transferKey first = transferKey second) :
    getOutgoingTxPoolKey first.erc20Fee first.id =
      getOutgoingTxPoolKey second.erc20Fee second.id := by
  rcases lt_trichotomy (getOutgoingTxPoolKey first.erc20Fee first.id)
    (getOutgoingTxPoolKey second.erc20Fee second.id) with
    less | equal | more
  · exact absurd same (transferKey_lt firstFits secondFits less).ne
  · exact equal
  · exact absurd same (transferKey_lt secondFits firstFits more).ne'

/-- An entry as it is read. -/
def readEntry (codec : Codec ν OutgoingTransferTx) (entry : Bytes × ν) :
    Bytes × Option OutgoingTransferTx :=
  (entry.1, codec.unmarshal entry.2)

/-- The iterator over the keys of a contract reads its transfers in the order of the pool. -/
theorem StoresPool.iterator_eq (stores : StoresPool codec store pool) {contract : EthAddress}
    {range : Option Bytes × Option Bytes}
    (made : prefixRange (some (StoreKeys.getOutgoingTxPoolContractPrefix contract)) = .ok range) :
    (iterator store range).map (readEntry codec) =
      (pool.values.filter (fun tx => tx.erc20Fee.contract = contract)).map
      (fun tx => (transferKey tx, some tx)) := by
  have long : ∀ key value, store.get key = some value → StoreName.outgoingTXPoolKey.bytes <+: key →
      16 + (addressBytes contract).length ≤ key.length := by
    intro key value found starts
    obtain ⟨tx, _, rfl, _⟩ := stores.only key value found starts
    simp [transferKey, poolKey, uint64Bytes]
  rw [iterator_eq_filter stores.named long made]
  have inPool : pool.values.Pairwise (fun first second =>
      getOutgoingTxPoolKey first.erc20Fee first.id <
        getOutgoingTxPoolKey second.erc20Fee second.id) :=
    values_pairwise stores.keyed
  have order : Std.Irrefl fun first second : Bytes × Option OutgoingTransferTx =>
      first.1 < second.1 :=
    ⟨fun _ => lt_irrefl _⟩
  refine List.Pairwise.eq_of_mem_iff (r := fun first second => first.1 < second.1) ?_ ?_ ?_
  · exact pairwise_map.mpr (store.sorted.filter _)
  · refine pairwise_map.mpr
      ((inPool.filter _).imp_of_mem fun {first second} firstIn secondIn less => ?_)
    exact transferKey_lt (stores.fits _ (mem_of_mem_filter firstIn))
      (stores.fits _ (mem_of_mem_filter secondIn)) less
  · rintro ⟨key, transact⟩
    simp only [mem_map, mem_filter, decide_eq_true_eq, readEntry, Prod.mk.injEq]
    constructor
    · rintro ⟨⟨_, value⟩, ⟨member, starts⟩, rfl, rfl⟩
      have contractKeys := isPrefixOf_iff_prefix.mp starts
      have found := mem_entries.mp member
      obtain ⟨tx, pooled, rfl, unmarshalled⟩ :=
        stores.only _ _ found ((prefix_append _ _).trans contractKeys)
      exact ⟨tx, ⟨pooled, contractPrefix_poolKey_iff.mp contractKeys⟩, rfl, unmarshalled.symm⟩
    · rintro ⟨tx, ⟨pooled, rfl⟩, rfl, rfl⟩
      obtain ⟨value, found, unmarshalled⟩ := stores.stored tx pooled
      have contractKeys : StoreKeys.getOutgoingTxPoolContractPrefix tx.erc20Fee.contract <+:
          transferKey tx :=
        contractPrefix_poolKey_iff.mpr rfl
      exact ⟨(transferKey tx, value),
        ⟨mem_entries.mpr found, isPrefixOf_iff_prefix.mpr contractKeys⟩, rfl, unmarshalled⟩

/-- The transfers of a contract that the iterator visits, from the last key to the first. -/
def transfersOf (pool : KVStore PoolKey OutgoingTransferTx) (contract : EthAddress) :
    List OutgoingTransferTx :=
  (pool.values.filter (fun tx => tx.erc20Fee.contract = contract)).reverse

theorem StoresPool.filterAndIterate_eq (stores : StoresPool codec store pool) (contract : EthAddress)
    (callback : Bytes × OutgoingTransferTx → σ → σ × Bool) (state : σ) :
    filterAndIterateUnbatchedTransactions codec store
      (StoreKeys.getOutgoingTxPoolContractPrefix contract) callback state =
      .ok (deliver callback ((transfersOf pool contract).map fun tx => (transferKey tx, tx))
        state) := by
  obtain ⟨stop, made, _⟩ :=
    prefixRange_eq (StoreName.append_ne_nil .outgoingTXPoolKey (addressBytes contract))
  change prefixRange (some (StoreKeys.getOutgoingTxPoolContractPrefix contract)) = _ at made
  have lists := stores.iterator_eq made
  rw [← List.forall₂_eq_eq_eq, List.forall₂_map_left_iff, List.forall₂_map_right_iff] at lists
  have entries : List.Forall₂ (fun entry tx => entry.1 = transferKey tx ∧
      codec.unmarshal entry.2 = some tx)
      (reverseIterator store (some (StoreKeys.getOutgoingTxPoolContractPrefix contract), stop))
        (transfersOf pool contract) :=
    rel_reverse (lists.imp fun _ _ same => Prod.mk.inj same)
  rw [filterAndIterateUnbatchedTransactions, made, ok_bind]
  exact visitTransfers_eq entries state

theorem StoresPool.transfersOf_sorted (stores : StoresPool codec store pool) (contract : EthAddress) :
    (transfersOf pool contract).Pairwise
    (fun first second => second.erc20Fee.amount ≤ first.erc20Fee.amount) := by
  have inPool : pool.values.Pairwise (fun first second =>
      getOutgoingTxPoolKey first.erc20Fee first.id <
        getOutgoingTxPoolKey second.erc20Fee second.id) :=
    values_pairwise stores.keyed
  rw [transfersOf, pairwise_reverse]
  refine (inPool.filter _).imp_of_mem fun {first second} firstIn secondIn less => ?_
  have firstContract : first.erc20Fee.contract = contract := by simpa using (mem_filter.mp firstIn).2
  have secondContract : second.erc20Fee.contract = contract := by
    simpa using (mem_filter.mp secondIn).2
  simp only [getOutgoingTxPoolKey, Prod.Lex.toLex_lt_toLex, firstContract, secondContract,
    lt_irrefl, false_or, true_and] at less
  rcases less with fees | ⟨fees, _⟩
  · exact fees.le
  · exact fees.le

/-- `addUnbatchedTX` on the store. -/
theorem StoresPool.add (stores : StoresPool codec store pool) (tx : OutgoingTransferTx)
    (fits : tx.erc20Fee.amount < 2 ^ 256 ∧ tx.id < 2 ^ 64)
    (fresh : pool.get (getOutgoingTxPoolKey tx.erc20Fee tx.id) = none) :
    StoresPool codec (store.set (transferKey tx) (codec.marshal tx))
      (pool.set (getOutgoingTxPoolKey tx.erc20Fee tx.id) tx) := by
  have kept : ∀ other ∈ pool.values, pool.get (getOutgoingTxPoolKey other.erc20Fee other.id) =
      some other := by
    intro other member
    obtain ⟨key, found⟩ := mem_values.mp member
    rwa [← stores.keyed key other found]
  have apart : ∀ other ∈ pool.values, transferKey other ≠ transferKey tx := by
    intro other member same
    have found := kept other member
    rw [transferKey_inj (stores.fits other member) fits same, fresh] at found
    contradiction
  have inside : ∀ other ∈ pool.values, other ∈
      (pool.set (getOutgoingTxPoolKey tx.erc20Fee tx.id) tx).values :=
    fun other member => (values_set_perm tx fresh).mem_iff.mpr (mem_cons_of_mem _ member)
  have added : tx ∈ (pool.set (getOutgoingTxPoolKey tx.erc20Fee tx.id) tx).values :=
    (values_set_perm tx fresh).mem_iff.mpr mem_cons_self
  refine ⟨fun key value found => ?_, fun key other found => ?_, fun other member => ?_,
    fun other member => ?_, fun key value found starts => ?_⟩
  · rw [get_set] at found
    split_ifs at found with same
    · exact ⟨.outgoingTXPoolKey, same ▸ prefix_append _ _⟩
    · exact stores.named key value found
  · rw [get_set] at found
    split_ifs at found with same
    · exact Option.some.inj found ▸ same
    · exact stores.keyed key other found
  · rcases mem_values_set member with rfl | before
    · exact fits
    · exact stores.fits other before
  · rcases mem_values_set member with rfl | before
    · exact ⟨_, by rw [get_set, if_pos rfl], codec.unmarshal_marshal other⟩
    · obtain ⟨value, found, unmarshalled⟩ := stores.stored other before
      exact ⟨value, by rw [get_set, if_neg (apart other before), found], unmarshalled⟩
  · rw [get_set] at found
    split_ifs at found with same
    · exact ⟨tx, added, same, Option.some.inj found ▸ codec.unmarshal_marshal tx⟩
    · obtain ⟨other, before, keyed, unmarshalled⟩ := stores.only key value found starts
      exact ⟨other, inside other before, keyed, unmarshalled⟩

end

/-- The keys of the pool determine contract, fee and id and are ordered as these, and an iterator
over the keys of a contract hands its transfers to the callback, each once, from the highest fee to
the lowest. -/
theorem pool_keys_order_transfers :
    (∀ (first second : EthAddress) (fee other : U256) (id number : U64), ∃ key next,
      StoreKeys.getOutgoingTxPoolKey ⟨first, fee.val⟩ id = .ok key ∧
      StoreKeys.getOutgoingTxPoolKey ⟨second, other.val⟩ number = .ok next ∧
      (key = next ↔ first = second ∧ fee = other ∧ id = number) ∧
      (key < next ↔ addressBytes first < addressBytes second ∨
        addressBytes first = addressBytes second ∧ (fee < other ∨ fee = other ∧ id < number))) ∧
    ∀ (ν : Type) (codec : Codec ν OutgoingTransferTx) (store : KVStore Bytes ν)
      (pool : KVStore PoolKey OutgoingTransferTx), StoresPool codec store pool →
        ∀ contract : EthAddress,
      ∃ visits : List (Bytes × OutgoingTransferTx),
        (∀ (σ : Type) (callback : Bytes × OutgoingTransferTx → σ → σ × Bool) (state : σ),
          filterAndIterateUnbatchedTransactions codec store
            (StoreKeys.getOutgoingTxPoolContractPrefix contract) callback
            state = .ok (deliver callback visits state)) ∧
        (∀ tx, tx ∈ visits.map Prod.snd ↔ tx ∈ pool.values ∧ tx.erc20Fee.contract = contract) ∧
        (visits.map Prod.snd).Nodup ∧
        visits.Pairwise (fun first second => second.2.erc20Fee.amount ≤ first.2.erc20Fee.amount) := by
  refine ⟨fun first second fee other id number => ⟨_, _, getOutgoingTxPoolKey_eq first fee id,
    getOutgoingTxPoolKey_eq second other number, poolKey_inj, ?_⟩,
    fun ν codec store pool stores contract => ?_⟩
  · rw [poolKey_lt_iff, addressBytes_inj]
  · have visited : ((transfersOf pool contract).map fun tx => (transferKey tx, tx)).map Prod.snd =
        transfersOf pool contract := by
      rw [List.map_map]
      exact List.map_id _
    refine ⟨_, fun _ => stores.filterAndIterate_eq contract, fun tx => ?_, ?_, ?_⟩
    · rw [visited]
      simp [transfersOf]
    · rw [visited, transfersOf, List.nodup_reverse]
      exact (List.Nodup.of_map _ (KVStore.nodup_of_keyed stores.keyed)).filter _
    · exact List.pairwise_map.mpr (stores.transfersOf_sorted contract)

/-- Two transfers of one contract and one of another. -/
def threeTransfers : List OutgoingTransferTx :=
  [⟨1, [1], 9, ⟨5, 100⟩, ⟨5, 3⟩⟩, ⟨2, [2], 9, ⟨5, 100⟩, ⟨5, 8⟩⟩, ⟨3, [1], 9, ⟨6, 100⟩, ⟨6, 4⟩⟩]

def optionCodec : Codec (Option OutgoingTransferTx) OutgoingTransferTx := ⟨some, id, fun _ => rfl⟩

/-- The parameters of the module and the transfers. -/
def threeTransfersStore : KVStore Bytes (Option OutgoingTransferTx) :=
  threeTransfers.foldl (fun store tx => store.set (transferKey tx) (some tx))
    (KVStore.empty.set StoreName.paramsKey.bytes none)

def threeTransfersPool : KVStore PoolKey OutgoingTransferTx :=
  threeTransfers.foldl (fun pool tx => pool.set (getOutgoingTxPoolKey tx.erc20Fee tx.id) tx) .empty

theorem threeTransfers_stored : StoresPool optionCodec threeTransfersStore threeTransfersPool := by
  obtain ⟨named, params⟩ := named_single .paramsKey (none : Option OutgoingTransferTx)
  have start : StoresPool optionCodec (KVStore.empty.set StoreName.paramsKey.bytes none) .empty :=
    ⟨named, by simp, by simp, by simp, fun key value found starts =>
      absurd starts (params key value found .outgoingTXPoolKey (by decide))⟩
  have first := start.add ⟨1, [1], 9, ⟨5, 100⟩, ⟨5, 3⟩⟩ (by decide) (by decide +kernel)
  have second := first.add ⟨2, [2], 9, ⟨5, 100⟩, ⟨5, 8⟩⟩ (by decide) (by decide +kernel)
  exact second.add ⟨3, [1], 9, ⟨6, 100⟩, ⟨6, 4⟩⟩ (by decide) (by decide +kernel)

theorem threeTransfers_visited :
    StoresPool optionCodec threeTransfersStore threeTransfersPool ∧
      ∃ visits : List (Bytes × OutgoingTransferTx),
        (∀ (σ : Type) (callback : Bytes × OutgoingTransferTx → σ → σ × Bool) (state : σ),
          filterAndIterateUnbatchedTransactions optionCodec threeTransfersStore
          (StoreKeys.getOutgoingTxPoolContractPrefix 5) callback state =
            .ok (deliver callback visits state)) ∧
      (∀ tx, tx ∈ visits.map Prod.snd ↔ tx ∈ threeTransfersPool.values ∧ tx.erc20Fee.contract = 5) ∧
      (visits.map Prod.snd).Nodup ∧
      visits.Pairwise (fun first second => second.2.erc20Fee.amount ≤ first.2.erc20Fee.amount) :=
  ⟨threeTransfers_stored, pool_keys_order_transfers.2 _ _ _ _ threeTransfers_stored 5⟩

end GravityBridge.Keeper
