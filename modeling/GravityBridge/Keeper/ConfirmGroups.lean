import GravityBridge.Keeper.Genesis
import GravityBridge.Keeper.StoreKeys
import GravityBridge.Lib.Iteration

/-!
# Confirms by nonce

The confirms of validator sets are stored under their nonce and the orchestrator that sent
them. One function reads those of a nonce. Another one walks backwards over all of them,
collects what has the same nonce and calls back once for each nonce.
-/

namespace GravityBridge.Keeper

open Lib.Fallible Lib.ByteString Lib.Store Lib.Digits
open Lib.Reading Lib.ByteOrder Lib.Iteration GravityBridge.Types List KVStore

/-! ## Keys -/

namespace StoreKeys

def getValsetConfirmNoncePrefix (nonce : U64) : Bytes :=
  StoreName.valsetConfirmKey.bytes ++ uint64Bytes nonce

def getValsetConfirmKey (nonce : U64) (validator : AccAddress) : Go Bytes := do
  orPanic "invalid validator address" (verifyAddressFormat validator)
  pure (getValsetConfirmNoncePrefix nonce ++ validator)

end StoreKeys

open StoreKeys (getValsetConfirmNoncePrefix)

theorem name_isPrefix (nonce : U64) (validator : AccAddress) :
    StoreName.valsetConfirmKey.bytes <+: getValsetConfirmNoncePrefix nonce ++ validator :=
  (prefix_append _ _).trans (prefix_append _ _)

variable {nonce other : U64} {validator : AccAddress} {second : AccAddress}

theorem noncePrefix_isPrefix_iff :
    getValsetConfirmNoncePrefix nonce <+: getValsetConfirmNoncePrefix other ++ validator ↔
      other = nonce := by
  rw [getValsetConfirmNoncePrefix, getValsetConfirmNoncePrefix, append_assoc, prefix_append_right_inj]
  constructor
  · rintro ⟨tail, same⟩
    exact ((fin_bytes_inj (by decide)).mp (append_inj same (by simp [uint64Bytes])).1).symm
  · rintro rfl
    exact prefix_append _ _

/-- The keys are ordered by nonce first. -/
theorem noncePrefix_append_lt_iff :
    getValsetConfirmNoncePrefix nonce ++ validator < getValsetConfirmNoncePrefix other ++ second ↔
      nonce < other ∨ nonce = other ∧ validator < second := by
  rw [getValsetConfirmNoncePrefix, getValsetConfirmNoncePrefix, append_assoc, append_assoc,
    append_lt_append_iff rfl, append_lt_append_iff (by simp [uint64Bytes]), uint64Bytes, uint64Bytes,
    fin_bytes_lt_iff (by decide), fin_bytes_inj (by decide), or_iff_right (lt_irrefl _),
    and_iff_right rfl]

theorem noncePrefix_append_inj
    (same : getValsetConfirmNoncePrefix nonce ++ validator =
      getValsetConfirmNoncePrefix other ++ second) :
    nonce = other ∧ validator = second := by
  have nonces : other = nonce := noncePrefix_isPrefix_iff.mp (same ▸ prefix_append _ _)
  subst nonces
  exact ⟨rfl, append_cancel_left same⟩

/-! ## The functions of the keeper -/

section

variable (ext : External) {ν σ : Type} (codec : Codec ν MsgValsetConfirm)

def setValsetConfirm (store : KVStore Bytes ν) (valsetConf : MsgValsetConfirm) :
    Go (KVStore Bytes ν) := do
  let addr ← orPanic "invalid orchestrator" (accAddressFromBech32 ext valsetConf.orchestrator)
  let key ← StoreKeys.getValsetConfirmKey valsetConf.nonce addr
  pure (store.set key (codec.marshal valsetConf))

/-- `MustUnmarshal`. -/
def mustUnmarshalConfirm (value : ν) : Go MsgValsetConfirm :=
  unwrap "proto: wrong wire type" (codec.unmarshal value)

def getValsetConfirm (store : KVStore Bytes ν) (nonce : U64) (validator : AccAddress) :
    Go (Option MsgValsetConfirm) :=
  if succeeds (verifyAddressFormat validator) then do
    let key ← StoreKeys.getValsetConfirmKey nonce validator
    match store.get key with
    | none => pure none
    | some entity => do
        let confirm ← mustUnmarshalConfirm codec entity
        pure (some confirm)
  else pure none

def getValsetConfirms (store : KVStore Bytes ν) (nonce : U64) : Go (List MsgValsetConfirm) := do
  let range ← prefixRange (some (getValsetConfirmNoncePrefix nonce))
  (iterator store range).mapM (fun entry => mustUnmarshalConfirm codec entry.2)

/-- The loop of `IterateValsetConfirms`, with the confirms collected so far, their nonce and the
last key. -/
def collectConfirms (callback : Bytes × List MsgValsetConfirm × U64 → σ → σ × Bool) :
    List (Bytes × ν) → Bytes → List MsgValsetConfirm → U64 → σ → Go σ
  | [], key, confirmsByNonce, nonce, state =>
      if confirmsByNonce = [] then pure state
      -- The last call, whatever it answers.
      else pure (callback (key, confirmsByNonce, nonce) state).1
  | entry :: rest, _, confirmsByNonce, nonce, state => do
      let confirm ← mustUnmarshalConfirm codec entry.2
      if confirmsByNonce = [] then collectConfirms callback rest entry.1 [confirm] confirm.nonce state
      else if confirm.nonce ≠ nonce then
        -- The key of the confirm that does not belong to the group any more is passed on.
        if (callback (entry.1, confirmsByNonce, nonce) state).2 then
          pure (callback (entry.1, confirmsByNonce, nonce) state).1
        else
          collectConfirms callback rest entry.1 [confirm] confirm.nonce
            (callback (entry.1, confirmsByNonce, nonce) state).1
      else collectConfirms callback rest entry.1 (confirmsByNonce ++ [confirm]) nonce state

/-- `prefix.NewStore`: what the keys with a name go on with. -/
def prefixStore (store : KVStore Bytes ν) (name : StoreName) : List (Bytes × ν) :=
  (store.entries.filter (fun entry => name.bytes.isPrefixOf entry.1)).map
    (fun entry => (entry.1.drop 16, entry.2))

def iterateValsetConfirms (store : KVStore Bytes ν)
    (callback : Bytes × List MsgValsetConfirm × U64 → σ → σ × Bool) (state : σ) : Go σ :=
  collectConfirms codec callback (prefixStore store .valsetConfirmKey).reverse [] [] 0 state

/-- Every confirm in the store was put there by `SetValsetConfirm`. The store holds everything else
of the module too. -/
structure ConfirmsWritten (store : KVStore Bytes ν) : Prop where
  named : Named store
  written : ∀ key value, store.get key = some value → StoreName.valsetConfirmKey.bytes <+: key →
    ∃ confirm validator, value = codec.marshal confirm ∧
    accAddressFromBech32 ext confirm.orchestrator = .ok validator ∧
      StoreKeys.getValsetConfirmKey confirm.nonce validator = .ok key

/-- The confirm that an entry holds. -/
def confirmOf (value : ν) : MsgValsetConfirm := (codec.unmarshal value).getD ⟨0, [], [], []⟩

end

/-! ## Grouping -/

section

variable {ext : External} {ν σ : Type} {codec : Codec ν MsgValsetConfirm} {store : KVStore Bytes ν}
  {key : Bytes}

theorem getValsetConfirmKey_eq_ok : StoreKeys.getValsetConfirmKey nonce validator = .ok key ↔
      verifyAddressFormat validator = .ok () ∧
        getValsetConfirmNoncePrefix nonce ++ validator = key := by
  simp only [StoreKeys.getValsetConfirmKey, bind_eq_ok, orPanic_eq_ok, pure_eq_ok]
  constructor
  · rintro ⟨_, valid, same⟩
    exact ⟨valid, same⟩
  · rintro ⟨valid, same⟩
    exact ⟨(), valid, same⟩

theorem ConfirmsWritten.shape (written : ConfirmsWritten ext codec store) {value : ν}
    (found : store.get key = some value) (starts : StoreName.valsetConfirmKey.bytes <+: key) :
    codec.unmarshal value = some (confirmOf codec value) ∧
      ∃ validator, accAddressFromBech32 ext (confirmOf codec value).orchestrator = .ok validator ∧
        verifyAddressFormat validator = .ok () ∧
        key = getValsetConfirmNoncePrefix (confirmOf codec value).nonce ++ validator := by
  obtain ⟨confirm, validator, rfl, address, made⟩ := written.written key value found starts
  obtain ⟨valid, rfl⟩ := getValsetConfirmKey_eq_ok.mp made
  have read : confirmOf codec (codec.marshal confirm) = confirm := by
    simp [confirmOf, codec.unmarshal_marshal]
  rw [read]
  exact ⟨codec.unmarshal_marshal confirm, validator, address, valid, rfl⟩

/-- The nonce of an entry. -/
def nonceOf (codec : Codec ν MsgValsetConfirm) (entry : Bytes × ν) : U64 :=
  (confirmOf codec entry.2).nonce

def toCall (codec : Codec ν MsgValsetConfirm) (group : (Bytes × ν) × U64 × List (Bytes × ν)) :
    Bytes × List MsgValsetConfirm × U64 :=
  (group.1.1, group.2.2.map (fun entry => confirmOf codec entry.2), group.2.1)

/-- The calls for entries in the order in which they are visited. -/
def confirmCalls (codec : Codec ν MsgValsetConfirm) : List (Bytes × ν) →
    List (Bytes × List MsgValsetConfirm × U64)
  | [] => []
  | first :: rest => (groups (nonceOf codec) rest first [first]).map (toCall codec)

theorem collectConfirms_eq {callback : Bytes × List MsgValsetConfirm × U64 → σ → σ × Bool}
    {rest : List (Bytes × ν)}
    (readable : ∀ entry ∈ rest, codec.unmarshal entry.2 = some (confirmOf codec entry.2))
    (latest : Bytes × ν) {pending : List (Bytes × ν)} (nonempty : pending ≠ []) (state : σ) :
    collectConfirms codec callback rest latest.1
      (pending.map (fun entry => confirmOf codec entry.2)) (nonceOf codec latest)
      state = .ok (deliver callback
        ((groups (nonceOf codec) rest latest pending).map (toCall codec)) state) := by
  have collected : pending.map (fun entry => confirmOf codec entry.2) ≠ [] := by simpa using nonempty
  induction rest generalizing latest pending state with
  | nil =>
    rw [collectConfirms, if_neg collected, groups, map_singleton, deliver]
    split_ifs <;> rfl
  | cons entry rest ih =>
    obtain ⟨first, others⟩ := forall_mem_cons.mp readable
    have read : mustUnmarshalConfirm codec entry.2 = .ok (confirmOf codec entry.2) := by
      rw [mustUnmarshalConfirm, first]
      rfl
    rw [collectConfirms, read, ok_bind, if_neg collected, groups]
    by_cases same : nonceOf codec entry = nonceOf codec latest
    · rw [if_neg (show ¬ (confirmOf codec entry.2).nonce ≠ _ from not_not.mpr same),
        if_pos same, ← same]
      have more := ih others entry (concat_ne_nil entry pending) state (by simp)
      rwa [map_append] at more
    · have call : toCall codec (entry, nonceOf codec latest, pending) =
          (entry.1, pending.map (fun entry => confirmOf codec entry.2), nonceOf codec latest) := rfl
      rw [if_pos (show (confirmOf codec entry.2).nonce ≠ _ from same), if_neg same, map_cons,
        deliver, call]
      split_ifs
      · rfl
      · exact ih others entry (cons_ne_nil entry []) _ (by simp)

theorem iterate_eq_deliver {items : List (Bytes × ν)}
    (readable : ∀ entry ∈ items, codec.unmarshal entry.2 = some (confirmOf codec entry.2))
    (callback : Bytes × List MsgValsetConfirm × U64 → σ → σ × Bool) (state : σ) :
    collectConfirms codec callback items [] [] 0 state =
      .ok (deliver callback (confirmCalls codec items) state) := by
  cases items with
  | nil => rfl
  | cons first rest =>
    obtain ⟨read, others⟩ := forall_mem_cons.mp readable
    rw [collectConfirms, mustUnmarshalConfirm, read]
    exact collectConfirms_eq others first (cons_ne_nil first []) state

section

variable {items : List (Bytes × ν)}

theorem mem_confirmCalls_nonces :
    nonce ∈ (confirmCalls codec items).map (fun call => call.2.2) ↔
      ∃ entry ∈ items, nonceOf codec entry = nonce := by
  cases items with
  | nil => simp [confirmCalls]
  | cons first rest =>
    rw [confirmCalls, map_map, ← mem_map]
    exact mem_groups_tags

variable (sorted : items.Pairwise (fun first second => nonceOf codec second ≤ nonceOf codec first))
include sorted

theorem confirmCalls_decreasing :
    (confirmCalls codec items).Pairwise (fun first second => second.2.2 < first.2.2) := by
  cases items with
  | nil => exact .nil
  | cons first rest => exact pairwise_map.mpr (groups_tags_decreasing sorted)

theorem confirmCalls_eq_filter : ∀ call ∈ confirmCalls codec items,
    call.2.1 = (items.filter (fun entry => nonceOf codec entry = call.2.2)).map
      (fun entry => confirmOf codec entry.2) := by
  cases items with
  | nil => simp [confirmCalls]
  | cons first rest =>
    intro call member
    obtain ⟨group, inGroups, rfl⟩ := mem_map.mp member
    have collected :=
      groups_eq_filter sorted (by simp : ∀ item ∈ [first], nonceOf codec item = nonceOf codec first)
    rw [toCall, collected group inGroups, singleton_append]

end

/-- The entries of the confirms. -/
def confirmEntries (store : KVStore Bytes ν) : List (Bytes × ν) :=
  store.entries.filter (fun entry => StoreName.valsetConfirmKey.bytes.isPrefixOf entry.1)

namespace ConfirmsWritten

variable (written : ConfirmsWritten ext codec store)
include written

theorem shape_of_mem {entry : Bytes × ν} (member : entry ∈ confirmEntries store) :
    codec.unmarshal entry.2 = some (confirmOf codec entry.2) ∧
      ∃ validator, accAddressFromBech32 ext (confirmOf codec entry.2).orchestrator = .ok validator ∧
        verifyAddressFormat validator = .ok () ∧
          entry.1 = getValsetConfirmNoncePrefix (nonceOf codec entry) ++ validator :=
  have inside := mem_filter.mp member
  written.shape (mem_entries.mp inside.1) <| isPrefixOf_iff_prefix.mp inside.2

theorem nonces_sorted :
    (confirmEntries store).Pairwise
    (fun first second => nonceOf codec first ≤ nonceOf codec second) := by
  refine (store.sorted.filter _).imp_of_mem fun {first second} firstIn secondIn less => ?_
  obtain ⟨_, validator, _, _, firstKey⟩ := written.shape_of_mem firstIn
  obtain ⟨_, other, _, _, secondKey⟩ := written.shape_of_mem secondIn
  rw [firstKey, secondKey, noncePrefix_append_lt_iff] at less
  rcases less with nonces | ⟨nonces, _⟩
  · exact nonces.le
  · exact nonces.le

/-- The confirm of an entry determines its key, so no confirm is stored twice. -/
theorem confirms_nodup :
    ((confirmEntries store).map (fun entry => confirmOf codec entry.2)).Nodup := by
  refine pairwise_map.mpr
    ((store.sorted.filter _).imp_of_mem fun {first second} firstIn secondIn less same => ?_)
  obtain ⟨_, validator, address, _, firstKey⟩ := written.shape_of_mem firstIn
  obtain ⟨_, other, otherAddress, _, secondKey⟩ := written.shape_of_mem secondIn
  rw [same, otherAddress] at address
  rw [firstKey, secondKey, nonceOf, nonceOf, same, Except.ok.inj address] at less
  exact lt_irrefl _ less

theorem getValsetConfirms_eq (nonce : U64) : getValsetConfirms codec store nonce =
      .ok (((confirmEntries store).filter (fun entry => nonceOf codec entry = nonce)).map
        (fun entry => confirmOf codec entry.2)) := by
  obtain ⟨stop, made, _⟩ :=
    prefixRange_eq (StoreName.append_ne_nil .valsetConfirmKey (uint64Bytes nonce))
  change prefixRange (some (getValsetConfirmNoncePrefix nonce)) =
    .ok (some (getValsetConfirmNoncePrefix nonce), stop) at made
  have long : ∀ key value, store.get key = some value → StoreName.valsetConfirmKey.bytes <+: key →
      16 + (uint64Bytes nonce).length ≤ key.length := by
    intro key value found starts
    obtain ⟨_, validator, _, _, rfl⟩ := written.shape found starts
    simp [getValsetConfirmNoncePrefix, uint64Bytes]
    omega
  have visited : iterator store (some (getValsetConfirmNoncePrefix nonce), stop) =
      (confirmEntries store).filter (fun entry => nonceOf codec entry = nonce) := by
    rw [iterator_eq_filter written.named long made, confirmEntries, filter_filter]
    refine filter_congr fun entry member => ?_
    rw [Bool.eq_iff_iff, Bool.and_eq_true, decide_eq_true_iff, isPrefixOf_iff_prefix,
      isPrefixOf_iff_prefix]
    constructor
    · intro starts
      have name : StoreName.valsetConfirmKey.bytes <+: entry.1 := (prefix_append _ _).trans starts
      obtain ⟨_, validator, _, _, key⟩ := written.shape (mem_entries.mp member) name
      rw [key] at starts
      exact ⟨noncePrefix_isPrefix_iff.mp starts, name⟩
    · rintro ⟨same, name⟩
      obtain ⟨_, validator, _, _, key⟩ := written.shape (mem_entries.mp member) name
      rw [key]
      exact noncePrefix_isPrefix_iff.mpr same
  have read : ∀ entry ∈ (confirmEntries store).filter (fun entry => nonceOf codec entry = nonce),
  ∀ confirm,
      mustUnmarshalConfirm codec entry.2 = .ok confirm ↔
        True ∧ confirmOf codec entry.2 = confirm := by
    intro entry member confirm
    rw [mustUnmarshalConfirm, (written.shape_of_mem (mem_of_mem_filter member)).1]
    simp
  rw [getValsetConfirms, made, ok_bind, visited]
  exact (mapM_eq_ok_iff read).mpr ⟨fun _ _ => trivial, rfl⟩

theorem getValsetConfirm_found_iff (nonce : U64) :
    (∃ validator confirm, getValsetConfirm codec store nonce validator = .ok (some confirm)) ↔
      ∃ entry ∈ confirmEntries store, nonceOf codec entry = nonce := by
  constructor
  · rintro ⟨validator, confirm, found⟩
    have valid : succeeds (verifyAddressFormat validator) = true := by
      by_contra invalid
      rw [getValsetConfirm, if_neg invalid] at found
      cases found
    simp only [getValsetConfirm, if_pos valid, bind_eq_ok, getValsetConfirmKey_eq_ok] at found
    obtain ⟨key, ⟨_, rfl⟩, found⟩ := found
    cases entity : store.get (getValsetConfirmNoncePrefix nonce ++ validator) with
    | none => simp [entity] at found
    | some value =>
      have starts := name_isPrefix nonce validator
      obtain ⟨_, other, _, _, same⟩ := written.shape entity starts
      exact ⟨(_, value), mem_filter.mpr ⟨mem_entries.mpr entity, isPrefixOf_iff_prefix.mpr starts⟩,
        (noncePrefix_append_inj same).1.symm⟩
  · rintro ⟨entry, member, rfl⟩
    obtain ⟨read, validator, _, valid, key⟩ := written.shape_of_mem member
    have found := mem_entries.mp (mem_filter.mp member).1
    refine ⟨validator, confirmOf codec entry.2, ?_⟩
    rw [getValsetConfirm, if_pos (succeeds_eq_true.mpr ⟨(), valid⟩),
      getValsetConfirmKey_eq_ok.mpr ⟨valid, rfl⟩, ok_bind, ← key, found]
    simp [mustUnmarshalConfirm, read]

end ConfirmsWritten

/-! ## Writing -/

variable {valsetConf : MsgValsetConfirm} {next : KVStore Bytes ν}

theorem ConfirmsWritten.set (written : ConfirmsWritten ext codec store)
    (ran : setValsetConfirm ext codec store valsetConf = .ok next) :
    ConfirmsWritten ext codec next := by
  simp only [setValsetConfirm, bind_eq_ok, orPanic_eq_ok, getValsetConfirmKey_eq_ok,
    pure_eq_ok] at ran
  obtain ⟨validator, address, key, ⟨valid, rfl⟩, rfl⟩ := ran
  constructor
  · intro key value found
    rw [get_set] at found
    split_ifs at found with same
    · exact ⟨.valsetConfirmKey, same ▸ name_isPrefix _ _⟩
    · exact written.named key value found
  · intro key value found starts
    rw [get_set] at found
    split_ifs at found with same
    · exact ⟨valsetConf, validator, (Option.some.inj found).symm, address,
        getValsetConfirmKey_eq_ok.mpr ⟨valid, same.symm⟩⟩
    · exact written.written key value found starts

/-! ## All nonces -/

/-- For every nonce with a confirm there is one call, with the confirms of the nonce, from the
highest nonce to the lowest. The callback can ask to be called no more. -/
theorem valset_confirms_grouped (written : ConfirmsWritten ext codec store) :
    ∃ calls : List (Bytes × List MsgValsetConfirm × U64),
      calls.Pairwise (fun first second => second.2.2 < first.2.2) ∧
      (∀ nonce, nonce ∈ calls.map (fun call => call.2.2) ↔
        ∃ validator confirm, getValsetConfirm codec store nonce validator = .ok (some confirm)) ∧
      (∀ call ∈ calls, ∃ confirms, getValsetConfirms codec store call.2.2 = .ok confirms ∧
        call.2.1.Perm confirms ∧ call.2.1.Nodup) ∧
      ∀ (σ : Type) (callback : Bytes × List MsgValsetConfirm × U64 → σ → σ × Bool) (state : σ),
        ∃ final made, iterateValsetConfirms codec store (recording callback) (state, []) =
          .ok (final, made) ∧
        (true ∉ answers callback calls state → made = calls) ∧
        ∀ count, true ∉ (answers callback calls state).take count →
          (answers callback calls state)[count]? = some true → made = calls.take (count + 1) := by
  have visited : (prefixStore store .valsetConfirmKey).reverse =
      (confirmEntries store).reverse.map (fun entry => (entry.1.drop 16, entry.2)) :=
        List.map_reverse.symm
  have sorted : (prefixStore store .valsetConfirmKey).reverse.Pairwise
      (fun first second => nonceOf codec second ≤ nonceOf codec first) := by
    rw [visited, List.pairwise_map, List.pairwise_reverse]
    exact written.nonces_sorted
  have readable : ∀ entry ∈ (prefixStore store .valsetConfirmKey).reverse,
      codec.unmarshal entry.2 = some (confirmOf codec entry.2) := by
    rw [visited, List.forall_mem_map]
    exact fun entry member => (written.shape_of_mem (List.mem_reverse.mp member)).1
  refine ⟨confirmCalls codec (prefixStore store .valsetConfirmKey).reverse,
    confirmCalls_decreasing sorted, fun nonce => ?_, fun call member =>
      ⟨_, written.getValsetConfirms_eq call.2.2, ?_⟩, fun σ callback state =>
    ⟨_, _, (iterate_eq_deliver readable _ _).trans (congrArg Except.ok (deliver_recording _ _ _)),
      ?_, ?_⟩⟩
  · rw [mem_confirmCalls_nonces, written.getValsetConfirm_found_iff, visited]
    simp only [List.mem_map, List.mem_reverse, exists_exists_and_eq_and]
    rfl
  · have backwards :
        call.2.1 = (((confirmEntries store).filter (fun entry => nonceOf codec entry = call.2.2)).map
          (fun entry => confirmOf codec entry.2)).reverse := by
      rw [confirmCalls_eq_filter sorted call member, visited, List.filter_map, List.map_map,
        List.filter_reverse, List.map_reverse]
      rfl
    rw [backwards]
    exact ⟨List.reverse_perm _, List.nodup_reverse.mpr
      (written.confirms_nodup.sublist (List.Sublist.map _ List.filter_sublist))⟩
  · exact fun never => by rw [delivered_eq_self never, List.nil_append]
  · exact fun count before stops => by rw [delivered_eq_take before stops, List.nil_append]

end

/-- Two confirms of one nonce, and one of an older one. -/
def threeConfirms : List MsgValsetConfirm :=
  [⟨7, ascii "gravity1ab", [], []⟩, ⟨300, ascii "gravity1ab", [], []⟩,
    ⟨7, ascii "gravity1cd", [], []⟩]

def confirmCodec : Codec (Option MsgValsetConfirm) MsgValsetConfirm := ⟨some, id, fun _ => rfl⟩

/-- The parameters of the module and the confirms. -/
def threeConfirmsStore : Go (KVStore Bytes (Option MsgValsetConfirm)) :=
  threeConfirms.foldlM (setValsetConfirm localnet confirmCodec)
    (KVStore.empty.set StoreName.paramsKey.bytes none)

theorem threeConfirms_written : ∃ store, threeConfirmsStore = .ok store ∧
    ConfirmsWritten localnet confirmCodec store := by
  obtain ⟨named, params⟩ := named_single .paramsKey (none : Option MsgValsetConfirm)
  have ran : succeeds threeConfirmsStore = true := by decide +kernel
  obtain ⟨store, made⟩ := succeeds_eq_true.mp ran
  exact ⟨store, made, foldlM_invariant _ (fun _ _ _ _ written ran => written.set ran)
    ⟨named, fun key value found starts =>
      absurd starts (params key value found .valsetConfirmKey (by decide))⟩ made⟩

theorem threeConfirms_grouped :
    ∃ store, threeConfirmsStore = .ok store ∧ ConfirmsWritten localnet confirmCodec store ∧
      ∃ calls : List (Bytes × List MsgValsetConfirm × U64),
        calls.Pairwise (fun first second => second.2.2 < first.2.2) ∧
        (∀ nonce, nonce ∈ calls.map (fun call => call.2.2) ↔
          ∃ validator confirm, getValsetConfirm confirmCodec store nonce validator =
            .ok (some confirm)) ∧
        (∀ call ∈ calls, ∃ confirms, getValsetConfirms confirmCodec store call.2.2 = .ok confirms ∧
          call.2.1.Perm confirms ∧ call.2.1.Nodup) ∧
        ∀ (σ : Type) (callback : Bytes × List MsgValsetConfirm × U64 → σ → σ × Bool) (state : σ),
          ∃ final made, iterateValsetConfirms confirmCodec store (recording callback) (state, []) =
            .ok (final, made) ∧
          (true ∉ answers callback calls state → made = calls) ∧
          ∀ count, true ∉ (answers callback calls state).take count →
            (answers callback calls state)[count]? = some true → made = calls.take (count + 1) := by
  obtain ⟨store, made, written⟩ := threeConfirms_written
  exact ⟨store, made, written, valset_confirms_grouped written⟩

end GravityBridge.Keeper
