import GravityBridge.Keeper.StoredClaims
import GravityBridge.Keeper.StoreKeys
import GravityBridge.Lib.Rekeying

/-!
# Migrating attestations

The seventh version hashes claims with another separator and stores the hashed fields beside
the claim. A first pass moves every attestation to the key of its new hash, in the same store.
A second one fills in the components while it iterates.
-/

namespace GravityBridge.Keeper

open Lib.Fallible Lib.ByteString Lib.Store Lib.Digits
open Lib.Reading Lib.ByteOrder Lib.Rekeying
open GravityBridge.Types List KVStore

/-- An attestation as versions before and after the migration store it. -/
structure AttestationRecord where
  observed : Bool
  votes : List ValAddress
  height : Nat
  claim : EthereumClaim
  claimType : Option ClaimType
  claimComponents : Option ClaimHashComponents
  deriving DecidableEq, Repr

/-- A record of the new version. -/
def AttestationRecord.toAttestation (att : AttestationRecord) : Option Attestation := do
  let claimType ← att.claimType
  let claimComponents ← att.claimComponents
  pure ⟨att.observed, att.votes, att.height, att.claim, claimType, claimComponents⟩

def StoreKeys.getAttestationKey (eventNonce : U64) (claimHash : Bytes) : Bytes :=
  StoreName.oracleAttestationKey.bytes ++ (uint64Bytes eventNonce ++ claimHash)

/-! ## Source -/

section

variable (ext : External) {ν σ : Type} (codec : Codec ν AttestationRecord)

def StoreKeys.setAttestation (store : KVStore Bytes ν) (eventNonce : U64) (claimHash : Bytes)
    (att : AttestationRecord) : KVStore Bytes ν :=
  store.set (getAttestationKey eventNonce claimHash) (codec.marshal att)

/-- `IterateAttestations` forwards, with a callback that never stops it. The iterator shows the
store as it was when the iterator was made. -/
def iterateAttestations (store : KVStore Bytes ν) (callback : Bytes → AttestationRecord → σ → Go σ)
    (state : σ) : Go σ := do
  let range ← prefixRange (some StoreName.oracleAttestationKey.bytes)
  (iterator store range).foldlM (fun state entry => do
    let att ← unwrap "proto: wrong wire type" (codec.unmarshal entry.2)
    callback entry.1 att state) state

/-- Where the hash starts in a key. -/
def hashStart : Nat := StoreName.oracleAttestationKey.bytes.length + 8

structure AttestationToMigrate where
  oldKey : Bytes
  eventNonce : U64
  attestation : AttestationRecord
  newHash : Bytes

/-- The callback of the first pass, with what it has collected and the votes that it has counted. -/
def inspectAttestation (key : Bytes) (att : AttestationRecord)
    (collected : List AttestationToMigrate × Nat) : Go (List AttestationToMigrate × Nat) := do
  let newHash ← orPanic "Failed to compute new hash during migration" (att.claim.claimHash ext)
  check (hashStart ≤ key.length) "slice bounds out of range"
  let eventNonceBytes := (key.take hashStart).drop StoreName.oracleAttestationKey.bytes.length
  pure (collected.1 ++ [⟨key, Fin.ofNat (2 ^ 64) (uint eventNonceBytes), att, newHash⟩],
    collected.2 + att.votes.length)

/-- Only an attestation whose hash changes is written again. -/
def rewriteAttestation (store : KVStore Bytes ν) (item : AttestationToMigrate) : KVStore Bytes ν :=
  let oldHash := item.oldKey.drop hashStart
  if oldHash ≠ item.newHash then
    StoreKeys.setAttestation codec (store.delete item.oldKey) item.eventNonce item.newHash
      item.attestation
  else store

def migrateAttestationsToAttestationSeparator (store : KVStore Bytes ν) : Go (KVStore Bytes ν) := do
  let (attestationsToMigrate, totalVotes) ← iterateAttestations codec store
    (inspectAttestation ext) ([], 0)
  let migrated := attestationsToMigrate.foldl (rewriteAttestation codec) store
  let (postCount, postVotes) ← iterateAttestations codec migrated
    (fun _ att (counted : Nat × Nat) => pure (counted.1 + 1, counted.2 + att.votes.length)) (0, 0)
  check (postCount = attestationsToMigrate.length ∧ postVotes = totalVotes)
    "Attestation migration integrity failure"
  pure migrated

/-- The callback of the second pass. -/
def addComponents (key : Bytes) (att : AttestationRecord) (store : KVStore Bytes ν) :
    Go (KVStore Bytes ν) := do
  check (att.claimComponents = none) "Attestation has already been migrated?"
  let components ← orPanic "Failed to extract claim components during migration"
    (extractClaimHashComponents ext att.claim)
  let computedHash ← orPanic "Failed to compute claim hash from components during migration"
    (components.computeClaimHash ext)
  check (hashStart ≤ key.length) "slice bounds out of range"
  let storedHash := key.drop hashStart
  check (storedHash = computedHash) "Claim hash mismatch during ClaimHashComponents migration"
  pure (StoreKeys.setAttestation codec store att.claim.getEventNonce storedHash
    { att with claimType := some att.claim.getType, claimComponents := some components })

def migrateAttestationsToClaimHashComponents (store : KVStore Bytes ν) : Go (KVStore Bytes ν) :=
  iterateAttestations codec store (addComponents ext codec) store

/-! ## Stores of attestations -/

/-- An attestation is stored under a nonce and a hash. -/
def StoredAt (store : KVStore Bytes ν) (nonce : U64) (hash : Bytes)
    (att : AttestationRecord) : Prop :=
  ∃ value, store.get (StoreKeys.getAttestationKey nonce hash) = some value ∧
    codec.unmarshal value = some att

/-- Attestations have a nonce and a hash for their key. The store holds everything else of the
module too. -/
structure AttestationsKeyed (store : KVStore Bytes ν) : Prop where
  named : Named store
  written : ∀ key value, store.get key = some value → StoreName.oracleAttestationKey.bytes <+: key →
    ∃ nonce hash att, key = StoreKeys.getAttestationKey nonce hash ∧ codec.unmarshal value = some att

/-- What the migration finds: attestations of the old version under any hash, whose new keys differ
from each other and from the old keys of others. -/
structure Migratable (store : KVStore Bytes ν) : Prop extends AttestationsKeyed codec store where
  nonces : ∀ nonce hash att, StoredAt codec store nonce hash att → att.claim.getEventNonce = nonce
  hashed : ∀ nonce hash att, StoredAt codec store nonce hash att →
    ∃ newHash, att.claim.claimHash ext = .ok newHash
  fresh : ∀ nonce hash att, StoredAt codec store nonce hash att → att.claimComponents = none
  distinct : ∀ nonce first second att other, StoredAt codec store nonce first att →
    StoredAt codec store nonce second other →
    first ≠ second → att.claim.claimHash ext ≠ other.claim.claimHash ext
  apart : ∀ nonce hash att newHash other old rival, StoredAt codec store nonce hash att →
    StoredAt codec store other old rival → (nonce, hash) ≠ (other, old) →
    att.claim.claimHash ext = .ok newHash → (nonce, newHash) ≠ (other, old)

/-- After both passes every attestation is in the store once, under its new hash, with its
components. -/
structure Migrated (store final : KVStore Bytes ν) : Prop where
  keyed : AttestationsKeyed codec final
  kept : ∀ nonce old att, StoredAt codec store nonce old att →
    ∃ hash record current, att.claim.claimHash ext = .ok hash ∧
    StoredAt codec final nonce hash record ∧ record.toAttestation = some current ∧
    current.votes = att.votes ∧
    current.height = att.height ∧ current.observed = att.observed ∧ current.claim = att.claim ∧
    current.verifyClaimHash ext = .ok ()
  once : ∀ nonce hash record, StoredAt codec final nonce hash record →
    ∃! source : Bytes × AttestationRecord, StoredAt codec store nonce source.1 source.2 ∧
    source.2.claim.claimHash ext = .ok hash
  others : ∀ key, ¬ StoreName.oracleAttestationKey.bytes <+: key → final.get key = store.get key

/-- The amounts of the claim are there, as `Marshal` always writes them. -/
def AmountsSet : EthereumClaim → Prop
  | .sendToCosmos msg => Sized msg.amount
  | .valsetUpdated msg => Sized msg.rewardAmount
  | .batchSendToEth _ | .erc20Deployed _ | .logicCallExecuted _ => True

end

section

variable {ext : External} {ν σ : Type} {codec : Codec ν AttestationRecord}
  {store middle : KVStore Bytes ν}
  {nonce other : U64} {hash : Bytes} {key : Bytes} {att : AttestationRecord}

/-! ## Keys -/

theorem attestationName_isPrefix (nonce : U64) (hash : Bytes) :
    StoreName.oracleAttestationKey.bytes <+: StoreKeys.getAttestationKey nonce hash :=
  prefix_append _ _

theorem getAttestationKey_inj {second : Bytes} :
    StoreKeys.getAttestationKey nonce hash = StoreKeys.getAttestationKey other second ↔
      nonce = other ∧ hash = second := by
  constructor
  · intro same
    rw [StoreKeys.getAttestationKey, StoreKeys.getAttestationKey, append_right_inj] at same
    obtain ⟨nonces, hashes⟩ := append_inj same (by simp [uint64Bytes])
    exact ⟨(fin_bytes_inj (by decide)).mp nonces, hashes⟩
  · rintro ⟨rfl, rfl⟩
    rfl

theorem hashStart_le (nonce : U64) (hash : Bytes) :
    hashStart ≤ (StoreKeys.getAttestationKey nonce hash).length := by
  simp only [hashStart, StoreKeys.getAttestationKey, uint64Bytes, length_append, length_map,
    length_bigEndian]
  omega

theorem drop_hashStart (nonce : U64) (hash : Bytes) :
    (StoreKeys.getAttestationKey nonce hash).drop hashStart = hash := by
  have length : (uint64Bytes nonce).length = 8 := by simp [uint64Bytes]
  rw [hashStart, StoreKeys.getAttestationKey, ← drop_drop, drop_left, ← length, drop_left]

/-- The nonce is read back from the key. -/
theorem nonce_getAttestationKey (nonce : U64) (hash : Bytes) :
    Fin.ofNat (2 ^ 64) (uint (((StoreKeys.getAttestationKey nonce hash).take hashStart).drop
      StoreName.oracleAttestationKey.bytes.length)) = nonce := by
  have length : (uint64Bytes nonce).length = 8 := by simp [uint64Bytes]
  have bytes : ((StoreKeys.getAttestationKey nonce hash).take hashStart).drop
      StoreName.oracleAttestationKey.bytes.length = uint64Bytes nonce := by
    rw [hashStart, StoreKeys.getAttestationKey, take_length_add_append, drop_left, ← length,
      take_left]
  rw [bytes, uint64Bytes, uint_bigEndian (nonce.isLt.trans_le (by decide)), Fin.ofNat_val_eq_self]

/-! ## Iterating -/

/-- The attestations that an iterator visits. -/
def visited (codec : Codec ν AttestationRecord) (store : KVStore Bytes ν) :
    List (Bytes × AttestationRecord) :=
  (store.entries.filter (fun entry =>
    StoreName.oracleAttestationKey.bytes.isPrefixOf entry.1)).filterMap
    (fun entry => (codec.unmarshal entry.2).map (fun att => (entry.1, att)))

theorem mem_visited : (key, att) ∈ visited codec store ↔
    StoreName.oracleAttestationKey.bytes <+: key ∧
    ∃ value, store.get key = some value ∧ codec.unmarshal value = some att := by
  simp only [visited, mem_filterMap, mem_filter, isPrefixOf_iff_prefix, Option.map_eq_some_iff]
  constructor
  · rintro ⟨⟨name, value⟩, ⟨member, starts⟩, other, read, same⟩
    obtain ⟨rfl, rfl⟩ := Prod.mk.inj same
    exact ⟨starts, value, mem_entries.mp member, read⟩
  · rintro ⟨starts, value, found, read⟩
    exact ⟨(key, value), ⟨mem_entries.mpr found, starts⟩, att, read, rfl⟩

theorem mem_visited_key : (StoreKeys.getAttestationKey nonce hash, att) ∈ visited codec store ↔
    StoredAt codec store nonce hash att := by
  rw [mem_visited, and_iff_right (attestationName_isPrefix nonce hash), StoredAt]


theorem visited_keys_nodup : ((visited codec store).map Prod.fst).Nodup := by
  refine pairwise_map.mpr (pairwise_filterMap.mpr ?_)
  refine (store.sorted.filter _).imp fun {first second} less entry read later readLater same => ?_
  obtain ⟨_, _, rfl⟩ := Option.map_eq_some_iff.mp read
  obtain ⟨_, _, rfl⟩ := Option.map_eq_some_iff.mp readLater
  exact less.ne same

theorem foldlM_unwrapping {entries : List (Bytes × ν)}
    {callback : Bytes → AttestationRecord → σ → Go σ} {state : σ}
    (readable : ∀ entry ∈ entries, ∃ att, codec.unmarshal entry.2 = some att) :
    entries.foldlM (fun state entry => do
      let att ← unwrap "proto: wrong wire type" (codec.unmarshal entry.2)
      callback entry.1 att state) state =
    (entries.filterMap (fun entry =>
      (codec.unmarshal entry.2).map (fun att => (entry.1, att)))).foldlM
      (fun state entry => callback entry.1 entry.2 state) state := by
  induction entries generalizing state with
  | nil => rfl
  | cons entry rest ih =>
    obtain ⟨⟨att, read⟩, readableRest⟩ := forall_mem_cons.mp readable
    have later : ∀ state, _ := fun state => @ih state readableRest
    rw [foldlM_cons, filterMap_cons_some (by rw [read]; rfl), foldlM_cons, read]
    simp only [unwrap, ok_bind]
    exact congrArg (callback entry.1 att state >>= ·) (funext later)

/-- The iterator calls back for each attestation. -/
theorem AttestationsKeyed.iterate (keyed : AttestationsKeyed codec store)
    (callback : Bytes → AttestationRecord → σ → Go σ)
    (state : σ) : iterateAttestations codec store callback state =
      (visited codec store).foldlM (fun state entry => callback entry.1 entry.2 state) state := by
  have made := prefixRange_eq (StoreName.append_ne_nil .oracleAttestationKey [])
  rw [append_nil] at made
  obtain ⟨stop, made, _⟩ := made
  have long : ∀ key value, store.get key = some value → StoreName.oracleAttestationKey.bytes <+: key →
      16 + ([] : Bytes).length ≤ key.length := fun key value _ starts => starts.length_le
  have lists := iterator_eq_filter keyed.named long (by rw [append_nil]; exact made)
  rw [append_nil] at lists
  rw [iterateAttestations, made, ok_bind, lists, visited]
  refine foldlM_unwrapping fun entry member => ?_
  obtain ⟨inside, starts⟩ := mem_filter.mp member
  obtain ⟨_, _, att, _, read⟩ := keyed.written entry.1 entry.2 (mem_entries.mp inside) <|
    isPrefixOf_iff_prefix.mp starts
  exact ⟨att, read⟩

/-! ## The first pass -/

/-- The hash that the new version gives to a claim that can be hashed. -/
def newHashOf (ext : External) (att : AttestationRecord) : Bytes :=
  match att.claim.claimHash ext with
  | .ok hash => hash
  | .error _ => []

def newKeyOf (ext : External) (att : AttestationRecord) : Bytes :=
  StoreKeys.getAttestationKey att.claim.getEventNonce (newHashOf ext att)

/-- The move of a visited attestation to its new key. -/
def moveOf (ext : External) (codec : Codec ν AttestationRecord)
    (entry : Bytes × AttestationRecord) : KeyMove Bytes ν :=
  ⟨entry.1, newKeyOf ext entry.2, codec.marshal entry.2⟩

/-- What the migration knows of a visited attestation. -/
structure Inspected (ext : External) (codec : Codec ν AttestationRecord) (store : KVStore Bytes ν)
    (entry : Bytes × AttestationRecord) (hash : Bytes) : Prop where
  key : entry.1 = StoreKeys.getAttestationKey entry.2.claim.getEventNonce hash
  stored : StoredAt codec store entry.2.claim.getEventNonce hash entry.2
  hashed : entry.2.claim.claimHash ext = .ok (newHashOf ext entry.2)
  fresh : entry.2.claimComponents = none

theorem newHashOf_eq (hashed : att.claim.claimHash ext = .ok hash) : newHashOf ext att = hash := by
  rw [newHashOf, hashed]

variable {entry : Bytes × AttestationRecord}

theorem Migratable.inspected (migratable : Migratable ext codec store)
    (member : entry ∈ visited codec store) : ∃ hash, Inspected ext codec store entry hash := by
  obtain ⟨starts, value, found, read⟩ := mem_visited.mp member
  obtain ⟨nonce, hash, _, same, _⟩ := migratable.written entry.1 value found starts
  have stored : StoredAt codec store nonce hash entry.2 := ⟨value, same ▸ found, read⟩
  obtain ⟨newHash, hashed⟩ := migratable.hashed nonce hash entry.2 stored
  have own := migratable.nonces nonce hash entry.2 stored
  subst own
  exact ⟨hash, same, stored, by rw [newHashOf_eq hashed, hashed],
    migratable.fresh _ hash entry.2 stored⟩

theorem inspect_all {entries : List (Bytes × AttestationRecord)}
    (inspected : ∀ entry ∈ entries, ∃ hash, Inspected ext codec store entry hash)
    (collected : List AttestationToMigrate) (votes : Nat) :
    entries.foldlM (fun state entry => inspectAttestation ext entry.1 entry.2 state)
      (collected, votes) = .ok (collected ++ entries.map (fun entry =>
          ⟨entry.1, entry.2.claim.getEventNonce, entry.2, newHashOf ext entry.2⟩),
        votes + (entries.map (fun entry => entry.2.votes.length)).sum) := by
  induction entries generalizing collected votes with
  | nil => simp
  | cons entry rest ih =>
    obtain ⟨⟨hash, first⟩, others⟩ := forall_mem_cons.mp inspected
    have pass : inspectAttestation ext entry.1 entry.2 (collected, votes) =
        .ok (collected ++ [⟨entry.1, entry.2.claim.getEventNonce, entry.2, newHashOf ext entry.2⟩],
          votes + entry.2.votes.length) := by
      simp only [inspectAttestation, bind_eq_ok, orPanic_eq_ok, check_eq_ok, pure_eq_ok]
      refine ⟨_, first.hashed, (), first.key ▸ hashStart_le _ _, ?_⟩
      rw [first.key, nonce_getAttestationKey]
    rw [foldlM_cons, pass, ok_bind, ih others]
    simp [Nat.add_assoc]

theorem Inspected.rewriteAttestation_eq (inspected : Inspected ext codec store entry hash)
    (current : KVStore Bytes ν) :
    rewriteAttestation codec current ⟨entry.1, entry.2.claim.getEventNonce, entry.2,
      newHashOf ext entry.2⟩ = (moveOf ext codec entry).apply current := by
  simp only [rewriteAttestation, KeyMove.apply, moveOf, newKeyOf, inspected.key, drop_hashStart,
    getAttestationKey_inj, true_and, ne_eq, ite_not]
  rfl

/-- The moves of the first pass do not get in each other's way. -/
theorem Migratable.relocation (migratable : Migratable ext codec store) :
    Relocation ((visited codec store).map (moveOf ext codec)) := by
  have keys : ((visited codec store).map Prod.fst).Nodup := visited_keys_nodup
  have different : (visited codec store).Pairwise (fun first second => first.1 ≠ second.1) :=
    pairwise_map.mp keys
  have apart : ∀ first ∈ visited codec store, ∀ second ∈ visited codec store, first.1 ≠ second.1 →
      newKeyOf ext first.2 ≠ second.1 := by
    intro first firstIn second secondIn other same
    obtain ⟨hash, one⟩ := migratable.inspected firstIn
    obtain ⟨old, two⟩ := migratable.inspected secondIn
    rw [one.key, two.key, ne_eq, getAttestationKey_inj] at other
    rw [two.key, newKeyOf, getAttestationKey_inj] at same
    refine migratable.apart _ _ _ _ _ _ _ one.stored two.stored
      (fun equal => other (Prod.mk.inj equal)) one.hashed ?_
    rw [same.1, same.2]
  have targets : ∀ first ∈ visited codec store, ∀ second ∈ visited codec store, first.1 ≠ second.1 →
      newKeyOf ext first.2 ≠ newKeyOf ext second.2 := by
    intro first firstIn second secondIn other same
    obtain ⟨hash, one⟩ := migratable.inspected firstIn
    obtain ⟨old, two⟩ := migratable.inspected secondIn
    rw [newKeyOf, newKeyOf, getAttestationKey_inj] at same
    rw [one.key, two.key, same.1, ne_eq, getAttestationKey_inj, and_iff_right rfl] at other
    refine migratable.distinct _ _ _ _ _ one.stored (same.1 ▸ two.stored) other ?_
    rw [one.hashed, two.hashed, same.2]
  constructor
  · rw [map_map]
    exact keys
  · rw [map_map]
    exact pairwise_map.mpr (different.imp_of_mem fun {first second} one two =>
      targets first one second two)
  · refine pairwise_map.mpr (different.imp_of_mem fun {first second} one two other => ?_)
    exact ⟨apart first one second two other, apart second two first one other.symm⟩

/-- The store after the first pass. -/
def rekeyed (ext : External) (codec : Codec ν AttestationRecord) (store : KVStore Bytes ν) :
    KVStore Bytes ν :=
  ((visited codec store).map (moveOf ext codec)).foldl KeyMove.apply store

section

variable (migratable : Migratable ext codec store)

include migratable

/-- Each attestation is found under its new key. -/
theorem Migratable.rekeyed_get (member : entry ∈ visited codec store) :
    ∃ value, (rekeyed ext codec store).get (newKeyOf ext entry.2) = some value ∧
      codec.unmarshal value = some entry.2 := by
  have found : (rekeyed ext codec store).get (newKeyOf ext entry.2) = _ :=
    migratable.relocation.get_target (mem_map_of_mem (f := moveOf ext codec) member)
  obtain ⟨_, value, stored, read⟩ := mem_visited.mp member
  split_ifs at found
  · exact ⟨value, found.trans stored, read⟩
  · exact ⟨_, found, codec.unmarshal_marshal entry.2⟩

/-- Nothing else is stored under the name of attestations, and other entries stay. -/
theorem Migratable.rekeyed_cases {value : ν}
    (found : (rekeyed ext codec store).get key = some value) :
    (∃ entry ∈ visited codec store, key = newKeyOf ext entry.2 ∧
      codec.unmarshal value = some entry.2) ∨
      ¬ StoreName.oracleAttestationKey.bytes <+: key ∧ store.get key = some value := by
  by_cases target : ∃ entry ∈ visited codec store, key = newKeyOf ext entry.2
  · obtain ⟨entry, member, rfl⟩ := target
    obtain ⟨other, there, read⟩ := migratable.rekeyed_get member
    obtain rfl : other = value := Option.some.inj (there.symm.trans found)
    exact .inl ⟨entry, member, rfl, read⟩
  · have noTarget : ∀ move ∈ (visited codec store).map (moveOf ext codec), key ≠ move.target := by
      intro move member same
      obtain ⟨entry, inside, rfl⟩ := mem_map.mp member
      exact target ⟨entry, inside, same⟩
    rw [rekeyed, migratable.relocation.get_of_no_target noTarget] at found
    split_ifs at found with source
    refine .inr ⟨fun starts => source ?_, found⟩
    obtain ⟨nonce, hash, att, rfl, read⟩ := migratable.written key value found starts
    exact ⟨_, mem_map_of_mem (mem_visited_key.mpr ⟨value, found, read⟩), rfl⟩

theorem Migratable.mem_visited_rekeyed :
    (key, att) ∈ visited codec (rekeyed ext codec store) ↔
      ∃ entry ∈ visited codec store, key = newKeyOf ext entry.2 ∧ att = entry.2 := by
  constructor
  · intro member
    obtain ⟨starts, value, found, read⟩ := mem_visited.mp member
    rcases migratable.rekeyed_cases found with ⟨entry, inside, rfl, same⟩ | ⟨elsewhere, _⟩
    · exact ⟨entry, inside, rfl, Option.some.inj (read.symm.trans same)⟩
    · exact absurd starts elsewhere
  · rintro ⟨entry, inside, rfl, rfl⟩
    exact mem_visited.mpr ⟨attestationName_isPrefix _ _, migratable.rekeyed_get inside⟩

theorem Migratable.keyed_rekeyed :
    AttestationsKeyed codec (rekeyed ext codec store) where
  named key value found := by
    rcases migratable.rekeyed_cases found with ⟨entry, _, rfl, _⟩ | ⟨_, stays⟩
    · exact ⟨_, attestationName_isPrefix _ _⟩
    · exact migratable.named key value stays
  written key value found starts := by
    rcases migratable.rekeyed_cases found with ⟨entry, _, rfl, read⟩ | ⟨elsewhere, _⟩
    · exact ⟨_, _, entry.2, rfl, read⟩
    · exact absurd starts elsewhere

/-- The first pass visits under their new keys what it collected. -/
theorem Migratable.visited_rekeyed_perm :
    (visited codec (rekeyed ext codec store)).Perm
      ((visited codec store).map (fun entry => (newKeyOf ext entry.2, entry.2))) := by
  have targets := migratable.relocation.targets
  rw [map_map] at targets
  have distinct :
      ((visited codec store).map (fun entry => (newKeyOf ext entry.2, entry.2))).Nodup := by
    refine List.Nodup.of_map Prod.fst ?_
    rw [map_map]
    exact targets
  refine (perm_ext_iff_of_nodup visited_keys_nodup.of_map distinct).mpr fun entry => ?_
  rw [migratable.mem_visited_rekeyed, mem_map]
  refine exists_congr fun other => and_congr_right fun _ => ?_
  rw [Prod.ext_iff]
  exact ⟨fun same => ⟨same.1.symm, same.2.symm⟩, fun same => ⟨same.1.symm, same.2.symm⟩⟩

end

theorem count_all (entries : List (Bytes × AttestationRecord)) (count votes : Nat) :
    entries.foldlM (fun (counted : Nat × Nat) entry =>
        (pure (counted.1 + 1, counted.2 + entry.2.votes.length) : Go (Nat × Nat))) (count, votes) =
      .ok (count + entries.length,
        votes + (entries.map (fun entry => entry.2.votes.length)).sum) := by
  induction entries generalizing count votes with
  | nil => rfl
  | cons entry rest ih =>
    rw [foldlM_cons, pure_bind, ih]
    simp [Nat.add_assoc, Nat.add_comm 1]

theorem Migratable.separator_succeeds (migratable : Migratable ext codec store) :
    migrateAttestationsToAttestationSeparator ext codec store = .ok (rekeyed ext codec store) := by
  have inspected : ∀ entry ∈ visited codec store, ∃ hash, Inspected ext codec store entry hash :=
    fun _ member => migratable.inspected member
  have rewritten : ((visited codec store).map (fun entry : Bytes × AttestationRecord =>
      (⟨entry.1, entry.2.claim.getEventNonce, entry.2, newHashOf ext entry.2⟩ :
        AttestationToMigrate))).foldl
        (rewriteAttestation codec) store = rekeyed ext codec store := by
    rw [rekeyed, foldl_map, foldl_map]
    refine foldl_ext _ _ _ fun current entry member => ?_
    obtain ⟨hash, shape⟩ := inspected entry member
    exact shape.rewriteAttestation_eq current
  have perm := migratable.visited_rekeyed_perm
  have votes := (perm.map (fun entry => entry.2.votes.length)).sum_eq
  rw [map_map] at votes
  have length := perm.length_eq
  rw [length_map] at length
  rw [migrateAttestationsToAttestationSeparator, migratable.iterate, inspect_all inspected, ok_bind]
  simp only [nil_append, rewritten]
  rw [migratable.keyed_rekeyed.iterate, count_all, ok_bind]
  simp only [bind_eq_ok, check_eq_ok, pure_eq_ok, length_map, zero_add]
  exact ⟨(), ⟨length, votes⟩, trivial⟩

/-! ## The second pass -/

/-- A claim that can be hashed and has its amounts can be restored from its components. -/
theorem wellSized_of_hashed {claim : EthereumClaim} (hashed : claim.claimHash ext = .ok hash)
    (amounts : AmountsSet claim) : claim.WellSized := by
  cases claim with
  | sendToCosmos msg => exact amounts
  | batchSendToEth _ | erc20Deployed _ | logicCallExecuted _ => trivial
  | valsetUpdated msg =>
    refine ⟨amounts, ?_⟩
    simp only [EthereumClaim.claimHash, EthereumClaim.path, MsgValsetUpdatedClaim.path, bind_eq_ok,
      rewrap_eq_ok, canonicalMembers_eq_ok] at hashed
    obtain ⟨_, ⟨_, ⟨internal, read, _⟩, _⟩, _⟩ := hashed
    intro member inside
    obtain ⟨_, _, made⟩ := mem_of_mapM read inside
    simp only [newInternalBridgeValidator, rewrap_eq_ok, bind_eq_ok, newEthAddress_eq_ok] at made
    obtain ⟨_, ⟨valid, _⟩, _⟩ := made
    exact valid

/-- The record that the second pass writes. -/
def withComponents (ext : External) (att : AttestationRecord) : AttestationRecord :=
  { att with
    claimType := some att.claim.getType
    claimComponents := (extractClaimHashComponents ext att.claim).toOption }

/-- The components are those of the claim, and the attestation passes its check. -/
theorem withComponents_verified (hashed : att.claim.claimHash ext = .ok hash)
    (amounts : AmountsSet att.claim) :
    ∃ current, (withComponents ext att).toAttestation = some current ∧
      current.verifyClaimHash ext = .ok () := by
  obtain ⟨components, restored, again, restores⟩ :=
    exists_restores (wellSized_of_hashed hashed amounts)
  refine ⟨⟨att.observed, att.votes, att.height, att.claim, att.claim.getType, components⟩, ?_,
    verifyClaimHash_eq_ok.mpr ⟨again, restores.hashed, restores.computed⟩⟩
  rw [AttestationRecord.toAttestation, withComponents, restores.extracted]
  rfl

theorem addComponents_eq (hashed : att.claim.claimHash ext = .ok (newHashOf ext att))
    (fresh : att.claimComponents = none)
    (amounts : AmountsSet att.claim) (current : KVStore Bytes ν) :
    addComponents ext codec (newKeyOf ext att) att current =
      .ok (current.set (newKeyOf ext att) (codec.marshal (withComponents ext att))) := by
  obtain ⟨components, restored, hash, restores⟩ :=
    exists_restores (wellSized_of_hashed hashed amounts)
  obtain rfl : newHashOf ext att = hash := Except.ok.inj (hashed.symm.trans restores.hashed)
  simp only [addComponents, bind_eq_ok, check_eq_ok, orPanic_eq_ok, pure_eq_ok]
  refine ⟨(), fresh, components, restores.extracted, _, restores.computed, (), hashStart_le _ _, (),
    drop_hashStart _ _, ?_⟩
  rw [newKeyOf, drop_hashStart, StoreKeys.setAttestation, withComponents, restores.extracted]
  rfl

/-- The store after the second pass. -/
def completed (ext : External) (codec : Codec ν AttestationRecord) (store : KVStore Bytes ν) :
    KVStore Bytes ν :=
  (visited codec store).foldl (fun current entry =>
    current.set entry.1 (codec.marshal (withComponents ext entry.2))) store

theorem Migratable.components_succeeds (migratable : Migratable ext codec store)
    (amounts : ∀ entry ∈ visited codec store, AmountsSet entry.2.claim) :
    migrateAttestationsToClaimHashComponents ext codec (rekeyed ext codec store) =
      .ok (completed ext codec (rekeyed ext codec store)) := by
  rw [migrateAttestationsToClaimHashComponents, migratable.keyed_rekeyed.iterate]
  refine foldlM_eq_foldl (fun visitedEntry member current => ?_) _
  obtain ⟨entry, inside, newKey, same⟩ := migratable.mem_visited_rekeyed.mp member
  obtain ⟨hash, shape⟩ := migratable.inspected inside
  rw [newKey, same]
  exact addComponents_eq shape.hashed shape.fresh (amounts entry inside) current

/-- An attestation is rewritten in its place. -/
theorem completed_get_of_mem (member : (key, att) ∈ visited codec store) :
    (completed ext codec store).get key = some (codec.marshal (withComponents ext att)) :=
  get_foldl_set_of_mem visited_keys_nodup member store

/-- Nothing else is written. -/
theorem completed_get_of_not_mem (absent : ∀ att, (key, att) ∉ visited codec store) :
    (completed ext codec store).get key = store.get key :=
  get_foldl_set_of_absent (fun entry member (same : entry.1 = key) =>
    absent entry.2 (same ▸ member)) store

/-! ## Both passes -/

section

variable (migratable : Migratable ext codec store)

include migratable

/-- After both passes an entry is a completed attestation under its new key or one that is not an
attestation. -/
theorem Migratable.completed_cases {value : ν}
    (found : (completed ext codec (rekeyed ext codec store)).get key = some value) :
    (∃ entry ∈ visited codec store, key = newKeyOf ext entry.2 ∧
      value = codec.marshal (withComponents ext entry.2)) ∨
      ¬ StoreName.oracleAttestationKey.bytes <+: key ∧ store.get key = some value := by
  by_cases there : ∃ att, (key, att) ∈ visited codec (rekeyed ext codec store)
  · obtain ⟨att, member⟩ := there
    obtain ⟨entry, inside, newKey, rfl⟩ := migratable.mem_visited_rekeyed.mp member
    rw [completed_get_of_mem member] at found
    exact .inl ⟨entry, inside, newKey, (Option.some.inj found).symm⟩
  · rw [completed_get_of_not_mem (not_exists.mp there)] at found
    rcases migratable.rekeyed_cases found with ⟨entry, inside, newKey, _⟩ | stays
    · exact absurd ⟨entry.2, migratable.mem_visited_rekeyed.mpr ⟨entry, inside, newKey, rfl⟩⟩ there
    · exact .inr stays

/-- Entries that are not attestations stay as they were. -/
theorem Migratable.completed_others
    (elsewhere : ¬ StoreName.oracleAttestationKey.bytes <+: key) :
    (completed ext codec (rekeyed ext codec store)).get key = store.get key := by
  rw [completed_get_of_not_mem (fun att member => elsewhere (mem_visited.mp member).1), rekeyed,
    migratable.relocation.get_of_no_target, if_neg]
  · rintro ⟨move, member, rfl⟩
    obtain ⟨entry, inside, rfl⟩ := mem_map.mp member
    exact elsewhere (mem_visited.mp inside).1
  · rintro move member rfl
    obtain ⟨entry, inside, rfl⟩ := mem_map.mp member
    exact elsewhere (attestationName_isPrefix _ _)

theorem Migratable.migrated
    (amounts : ∀ nonce hash att, StoredAt codec store nonce hash att → AmountsSet att.claim) :
    Migrated ext codec store (completed ext codec (rekeyed ext codec store)) where
  keyed := {
    named := fun key value found => by
      rcases migratable.completed_cases found with ⟨entry, _, rfl, _⟩ | ⟨_, stays⟩
      · exact ⟨_, attestationName_isPrefix _ _⟩
      · exact migratable.named key value stays
    written := fun key value found starts => by
      rcases migratable.completed_cases found with ⟨entry, _, rfl, rfl⟩ | ⟨elsewhere, _⟩
      · exact ⟨_, _, _, rfl, codec.unmarshal_marshal _⟩
      · exact absurd starts elsewhere }
  kept nonce old att stored := by
    have member := mem_visited_key.mpr stored
    obtain ⟨hash, hashed⟩ := migratable.hashed nonce old att stored
    obtain ⟨current, made, verified⟩ := withComponents_verified hashed (amounts nonce old att stored)
    have newKey : newKeyOf ext att = StoreKeys.getAttestationKey nonce hash := by
      rw [newKeyOf, newHashOf_eq hashed, migratable.nonces nonce old att stored]
    have found : (completed ext codec (rekeyed ext codec store)).get (newKeyOf ext att) = _ :=
      completed_get_of_mem (migratable.mem_visited_rekeyed.mpr ⟨_, member, rfl, rfl⟩)
    rw [newKey] at found
    refine ⟨hash, withComponents ext att, current, hashed,
      ⟨_, found, codec.unmarshal_marshal _⟩, made, ?_⟩
    simp only [AttestationRecord.toAttestation, withComponents, Option.bind_eq_bind, Option.bind_some,
      Option.bind_eq_some_iff, Option.pure_def, Option.some.injEq] at made
    obtain ⟨components, _, rfl⟩ := made
    exact ⟨rfl, rfl, rfl, rfl, verified⟩
  once nonce hash record := by
    rintro ⟨value, found, _⟩
    rcases migratable.completed_cases found with ⟨⟨key, att⟩, member, newKey, _⟩ | ⟨elsewhere, _⟩
    · obtain ⟨old, shape⟩ := migratable.inspected member
      obtain ⟨rfl, rfl⟩ := getAttestationKey_inj.mp newKey
      refine ⟨(old, att), ⟨shape.stored, shape.hashed⟩, fun other ⟨stored, hashed⟩ => ?_⟩
      by_contra different
      have sameHash : other.1 ≠ old := by
        rintro rfl
        obtain ⟨first, here, read⟩ := stored
        obtain ⟨second, there, readAgain⟩ := shape.stored
        obtain rfl : first = second := Option.some.inj (here.symm.trans there)
        exact different (Prod.ext rfl (Option.some.inj (read.symm.trans readAgain)))
      exact migratable.distinct _ _ _ _ _ stored shape.stored sameHash
        (hashed.trans shape.hashed.symm)
    · exact absurd (attestationName_isPrefix _ _) elsewhere
  others key elsewhere := migratable.completed_others elsewhere

end

/-- The migration loses no votes of attestations whose claims have their amounts. -/
theorem migration_keeps_attestations (migratable : Migratable ext codec store)
    (amounts : ∀ nonce hash att, StoredAt codec store nonce hash att → AmountsSet att.claim) :
    ∃ middle final, migrateAttestationsToAttestationSeparator ext codec store = .ok middle ∧
      migrateAttestationsToClaimHashComponents ext codec middle = .ok final ∧
        Migrated ext codec store final := by
  refine ⟨_, _, migratable.separator_succeeds, migratable.components_succeeds fun entry member => ?_,
    migratable.migrated amounts⟩
  obtain ⟨hash, shape⟩ := migratable.inspected member
  exact amounts _ hash entry.2 shape.stored

end

/-- Entries that are not attestations hold nothing here. -/
def recordCodec : Codec (Option AttestationRecord) AttestationRecord := ⟨some, id, fun _ => rfl⟩

/-- An attestation with a deposit of an amount and two votes, and one of a batch. -/
def depositRecord (amount : Option Int) : AttestationRecord :=
  ⟨false, [ascii "first", ascii "second"], 7,
    .sendToCosmos ⟨1, 100, hex localnet 5, amount, hex localnet 7, ascii "gravity1recipient",
      ascii "gravity1orchestrator"⟩, none, none⟩

def batchRecord : AttestationRecord :=
  ⟨true, [ascii "first"], 9,
    .batchSendToEth ⟨2, 101, 1, hex localnet 5, ascii "gravity1orchestrator"⟩, none, none⟩

/-- The hash of the deposit changes, the hash of the batch does not. -/
def oldStore (amount : Option Int) : KVStore Bytes (Option AttestationRecord) :=
  ((KVStore.empty.set StoreName.paramsKey.bytes none).set (StoreKeys.getAttestationKey 1 [1])
    (some (depositRecord amount))).set (newKeyOf localnet batchRecord) (some batchRecord)

theorem get_oldStore {amount : Option Int} {key : Bytes} {value : Option AttestationRecord} :
    (oldStore amount).get key = some value ↔ key = newKeyOf localnet batchRecord ∧
      value = some batchRecord ∨
      key = StoreKeys.getAttestationKey 1 [1] ∧ value = some (depositRecord amount) ∨
      key = StoreName.paramsKey.bytes ∧ value = none := by
  have params : ∀ nonce hash, StoreName.paramsKey.bytes ≠ StoreKeys.getAttestationKey nonce hash := by
    intro nonce hash same
    have starts := attestationName_isPrefix nonce hash
    rw [← same] at starts
    exact absurd (StoreName.eq_of_isPrefix starts prefix_rfl) (by decide)
  have paramsBatch : StoreName.paramsKey.bytes ≠ newKeyOf localnet batchRecord := params _ _
  have different : StoreKeys.getAttestationKey 1 [1] ≠ newKeyOf localnet batchRecord := by
    rw [newKeyOf, ne_eq, getAttestationKey_inj]
    exact fun same => absurd same.1 (by decide)
  simp only [oldStore, get_set, get_empty]
  split_ifs with first second third
  · subst first
    simp [different.symm, paramsBatch.symm, eq_comm]
  · subst second
    simp [different, (params 1 [1]).symm, eq_comm]
  · subst third
    simp [params 1 [1], paramsBatch, eq_comm]
  · simp [first, second, third]

theorem storedAt_oldStore {amount : Option Int} {nonce : U64} {hash : Bytes} {att : AttestationRecord}
    (stored : StoredAt recordCodec (oldStore amount) nonce hash att) :
    nonce = 1 ∧ hash = [1] ∧ att = depositRecord amount ∨ nonce = 2 ∧
      hash = newHashOf localnet batchRecord ∧ att = batchRecord := by
  obtain ⟨value, found, read⟩ := stored
  obtain rfl : value = some att := read
  rcases get_oldStore.mp found with ⟨key, same⟩ | ⟨key, same⟩ | ⟨_, same⟩
  · obtain ⟨nonces, hashes⟩ := getAttestationKey_inj.mp key
    exact .inr ⟨nonces, hashes, Option.some.inj same⟩
  · obtain ⟨nonces, hashes⟩ := getAttestationKey_inj.mp key
    exact .inl ⟨nonces, hashes, Option.some.inj same⟩
  · contradiction

theorem migratable_oldStore (amount : Option Int) :
    Migratable localnet recordCodec (oldStore amount) where
  named key value found := by
    rcases get_oldStore.mp found with ⟨rfl, _⟩ | ⟨rfl, _⟩ | ⟨rfl, _⟩
    · exact ⟨_, attestationName_isPrefix _ _⟩
    · exact ⟨_, attestationName_isPrefix _ _⟩
    · exact ⟨_, prefix_rfl⟩
  written key value found starts := by
    rcases get_oldStore.mp found with ⟨rfl, rfl⟩ | ⟨rfl, rfl⟩ | ⟨rfl, _⟩
    · exact ⟨_, _, _, rfl, rfl⟩
    · exact ⟨_, _, _, rfl, rfl⟩
    · exact absurd (StoreName.eq_of_isPrefix starts prefix_rfl) (by decide)
  nonces nonce hash att stored := by
    rcases storedAt_oldStore stored with ⟨rfl, _, rfl⟩ | ⟨rfl, _, rfl⟩ <;> rfl
  hashed nonce hash att stored := by
    rcases storedAt_oldStore stored with ⟨_, _, rfl⟩ | ⟨_, _, rfl⟩ <;> exact ⟨_, rfl⟩
  fresh nonce hash att stored := by
    rcases storedAt_oldStore stored with ⟨_, _, rfl⟩ | ⟨_, _, rfl⟩ <;> rfl
  distinct nonce first second att other stored rival different := by
    rcases storedAt_oldStore stored with ⟨rfl, rfl, rfl⟩ | ⟨rfl, rfl, rfl⟩ <;>
      rcases storedAt_oldStore rival with ⟨same, rfl, rfl⟩ | ⟨same, rfl, rfl⟩ <;>
      first | exact absurd rfl different | exact absurd same (by decide)
  apart nonce hash att newHash other old rival stored there different hashed same := by
    obtain ⟨sameNonce, sameHash⟩ := Prod.mk.inj same
    rcases storedAt_oldStore stored with ⟨rfl, rfl, rfl⟩ | ⟨rfl, rfl, rfl⟩ <;>
      rcases storedAt_oldStore there with ⟨rfl, rfl, rfl⟩ | ⟨rfl, rfl, rfl⟩ <;>
      first | exact absurd rfl different | exact absurd sameNonce (by decide)

/-- A deposit and a batch are migrated. -/
theorem oldStore_migrated :
    ∃ middle final, migrateAttestationsToAttestationSeparator localnet recordCodec
      (oldStore (some 3)) = .ok middle ∧
      migrateAttestationsToClaimHashComponents localnet recordCodec middle = .ok final ∧
      Migrated localnet recordCodec (oldStore (some 3)) final :=
  migration_keeps_attestations (migratable_oldStore (some 3)) fun nonce hash att stored => by
    rcases storedAt_oldStore stored with ⟨_, _, rfl⟩ | ⟨_, _, rfl⟩
    · exact ⟨3, rfl, by decide⟩
    · trivial

/-- A claim without an amount can be hashed, but it cannot be restored from its components. -/
theorem migration_panics_without_amount :
    Migratable localnet recordCodec (oldStore none) ∧
    (do
      let middle ← migrateAttestationsToAttestationSeparator localnet recordCodec (oldStore none)
      let _ ← migrateAttestationsToClaimHashComponents localnet recordCodec middle
      pure () : Go Unit) =
        .error (.panic "Failed to compute claim hash from components during migration") :=
  ⟨migratable_oldStore none, by decide +kernel⟩

end GravityBridge.Keeper
