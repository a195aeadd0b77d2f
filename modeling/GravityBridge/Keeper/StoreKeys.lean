import GravityBridge.Keeper.Chain
import GravityBridge.Lib.ByteOrder

/-!
# The keys of the module's store

All entries of the module are in one store, in the order of the bytes of their keys.
A key starts with the hashed name of what it stores. Entries of one kind are
found by a range of keys that `prefixRange` makes from what their keys start with.
-/

namespace GravityBridge.Keeper

open Lib.Fallible Lib.ByteString Lib.Store Lib.Digits
open Lib.Reading Lib.ByteOrder GravityBridge.Types List

/-! ## Ranges -/

/-- The loop over the bytes that became zero, from a position to the front. -/
def carry (bytes : Bytes) : Nat → Bytes × Nat
  | 0 => (bytes, 0)
  | position + 1 =>
      if bytes.getD (position + 1) 0 = 0 then
        carry (bytes.set position (bytes.getD position 0 + 1)) position
      else (bytes, position + 1)

/-- The start and the end of a range. Without an end it goes up to the last key. The keepers of the
module and of the auctions have the same function. -/
def prefixRange : Option Bytes → Go (Option Bytes × Option Bytes)
  | none => panicking "nil key not allowed"
  | some [] => pure (none, none)
  | some (first :: rest) =>
      let last := (first :: rest).length - 1
      let (stop, position) := carry ((first :: rest).set last ((first :: rest).getD last 0 + 1)) last
      pure (some (first :: rest), if position = 0 ∧ stop.getD 0 0 = 0 then none else some stop)

/-- Whether an iterator over a range visits a key. -/
def InRange (range : Option Bytes × Option Bytes) (key : Bytes) : Prop :=
  (∀ start ∈ range.1, start ≤ key) ∧ ∀ stop ∈ range.2, key < stop

instance (range : Option Bytes × Option Bytes) (key : Bytes) : Decidable (InRange range key) :=
  inferInstanceAs (Decidable (_ ∧ _))

/-- The number in the bytes when a byte that became zero still owes one to the byte before it. -/
def owing (bytes : Bytes) (position : Nat) : Nat :=
  uint bytes + if bytes.getD position 0 = 0 then 256 ^ (bytes.length - position) else 0

/-- A byte that is counted up and becomes zero owes one. -/
theorem owing_set_succ (front : Bytes) (byte : UInt8) (rest : Bytes) :
    owing (front ++ (byte + 1) :: rest) front.length =
      uint (front ++ byte :: rest) + 256 ^ rest.length := by
  have here : (front ++ (byte + 1) :: rest).getD front.length 0 = byte + 1 := by simp
  have size : (front ++ (byte + 1) :: rest).length - front.length = rest.length + 1 := by simp
  have bound := byte.toNat_lt
  rw [owing, here, size, uint_append, uint_append, uint_cons, uint_cons, length_cons, length_cons]
  split_ifs with wrapped
  · have full : byte.toNat = 255 := by
      have number := congrArg UInt8.toNat wrapped
      rw [UInt8.toNat_add] at number
      simp at number
      omega
    rw [wrapped, full, pow_succ]
    simp
    ring
  · have next : (byte + 1).toNat = byte.toNat + 1 := by
      rw [UInt8.toNat_add]
      have notFull : byte.toNat ≠ 255 := fun full =>
        wrapped (UInt8.toNat_inj.mp (by rw [UInt8.toNat_add, full]; rfl))
      simp
      omega
    rw [next]
    ring

/-- The loop pays what is owed, or ends at the first byte still owing. -/
theorem carry_spec (front : Bytes) (byte : UInt8) (rest : Bytes) {stop : Bytes} {position : Nat}
    (looped : carry (front ++ byte :: rest) front.length = (stop, position)) :
    stop.length = (front ++ byte :: rest).length ∧
      uint stop + (if position = 0 ∧ stop.getD 0 0 = 0 then 256 ^ stop.length else 0) =
        owing (front ++ byte :: rest) front.length := by
  induction front using List.reverseRecOn generalizing byte rest with
  | nil =>
    obtain ⟨rfl, rfl⟩ := Prod.mk.inj looped
    simp [owing]
  | append_singleton front before ih =>
    have joined : front ++ [before] ++ byte :: rest = front ++ before :: byte :: rest := by simp
    have frontLength : (front ++ [before]).length = front.length + 1 := by simp
    rw [joined, frontLength] at looped ⊢
    have here : (front ++ before :: byte :: rest).getD (front.length + 1) 0 = byte := by simp
    have previous : (front ++ before :: byte :: rest).getD front.length 0 = before := by simp
    rw [carry, here, previous] at looped
    split_ifs at looped with zero
    · subst zero
      rw [set_append_right _ _ le_rfl, Nat.sub_self, set_cons_zero] at looped
      obtain ⟨length, number⟩ := ih (before + 1) (0 :: rest) looped
      have size : (front ++ before :: 0 :: rest).length - (front.length + 1) =
          (0 :: rest).length := by
        simp only [length_append, length_cons]
        omega
      refine ⟨by simpa using length, ?_⟩
      rw [number, owing_set_succ, owing, if_pos here, size]
    · obtain ⟨rfl, rfl⟩ := Prod.mk.inj looped
      refine ⟨rfl, ?_⟩
      rw [owing, here, if_neg zero, if_neg (by simp)]

/-- The end of a range is the next string of the same length, if there is one. -/
theorem prefixRange_eq {bytes : Bytes} (nonempty : bytes ≠ []) :
    ∃ stop, prefixRange (some bytes) = .ok (some bytes, stop) ∧
      (stop = none → uint bytes + 1 = 256 ^ bytes.length) ∧
      ∀ next ∈ stop, next.length = bytes.length ∧ uint next = uint bytes + 1 := by
  obtain ⟨first, others, rfl⟩ := exists_cons_of_ne_nil nonempty
  obtain ⟨front, last, split⟩ : ∃ front last, first :: others = front ++ [last] :=
    ⟨_, _, (dropLast_append_getLast (cons_ne_nil first others)).symm⟩
  rw [prefixRange, split]
  have position : (front ++ [last]).length - 1 = front.length := by simp
  have here : (front ++ [last]).getD front.length 0 = last := by simp
  rw [position, here, set_append_right _ _ le_rfl, Nat.sub_self, set_cons_zero]
  obtain ⟨stop, reached, looped⟩ : ∃ stop reached, carry (front ++ [last + 1]) front.length =
      (stop, reached) := ⟨_, _, rfl⟩
  obtain ⟨length, number⟩ := carry_spec front (last + 1) [] looped
  rw [owing_set_succ, length_nil, pow_zero] at number
  have sameLength : stop.length = (front ++ [last]).length := by simpa using length
  have bound := uint_lt (front ++ [last])
  rw [sameLength] at number
  simp only [looped]
  refine ⟨_, rfl, fun none => ?_, fun next some => ?_⟩
  · split_ifs at none number with exceeded
    omega
  · split_ifs at some number with exceeded
    · contradiction
    · obtain rfl := Option.some.inj some
      exact ⟨sameLength, by omega⟩

variable {range : Option Bytes × Option Bytes} {key : Bytes}

/-- A range visits, among the keys that are long enough, those that start with its prefix. -/
theorem inRange_prefixRange_iff {bytes : Bytes} (nonempty : bytes ≠ [])
    (made : prefixRange (some bytes) = .ok range) (long : bytes.length ≤ key.length) :
    InRange range key ↔ bytes <+: key := by
  obtain ⟨stop, same, unbounded, bounded⟩ := prefixRange_eq nonempty
  obtain rfl := Except.ok.inj (made.symm.trans same)
  have frontLength : (key.take bytes.length).length = bytes.length := by simp [long]
  have lower : bytes ≤ key ↔ uint bytes ≤ uint (key.take bytes.length) := by
    rw [le_iff_le_take long, ← not_lt, lt_iff_uint_lt frontLength, not_lt]
  have upper : (∀ next ∈ stop, key < next) ↔ uint (key.take bytes.length) < uint bytes + 1 := by
    cases stop with
    | none =>
      have below := uint_lt (key.take bytes.length)
      rw [frontLength, ← unbounded rfl] at below
      simp [below]
    | some next =>
      obtain ⟨nextLength, number⟩ := bounded next rfl
      simp only [Option.mem_some_iff, forall_eq']
      rw [lt_iff_take_lt (by rw [nextLength]; exact long), nextLength,
        lt_iff_uint_lt (frontLength.trans nextLength.symm), number]
  rw [prefix_iff_eq_take]
  simp only [InRange, Option.mem_some_iff, forall_eq', lower, upper]
  constructor
  · rintro ⟨atLeast, below⟩
    exact uint_injective frontLength.symm (by omega)
  · intro front
    rw [← front]
    omega

/-- For every prefix there is a range, and it visits, among the keys that are long enough, those
with the prefix. -/
theorem prefix_iteration_exact (bytes : Bytes) (nonempty : bytes ≠ []) :
    ∃ range, prefixRange (some bytes) = .ok range ∧ range.1 = some bytes ∧
      ∀ key : Bytes, bytes.length ≤ key.length → (InRange range key ↔ bytes <+: key) := by
  obtain ⟨stop, made, _⟩ := prefixRange_eq nonempty
  exact ⟨_, made, rfl, fun _ long => inRange_prefixRange_iff nonempty made long⟩

/-- A carry through two bytes, and a range without an end. -/
theorem carried_prefix_iterated :
    prefixRange (some [15, 42, 255, 255]) = .ok (some [15, 42, 255, 255], some [15, 43, 0, 0]) ∧
      (∃ range, prefixRange (some [255, 255]) = .ok range ∧ range.1 = some [255, 255] ∧
        ∀ key : Bytes, 2 ≤ key.length → (InRange range key ↔ [255, 255] <+: key)) :=
  ⟨by decide, prefix_iteration_exact [255, 255] (by decide)⟩

/-! ## Names -/

/-- What an entry of the store is, by the name that its key starts with. -/
inductive StoreName where
  | ethAddressByValidatorKey | validatorByEthAddressKey | valsetRequestKey | valsetConfirmKey
  | legacyOracleClaimKey | oracleAttestationKey | outgoingTXPoolKey | outgoingTXBatchKey |
      batchConfirmKey
  | lastEventNonceByValidatorKey | lastObservedEventNonceKey | legacySequenceKeyPrefix |
      keyLastTXPoolID
  | keyLastOutgoingBatchID | keyOrchestratorAddress | keyOutgoingLogicCall | keyOutgoingLogicConfirm
  | lastObservedEthereumBlockHeightKey | denomToERC20Key | erc20ToDenomKey | remappedERC20Key
  | lastSlashedValsetNonce | latestValsetNonce | lastSlashedBatchBlock | lastSlashedLogicCallBlock
  | lastUnBondingBlockHeight | pastEthSignatureCheckpointKey | lastObservedValsetKey |
      pendingIbcAutoForwards
  | paramsKey | cosmosBridgeableTokensKey
  deriving DecidableEq, Repr

def StoreName.all : List StoreName :=
  [.ethAddressByValidatorKey, .validatorByEthAddressKey, .valsetRequestKey, .valsetConfirmKey,
    .legacyOracleClaimKey, .oracleAttestationKey, .outgoingTXPoolKey, .outgoingTXBatchKey,
    .batchConfirmKey, .lastEventNonceByValidatorKey, .lastObservedEventNonceKey,
    .legacySequenceKeyPrefix, .keyLastTXPoolID, .keyLastOutgoingBatchID, .keyOrchestratorAddress,
    .keyOutgoingLogicCall, .keyOutgoingLogicConfirm, .lastObservedEthereumBlockHeightKey,
    .denomToERC20Key, .erc20ToDenomKey, .remappedERC20Key, .lastSlashedValsetNonce,
    .latestValsetNonce, .lastSlashedBatchBlock, .lastSlashedLogicCallBlock,
    .lastUnBondingBlockHeight, .pastEthSignatureCheckpointKey, .lastObservedValsetKey,
    .pendingIbcAutoForwards, .paramsKey, .cosmosBridgeableTokensKey]

theorem StoreName.mem_all (name : StoreName) : name ∈ all := by
  cases name <;> decide

/-- The digest of the name, as a number of sixteen bytes. -/
def StoreName.digest : StoreName → Nat
  | .ethAddressByValidatorKey => 0x1248a4405201cc3a00ab515ce9c4dd47
  | .validatorByEthAddressKey => 0xbfe41763f372108317ed982a4cd1b4a8
  | .valsetRequestKey => 0xa318dca6c74494c2fac1841c9e2454fe
  | .valsetConfirmKey => 0x2f522701d7f28af84632f8228fbe1750
  | .legacyOracleClaimKey => 0x15968a4f1cb06e26ab155d6e59eccc85
  | .oracleAttestationKey => 0x0bfa165ff4ef558b3d0b62ea4d4a46c5
  | .outgoingTXPoolKey => 0x44f7816ec23d990ee39d9ed4609bbd4d
  | .outgoingTXBatchKey => 0x54e2db44755d8865b1ff4227402e204f
  | .batchConfirmKey => 0x75b935a854d50880236724b9c4822daf
  | .lastEventNonceByValidatorKey => 0xeefcb999cc3d7b80b052b55106a6ba5e
  | .lastObservedEventNonceKey => 0xa34e56ab6fab9ee91e82ba216bfeb759
  | .legacySequenceKeyPrefix => 0x33887862fa4fba9c592d6fb84d8dd755
  | .keyLastTXPoolID => 0xfd87a616141bfbd26fd2938d6e1cf099
  | .keyLastOutgoingBatchID => 0x4f9c42e30316353cb1e0ed74200abbbb
  | .keyOrchestratorAddress => 0x391e8708521fb085676169e8fb232cda
  | .keyOutgoingLogicCall => 0x98dfff23346c13a1747fbbed5b23d248
  | .keyOutgoingLogicConfirm => 0xd244ded2fa29e95a7719ec40696221e4
  | .lastObservedEthereumBlockHeightKey => 0x83a283a6c3390f1526250df45e9ef8c6
  | .denomToERC20Key => 0x19fb4f512868744eea13f3eac3672c12
  | .erc20ToDenomKey => 0x877b20a916c830ad4db23d22f7b2cde0
  | .remappedERC20Key => 0xa90264c8bb3792efd37f29dac4addab9
  | .lastSlashedValsetNonce => 0x3adee74534260faaea6ac8e31826b09e
  | .latestValsetNonce => 0xba0fa05da166611b656bac7739a6e7d3
  | .lastSlashedBatchBlock => 0xcbaedf5dd1e068d9e2223281f693358c
  | .lastSlashedLogicCallBlock => 0x3df72087ae3f58d49c6d0b1737c8da0c
  | .lastUnBondingBlockHeight => 0x06a6b30651341e80276e0d2e19449250
  | .pastEthSignatureCheckpointKey => 0x1cbe0be407a979331b98e599eeedd09f
  | .lastObservedValsetKey => 0x2418e9d990ce88e9b844b0bb723d4d7a
  | .pendingIbcAutoForwards => 0x5b89a7c5dc9abd2a7abc2560d6eb42ea
  | .paramsKey => 0x8585aab8398d6c73ace6c099f0664647
  | .cosmosBridgeableTokensKey => 0xb3742636b75b7b046dea4ac081caf91f

/-- `HashString`. -/
def StoreName.bytes (name : StoreName) : Bytes := (bigEndian 256 16 name.digest).map UInt8.ofNat

/-- The digests are sixteen bytes, all different, and none is the next one after another. -/
theorem StoreName.digests_apart : ∀ name ∈ all, name.digest < 256 ^ 16 ∧
    ∀ other ∈ all, other ≠ name → other.digest ≠ name.digest ∧ other.digest ≠ name.digest + 1 := by
  decide +kernel

@[simp] theorem StoreName.length_bytes (name : StoreName) : name.bytes.length = 16 := by
  simp [StoreName.bytes]

theorem StoreName.append_ne_nil (name : StoreName) (rest : Bytes) : name.bytes ++ rest ≠ [] := by
  intro empty
  have size := congrArg List.length empty
  simp at size

theorem StoreName.uint_bytes (name : StoreName) : uint name.bytes = name.digest :=
  uint_bigEndian (digests_apart name name.mem_all).1

variable {name : StoreName}

/-- A key starts with one name only. -/
theorem StoreName.eq_of_isPrefix {other : StoreName} (first : name.bytes <+: key)
    (second : other.bytes <+: key) : name = other := by
  have bytes : name.bytes = other.bytes :=
    (prefix_of_prefix_length_le first second (by simp)).eq_of_length (by simp)
  by_contra different
  have digests := congrArg uint bytes
  rw [name.uint_bytes, other.uint_bytes] at digests
  exact ((digests_apart other other.mem_all).2 name name.mem_all different).1 digests

variable {rest : Bytes}

/-- A range for keys that start with one name visits no key that starts with another one, even a
short key. -/
theorem StoreName.not_inRange {other : StoreName} (different : other ≠ name)
    (starts : other.bytes <+: key)
    (made : prefixRange (some (name.bytes ++ rest)) = .ok range) : ¬ InRange range key := by
  obtain ⟨stop, same, unbounded, bounded⟩ := prefixRange_eq (name.append_ne_nil rest)
  obtain rfl := Except.ok.inj (made.symm.trans same)
  obtain ⟨tail, rfl⟩ := starts
  obtain ⟨notSame, notNext⟩ := (digests_apart name name.mem_all).2 other other.mem_all different
  have otherFits := (digests_apart other other.mem_all).1
  have total := uint_append name.bytes rest
  have restBound := uint_lt rest
  rw [name.uint_bytes] at total
  rintro ⟨atLeast, below⟩
  -- The start of the range puts the other name behind this one, with room between them.
  have behind : name.digest + 1 < other.digest := by
    have after := not_lt.mpr (atLeast _ rfl)
    rw [append_lt_append_iff (by simp), not_or, lt_iff_uint_lt (by simp), uint_bytes,
      uint_bytes] at after
    omega
  cases stop with
  | none =>
    have full := unbounded rfl
    rw [length_append, length_bytes, total, pow_add] at full
    have atMost : name.digest * 256 ^ rest.length + uint rest + 1 ≤
        (name.digest + 1) * 256 ^ rest.length := by
      rw [add_mul, one_mul]
      omega
    have enough : 256 ^ 16 ≤ name.digest + 1 :=
      Nat.le_of_mul_le_mul_right (full ▸ atMost) (Nat.pow_pos (by decide))
    omega
  | some next =>
    obtain ⟨length, number⟩ := bounded next rfl
    have size : next.length = 16 + rest.length := by simpa using length
    have frontLength : (next.take 16).length = 16 := by simp [size]
    have backLength : (next.drop 16).length = rest.length := by simp [size]
    have before := below next rfl
    have split := uint_append (next.take 16) (next.drop 16)
    rw [take_append_drop, number, backLength, total] at split
    rw [← take_append_drop 16 next, append_lt_append_iff (by simp [frontLength])] at before
    have atMost : other.digest ≤ uint (next.take 16) := by
      rw [← other.uint_bytes]
      rcases before with less | ⟨equal, _⟩
      · exact ((lt_iff_uint_lt (by simp [frontLength])).mp less).le
      · rw [equal]
    have room : uint (next.take 16) * 256 ^ rest.length ≤ (name.digest + 1) * 256 ^ rest.length := by
      rw [add_mul, one_mul]
      omega
    have front := Nat.le_of_mul_le_mul_right room (Nat.pow_pos (by decide))
    omega

/-! ## Iterators -/

/-- `k.cdc`, which reads back what it wrote. -/
structure Codec (ν α : Type) where
  marshal : α → ν
  unmarshal : ν → Option α
  unmarshal_marshal : ∀ value, unmarshal (marshal value) = some value

section

variable {ν : Type}

/-- Every key of the store starts with one of the names. -/
def Named (store : KVStore Bytes ν) : Prop :=
  ∀ key value, store.get key = some value → ∃ name : StoreName, name.bytes <+: key

/-- `store.Iterator(start, end)`. -/
def iterator (store : KVStore Bytes ν) (range : Option Bytes × Option Bytes) : List (Bytes × ν) :=
  store.entries.filter (fun entry => InRange range entry.1)

/-- `store.ReverseIterator(start, end)`. -/
def reverseIterator (store : KVStore Bytes ν) (range : Option Bytes × Option Bytes) :
    List (Bytes × ν) :=
  (iterator store range).reverse

/-- An iterator over a range visits the entries whose keys start with its prefix, if all keys with
its name are long enough. -/
theorem iterator_eq_filter {store : KVStore Bytes ν} (named : Named store)
    (long : ∀ key value, store.get key = some value → name.bytes <+: key →
      16 + rest.length ≤ key.length) (made : prefixRange (some (name.bytes ++ rest)) = .ok range) :
    iterator store range = store.entries.filter
      (fun entry => (name.bytes ++ rest).isPrefixOf entry.1) := by
  refine filter_congr fun entry member => ?_
  have found : store.get entry.1 = some entry.2 := KVStore.mem_entries.mp member
  rw [Bool.eq_iff_iff, decide_eq_true_iff, isPrefixOf_iff_prefix]
  obtain ⟨other, starts⟩ := named _ _ found
  by_cases same : other = name
  · subst same
    exact inRange_prefixRange_iff (other.append_ne_nil rest) made
      (by simpa using long _ _ found starts)
  · exact iff_of_false (StoreName.not_inRange same starts made) fun both =>
      same (StoreName.eq_of_isPrefix starts ((prefix_append _ _).trans both))

/-- A store that holds nothing but one entry, which has only a name for its key. -/
theorem named_single (name : StoreName) (value : ν) :
    Named (KVStore.empty.set name.bytes value) ∧
      ∀ key stored, (KVStore.empty.set name.bytes value).get key = some stored →
      ∀ other ≠ name, ¬ other.bytes <+: key := by
  have only : ∀ key stored, (KVStore.empty.set name.bytes value).get key = some stored →
      key = name.bytes := by
    intro key stored found
    rw [KVStore.get_set] at found
    split_ifs at found with same
    · exact same
    · simp at found
  refine ⟨fun key stored found => ⟨name, only key stored found ▸ prefix_rfl⟩,
    fun key stored found other different starts => ?_⟩
  rw [only key stored found] at starts
  exact different (StoreName.eq_of_isPrefix starts prefix_rfl)

end

/-! ## Checkpoints -/

/-- The text that is written for a byte. -/
def runeText (byte : UInt8) : Bytes := if byte < 128 then
    [byte] else [192 + byte / 64, 128 + byte % 64]

/-- With the name of the archive in front. -/
def StoreKeys.getPastEthSignatureCheckpointKey (checkpoint : Bytes) : Bytes :=
  StoreName.pastEthSignatureCheckpointKey.bytes ++ Keeper.getPastEthSignatureCheckpointKey checkpoint

/-- Two bytes are written for a large byte. The first is not a small one, and both together give it
back. -/
theorem runeText_large (byte : UInt8) (large : ¬ byte < 128) :
    ¬ 192 + byte / 64 < 128 ∧ (192 + byte / 64) * 64 + (128 + byte % 64) = byte + 128 := by
  have every : ∀ number : Fin 256, ¬ UInt8.ofNat number.val < 128 →
      ¬ 192 + UInt8.ofNat number.val / 64 < 128 ∧
        (192 + UInt8.ofNat number.val / 64) * 64 + (128 + UInt8.ofNat number.val % 64) =
          UInt8.ofNat number.val + 128 := by
    decide +kernel
  simpa using every ⟨byte.toNat, byte.toNat_lt⟩ (by simpa using large)

/-- The first character of a text can be told from what follows it. -/
theorem runeText_append_inj {first second : UInt8} {tail : Bytes}
    (same : runeText first ++ rest = runeText second ++ tail) : first = second ∧ rest = tail := by
  unfold runeText at same
  split_ifs at same with firstSmall secondSmall secondSmall
  · simpa using same
  · exact absurd ((List.cons.inj same).1 ▸ firstSmall) (runeText_large second secondSmall).1
  · exact absurd ((List.cons.inj same).1 ▸ secondSmall) (runeText_large first firstSmall).1
  · obtain ⟨leading, others⟩ := List.cons.inj same
    obtain ⟨trailing, tails⟩ := List.cons.inj others
    refine ⟨(UInt8.add_left_inj 128).mp ?_, tails⟩
    rw [← (runeText_large first firstSmall).2, leading, trailing,
      (runeText_large second secondSmall).2]

theorem runeText_append_ne_nil (byte : UInt8) (rest : Bytes) : runeText byte ++ rest ≠ [] := by
  unfold runeText
  split_ifs <;> simp

theorem convertByteArrToString_injective : Function.Injective convertByteArrToString := by
  have step : ∀ byte rest, convertByteArrToString (byte :: rest) =
      runeText byte ++ convertByteArrToString rest :=
    fun _ _ => rfl
  intro first
  induction first with
  | nil =>
    intro second same
    cases second with
    | nil => rfl
    | cons byte rest => exact absurd (same.symm.trans rfl) (runeText_append_ne_nil byte _)
  | cons byte rest ih =>
    intro second same
    cases second with
    | nil => exact absurd (same.trans rfl) (runeText_append_ne_nil byte _)
    | cons other tail =>
      rw [step, step] at same
      obtain ⟨rfl, rests⟩ := runeText_append_inj same
      rw [ih rests]

/-- The key of a checkpoint determines it, whatever its length. -/
theorem checkpoint_keys_never_collide (first second : Bytes) :
    StoreKeys.getPastEthSignatureCheckpointKey first =
      StoreKeys.getPastEthSignatureCheckpointKey second ↔
      first = second := by
  rw [StoreKeys.getPastEthSignatureCheckpointKey, StoreKeys.getPastEthSignatureCheckpointKey,
    List.append_right_inj]
  exact convertByteArrToString_injective.eq_iff

end GravityBridge.Keeper
