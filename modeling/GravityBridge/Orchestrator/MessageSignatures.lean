import GravityBridge.Contract.Gravity

/-!
# What is signed on all three sides

The orchestrator builds the bytes that its validator signs from its own copy of a
validator set or batch. The module hashes the same object as it stores it, and the
contract as it is passed to it. All three hash the same bytes, and these bytes
determine the object and the instance of the bridge.
-/

namespace GravityBridge.Orchestrator

open Lib.Fallible Lib.ByteString Lib.Abi
open GravityBridge.Types Keeper Contract List

/-! ## The objects of the orchestrator -/

structure ValsetMember where
  power : U64
  ethAddress : EthAddress
  deriving DecidableEq, Repr

structure Valset where
  nonce : U64
  members : List ValsetMember
  rewardAmount : U256
  /-- The zero address is read as no token. -/
  rewardToken : Option EthAddress
  deriving DecidableEq, Repr

structure Erc20Token where
  amount : U256
  tokenContractAddress : EthAddress
  deriving DecidableEq, Repr

structure BatchTransaction where
  id : U64
  sender : Bytes
  destination : EthAddress
  erc20Token : Erc20Token
  erc20Fee : Erc20Token
  deriving DecidableEq, Repr

structure TransactionBatch where
  nonce : U64
  batchTimeout : U64
  transactions : List BatchTransaction
  totalFee : Erc20Token
  tokenContract : EthAddress
  deriving DecidableEq, Repr

def Valset.toArrays (valset : Valset) : List EthAddress × List U64 :=
  (valset.members.map ValsetMember.ethAddress, valset.members.map ValsetMember.power)

/-- The amounts, destinations and fees. -/
def TransactionBatch.getCheckpointValues (batch : TransactionBatch) :
    Argument × Argument × Argument :=
  (words (batch.transactions.map (fun item => item.erc20Token.amount)),
    addresses (batch.transactions.map BatchTransaction.destination),
    words (batch.transactions.map (fun item => item.erc20Fee.amount)))

def encodeValsetConfirm (gravityId : Bytes) (valset : Valset) : Bytes :=
  let (ethAddresses, powers) := valset.toArrays
  let rewardToken := valset.rewardToken.getD zeroAddress
  encode [.fixed gravityId, .fixed (ascii "checkpoint"), .number valset.nonce.val,
    addresses ethAddresses, .array (powers.map (fun power => (power.val : Int))),
    .number valset.rewardAmount.val, .number rewardToken.val]

def encodeTxBatchConfirm (gravityId : Bytes) (batch : TransactionBatch) : Bytes :=
  let (amounts, destinations, fees) := batch.getCheckpointValues
  encode [.fixed gravityId, .fixed (ascii "transactionBatch"), amounts, destinations, fees,
    .number batch.nonce.val, .number batch.tokenContract.val, .number batch.batchTimeout.val]

/-! ## The objects as they are signed -/

structure SignedValset where
  nonce : U256
  members : List (EthAddress × U256)
  rewardAmount : U256
  rewardToken : EthAddress
  deriving DecidableEq, Repr

structure SignedTransfer where
  amount : U256
  destination : EthAddress
  fee : U256
  deriving DecidableEq, Repr

structure SignedBatch where
  nonce : U256
  timeout : U256
  transfers : List SignedTransfer
  token : EthAddress
  deriving DecidableEq, Repr

/-- What the set is passed to the contract as. -/
def SignedValset.args (signed : SignedValset) : ValsetArgs :=
  ⟨signed.members.map Prod.fst, signed.members.map Prod.snd, signed.nonce, signed.rewardAmount,
    signed.rewardToken⟩

/-- What the batch is passed to the contract as. -/
def SignedBatch.args (signed : SignedBatch) : BatchArgs :=
  ⟨signed.transfers.map SignedTransfer.amount, signed.transfers.map SignedTransfer.destination,
    signed.transfers.map SignedTransfer.fee, signed.nonce, signed.token, signed.timeout⟩

/-- The module stores the set. -/
structure SignedValset.StoredAs (signed : SignedValset) (valset : Keeper.Valset) : Prop where
  nonce : valset.nonce = signed.nonce.val
  members : valset.members.map (fun member =>
    (hexToAddress member.ethereumAddress, member.power.val)) =
    signed.members.map (fun member => (member.1, member.2.val))
  rewardAmount : valset.rewardAmount = some (signed.rewardAmount.val : Int)
  tokenValid : validateEthAddress valset.rewardToken = .ok ()
  rewardToken : hexToAddress valset.rewardToken = signed.rewardToken

/-- The orchestrator read the set. -/
structure SignedValset.ReadAs (signed : SignedValset) (valset : Valset) : Prop where
  nonce : valset.nonce.val = signed.nonce.val
  members : valset.members.map (fun member => (member.ethAddress, member.power.val)) =
    signed.members.map (fun member => (member.1, member.2.val))
  rewardAmount : valset.rewardAmount = signed.rewardAmount
  rewardToken : valset.rewardToken.getD zeroAddress = signed.rewardToken

/-- The module stores the batch. -/
structure SignedBatch.StoredAs (signed : SignedBatch) (batch : OutgoingTxBatch) : Prop where
  nonce : batch.batchNonce = signed.nonce.val
  timeout : batch.batchTimeout = signed.timeout.val
  transfers : batch.transactions.map
    (fun tx => (tx.erc20Token.amount, tx.destAddress, tx.erc20Fee.amount)) =
    signed.transfers.map (fun transfer => (transfer.amount.val, transfer.destination,
      transfer.fee.val))
  token : batch.tokenContract = signed.token

/-- The orchestrator read the batch. -/
structure SignedBatch.ReadAs (signed : SignedBatch) (batch : TransactionBatch) : Prop where
  nonce : batch.nonce.val = signed.nonce.val
  timeout : batch.batchTimeout.val = signed.timeout.val
  transfers : batch.transactions.map (fun item =>
    SignedTransfer.mk item.erc20Token.amount item.destination
    item.erc20Fee.amount) = signed.transfers
  token : batch.tokenContract = signed.token

inductive SignedObject where
  | valset (signed : SignedValset)
  | batch (signed : SignedBatch)
  deriving DecidableEq, Repr

/-- The bytes that are hashed. -/
def SignedObject.preimage (gravityId : Bytes) : SignedObject → Bytes
  | .valset signed => encode (signed.args.arguments gravityId)
  | .batch signed => encode (signed.args.arguments gravityId)

/-- A text in the type of the contract. -/
def bytes32 (text : Bytes) (short : text.length ≤ 32) : Bytes32 :=
  ⟨text ++ List.replicate (32 - text.length) 0, by
    rw [List.length_append, List.length_replicate]
    omega⟩

/-! ## The same bytes -/

theorem int64_of_lt {number : Nat} (below : number < 2 ^ 63) : int64 number = number := by
  have small : number % 2 ^ 64 = number := Nat.mod_eq_of_lt (by omega)
  rw [int64, small, if_pos below]

theorem map_of_map_eq {α β γ δ : Type*} {first : List α} {second : List β} {left : α → γ}
    {right : β → γ} (same : first.map left = second.map right) (transform : γ → δ) :
    first.map (fun value => transform (left value)) =
      second.map (fun value => transform (right value)) := by
  have mapped := congrArg (List.map transform) same
  rwa [map_map, map_map] at mapped

/-- Padding a text first changes nothing. -/
theorem encode_bytes32 (text : Bytes) (short : text.length ≤ 32) (rest : List Argument) :
    encode (.fixed (bytes32 text short).val :: rest) = encode (.fixed text :: rest) := by
  have full : (bytes32 text short).val.length = 32 := (bytes32 text short).property
  have words : (Argument.fixed (bytes32 text short).val).head (32 * (rest.length + 1)) =
      (Argument.fixed text).head (32 * (rest.length + 1)) := by
    simp only [Argument.head, full, Nat.sub_self, replicate_zero, append_nil]
    rfl
  simp only [encode, heads, length_cons, words, flatMap_cons, Argument.data]

section

variable {gravityId : Bytes} (short : gravityId.length ≤ 32) (ext : External)

theorem strToFixByteArray_short :
    strToFixByteArray gravityId = .ok (bytes32 gravityId short).val := by
  simp [strToFixByteArray, short, bytes32]

include short

theorem SignedValset.StoredAs.getCheckpoint {signed : SignedValset} {valset : Keeper.Valset}
    (stored : signed.StoredAs valset) (nonceBelow : signed.nonce.val < 2 ^ 63)
    (powersBelow : ∀ member ∈ signed.members, member.2.val < 2 ^ 63) :
    valset.getCheckpoint ext gravityId =
      .ok (ext.keccak256 (SignedObject.preimage gravityId (.valset signed))) := by
  have nonce : int64 valset.nonce = signed.nonce.val := by rw [stored.nonce, int64_of_lt nonceBelow]
  have members := map_of_map_eq stored.members (fun member => ((member.1.val : Nat) : Int))
  have powers : valset.members.map (fun member => int64 member.power.val) =
      signed.members.map (fun member => ((member.2.val : Nat) : Int)) := by
    refine (map_of_map_eq stored.members (fun member => int64 member.2)).trans ?_
    exact map_congr_left (fun member inside => int64_of_lt (powersBelow member inside))
  have arguments : valset.checkpointArguments (bytes32 gravityId short).val signed.rewardAmount.val =
      signed.args.arguments (bytes32 gravityId short).val := by
    simp only [Keeper.Valset.checkpointArguments, ValsetArgs.arguments, SignedValset.args, nonce,
      members, powers, stored.rewardToken, addresses, words, map_map]
    rfl
  simp only [Keeper.Valset.getCheckpoint, strToFixByteArray_short short, stored.tokenValid,
    stored.rewardAmount, orPanic, unwrap, ok_bind, arguments]
  exact congrArg (fun bytes => Except.ok (ext.keccak256 bytes)) (encode_bytes32 gravityId short _)

theorem SignedBatch.StoredAs.getCheckpoint {signed : SignedBatch} {batch : OutgoingTxBatch}
    (stored : signed.StoredAs batch) (nonceBelow : signed.nonce.val < 2 ^ 63)
    (timeoutBelow : signed.timeout.val < 2 ^ 63) :
    batch.getCheckpoint ext gravityId =
      .ok (ext.keccak256 (SignedObject.preimage gravityId (.batch signed))) := by
  have nonce : int64 batch.batchNonce = signed.nonce.val := by
    rw [stored.nonce, int64_of_lt nonceBelow]
  have timeout : int64 batch.batchTimeout = signed.timeout.val := by
    rw [stored.timeout, int64_of_lt timeoutBelow]
  have amounts := map_of_map_eq stored.transfers (fun transfer => ((transfer.1 : Nat) : Int))
  have destinations :=
    map_of_map_eq stored.transfers (fun transfer => ((transfer.2.1.val : Nat) : Int))
  have fees := map_of_map_eq stored.transfers (fun transfer => ((transfer.2.2 : Nat) : Int))
  have arguments : batch.checkpointArguments (bytes32 gravityId short).val =
      signed.args.arguments (bytes32 gravityId short).val := by
    simp only [OutgoingTxBatch.checkpointArguments, BatchArgs.arguments, SignedBatch.args, nonce,
      timeout, amounts, destinations, fees, stored.token, addresses, words, map_map]
    rfl
  simp only [OutgoingTxBatch.getCheckpoint, strToFixByteArray_short short, orPanic, ok_bind,
    arguments]
  exact congrArg (fun bytes => Except.ok (ext.keccak256 bytes)) (encode_bytes32 gravityId short _)

end

theorem SignedValset.ReadAs.encodeValsetConfirm {signed : SignedValset} {valset : Valset}
    (read : signed.ReadAs valset) (gravityId : Bytes) :
    encodeValsetConfirm gravityId valset = SignedObject.preimage gravityId (.valset signed) := by
  have members := map_of_map_eq read.members (fun member => ((member.1.val : Nat) : Int))
  have powers := map_of_map_eq read.members (fun member => ((member.2 : Nat) : Int))
  simp only [Orchestrator.encodeValsetConfirm, Valset.toArrays, SignedObject.preimage,
    ValsetArgs.arguments, SignedValset.args, read.nonce, read.rewardAmount, read.rewardToken,
    addresses, words, map_map]
  exact congrArg₂ (fun validators powers => encode [.fixed gravityId, .fixed (ascii "checkpoint"),
    .number signed.nonce.val, .array validators, .array powers, .number signed.rewardAmount.val,
    .number signed.rewardToken.val]) members powers

theorem SignedBatch.ReadAs.encodeTxBatchConfirm {signed : SignedBatch} {batch : TransactionBatch}
    (read : signed.ReadAs batch) (gravityId : Bytes) :
    encodeTxBatchConfirm gravityId batch = SignedObject.preimage gravityId (.batch signed) := by
  simp only [Orchestrator.encodeTxBatchConfirm, TransactionBatch.getCheckpointValues,
    SignedObject.preimage, BatchArgs.arguments, SignedBatch.args, read.nonce, read.timeout,
    read.token, ← read.transfers, map_map]
  rfl

/-! ## Different objects -/

theorem SignedValset.args_injective {first second : SignedValset} (same : first.args = second.args) :
    first = second := by
  obtain ⟨firstNonce, firstMembers, firstAmount, firstToken⟩ := first
  obtain ⟨secondNonce, secondMembers, secondAmount, secondToken⟩ := second
  obtain ⟨validators, powers, rfl, rfl, rfl⟩ := ValsetArgs.mk.inj same
  have members : firstMembers = secondMembers := by
    rw [← zip_unzip firstMembers, ← zip_unzip secondMembers, unzip_eq_map, unzip_eq_map]
    exact congrArg₂ List.zip validators powers
  rw [members]

theorem SignedBatch.args_injective {first second : SignedBatch} (same : first.args = second.args) :
    first = second := by
  obtain ⟨firstNonce, firstTimeout, firstTransfers, firstToken⟩ := first
  obtain ⟨secondNonce, secondTimeout, secondTransfers, secondToken⟩ := second
  obtain ⟨amounts, destinations, fees, rfl, rfl, rfl⟩ := BatchArgs.mk.inj same
  have joined : ∀ transfers : List SignedTransfer, transfers = List.zipWith3 SignedTransfer.mk
      (transfers.map SignedTransfer.amount) (transfers.map SignedTransfer.destination)
      (transfers.map SignedTransfer.fee) := by
    intro transfers
    induction transfers with
    | nil => rfl
    | cons transfer rest ih => exact congrArg (transfer :: ·) ih
  have transfers : firstTransfers = secondTransfers := by
    have first : firstTransfers.map SignedTransfer.amount =
        secondTransfers.map SignedTransfer.amount := amounts
    have second : firstTransfers.map SignedTransfer.destination =
        secondTransfers.map SignedTransfer.destination :=
      destinations
    have third : firstTransfers.map SignedTransfer.fee = secondTransfers.map SignedTransfer.fee :=
      fees
    rw [joined firstTransfers, joined secondTransfers, first, second, third]
  rw [transfers]

/-- A text that a fixed number of bytes can hold and that does not end with a zero. -/
structure Identifier (gravityId : Bytes) : Prop where
  short : gravityId.length ≤ 32
  ends : gravityId.getLast? ≠ some 0

theorem SignedObject.preimage_injective {gravityId otherId : Bytes} (named : Identifier gravityId)
    (otherNamed : Identifier otherId) {first second : SignedObject}
    (same : first.preimage gravityId = second.preimage otherId) :
    gravityId = otherId ∧ first = second := by
  have ids : Argument.Alike (.fixed gravityId) (.fixed otherId) := .fixed named.ends otherNamed.ends
  cases first with
  | valset signed =>
    cases second with
    | valset other =>
      obtain ⟨sameId, args⟩ := ValsetArgs.encode_injective named.short otherNamed.short ids
        (by simp [SignedValset.args]) (by simp [SignedValset.args]) same
      exact ⟨sameId, congrArg SignedObject.valset (SignedValset.args_injective args)⟩
    | batch other =>
      exact absurd same (signed.args.encode_ne_batch named.short otherNamed.short other.args)
  | batch signed =>
    cases second with
    | valset other =>
      exact absurd same.symm (other.args.encode_ne_batch otherNamed.short named.short signed.args)
    | batch other =>
      obtain ⟨sameId, args⟩ := BatchArgs.encode_injective named.short otherNamed.short ids
        (by simp [SignedBatch.args]) (by simp [SignedBatch.args]) same
      exact ⟨sameId, congrArg SignedObject.batch (SignedBatch.args_injective args)⟩

/-- The module, the orchestrator and the contract hash the same bytes for a validator set and for
a batch, and no other object, of whichever instance of the bridge, has these bytes. -/
theorem signed_preimages_agree {gravityId : Bytes} (named : Identifier gravityId) :
    (∀ signed : SignedValset, signed.nonce.val < 2 ^ 63 →
      (∀ member ∈ signed.members, member.2.val < 2 ^ 63) → (∀ ext valset, signed.StoredAs valset →
        valset.getCheckpoint ext gravityId =
          .ok (ext.keccak256 (SignedObject.preimage gravityId (.valset signed)))) ∧
      (∀ valset, signed.ReadAs valset →
        encodeValsetConfirm gravityId valset = SignedObject.preimage gravityId (.valset signed)) ∧
      (∀ ext, makeCheckpoint ext signed.args (bytes32 gravityId named.short) =
        ext.keccak256 (SignedObject.preimage gravityId (.valset signed)))) ∧
    (∀ signed : SignedBatch, signed.nonce.val < 2 ^ 63 → signed.timeout.val < 2 ^ 63 →
      (∀ ext batch, signed.StoredAs batch →
        batch.getCheckpoint ext gravityId =
          .ok (ext.keccak256 (SignedObject.preimage gravityId (.batch signed)))) ∧
      (∀ batch, signed.ReadAs batch →
        encodeTxBatchConfirm gravityId batch = SignedObject.preimage gravityId (.batch signed)) ∧
      (∀ ext, batchHash ext signed.args (bytes32 gravityId named.short) =
        ext.keccak256 (SignedObject.preimage gravityId (.batch signed)))) ∧
    (∀ (otherId : Bytes) (first second : SignedObject), Identifier otherId →
      first.preimage gravityId = second.preimage otherId → gravityId = otherId ∧ first = second) := by
  refine ⟨fun signed nonceBelow powersBelow => ⟨?_, ?_, ?_⟩, fun signed nonceBelow timeoutBelow =>
    ⟨?_, ?_, ?_⟩, ?_⟩
  · exact fun ext valset stored => stored.getCheckpoint named.short ext nonceBelow powersBelow
  · exact fun valset read => read.encodeValsetConfirm gravityId
  · exact fun ext => congrArg ext.keccak256 (encode_bytes32 gravityId named.short _)
  · exact fun ext batch stored => stored.getCheckpoint named.short ext nonceBelow timeoutBelow
  · exact fun batch read => read.encodeTxBatchConfirm gravityId
  · exact fun ext => congrArg ext.keccak256 (encode_bytes32 gravityId named.short _)
  · exact fun otherId first second otherNamed same =>
      SignedObject.preimage_injective named otherNamed same

/-- A set of two validators with a reward, as it is signed, stored and read. -/
def pairSigned : SignedValset := ⟨3, [(1, 70), (2, 30)], 5, 7⟩

def pairStored : Keeper.Valset :=
  ⟨3, [⟨70, hex localnet 1⟩, ⟨30, hex localnet 2⟩], 40, some 5, hex localnet 7⟩

def pairRead : Valset := ⟨3, [⟨70, 1⟩, ⟨30, 2⟩], 5, some 7⟩

/-- A batch of one transfer. -/
def soleSigned : SignedBatch := ⟨9, 1000, [⟨60, 5, 2⟩], 7⟩

def soleStored : OutgoingTxBatch := ⟨9, 1000, [⟨1, ascii "sender", 5, ⟨7, 60⟩, ⟨7, 2⟩⟩], 7, 30⟩

def soleRead : TransactionBatch := ⟨9, 1000, [⟨1, ascii "sender", 5, ⟨60, 7⟩, ⟨2, 7⟩⟩], ⟨2, 7⟩, 7⟩

theorem pair_and_batch_agree :
    (pairStored.getCheckpoint localnet (ascii "foo") =
      .ok (encodeValsetConfirm (ascii "foo") pairRead) ∧
      makeCheckpoint localnet pairSigned.args (bytes32 (ascii "foo") (by decide)) =
        encodeValsetConfirm (ascii "foo") pairRead) ∧
    (soleStored.getCheckpoint localnet (ascii "foo") =
      .ok (encodeTxBatchConfirm (ascii "foo") soleRead) ∧
      batchHash localnet soleSigned.args (bytes32 (ascii "foo") (by decide)) =
        encodeTxBatchConfirm (ascii "foo") soleRead) ∧
    encodeValsetConfirm (ascii "foo") pairRead ≠ encodeTxBatchConfirm (ascii "foo") soleRead := by
  have named : Identifier (ascii "foo") := ⟨by decide, by decide⟩
  obtain ⟨valsets, batches, differ⟩ := signed_preimages_agree named
  have pairBelow : ∀ member ∈ pairSigned.members, member.2.val < 2 ^ 63 :=
    List.forall_mem_cons.mpr ⟨by decide, List.forall_mem_singleton.mpr (by decide)⟩
  obtain ⟨stored, read, passed⟩ := valsets pairSigned (by decide) pairBelow
  obtain ⟨storedBatch, readBatch, passedBatch⟩ := batches soleSigned (by decide) (by decide)
  have pairReadAs := read pairRead ⟨by decide, by decide, by decide, by decide⟩
  have soleReadAs := readBatch soleRead ⟨by decide, by decide, by decide, by decide⟩
  have pairStoredAs := stored localnet pairStored
    ⟨by decide, by decide +kernel, by decide, by decide +kernel, by decide +kernel⟩
  have soleStoredAs := storedBatch localnet soleStored ⟨by decide, by decide, by decide, by decide⟩
  rw [pairReadAs, soleReadAs]
  refine ⟨⟨pairStoredAs, passed localnet⟩, ⟨soleStoredAs, passedBatch localnet⟩, fun same => ?_⟩
  exact absurd (differ _ _ _ named same).2 (by decide)

end GravityBridge.Orchestrator
