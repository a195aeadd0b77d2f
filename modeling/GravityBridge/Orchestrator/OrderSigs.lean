import GravityBridge.Orchestrator.MessageSignatures

/-!
# The signatures that a relayer passes to the contract

The relayer puts the confirms of a validator set in the order of its members. A member without a
confirm gets a signature of zeros, which the contract skips. With the optimization on, members that
come after enough power has been reached get zeros as well, since zeros cost less gas.
-/

namespace GravityBridge.Orchestrator

open Lib.Fallible Lib.ByteString Lib.Store
open GravityBridge.Types Contract List

/-- Mirrors the threshold of the contract. -/
def gravityPowerToPass : Nat := 2863311530

structure EthSignature where
  v : U256
  r : U256
  s : U256
  deriving DecidableEq, Repr

/-- The byte for the curve point is written as wallets write it. -/
def EthSignature.WalletStyle (signature : EthSignature) : Prop :=
  signature.v.val = 27 ∨ signature.v.val = 28

/-- The Ethereum library of the relayer. For a signature that is written as wallets write it, it
recovers the address that the contract's precompile recovers, and it finds no fault with a signature
that recovers and has the lower of the two values of `s`. -/
structure Clarity (ext : External) where
  isValid : EthSignature → Bool
  recover : EthSignature → Bytes → Option EthAddress
  recover_wallet : ∀ signature digest, signature.WalletStyle → recover signature digest =
    ext.recoverAddress digest signature.r.val signature.s.val (UInt8.ofNat signature.v.val - 27)
  isValid_of_recover : ∀ signature digest signer, signature.WalletStyle →
    signature.s.val ≤ secp256k1halfN →
    recover signature digest = some signer → isValid signature = true

structure Confirm where
  ethAddress : EthAddress
  signature : EthSignature
  deriving DecidableEq, Repr

structure GravitySignature where
  power : U64
  ethAddress : EthAddress
  v : U256
  r : U256
  s : U256
  deriving DecidableEq, Repr

/-- The errors with the data that their messages print. -/
inductive GravityError where
  | noSignatures
  | insufficientVotingPowerToPass (powerOfGoodSigs : U64) (numberOfNonvoters numValidators : Nat)
      (powerOfNonvoters : U64)
  | invalidBridgeStateError (ethAddress : EthAddress) (signature : EthSignature)
  deriving DecidableEq, Repr

abbrev Rust (α : Type) := Outcome GravityError α

/-- A later confirm of an address replaces an earlier one. -/
def getHashmap (input : List Confirm) : KVStore EthAddress Confirm :=
  input.foldl (fun out confirm => out.set confirm.ethAddress confirm) .empty

structure SignatureStatus where
  orderedSignatures : List GravitySignature
  optimizedSignatures : List GravitySignature
  powerOfGoodSigs : U64
  powerOfNonvoters : U64
  numberOfNonvoters : Nat
  numValidators : Nat
  deriving DecidableEq, Repr

/-- The signature of zeros that stands for a member. -/
def ValsetMember.blank (member : ValsetMember) : GravitySignature :=
  ⟨member.power, member.ethAddress, 0, 0, 0⟩

section

variable {ext : External} (clarity : Clarity ext)

/-- The body of the loop over the members. The sums of powers are unsigned 64-bit integers. -/
def addMember (signedMessage : Bytes) (signatures : KVStore EthAddress Confirm)
    (status : SignatureStatus) (member : ValsetMember) : Rust SignatureStatus :=
  match signatures.get member.ethAddress with
  | some sig => do
      check (sig.ethAddress = member.ethAddress) "assertion left == right failed"
      check (clarity.isValid sig.signature = true) "assertion failed: sig.get_signature().is_valid()"
      let recoverKey ← unwrap "called Result::unwrap() on an Err value"
        (clarity.recover sig.signature signedMessage)
      require (recoverKey = sig.ethAddress) (.invalidBridgeStateError sig.ethAddress sig.signature)
      let signed : GravitySignature :=
        ⟨member.power, sig.ethAddress, sig.signature.v, sig.signature.r, sig.signature.s⟩
      pure { status with
        orderedSignatures := status.orderedSignatures ++ [signed]
        optimizedSignatures := status.optimizedSignatures ++
          [if status.powerOfGoodSigs.val ≤ gravityPowerToPass then signed else member.blank]
        powerOfGoodSigs := status.powerOfGoodSigs + member.power }
  | none =>
      pure { status with
        orderedSignatures := status.orderedSignatures ++ [member.blank]
        optimizedSignatures := status.optimizedSignatures ++ [member.blank]
        powerOfNonvoters := status.powerOfNonvoters + member.power
        numberOfNonvoters := status.numberOfNonvoters + 1 }

namespace Valset

def getSignatureStatus (valset : Valset) (signedMessage : Bytes) (signatures : List Confirm) :
    Rust SignatureStatus := do
  require (signatures ≠ []) .noSignatures
  valset.members.foldlM (addMember clarity signedMessage (getHashmap signatures))
    ⟨[], [], 0, 0, 0, valset.members.length⟩

def orderSigs (valset : Valset) (signedMessage : Bytes) (signatures : List Confirm)
    (optimize : Bool) : Rust (List GravitySignature) := do
  let status ← valset.getSignatureStatus clarity signedMessage signatures
  require (gravityPowerToPass < status.powerOfGoodSigs.val)
    (.insufficientVotingPowerToPass status.powerOfGoodSigs
      status.numberOfNonvoters status.numValidators status.powerOfNonvoters)
  pure (if optimize then status.optimizedSignatures else status.orderedSignatures)

end Valset

end

/-! ## What the contract is given -/

/-- The byte `v` is 0, 27 or 28 in everything that is passed. -/
def GravitySignature.toSigned (sig : GravitySignature) : Signed :=
  ⟨sig.ethAddress, sig.power.val, ⟨UInt8.ofNat sig.v.val, sig.r.val, sig.s.val⟩⟩

/-- The members of a set as the contract has them, with one signature for each. -/
def Valset.submit (valset : Valset) (sigs : List GravitySignature) : List Signed :=
  List.zipWith (fun member sig => ⟨member.ethAddress, member.power.val, sig.toSigned.sig⟩)
    valset.members sigs

/-- One signature for each member, in the order of the members. -/
def Valset.Parallel (valset : Valset) (sigs : List GravitySignature) : Prop :=
  sigs.map (fun sig => (sig.ethAddress, sig.power)) =
    valset.members.map (fun member => (member.ethAddress, member.power))

/-- The same entry without its signature. -/
def GravitySignature.zeroed (sig : GravitySignature) : GravitySignature :=
  { sig with v := 0, r := 0, s := 0 }

/-- The power of the members that have a confirm. -/
def Valset.confirmedPower (valset : Valset) (confirms : List Confirm) : Nat :=
  ((valset.members.filter (fun member => ∃ confirm ∈ confirms, confirm.ethAddress =
    member.ethAddress)).map (fun member => member.power.val)).sum

def Valset.totalPower (valset : Valset) : Nat :=
  (valset.members.map (fun member => member.power.val)).sum

variable {sigs : List GravitySignature}

theorem Valset.submit_of_parallel {valset : Valset} (parallel : valset.Parallel sigs) :
    valset.submit sigs = sigs.map GravitySignature.toSigned := by
  obtain ⟨nonce, members, amount, token⟩ := valset
  unfold Valset.Parallel at parallel
  unfold Valset.submit
  induction sigs generalizing members with
  | nil => simp
  | cons sig rest ih =>
    cases members with
    | nil => simp at parallel
    | cons member others =>
      simp only [map_cons, List.cons.injEq, Prod.mk.injEq] at parallel
      obtain ⟨⟨address, power⟩, tail⟩ := parallel
      rw [zipWith_cons_cons, map_cons, ih others tail, ← address, ← power]
      rfl

/-! ## What the loop collects -/

/-- A confirm that both sides take for one of its address over the hash. -/
structure Confirm.Genuine {ext : External} (clarity : Clarity ext) (theHash : Bytes)
    (confirm : Confirm) : Prop where
  wallet : confirm.signature.WalletStyle
  recovers : clarity.recover confirm.signature (protectedHash ext theHash) = some confirm.ethAddress
  low : confirm.signature.s.val ≤ secp256k1halfN

section

variable (signatures : KVStore EthAddress Confirm)

/-- The signature at hand for a member. -/
def passed (member : ValsetMember) : GravitySignature :=
  (signatures.get member.ethAddress).elim member.blank (fun sig =>
    ⟨member.power, sig.ethAddress, sig.signature.v, sig.signature.r, sig.signature.s⟩)

/-- The power of a member that has a confirm. -/
def signedBy (member : ValsetMember) : Nat := if (signatures.get member.ethAddress).isSome then
    member.power.val else 0

/-- What the optimization keeps of the signatures when `good` power comes before. -/
def kept : Nat → List ValsetMember → List GravitySignature
  | _, [] => []
  | good, member :: rest =>
      (if good ≤ gravityPowerToPass then passed signatures member else member.blank) ::
        kept (good + signedBy signatures member) rest

end

variable {ext : External} {clarity : Clarity ext} {theHash : Bytes}
  {signatures : KVStore EthAddress Confirm}
  {status : SignatureStatus} {member : ValsetMember} {members : List ValsetMember} {good : Nat}

theorem addMember_succeeds
    (genuine : ∀ sig ∈ signatures.get member.ethAddress, sig.ethAddress = member.ethAddress ∧
      sig.Genuine clarity theHash)
    (fits : status.powerOfGoodSigs.val + member.power.val < 2 ^ 64) :
    ∃ next, addMember clarity (protectedHash ext theHash) signatures status member = .ok next ∧
      next.orderedSignatures = status.orderedSignatures ++ [passed signatures member] ∧
      next.optimizedSignatures = status.optimizedSignatures ++
        [if status.powerOfGoodSigs.val ≤ gravityPowerToPass then passed signatures member
          else member.blank] ∧
      next.powerOfGoodSigs.val = status.powerOfGoodSigs.val + signedBy signatures member := by
  unfold addMember passed signedBy
  cases found : signatures.get member.ethAddress with
  | none => exact ⟨_, rfl, by simp, by simp, by simp⟩
  | some sig =>
    obtain ⟨own, good⟩ := genuine sig found
    have valid := clarity.isValid_of_recover _ _ _ good.wallet good.low good.recovers
    have sum : (status.powerOfGoodSigs + member.power).val =
        status.powerOfGoodSigs.val + member.power.val :=
      Fin.val_add_eq_of_add_lt fits
    refine ⟨{ status with
      orderedSignatures := status.orderedSignatures ++
        [⟨member.power, sig.ethAddress, sig.signature.v, sig.signature.r, sig.signature.s⟩]
      optimizedSignatures :=
        status.optimizedSignatures ++ [if status.powerOfGoodSigs.val ≤ gravityPowerToPass then
          ⟨member.power, sig.ethAddress, sig.signature.v, sig.signature.r, sig.signature.s⟩
            else member.blank]
      powerOfGoodSigs := status.powerOfGoodSigs + member.power }, ?_, rfl, rfl, by simpa using sum⟩
    simp [own, valid, own ▸ good.recovers]

theorem foldlM_addMember_succeeds
    (genuine : ∀ address, ∀ sig ∈ signatures.get address, sig.ethAddress = address ∧
      sig.Genuine clarity theHash)
    (fits : status.powerOfGoodSigs.val + (members.map (fun member => member.power.val)).sum <
      2 ^ 64) :
    ∃ final, members.foldlM (addMember clarity (protectedHash ext theHash) signatures) status =
      .ok final ∧
      final.orderedSignatures = status.orderedSignatures ++ members.map (passed signatures) ∧
      final.optimizedSignatures = status.optimizedSignatures ++
        kept signatures status.powerOfGoodSigs.val members ∧
      final.powerOfGoodSigs.val =
        status.powerOfGoodSigs.val + (members.map (signedBy signatures)).sum := by
  induction members generalizing status with
  | nil => exact ⟨status, rfl, by simp, by simp [kept], by simp⟩
  | cons member rest ih =>
    rw [map_cons, sum_cons] at fits
    obtain ⟨next, added, ordered, optimized, sum⟩ := addMember_succeeds (genuine member.ethAddress)
      (show status.powerOfGoodSigs.val + member.power.val < 2 ^ 64 by omega)
    have less : signedBy signatures member ≤ member.power.val := by
      unfold signedBy
      split <;> omega
    have fitsRest : next.powerOfGoodSigs.val + (rest.map (fun member => member.power.val)).sum <
        2 ^ 64 := by omega
    obtain ⟨final, ran, orderedRest, optimizedRest, sumRest⟩ := ih fitsRest
    refine ⟨final, ?_, ?_, ?_, ?_⟩
    · rw [foldlM_cons, added, ok_bind, ran]
    · rw [orderedRest, ordered, append_assoc]
      rfl
    · rw [optimizedRest, optimized, append_assoc, sum]
      rfl
    · rw [sumRest, sum, map_cons, sum_cons, Nat.add_assoc]

theorem get_getHashmap {confirms : List Confirm}
    (distinct : (confirms.map Confirm.ethAddress).Nodup) {address : EthAddress}
    {confirm : Confirm} :
    (getHashmap confirms).get address = some confirm ↔ confirm ∈ confirms ∧
      confirm.ethAddress = address := by
  by_cases known : ∃ other ∈ confirms, other.ethAddress = address
  · obtain ⟨other, member, rfl⟩ := known
    have found : (getHashmap confirms).get other.ethAddress = some other :=
      KVStore.get_foldl_set_of_mem distinct member _
    rw [found, Option.some.injEq]
    constructor
    · rintro rfl
      exact ⟨member, rfl⟩
    · rintro ⟨inside, same⟩
      exact inj_on_of_nodup_map distinct member inside same.symm
  · have absent : ∀ other ∈ confirms, other.ethAddress ≠ address := fun other member same =>
      known ⟨other, member, same⟩
    have missing : (getHashmap confirms).get address = none :=
      KVStore.get_foldl_set_of_absent absent _
    rw [missing]
    simp only [reduceCtorEq, false_iff, not_and]
    exact absent confirm

/-! ## What the contract makes of it -/

/-- A power of 64 bits on top of the threshold is far from the end of a word. -/
theorem room_toSigned (sigs : List GravitySignature) :
    ∀ signed ∈ sigs.map GravitySignature.toSigned, powerThreshold + signed.power < 2 ^ 256 := by
  simp only [forall_mem_map, GravitySignature.toSigned, powerThreshold]
  intro sig _
  omega

/-- The power that the contract may count. -/
def presented (sigs : List GravitySignature) : Nat := signedPower (sigs.map GravitySignature.toSigned)

@[simp] theorem presented_nil : presented [] = 0 := rfl

theorem presented_cons (sig : GravitySignature) (rest : List GravitySignature) :
    presented (sig :: rest) = (if sig.toSigned.sig.v = 0 then 0 else sig.power.val) + presented
      rest := by
  unfold presented signedPower
  rw [map_cons, filter_cons]
  split_ifs <;> simp_all [GravitySignature.toSigned]

theorem presented_append (front back : List GravitySignature) :
    presented (front ++ back) = presented front + presented back := by
  simp [presented, signedPower]

variable {sig : GravitySignature}

theorem presented_zero (unused : sig.v = 0) (rest : List GravitySignature) :
    presented (sig :: rest) = presented rest := by
  simp [presented_cons, GravitySignature.toSigned, unused]

theorem presented_passed
    (wallet : ∀ sig ∈ signatures.get member.ethAddress, sig.signature.WalletStyle)
    (rest : List GravitySignature) :
    presented (passed signatures member :: rest) = signedBy signatures member + presented rest := by
  rw [presented_cons]
  unfold passed signedBy
  cases found : signatures.get member.ethAddress with
  | none => rfl
  | some sig =>
    have counted : UInt8.ofNat sig.signature.v.val ≠ 0 := by
      rcases wallet sig found with same | same <;> rw [same] <;> decide
    simp [GravitySignature.toSigned, counted]

theorem presented_eq_zero (unused : ∀ sig ∈ sigs, sig.v = 0) : presented sigs = 0 := by
  induction sigs with
  | nil => rfl
  | cons sig rest ih =>
    obtain ⟨first, others⟩ := forall_mem_cons.mp unused
    rw [presented_zero first, ih others]

theorem mem_kept (member : sig ∈ kept signatures good members) :
    ∃ owner ∈ members, sig = passed signatures owner ∨ sig = owner.blank := by
  induction members generalizing good with
  | nil => contradiction
  | cons first rest ih =>
    rcases mem_cons.mp member with rfl | tail
    · refine ⟨first, mem_cons_self, ?_⟩
      split
      · exact .inl rfl
      · exact .inr rfl
    · obtain ⟨owner, inside, written⟩ := ih tail
      exact ⟨owner, mem_cons_of_mem _ inside, written⟩

variable {front back : List GravitySignature}

section

variable (wallet : ∀ address, ∀ sig ∈ signatures.get address, sig.signature.WalletStyle)
include wallet

theorem presented_ordered : presented (members.map (passed signatures)) =
    (members.map (signedBy signatures)).sum := by
  induction members with
  | nil => rfl
  | cons member rest ih =>
    rw [map_cons, presented_passed (wallet member.ethAddress), ih, map_cons, sum_cons]

/-- The optimization keeps enough power. -/
theorem presented_kept
    (enough : gravityPowerToPass < good + (members.map (signedBy signatures)).sum) :
    gravityPowerToPass < good + presented (kept signatures good members) := by
  induction members generalizing good with
  | nil => simpa [kept] using enough
  | cons member rest ih =>
    rw [map_cons, sum_cons] at enough
    rw [kept]
    split_ifs with missing
    · rw [presented_passed (wallet member.ethAddress)]
      have tail := @ih (good + signedBy signatures member) (by omega)
      omega
    · omega

/-- A signature is kept only while the power before it is not enough. -/
theorem presented_before (split : kept signatures good members = front ++ sig :: back)
    (used : sig.v ≠ 0) : good + presented front ≤ gravityPowerToPass := by
  induction members generalizing good front with
  | nil => simp [kept] at split
  | cons member rest ih =>
    rw [kept] at split
    cases front with
    | nil =>
      obtain ⟨first, -⟩ := List.cons.inj split
      split_ifs at first with missing
      · simpa using missing
      · exact absurd (congrArg GravitySignature.v first).symm used
    | cons head others =>
      obtain ⟨first, tail⟩ := List.cons.inj split
      have before := ih tail
      rw [← first]
      split_ifs with missing
      · rw [presented_passed (wallet member.ethAddress)]
        omega
      · omega

/-- A kept signature with a nonzero `v` is counted. -/
theorem presented_used (member : sig ∈ kept signatures good members) (used : sig.v ≠ 0)
    (rest : List GravitySignature) : presented (sig :: rest) = sig.power.val + presented rest := by
  obtain ⟨owner, -, rfl | rfl⟩ := mem_kept member
  · rw [presented_passed (wallet owner.ethAddress)]
    unfold passed signedBy at *
    cases found : signatures.get owner.ethAddress with
    | none => exact absurd (by rw [found]; rfl) used
    | some sig => rfl
  · exact absurd rfl used

/-- When no later signature has more power than a kept one, the others are not enough without it. -/
theorem presented_without {middle : List GravitySignature}
    (split : kept signatures good members = front ++ sig :: (middle ++ back)) (used : sig.v ≠ 0)
    (less : ∀ other ∈ middle, other.power ≤ sig.power) :
    good + presented front + presented middle ≤ gravityPowerToPass := by
  induction middle using List.reverseRecOn generalizing back with
  | nil => simpa using presented_before wallet split used
  | append_singleton middle last ih =>
    have shorter : kept signatures good members = front ++ sig :: (middle ++ last :: back) := by
      simpa using split
    have earlier := ih shorter (fun other member => less other (mem_append_left _ member))
    rw [presented_append middle [last]]
    by_cases unused : last.v = 0
    · rw [presented_zero unused, presented_nil]
      omega
    · have upToLast : kept signatures good members = (front ++ sig :: middle) ++ last :: back := by
        simpa using split
      have before := presented_before wallet upToLast unused
      rw [presented_append, presented_used wallet (by rw [split]; simp) used] at before
      have smaller : last.power.val ≤ sig.power.val := less last (by simp)
      rw [presented_used wallet (by rw [split]; simp) unused, presented_nil]
      omega

end

/-! ## Both sides together -/

section

variable (genuine : ∀ address, ∀ sig ∈ signatures.get address, sig.ethAddress = address ∧
  sig.Genuine clarity theHash)
include genuine

theorem passed_entry (member : ValsetMember) :
    ((passed signatures member).ethAddress, (passed signatures member).power) =
    (member.ethAddress, member.power) := by
  unfold passed
  cases found : signatures.get member.ethAddress with
  | none => rfl
  | some sig => simp [(genuine _ sig found).1]

theorem kept_entries : (kept signatures good members).map (fun sig => (sig.ethAddress, sig.power)) =
    members.map (fun member => (member.ethAddress, member.power)) := by
  induction members generalizing good with
  | nil => rfl
  | cons member rest ih =>
    rw [kept, map_cons, map_cons, ih]
    split
    · rw [passed_entry genuine]
    · rfl

theorem passed_counted (member : ValsetMember) : (passed signatures member).toSigned.sig.v = 0 ∨
      Counted ext (passed signatures member).ethAddress theHash
        (passed signatures member).toSigned.sig := by
  unfold passed
  cases found : signatures.get member.ethAddress with
  | none => exact .inl rfl
  | some sig =>
    obtain ⟨own, ⟨wallet, recovers, low⟩⟩ := genuine _ sig found
    rw [clarity.recover_wallet _ _ wallet] at recovers
    refine .inr ⟨?_, verifySig_eq_true.mpr ⟨low, ?_, recovers⟩⟩
    · rcases wallet with same | same <;> simp [GravitySignature.toSigned, same]
    · rcases wallet with same | same <;> simp [GravitySignature.toSigned, same]

end

theorem signedPower_hashmap {confirms : List Confirm}
    (distinct : (confirms.map Confirm.ethAddress).Nodup) (valset : Valset) :
    (valset.members.map (signedBy (getHashmap confirms))).sum = valset.confirmedPower confirms := by
  have known : ∀ member : ValsetMember, ((getHashmap confirms).get member.ethAddress).isSome ↔
      ∃ confirm ∈ confirms, confirm.ethAddress = member.ethAddress := by
    intro member
    rw [Option.isSome_iff_exists]
    exact exists_congr fun confirm => get_getHashmap distinct
  unfold Valset.confirmedPower
  induction valset.members with
  | nil => rfl
  | cons member rest ih =>
    rw [map_cons, sum_cons, ih, filter_cons]
    by_cases has : ∃ confirm ∈ confirms, confirm.ethAddress = member.ethAddress
    · simp [signedBy, (known member).mpr has, has]
    · simp only [signedBy, known member, has, decide_false]
      simp

section

variable {valset : Valset} {confirms : List Confirm} (total : valset.totalPower < 2 ^ 64)
  (distinct : (confirms.map Confirm.ethAddress).Nodup) (genuine : ∀ confirm ∈ confirms,
    confirm.Genuine clarity theHash)
include total distinct genuine

omit total in
theorem genuine_hashmap (address : EthAddress) : ∀ sig ∈ (getHashmap confirms).get address,
    sig.ethAddress = address ∧ sig.Genuine clarity theHash := by
  intro sig found
  obtain ⟨member, own⟩ := (get_getHashmap distinct).mp found
  exact ⟨own, genuine sig member⟩

/-- Genuine confirms are put in order when they hold enough power, and refused otherwise. -/
theorem orderSigs_eq_ok {optimize : Bool} :
    valset.orderSigs clarity (protectedHash ext theHash) confirms optimize = .ok sigs ↔
      gravityPowerToPass < valset.confirmedPower confirms ∧
        (if optimize then kept (getHashmap confirms) 0 valset.members
          else valset.members.map (passed (getHashmap confirms))) = sigs := by
  have fits : (SignatureStatus.mk [] [] 0 0 0 valset.members.length).powerOfGoodSigs.val +
      (valset.members.map (fun member => member.power.val)).sum < 2 ^ 64 := by
    rw [Fin.val_zero, Nat.zero_add]
    exact total
  obtain ⟨final, ran, ordered, optimized, sum⟩ :=
    foldlM_addMember_succeeds (genuine_hashmap distinct genuine) fits
  rw [signedPower_hashmap distinct, Fin.val_zero, Nat.zero_add] at sum
  simp only [nil_append, Fin.val_zero] at ordered optimized
  simp only [Valset.orderSigs, Valset.getSignatureStatus, bind_eq_ok, require_eq_ok, pure_eq_ok,
    Unique.exists_iff, ran, Except.ok.injEq]
  rw [← ordered, ← optimized, ← sum]
  constructor
  · rintro ⟨_, ⟨_, rfl⟩, accepted⟩
    exact accepted
  · intro accepted
    refine ⟨final, ⟨?_, rfl⟩, accepted⟩
    -- without a confirm there is no power
    rintro rfl
    rw [sum] at accepted
    simp [Valset.confirmedPower] at accepted

theorem orderSigs_passes {optimize : Bool}
    (ordered : valset.orderSigs clarity (protectedHash ext theHash) confirms optimize = .ok sigs) :
    valset.Parallel sigs ∧
      checkValidatorSignatures ext (valset.submit sigs) theHash powerThreshold = .ok () := by
  have stored := genuine_hashmap distinct genuine
  have wallet := fun address sig found => (stored address sig found).2.wallet
  obtain ⟨enough, rfl⟩ := (orderSigs_eq_ok total distinct genuine).mp ordered
  rw [← signedPower_hashmap distinct] at enough
  cases optimize with
  | false =>
    have parallel : valset.Parallel (valset.members.map (passed (getHashmap confirms))) := by
      unfold Valset.Parallel
      rw [map_map]
      exact map_congr_left fun member _ => passed_entry stored member
    refine ⟨parallel, ?_⟩
    rw [if_neg Bool.false_ne_true, Valset.submit_of_parallel parallel]
    refine checkValidatorSignatures_of_counted (room_toSigned _) ?_
      (enough.trans_eq (presented_ordered wallet).symm)
    simp only [forall_mem_map]
    exact fun member _ => passed_counted stored member
  | true =>
    have parallel : valset.Parallel (kept (getHashmap confirms) 0 valset.members) :=
      kept_entries stored
    refine ⟨parallel, ?_⟩
    rw [if_pos rfl, Valset.submit_of_parallel parallel]
    refine checkValidatorSignatures_of_counted (room_toSigned _) ?_ ?_
    · simp only [forall_mem_map]
      intro sig member
      obtain ⟨owner, -, rfl | rfl⟩ := mem_kept member
      · exact passed_counted stored owner
      · exact .inl rfl
    · rw [← Nat.zero_add (List.sum _)] at enough
      have keeps := presented_kept wallet enough
      rwa [Nat.zero_add] at keeps

/-- With the optimization no signature can be spared. -/
theorem orderSigs_minimal
    (ordered : valset.orderSigs clarity (protectedHash ext theHash) confirms true =
      .ok (front ++ sig :: back))
    (used : sig.v ≠ 0)
    (less : (∀ other ∈ back, other.v = 0) ∨ ∀ other ∈ back, other.power ≤ sig.power) :
    checkValidatorSignatures ext (valset.submit (front ++ sig.zeroed :: back)) theHash
      powerThreshold ≠ .ok () := by
  intro checked
  have stored := genuine_hashmap distinct genuine
  have wallet := fun address sig found => (stored address sig found).2.wallet
  have parallel := (orderSigs_passes total distinct genuine ordered).1
  have parallelZeroed : valset.Parallel (front ++ sig.zeroed :: back) := by
    unfold Valset.Parallel at parallel ⊢
    simpa [GravitySignature.zeroed] using parallel
  rw [Valset.submit_of_parallel parallelZeroed] at checked
  have enough : gravityPowerToPass < presented (front ++ sig.zeroed :: back) :=
    signedPower_of_check checked
  rw [presented_append, presented_zero rfl] at enough
  have split := ((orderSigs_eq_ok total distinct genuine).mp ordered).2
  rw [if_pos rfl] at split
  rcases less with unused | smaller
  · have before := presented_before wallet split used
    rw [presented_eq_zero unused] at enough
    omega
  · have without :=
      presented_without wallet (show _ = front ++ sig :: (back ++ []) by simpa using split)
        used smaller
    omega

end

/-- Genuine confirms are put in order exactly when they hold enough power, and then the contract
accepts them. With the optimization the last signature cannot be spared, and none can when the
members are in the order of their powers. -/
theorem ordered_signatures_accepted (clarity : Clarity ext) (valset : Valset) (theHash : Bytes)
    (confirms : List Confirm)
    (optimize : Bool) (total : valset.totalPower < 2 ^ 64)
    (distinct : (confirms.map Confirm.ethAddress).Nodup)
    (genuine : ∀ confirm ∈ confirms, confirm.Genuine clarity theHash) :
    ((∃ sigs, valset.orderSigs clarity (protectedHash ext theHash) confirms optimize = .ok sigs) ↔
      gravityPowerToPass < valset.confirmedPower confirms) ∧
    ∀ sigs, valset.orderSigs clarity (protectedHash ext theHash) confirms optimize = .ok sigs →
      valset.Parallel sigs ∧
      checkValidatorSignatures ext (valset.submit sigs) theHash powerThreshold = .ok () ∧
      (optimize = true → ∀ front sig back, sigs = front ++ sig :: back → sig.v ≠ 0 →
        (∀ other ∈ back, other.v = 0) ∨ valset.members.Pairwise
        (fun first second => second.power ≤ first.power) →
        checkValidatorSignatures ext (valset.submit (front ++ sig.zeroed :: back)) theHash
          powerThreshold ≠ .ok ()) := by
  refine ⟨?_, fun sigs ordered => ?_⟩
  · simp only [orderSigs_eq_ok total distinct genuine, exists_and_left, exists_eq', and_true]
  · obtain ⟨parallel, passes⟩ := orderSigs_passes total distinct genuine ordered
    refine ⟨parallel, passes, ?_⟩
    rintro rfl front sig back rfl used spare
    refine orderSigs_minimal total distinct genuine ordered used (spare.imp_right fun sorted => ?_)
    have powers := congrArg (List.map Prod.snd) parallel
    simp only [List.map_map, Function.comp_def] at powers
    have sortedSigs :
        (front ++ sig :: back).Pairwise (fun first second => second.power ≤ first.power) := by
      rw [← List.pairwise_map (R := fun first second : U64 => second ≤ first), powers,
        List.pairwise_map]
      exact sorted
    exact (List.pairwise_cons.mp (List.pairwise_append.mp sortedSigs).2.1).1

/-! ## A set of three members -/

/-- A library that recovers what the local network recovers. -/
def localClarity : Clarity localnet where
  isValid signature := decide (signature.v.val = 27 ∨ signature.v.val = 28)
  recover signature digest :=
    localnet.recoverAddress digest signature.r.val signature.s.val (UInt8.ofNat signature.v.val - 27)
  recover_wallet _ _ _ := rfl
  isValid_of_recover _ _ _ wallet _ _ := decide_eq_true wallet

def localValset : Valset := ⟨1, [⟨2000000000, 7⟩, ⟨1500000000, 8⟩, ⟨794967296, 9⟩], 0, none⟩

/-- On the local network `r` is the address that a signature recovers to. -/
def localConfirms : List Confirm := [⟨9, 28, 9, 1⟩, ⟨8, 27, 8, 1⟩, ⟨7, 27, 7, 1⟩]

theorem three_confirms_accepted :
    gravityPowerToPass < localValset.confirmedPower localConfirms ∧ ∃ sigs,
      localValset.orderSigs localClarity (protectedHash localnet (ascii "checkpoint")) localConfirms
        true = .ok sigs ∧
      checkValidatorSignatures localnet (localValset.submit sigs) (ascii "checkpoint")
        powerThreshold = .ok () := by
  have enough : gravityPowerToPass < localValset.confirmedPower localConfirms := by decide
  obtain ⟨ordering, passing⟩ :=
    ordered_signatures_accepted localClarity localValset (ascii "checkpoint") localConfirms true
    (by decide) (by decide) (by
      simp only [localConfirms, List.forall_mem_cons]
      exact ⟨⟨.inr rfl, rfl, by decide⟩, ⟨.inl rfl, rfl, by decide⟩,
        ⟨.inl rfl, rfl, by decide⟩, by simp⟩)
  obtain ⟨sigs, ordered⟩ := ordering.mpr enough
  exact ⟨enough, sigs, ordered, (passing sigs ordered).2.1⟩

def soleValset : Valset := ⟨1, [⟨3000000000, 7⟩], 0, none⟩

/-- A signature with the greater of the two values of `s`. -/
def highConfirm : Confirm := ⟨7, 27, 7, Fin.ofNat _ (secp256k1halfN + 1)⟩

/-- A library either finds fault with a signature that has the greater value of `s`, or lets it be
passed to the contract, which refuses it. -/
theorem high_signature_refused :
    soleValset.totalPower < 2 ^ 64 ∧ gravityPowerToPass < soleValset.confirmedPower [highConfirm] ∧
      highConfirm.signature.WalletStyle ∧
      localClarity.recover highConfirm.signature (protectedHash localnet (ascii "checkpoint")) =
        some highConfirm.ethAddress ∧
      ¬ ∃ (clarity : Clarity localnet) (optimize : Bool) (sigs : List GravitySignature),
        soleValset.orderSigs clarity (protectedHash localnet (ascii "checkpoint"))
          [highConfirm] optimize = .ok sigs ∧
        checkValidatorSignatures localnet (soleValset.submit sigs) (ascii "checkpoint")
          powerThreshold = .ok () := by
  refine ⟨by decide, by decide, .inl rfl, by decide, ?_⟩
  rintro ⟨clarity, optimize, sigs, ordered, checked⟩
  have found : (getHashmap [highConfirm]).get 7 = some highConfirm := by decide
  simp only [Valset.orderSigs, Valset.getSignatureStatus, soleValset, List.foldlM_cons,
    List.foldlM_nil, addMember, found, bind_eq_ok, require_eq_ok, check_eq_ok, unwrap_eq_ok,
    pure_eq_ok, Unique.exists_iff] at ordered
  obtain ⟨_, ⟨_, _, ⟨_, _, _, _, _, rfl⟩, rfl⟩, _, rfl⟩ := ordered
  cases optimize with
  | false => exact absurd checked (by decide +kernel)
  | true => exact absurd checked (by decide +kernel)

end GravityBridge.Orchestrator
