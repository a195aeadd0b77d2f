import GravityBridge.Keeper.Delegates

/-!
# Signatures on the Ethereum side

The contract adds up the power of the validators that signed a checkpoint. A
missing signature is passed with `v` equal to zero and skipped; any other
signature has to verify, or the whole call reverts. The signatures that the
Cosmos side accepts are a superset of those that verify here.
-/

namespace GravityBridge.Contract

open Lib.Fallible Lib.ByteString Lib.Store
open GravityBridge.Types Keeper List

/-- Why a call of the contract reverts. -/
inductive Revert where
  | invalidSignature
  | invalidValsetNonce (newNonce currentNonce : Nat)
  | invalidBatchNonce (newNonce currentNonce : Nat)
  | invalidLogicCallNonce (newNonce currentNonce : Nat)
  | invalidLogicCallTransfers
  | invalidLogicCallFees
  | invalidSendToCosmos
  | incorrectCheckpoint
  | malformedNewValidatorSet
  | malformedCurrentValidatorSet
  | malformedBatch
  | insufficientPower (cumulativePower powerThreshold : Nat)
  | batchTimedOut
  | logicCallTimedOut
  /-- The message of a library that refused the call. -/
  | library (message : String)
  deriving DecidableEq, Repr

abbrev Evm (α : Type) := Outcome Revert α

structure Signature where
  v : UInt8
  r : Nat
  s : Nat
  deriving DecidableEq, Repr

section

variable (ext : External)

/-- `ECDSA.recover` of OpenZeppelin, which accepts 27 and 28 and the lower of the two values of
`s`. -/
def ecdsaRecover (digest : Bytes) (v : UInt8) (r s : Nat) : Evm EthAddress := do
  require (s ≤ secp256k1halfN) (.library "ECDSA: invalid signature 's' value")
  require (v = 27 ∨ v = 28) (.library "ECDSA: invalid signature 'v' value")
  fromOption (.library "ECDSA: invalid signature") (ext.recoverAddress digest r s (v - 27))

def verifySig (signer : EthAddress) (theHash : Bytes) (sig : Signature) : Evm Bool := do
  let recovered ← ecdsaRecover ext (protectedHash ext theHash) sig.v sig.r sig.s
  pure (signer == recovered)

/-- A validator of the current set with its power and the signature passed for it. -/
structure Signed where
  validator : EthAddress
  power : Nat
  sig : Signature
  deriving DecidableEq, Repr

/-- Addition of two words, which reverts when the sum is not a word. -/
def checkedAdd (first second : Nat) : Evm Nat := do
  require (first + second < 2 ^ 256) (.library "arithmetic overflow")
  pure (first + second)

/-- The loop of `checkValidatorSignatures`, which stops once there is enough power. -/
def countPower (theHash : Bytes) (powerThreshold : Nat) : Nat → List Signed → Evm Nat
  | cumulativePower, [] => pure cumulativePower
  | cumulativePower, signed :: rest =>
      if signed.sig.v = 0 then countPower theHash powerThreshold cumulativePower rest
      else do
        let valid ← verifySig ext signed.validator theHash signed.sig
        require (valid = true) .invalidSignature
        let next ← checkedAdd cumulativePower signed.power
        if powerThreshold < next then pure next else countPower theHash powerThreshold next rest

def checkValidatorSignatures (currentValset : List Signed) (theHash : Bytes)
    (powerThreshold : Nat) : Evm Unit := do
  let cumulativePower ← countPower ext theHash powerThreshold 0 currentValset
  require (powerThreshold < cumulativePower) (.insufficientPower cumulativePower powerThreshold)

/-- The contract counts the signature as one of the validator over the hash. -/
def Counted (signer : EthAddress) (theHash : Bytes) (sig : Signature) : Prop :=
  sig.v ≠ 0 ∧ verifySig ext signer theHash sig = .ok true

end

variable {ext : External} {theHash : Bytes} {powerThreshold : Nat}

theorem verifySig_eq_true {signer : EthAddress} {sig : Signature} :
    verifySig ext signer theHash sig = .ok true ↔ sig.s ≤ secp256k1halfN ∧ (sig.v = 27 ∨ sig.v = 28) ∧
      ext.recoverAddress (protectedHash ext theHash) sig.r sig.s (sig.v - 27) = some signer := by
  simp only [verifySig, ecdsaRecover, bind_eq_ok, require_eq_ok, fromOption_eq_ok, pure_eq_ok,
    beq_iff_eq]
  constructor
  · rintro ⟨_, ⟨_, low, _, known, recovered⟩, rfl⟩
    exact ⟨low, known, recovered⟩
  · rintro ⟨low, known, recovered⟩
    exact ⟨signer, ⟨(), low, (), known, recovered⟩, rfl⟩

/-! ## Adding up power -/

theorem checkedAdd_eq_ok {first second sum : Nat} :
    checkedAdd first second = .ok sum ↔ first + second < 2 ^ 256 ∧ first + second = sum := by
  simp only [checkedAdd, bind_eq_ok, require_eq_ok, Unique.exists_iff, pure_eq_ok]

/-- The power of the validators whose signature is not skipped. -/
def signedPower (currentValset : List Signed) : Nat :=
  ((currentValset.filter (fun signed => signed.sig.v ≠ 0)).map Signed.power).sum

variable {currentValset : List Signed}

/-- When every signature that is not skipped counts, the loop reaches all the power or enough of it.
It stops at the threshold, so no sum exceeds the threshold by more than one power. -/
theorem countPower_of_counted {cumulativePower : Nat} (below : cumulativePower ≤ powerThreshold)
    (room : ∀ signed ∈ currentValset, powerThreshold + signed.power < 2 ^ 256)
    (counted : ∀ signed ∈ currentValset, signed.sig.v = 0 ∨
      Counted ext signed.validator theHash signed.sig)
    (enough : powerThreshold < cumulativePower + signedPower currentValset) :
    ∃ total, countPower ext theHash powerThreshold cumulativePower currentValset = .ok total ∧
      powerThreshold < total := by
  induction currentValset generalizing cumulativePower with
  | nil => exact ⟨cumulativePower, rfl, by simpa [signedPower] using enough⟩
  | cons signed rest ih =>
    rw [forall_mem_cons] at room counted
    obtain ⟨fits, restRoom⟩ := room
    obtain ⟨skipped | ⟨passed, verified⟩, restCounted⟩ := counted
    · rw [countPower, if_pos skipped]
      exact ih below restRoom restCounted (by simpa [signedPower, skipped] using enough)
    · have power : signedPower (signed :: rest) = signed.power + signedPower rest := by
        simp [signedPower, passed]
      have added : checkedAdd cumulativePower signed.power = .ok (cumulativePower + signed.power) :=
        checkedAdd_eq_ok.mpr ⟨by omega, rfl⟩
      rw [countPower, if_neg passed, verified]
      simp only [ok_bind, require, if_true, added]
      split_ifs with reached
      · exact ⟨_, rfl, reached⟩
      · exact ih (by omega) restRoom restCounted (by omega)

theorem checkValidatorSignatures_of_counted
    (room : ∀ signed ∈ currentValset, powerThreshold + signed.power < 2 ^ 256)
    (counted : ∀ signed ∈ currentValset, signed.sig.v = 0 ∨
      Counted ext signed.validator theHash signed.sig)
    (enough : powerThreshold < signedPower currentValset) :
    checkValidatorSignatures ext currentValset theHash powerThreshold = .ok () := by
  have fromZero : powerThreshold < 0 + signedPower currentValset := by omega
  obtain ⟨total, ran, reached⟩ := countPower_of_counted (Nat.zero_le _) room counted fromZero
  simp [checkValidatorSignatures, ran, reached]

/-- Some of the members signed the hash, and their power together is more than the threshold. Each
member counts once. -/
def EnoughSigned (ext : External) (currentValset : List Signed) (theHash : Bytes)
    (powerThreshold : Nat) : Prop :=
  ∃ counted : List Signed, counted.Sublist currentValset ∧
    (∀ signed ∈ counted, Counted ext signed.validator theHash signed.sig) ∧
    powerThreshold < (counted.map Signed.power).sum

/-- The loop adds up powers of members whose signature counts. -/
theorem countPower_eq_ok {cumulativePower total : Nat}
    (ran : countPower ext theHash powerThreshold cumulativePower currentValset = .ok total) :
    ∃ counted : List Signed, counted.Sublist currentValset ∧
      (∀ signed ∈ counted, Counted ext signed.validator theHash signed.sig) ∧
      total = cumulativePower + (counted.map Signed.power).sum := by
  induction currentValset generalizing cumulativePower with
  | nil => exact ⟨[], .slnil, by simp, (pure_eq_ok.mp ran).symm⟩
  | cons signed rest ih =>
    unfold countPower at ran
    split_ifs at ran with skipped
    · obtain ⟨counted, inside, valid, sum⟩ := ih ran
      exact ⟨counted, inside.cons signed, valid, sum⟩
    simp only [bind_eq_ok, require_eq_ok, checkedAdd_eq_ok] at ran
    obtain ⟨_, verified, _, rfl, _, ⟨_, rfl⟩, ran⟩ := ran
    split_ifs at ran
    · obtain rfl := pure_eq_ok.mp ran
      exact ⟨[signed], (nil_sublist rest).cons_cons signed,
        by simpa using ⟨skipped, verified⟩, by simp⟩
    · obtain ⟨counted, inside, valid, sum⟩ := ih ran
      refine ⟨signed :: counted, inside.cons_cons signed, ?_, ?_⟩
      · simpa using ⟨⟨skipped, verified⟩, valid⟩
      · rw [sum, map_cons, sum_cons]
        omega

theorem enoughSigned_of_check
    (checked : checkValidatorSignatures ext currentValset theHash powerThreshold = .ok ()) :
    EnoughSigned ext currentValset theHash powerThreshold := by
  simp only [checkValidatorSignatures, bind_eq_ok, require_eq_ok] at checked
  obtain ⟨total, ran, enough⟩ := checked
  obtain ⟨counted, inside, valid, rfl⟩ := countPower_eq_ok ran
  exact ⟨counted, inside, valid, by omega⟩

/-- No call passes with less power than the signatures that are not skipped. -/
theorem signedPower_of_check
    (checked : checkValidatorSignatures ext currentValset theHash powerThreshold = .ok ()) :
    powerThreshold < signedPower currentValset := by
  obtain ⟨counted, inside, valid, enough⟩ := enoughSigned_of_check checked
  have passed : counted.filter (fun signed => signed.sig.v ≠ 0) = counted :=
    filter_eq_self.mpr fun signed member => by simpa using (valid signed member).1
  have kept := inside.filter (fun signed => signed.sig.v ≠ 0)
  rw [passed] at kept
  exact enough.trans_le ((kept.map Signed.power).sum_le_sum (fun _ _ => Nat.zero_le _))

/-! ## Confirms of the Cosmos side -/

/-- The bytes of a stored confirm, as they are passed to the contract. -/
def submitted (signature : Bytes) : Signature :=
  ⟨signatureV signature, signatureR signature, signatureS signature⟩

/-- Whether the last byte is written as wallets write it. -/
def walletStyle (signature : Bytes) : Bool := signatureV signature == 27 || signatureV signature == 28

/-- A signature that the Cosmos side accepts is counted exactly when its last byte is 27 or 28. -/
theorem counted_iff_walletStyle {signer : EthAddress} {signature : Bytes}
    (accepted : validateEthereumSignature ext theHash signature signer = .ok ()) :
    Counted ext signer theHash (submitted signature) ↔ walletStyle signature = true := by
  obtain ⟨parity, _, known, written, _, _, _, low, recovered⟩ :=
    validateEthereumSignature_eq_ok.mp accepted
  rw [Counted, verifySig_eq_true]
  simp only [submitted, walletStyle, Bool.or_eq_true, beq_iff_eq]
  constructor
  · exact fun counted => counted.2.2.1
  · intro wallet
    have shifted : signatureV signature = parity + 27 := by
      rcases written with same | same
      · rw [same] at wallet
        rcases known with rfl | rfl <;> rcases wallet with impossible |
          impossible <;> exact absurd impossible (by decide)
      · exact same
    refine ⟨?_, low, wallet, ?_⟩
    · rcases wallet with same | same <;> rw [same] <;> decide
    · rw [shifted]
      simpa using recovered

/-- What a relayer passes for a validator: its stored signature, or a skipped one. -/
def relayed (validator : EthAddress) (power : U64) : Option Bytes → Signed
  | some signature => ⟨validator, power.val, submitted signature⟩
  | none => ⟨validator, power.val, ⟨0, 0, 0⟩⟩

/-- The members of a set with their powers and the signatures stored for them. -/
abbrev Confirms := List (EthAddress × U64 × Option Bytes)

def Confirms.relay (confirms : Confirms) : List Signed :=
  confirms.map (fun confirm => relayed confirm.1 confirm.2.1 confirm.2.2)

def Confirms.power (confirms : Confirms) : Nat :=
  ((confirms.filter (fun confirm => confirm.2.2.isSome)).map (fun confirm => confirm.2.1.val)).sum

theorem Confirms.signedPower_relay {confirms : Confirms}
    (wallet : ∀ confirm ∈ confirms, ∀ signature ∈ confirm.2.2, walletStyle signature = true) :
    signedPower confirms.relay = confirms.power := by
  induction confirms with
  | nil => rfl
  | cons confirm rest ih =>
    have tail := ih (fun other member => wallet other (mem_cons_of_mem _ member))
    obtain ⟨validator, power, _ | signature⟩ := confirm
    · simpa [signedPower, Confirms.relay, Confirms.power, relayed] using tail
    · have passed : signatureV signature ≠ 0 := by
        have known := wallet _ mem_cons_self signature rfl
        simp only [walletStyle, Bool.or_eq_true, beq_iff_eq] at known
        rcases known with same | same <;> rw [same] <;> decide
      simpa [signedPower, Confirms.relay, Confirms.power, relayed, submitted, passed] using tail

/-- An accepted confirm is counted by the contract exactly when the last byte of its signature is
27 or 28. When all confirms of a checkpoint are of this kind, and they hold more power than the
threshold, the contract accepts them together. -/
theorem accepted_confirm_counted_iff (ext : External) (delegates : Delegates) (staking : Staking) :
    (∀ (ethSigner signature checkpoint : Bytes) (orchestrator : AccAddress),
      delegates.confirmHandlerCommon ext staking ethSigner orchestrator signature checkpoint =
        .ok () →
      ∃ sigBytes signer validator, hexDecode signature = some sigBytes ∧
        newEthAddress ethSigner = .ok signer ∧
        delegates.getOrchestratorValidator staking orchestrator = some validator ∧
        delegates.ethAddressByValidator.get validator.operator = some signer ∧
        (Counted ext signer checkpoint (submitted sigBytes) ↔ walletStyle sigBytes = true)) ∧
    (∀ (checkpoint : Bytes) (confirms : Confirms) (powerThreshold : U64),
      (∀ confirm ∈ confirms, ∀ signature ∈ confirm.2.2,
        validateEthereumSignature ext checkpoint signature confirm.1 = .ok () ∧
          walletStyle signature = true) →
      powerThreshold < confirms.power →
      checkValidatorSignatures ext confirms.relay checkpoint powerThreshold = .ok ()) := by
  constructor
  · intro ethSigner signature checkpoint orchestrator confirmed
    obtain ⟨sigBytes, signer, validator, decoded, read, found, _, _, stored, valid⟩ :=
      Delegates.confirmHandlerCommon_eq_ok.mp confirmed
    exact ⟨sigBytes, signer, validator, decoded, read, found, stored, counted_iff_walletStyle valid⟩
  · intro checkpoint confirms powerThreshold accepted enough
    refine checkValidatorSignatures_of_counted ?_ ?_ ?_
    · intro signed member
      obtain ⟨⟨validator, power, stored⟩, _, rfl⟩ := List.mem_map.mp member
      cases stored <;> simp only [relayed] <;> omega
    · intro signed member
      obtain ⟨⟨validator, power, stored⟩, inside, rfl⟩ := List.mem_map.mp member
      cases stored with
      | none => exact .inl rfl
      | some signature =>
          obtain ⟨valid, wallet⟩ := accepted _ inside signature rfl
          exact .inr ((counted_iff_walletStyle valid).mpr wallet)
    · rw [Confirms.signedPower_relay (fun confirm member signature stored =>
        (accepted confirm member signature stored).2)]
      exact enough

/-! ## A validator that writes its signature differently -/

/-- The sole validator registered the Ethereum address seven. -/
def exampleDelegates : Delegates where
  validatorByOrchestrator := KVStore.empty.set (ascii "orchestrator") (ascii "validator")
  ethAddressByValidator := KVStore.empty.set (ascii "validator") 7
  validatorByEthAddress := KVStore.empty.set 7 (ascii "validator")

/-- On the local chain `r` is the address that a signature recovers to. -/
def exampleSignature (v : UInt8) : Bytes :=
  List.replicate 31 0 ++ [7] ++ List.replicate 31 0 ++ [1] ++ [v]

def exampleConfirm (v : UInt8) : Go Unit :=
  exampleDelegates.confirmHandlerCommon localnet (soleStaking (ascii "validator") 0) (hex localnet 7)
    (ascii "orchestrator") (hexEncode (exampleSignature v)) (ascii "checkpoint")

/-- Two more validators hold more power than the threshold, and signed as wallets do. -/
def exampleConfirms (v : UInt8) : Confirms :=
  [(7, 10, some (exampleSignature v)), (7, 40, some (exampleSignature 27)),
    (7, 50, some (exampleSignature 28))]

/-- A signature that ends in zero is accepted as a confirm and skipped by the contract; one that
ends in one is accepted and makes the contract refuse a call that has enough power without it. -/
theorem raw_signature_unusable :
    exampleConfirm 0 = .ok () ∧
    ¬ Counted localnet 7 (ascii "checkpoint") (submitted (exampleSignature 0)) ∧
      exampleConfirm 1 = .ok () ∧
      ¬ Counted localnet 7 (ascii "checkpoint") (submitted (exampleSignature 1)) ∧
      succeeds (checkValidatorSignatures localnet (exampleConfirms 27).relay
        (ascii "checkpoint") 66) = true ∧
      checkValidatorSignatures localnet (exampleConfirms 1).relay (ascii "checkpoint") 66 =
        .error (.error (.library "ECDSA: invalid signature 'v' value")) := by
  refine ⟨by decide +kernel, fun counted => counted.1 (by decide), by decide +kernel, ?_,
    by decide +kernel, by decide +kernel⟩
  rintro ⟨_, verified⟩
  have known := (verifySig_eq_true.mp verified).2.1
  exact absurd known (by decide)

theorem wallet_signature_usable :
    Counted localnet 7 (ascii "checkpoint") (submitted (exampleSignature 28)) ∧
      checkValidatorSignatures localnet (exampleConfirms 28).relay (ascii "checkpoint") 66 =
        .ok () := by
  obtain ⟨single, together⟩ :=
    accepted_confirm_counted_iff localnet exampleDelegates (soleStaking (ascii "validator") 0)
  have confirmed : exampleConfirm 28 = .ok () := by decide +kernel
  obtain ⟨sigBytes, signer, _, decoded, read, _, _, counted⟩ := single _ _ _ _ confirmed
  obtain rfl : exampleSignature 28 = sigBytes := by
    have same : hexDecode (hexEncode (exampleSignature 28)) = some (exampleSignature 28) := by
      decide +kernel
    exact Option.some.inj (same.symm.trans decoded)
  obtain rfl : (7 : EthAddress) = signer :=
    Except.ok.inj ((newEthAddress_hex localnet 7).symm.trans read)
  refine ⟨counted.mpr (by decide), together _ (exampleConfirms 28) 66 ?_ (by decide)⟩
  intro confirm member signature stored
  have valid : ∀ v ∈ [(27 : UInt8), 28],
  validateEthereumSignature localnet (ascii "checkpoint") (exampleSignature v) 7 =
      .ok () ∧ walletStyle (exampleSignature v) = true := by decide +kernel
  simp only [exampleConfirms, List.mem_cons, List.not_mem_nil, or_false] at member
  rcases member with rfl | rfl | rfl
  · exact Option.some.inj stored ▸ valid 28 (by simp)
  · exact Option.some.inj stored ▸ valid 27 (by simp)
  · exact Option.some.inj stored ▸ valid 28 (by simp)

end GravityBridge.Contract
