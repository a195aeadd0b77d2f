import GravityBridge.Keeper.EventOrder
import GravityBridge.Types.ClaimComponents

/-!
# Stored components authenticate the stored claim

A new attestation takes its components from the claim and stores them only if they hash to the hash
of the claim. Votes, tallies, rollbacks and pruning write neither the claim nor the components of an
attestation again, and write it under its own key.
-/

namespace GravityBridge.Keeper

open Lib.Fallible Lib.ByteString Lib.Store Lib.Runs
open GravityBridge.Types Oracle

/-- `VerifyClaimHash`. -/
def Attestation.verifyClaimHash (ext : External) (att : Attestation) : Go Unit := do
  let hashFromClaim ← rewrap ⟨.plain, "compute hash from stored claim"⟩ (att.claim.claimHash ext)
  let hashFromComponents ← rewrap ⟨.plain, "compute hash from stored components"⟩
    (att.claimComponents.computeClaimHash ext)
  require (hashFromClaim = hashFromComponents)
    ⟨.invalidAttestation, "claim hash from components does not match hash from stored claim"⟩

variable {ext : External} {oracle next : Oracle} {state final : State} {att : Attestation}
  {key : AttestationKey} {trace handled : List EthereumClaim} {powers : PowerTable}

theorem verifyClaimHash_eq_ok {result : Unit} : att.verifyClaimHash ext = .ok result ↔
    ∃ hash, att.claim.claimHash ext = .ok hash ∧ att.claimComponents.computeClaimHash ext =
      .ok hash := by
  simp only [Attestation.verifyClaimHash, bind_eq_ok, rewrap_eq_ok, require_eq_ok]
  constructor
  · rintro ⟨hash, hashed, _, computed, rfl⟩
    exact ⟨hash, hashed, computed⟩
  · rintro ⟨hash, hashed, computed⟩
    exact ⟨hash, hashed, hash, computed, rfl⟩

/-- Every stored attestation passes the check. -/
def Oracle.Authentic (ext : External) (oracle : Oracle) : Prop :=
  ∀ key att, oracle.attestations.get key = some att → att.verifyClaimHash ext = .ok ()

theorem Oracle.Authentic.of_subset (authentic : oracle.Authentic ext)
    (fewer : ∀ key att, next.attestations.get key = some att →
      oracle.attestations.get key = some att) :
    next.Authentic ext :=
  fun key att stored => authentic key att (fewer key att stored)

theorem Oracle.Authentic.set (att : Attestation) (authentic : oracle.Authentic ext)
    (verified : att.verifyClaimHash ext = .ok ())
    (stores : next.attestations = oracle.attestations.set key att) : next.Authentic ext := by
  intro other rival stored
  rw [stores, KVStore.get_set] at stored
  split_ifs at stored with same
  · exact Option.some.inj stored ▸ verified
  · exact authentic other rival stored

/-- A vote adds to an attestation that passes the check, or to a new one whose components were
compared with the hash of the claim. -/
theorem Oracle.Authentic.attest {blockHeight : Nat} {voter : Option ValAddress}
    {claim : EthereumClaim}
    (authentic : oracle.Authentic ext)
    (attested : oracle.attest ext blockHeight voter claim = .ok next) :
    next.Authentic ext := by
  simp only [Oracle.attest, verifyComponents, bind_eq_ok, orPanic_eq_ok, require_eq_ok, rewrap_eq_ok,
    pure_eq_ok] at attested
  obtain ⟨_, _, validator, _, _, _, _, _, hash, hashed, att, found, _, ⟨_, computed, _, rfl, _⟩,
    rfl⟩ := attested
  have verified : att.verifyClaimHash ext = .ok () := by
    rcases findOrCreate_cases found with stored | ⟨_, _, _, same⟩
    · exact authentic _ att stored
    · exact verifyClaimHash_eq_ok.mpr ⟨_, same ▸ hashed, computed⟩
  exact authentic.set { att with votes := att.votes ++ [validator] } verified rfl

theorem Applies.authentic {claim : EthereumClaim} (applies : Applies ext powers state claim final)
    (authentic : state.oracle.Authentic ext) : final.oracle.Authentic ext := by
  cases applies with
  | @intro key att ledger elected _ _ =>
    exact authentic.set { att with observed := true } (authentic key att elected.stored) rfl

theorem Tallied.authentic (tallied : Tallied ext powers state handled final)
    (authentic : state.oracle.Authentic ext) : final.oracle.Authentic ext := by
  induction tallied with
  | done => exact authentic
  | next applies _ ih => exact ih (applies.authentic authentic)

theorem OracleStep.authentic (took : OracleStep ext state handled final)
    (sound : Sound ext state.oracle)
    (authentic : state.oracle.Authentic ext) : final.oracle.Authentic ext := by
  cases took with
  | unchanged same => exact same ▸ authentic
  | voted attested => exact authentic.attest attested
  | rolledBack rolled =>
    obtain ⟨-, -, -, fewer⟩ := sound.rolledBack rolled
    exact authentic.of_subset fewer
  | ended tally pruned =>
    have tallied := tallied_of_attestationTally sound tally
    obtain ⟨-, -, fewer⟩ := (tallied.sound sound).pruned pruned
    exact (tallied.authentic authentic).of_subset fewer

theorem authentic_of_reachable {initial : Nat}
    (reach : Reachable ext (BeforeVotes initial) trace state) : state.oracle.Authentic ext := by
  refine Reach.invariant (motive := fun _ state => state.oracle.Authentic ext) ?_ ?_ reach
  · rintro start ⟨fresh, -⟩
    simp [Oracle.Authentic, fresh.attestations]
  · intro trace state label handled next before authentic took _
    exact (step_oracle took).authentic (ordered_of_reachable before).sound authentic

/-- The components of every claim restore its hash, in any order of its members, and over every run
each attestation passes its check and is stored under the key that it is deleted under. -/
theorem stored_components_authenticate (ext : External) :
    (∀ claim : EthereumClaim, claim.WellSized →
      ∃ components restored hash, Restores ext claim components restored hash) ∧
    (∀ (msg : MsgValsetUpdatedClaim) (members : List BridgeValidator), msg.members.Perm members →
      (∀ member ∈ msg.members, validateEthAddress member.ethereumAddress = .ok ()) →
      (EthereumClaim.valsetUpdated { msg with members := members }).claimHash ext =
          (EthereumClaim.valsetUpdated msg).claimHash ext ∧
        extractClaimHashComponents ext (.valsetUpdated { msg with members := members }) =
          extractClaimHashComponents ext (.valsetUpdated msg)) ∧
    ∀ (initial : Nat) (trace : List EthereumClaim) (state : State),
      Reachable ext (BeforeVotes initial) trace state →
      ∀ key att, state.oracle.attestations.get key = some att →
        att.verifyClaimHash ext = .ok () ∧
        (∃ hash, att.claim.claimHash ext = .ok hash ∧
          key = getAttestationKey att.claim.getEventNonce hash) ∧
        state.oracle.deleteAttestation ext att =
          .ok { state.oracle with attestations := state.oracle.attestations.delete key } := by
  refine ⟨fun claim sized => exists_restores sized, fun msg members same valid =>
    members_perm same valid, ?_⟩
  intro initial trace state reach key att stored
  have keyed := (ordered_of_reachable reach).sound.keyed stored
  exact ⟨authentic_of_reachable reach key att stored, keyed, keyed.deleteAttestation⟩

/-- A set of two members with a reward. -/
def exampleSet : MsgValsetUpdatedClaim :=
  ⟨1, 1, 100, [⟨3, hex localnet 7⟩, ⟨5, hex localnet 8⟩], some 10, hex localnet 5,
    ascii "gravity1orchestrator"⟩

theorem voted_deposit_authenticated :
    (∃ components restored hash, Restores localnet (.valsetUpdated exampleSet) components
      restored hash) ∧
    (EthereumClaim.valsetUpdated { exampleSet with
      members := exampleSet.members.reverse }).claimHash localnet =
      (EthereumClaim.valsetUpdated exampleSet).claimHash localnet ∧
    ∃ trace state key att, Reachable localnet (BeforeVotes 0) trace state ∧
      state.oracle.attestations.get key = some att ∧
      att.claim = exampleDeposit 2 101 5 (ascii "gravity1recipient") ∧
      att.verifyClaimHash localnet = .ok () ∧ state.oracle.deleteAttestation localnet att =
        .ok { state.oracle with attestations := state.oracle.attestations.delete key } := by
  obtain ⟨restores, reordered, authentic⟩ := stored_components_authenticate localnet
  have valid : ∀ member ∈ exampleSet.members, validateEthAddress member.ethereumAddress =
      .ok () := by decide +kernel
  refine ⟨restores (.valsetUpdated exampleSet) ⟨⟨10, rfl, by decide⟩, valid⟩,
    (reordered exampleSet _ (List.reverse_perm _).symm valid).1, ?_⟩
  have voted : exampleDeposit 2 101 5 (ascii "gravity1recipient") ∈
      ((execute localnet exampleVotes exampleGenesis).get
        exampleVotes_ran).2.oracle.getAttestations.map Attestation.claim := by decide +kernel
  obtain ⟨att, member, claimed⟩ := List.mem_map.mp voted
  obtain ⟨key, stored⟩ := KVStore.mem_values.mp member
  obtain ⟨verified, -, deleted⟩ := authentic 0 _ _ exampleVotes_reachable key att stored
  exact ⟨_, _, key, att, exampleVotes_reachable, stored, claimed, verified, deleted⟩

end GravityBridge.Keeper
