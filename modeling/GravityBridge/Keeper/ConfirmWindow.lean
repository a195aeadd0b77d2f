import GravityBridge.Contract.Signatures
import GravityBridge.Keeper.BatchFinality
import GravityBridge.Keeper.Chain

/-!
# Slashed for a batch, and able to confirm it

A validator is slashed for a batch that it did not confirm in time. It could have
confirmed the batch exactly while its keys were registered, it was not unbonded,
and the token of the batch was still accepted. Governance can take the token off
the allowlist in between, and the obligation to confirm stays.
-/

namespace GravityBridge.Keeper

open Lib.Fallible Lib.ByteString Lib.Store Lib.Runs
open GravityBridge.Types

open Outgoing (WellFormed)
open Contract (exampleSignature)

/-- The keys that a validator registered. -/
structure Delegates.Keys (delegates : Delegates) (validator : ValAddress) (orchestrator : AccAddress)
    (address : EthAddress) : Prop where
  votes : delegates.validatorByOrchestrator.get orchestrator = some validator
  signs : delegates.ethAddressByValidator.get validator = some address

/-- A confirm of the batch from this orchestrator, with a signature of this address over the
checkpoint. -/
structure OwnConfirm (ext : External) (gravityId : Bytes) (batch : OutgoingTxBatch)
    (orchestrator : AccAddress) (address : EthAddress) (msg : MsgConfirmBatch) : Prop where
  nonce : msg.nonce.val = batch.batchNonce
  contract : newEthAddress msg.tokenContract = .ok batch.tokenContract
  sender : accAddressFromBech32 ext msg.orchestrator = .ok orchestrator
  signer : newEthAddress msg.ethSigner = .ok address
  signature : ∃ signature checkpoint, hexDecode msg.signature = some signature ∧
    batch.getCheckpoint ext gravityId = .ok checkpoint ∧
    validateEthereumSignature ext checkpoint signature address = .ok ()

/-- The keys are registered, the validator is not unbonded and the token of the batch is accepted. -/
structure MayConfirm (ext : External) (chain : Chain) (batch : OutgoingTxBatch)
    (validator : ValAddress) (orchestrator : AccAddress) (address : EthAddress) : Prop where
  keys : chain.delegates.Keys validator orchestrator address
  active : ∃ found, chain.staking.validators.get validator = some found ∧
    (found.status = .bonded ∨ found.status = .unbonding)
  accepted : Accepts ext chain.state.ledger batch.tokenContract

variable {ext : External} {ledger : Ledger} {chain before after : Chain} {batch : OutgoingTxBatch}
  {validator : ValAddress} {orchestrator : AccAddress} {address : EthAddress} {msg : MsgConfirmBatch}
  {trace : List EthereumClaim} {text gravityId : Bytes}

theorem requireBridgeable_eq_ok {unclassified notListed : String} {contract : EthAddress} :
    ledger.requireBridgeable ext text unclassified notListed = .ok contract ↔
      newEthAddress text = .ok contract ∧ Accepts ext ledger contract := by
  have listed : ∀ origin : AssetOrigin, ledger.requireListed origin origin.denom notListed = .ok () ↔
      (origin.origin = .cosmos → ∃ metadata, ledger.assertMetadataWhitelisted origin.denom =
        .ok metadata) := by
    intro origin
    unfold Ledger.requireListed
    cases origin.origin with
    | cosmos => simp
    | ethereum => simp
  simp only [Ledger.requireBridgeable, bind_eq_ok, rewrap_eq_ok, pure_eq_ok, Unique.exists_iff]
  constructor
  · rintro ⟨_, parsed, origin, classified, accepted, rfl⟩
    exact ⟨parsed, origin, classified, (listed origin).mp accepted⟩
  · rintro ⟨parsed, origin, classified, accepted⟩
    exact ⟨contract, parsed, origin, classified, (listed origin).mpr accepted, rfl⟩

/-- A confirm passes its stateless checks. -/
theorem OwnConfirm.validateBasic (own : OwnConfirm ext gravityId batch orchestrator address msg) :
    msg.validateBasic ext = .ok () := by
  obtain ⟨signature, _, decoded, _, _⟩ := own.signature
  have contract := (newEthAddress_eq_ok.mp own.contract).1
  have signer := (newEthAddress_eq_ok.mp own.signer).1
  simp only [MsgConfirmBatch.validateBasic, bind_eq_ok, rewrap_eq_ok, require_eq_ok]
  exact ⟨orchestrator, own.sender, (), signer, (), contract, decodesAsHex_of_hexDecode decoded⟩

theorem verifyAddressFormat_of_bech32 {account : AccAddress}
    (decoded : accAddressFromBech32 ext text = .ok account) :
    verifyAddressFormat account = .ok () := by
  simp only [accAddressFromBech32, bind_eq_ok, pure_eq_ok, Prod.exists] at decoded
  obtain ⟨_, _, _, _, _, _, _, _, format, rfl⟩ := decoded
  exact format

theorem getOrchestratorValidatorAddr_eq {delegates : Delegates}
    (format : verifyAddressFormat orchestrator = .ok ()) :
    delegates.getOrchestratorValidatorAddr orchestrator =
      delegates.validatorByOrchestrator.get orchestrator := by
  simp [Delegates.getOrchestratorValidatorAddr, format]

/-- The signature of a confirm is accepted exactly from the validator's own keys. -/
theorem OwnConfirm.verified_iff (own : OwnConfirm ext chain.gravityID batch orchestrator address msg)
    (wellFormed : WellFormed ext chain.state.ledger.outgoing)
    (consistent : chain.delegates.Consistent)
    (stored : batch ∈ chain.state.ledger.outgoing.batches.values) :
    succeeds (chain.verifyConfirm ext msg) = true ↔ ∃ validator found,
      chain.delegates.Keys validator orchestrator address ∧
      chain.staking.validators.get validator = some found ∧
      (found.status = .bonded ∨ found.status = .unbonding) := by
  obtain ⟨signature, checkpoint, decoded, hashed, valid⟩ := own.signature
  have loaded : chain.state.ledger.outgoing.getOutgoingTXBatch batch.tokenContract msg.nonce.val =
      some batch := by
    rw [wellFormed.getOutgoingTXBatch_eq, own.nonce]
    exact wellFormed.mem_batches.mp stored
  have lookup : chain.delegates.getOrchestratorValidatorAddr orchestrator =
      chain.delegates.validatorByOrchestrator.get orchestrator :=
    getOrchestratorValidatorAddr_eq (verifyAddressFormat_of_bech32 own.sender)
  simp only [succeeds_eq_true, Chain.verifyConfirm, bind_eq_ok, rewrap_eq_ok, fromOption_eq_ok,
    own.contract, own.sender, Except.ok.injEq, exists_eq_left', loaded, Option.some.injEq, hashed,
    Delegates.confirmHandlerCommon_eq_ok, own.signer, decoded, Delegates.getOrchestratorValidator,
    lookup, Option.bind_eq_some_iff]
  constructor
  · rintro ⟨_, _, _, found, rfl, rfl, ⟨validator, votes, staked⟩, status, _, signs, _⟩
    have named := chain.staking.keyed validator found staked
    exact ⟨validator, found, ⟨votes, named ▸ signs⟩, staked, status⟩
  · rintro ⟨validator, found, keys, staked, status⟩
    have named := chain.staking.keyed validator found staked
    refine ⟨(), signature, address, found, rfl, rfl, ⟨validator, keys.votes, staked⟩, status, ?_,
      ?_, valid⟩
    · rw [named]
      exact (consistent.formats orchestrator validator keys.votes).2
    · rw [named]
      exact keys.signs

/-- A first confirm of a stored batch from registered keys is accepted exactly as long as the
validator may confirm. -/
theorem OwnConfirm.accepted_iff (own : OwnConfirm ext chain.gravityID batch orchestrator address msg)
    (wellFormed : WellFormed ext chain.state.ledger.outgoing)
    (consistent : chain.delegates.Consistent)
    (stored : batch ∈ chain.state.ledger.outgoing.batches.values)
    (first : chain.state.ledger.outgoing.batchConfirms.get
      (getBatchConfirmKey batch.tokenContract batch.batchNonce orchestrator) = none) :
    (∃ next, chain.confirmBatch ext msg = .ok next) ↔
      ∃ validator, MayConfirm ext chain batch validator orchestrator address := by
  have loaded : chain.state.ledger.outgoing.getOutgoingTXBatch batch.tokenContract
      batch.batchNonce = some batch := by
    rw [wellFormed.getOutgoingTXBatch_eq]
    exact wellFormed.mem_batches.mp stored
  simp only [Chain.confirmBatch, Ledger.confirmBatch, bind_eq_ok, rewrap_eq_ok, require_eq_ok,
    pure_eq_ok, own.validateBasic, requireBridgeable_eq_ok, own.contract, Except.ok.injEq,
    own.sender, own.verified_iff wellFormed consistent stored]
  constructor
  · rintro ⟨_, _, _, _, ⟨rfl, accepted⟩, _, _, _, _, _, ⟨validator, found, keys, staked, status⟩, _⟩
    exact ⟨validator, keys, ⟨found, staked, status⟩, accepted⟩
  · rintro ⟨validator, keys, ⟨found, staked, status⟩, accepted⟩
    refine ⟨_, (), trivial, batch.tokenContract, ⟨rfl, accepted⟩, (), ?_, orchestrator, rfl, (),
      ⟨validator, found, keys, staked, status⟩, (), ?_, rfl⟩
    · rw [own.nonce, loaded]
      rfl
    · rw [own.nonce]
      exact first

/-! ## From one point of a run to a later one -/

/-- What lasts from one point of a run to a later one. -/
structure Chain.Since (before : Chain) (trace : List EthereumClaim) (after : Chain) : Prop where
  ledger : Lasting before.state.ledger after.state.ledger
  delegates : Delegates.Extended before.delegates after.delegates

theorem Chain.since_of_run (consistent : before.delegates.Consistent)
    (run : Chain.Reachable ext (· = before) trace after) : Since before trace after :=
  Reach.invariant (fun _ same => by rw [same]; exact ⟨.refl _, .refl consistent⟩)
    (fun _ _ _ _ _ _ since took _ =>
      have stepped := Chain.step_cases took
      ⟨since.ledger.trans stepped.evolves.toLasting,
        since.delegates.trans (stepped.delegates since.delegates.consistent)⟩)
    run

/-- A chain on which nobody has used the bridge. -/
structure Chain.Empty (ext : External) (chain : Chain) : Prop extends chain.Launched where
  bridge : EmptyBridge ext chain.state

theorem Chain.consistent_of_reachable (reach : Chain.Reachable ext (Chain.Empty ext) trace chain) :
    chain.delegates.Consistent := by
  induction reach with
  | start empty => exact empty.consistent
  | step _ took _ ih => exact ((Chain.step_cases took).delegates ih).consistent

theorem Chain.tidy_of_reachable (reach : Chain.Reachable ext (Chain.Empty ext) trace chain) :
    Tidy ext chain.state.ledger :=
  (books_of_reachable (reach.module fun _ empty => empty.bridge)).tidy

/-- Whoever has confirmed a batch is not slashed for it. -/
theorem unconfirmed_of_slashed (tidy : Tidy ext chain.state.ledger)
    (consistent : chain.delegates.Consistent)
    {pass : SlashingPass} (ran : chain.batchSlashing ext = .ok pass) {examined : ExaminedBatch}
    (member : examined ∈ pass.examined) (slashed : validator ∈ examined.slashed)
    (votes : chain.delegates.validatorByOrchestrator.get orchestrator = some validator) :
    chain.state.ledger.outgoing.batchConfirms.get
      (getBatchConfirmKey examined.batch.tokenContract examined.batch.batchNonce orchestrator) =
        none := by
  obtain ⟨_, confirms, prepared, absent⟩ := SlashingBlock.slashed_unconfirmed ran member slashed
  by_contra present
  obtain ⟨confirm, found⟩ := Option.ne_none_iff_exists'.mp present
  obtain ⟨token, other, decoded, keyed⟩ := tidy.outgoing.confirmKeys _ confirm found
  obtain rfl : orchestrator = other :=
    congrArg (fun key : ConfirmKey => (ofLex (ofLex key).2).2) keyed
  have listed : confirm ∈ chain.state.ledger.outgoing.getBatchConfirmByNonceAndTokenContract
      examined.batch.batchNonce examined.batch.tokenContract := by
    refine KVStore.mem_values.mpr
      ⟨getBatchConfirmKey examined.batch.tokenContract examined.batch.batchNonce orchestrator, ?_⟩
    rw [KVStore.get_filter, found]
    simp [Option.filter, getBatchConfirmKey]
  obtain ⟨value, inside, identified⟩ := mem_of_mapM prepared listed
  simp only [Delegates.identify, bind_eq_ok, orPanic_eq_ok, decoded, Except.ok.injEq, exists_eq_left',
    unwrap_eq_ok] at identified
  rw [getOrchestratorValidatorAddr_eq (consistent.formats _ _ votes).1] at identified
  obtain rfl : validator = value := Option.some.inj (votes.symm.trans identified)
  exact absent inside

/-- A validator with registered keys is slashed for a batch. At an earlier point at which the batch
was stored, its own confirm was accepted exactly if the keys were registered, the validator was not
unbonded, and the token was classified and, when it stands for a cosmos denom, still listed with the
metadata that the bank has. -/
theorem slashed_could_confirm_iff (reach : Chain.Reachable ext (Chain.Empty ext) trace before)
    (stored : batch ∈ before.state.ledger.outgoing.batches.values) {more : List EthereumClaim}
    (run : Chain.Reachable ext (· = before) more after) {pass : SlashingPass}
    (ran : after.batchSlashing ext = .ok pass) {slashed : List ValAddress}
    (examined : ⟨batch, slashed⟩ ∈ pass.examined)
    (punished : validator ∈ slashed) (keys : after.delegates.Keys validator orchestrator address)
    (own : OwnConfirm ext before.gravityID batch orchestrator address msg) :
    (∃ next, before.confirmBatch ext msg = .ok next) ↔
      MayConfirm ext before batch validator orchestrator address := by
  have consistent := Chain.consistent_of_reachable reach
  have tidy := Chain.tidy_of_reachable reach
  have since := Chain.since_of_run consistent run
  have tidyAfter : Tidy ext after.state.ledger := Chain.tidy_of_reachable (reach.append run)
  have unconfirmed :=
    unconfirmed_of_slashed tidyAfter since.delegates.consistent ran examined punished keys.votes
  -- A confirm that was there before would still be there, since the batch is.
  have first : before.state.ledger.outgoing.batchConfirms.get
      (getBatchConfirmKey batch.tokenContract batch.batchNonce orchestrator) = none := by
    by_contra present
    obtain ⟨confirm, found⟩ := Option.ne_none_iff_exists'.mp present
    have still := tidyAfter.outgoing.mem_batches.mp
      (SlashingBlock.slashed_unconfirmed ran examined punished).1
    obtain ⟨_, confirms⟩ := since.ledger.kept _ _ _ (tidy.outgoing.nonceBound batch stored) still
    have kept := confirms orchestrator confirm found
    rw [unconfirmed] at kept
    contradiction
  rw [own.accepted_iff tidy.outgoing consistent stored first]
  constructor
  · rintro ⟨other, may⟩
    have later := since.delegates.orchestrators orchestrator other may.keys.votes
    obtain rfl : validator = other := Option.some.inj (keys.votes.symm.trans later)
    exact may
  · exact fun may => ⟨validator, may⟩

/-! ## A token is taken off the list while its batch is signed -/

def stakeLaunch : Chain where
  state := stakeGenesis
  delegates := ⟨.empty, .empty, .empty⟩
  staking := soleStaking (ascii "validator") 0
  valsetConfirms := .empty
  logicCalls := .empty
  logicCallConfirms := .empty
  lastSlashedValsetNonce := 0
  lastSlashedBatchBlock := 0
  lastSlashedLogicCallBlock := 0

/-- The validator registers its keys, and a transfer of a listed denom is batched in block two. -/
def batchedRun : List ChainLabel :=
  [.setOrchestratorAddress ⟨ascii "gravity1validator", ascii "gravity1orchestrator", hex localnet 7⟩,
    .module (.updateParams { stakeGenesis.params with signedBatchesWindow := 1 }),
    .module (.ledger (.setCosmosBridgeableTokens [exampleMetadata])),
    .module (exampleVote exampleDeployed), .module exampleEndBlock,
    .module (.ledger (.sendToEth false ⟨ascii "gravity1recipient", hex localnet 7,
      ⟨ascii "ustake", 10⟩, ⟨ascii "ustake", 1⟩, ⟨ascii "ustake", 0⟩⟩)),
    .module (.ledger (.requestBatch ⟨ascii "gravity1recipient", ascii "ustake"⟩))]

def delistedRun : List ChainLabel :=
  batchedRun ++ [.module (.ledger (.deleteCosmosBridgeableTokens [exampleMetadata]))]

/-- Two blocks later the window of one block has passed. -/
def windowRun : List ChainLabel := [.module exampleEndBlock, .module exampleEndBlock]

theorem batchedRun_ran : (Chain.execute localnet stakeLaunch batchedRun).isSome = true := by
  decide +kernel

theorem delistedRun_ran : (Chain.execute localnet stakeLaunch delistedRun).isSome = true := by
  decide +kernel

def batchedChain : Chain := ((Chain.execute localnet stakeLaunch batchedRun).get batchedRun_ran).2

def delistedChain : Chain := ((Chain.execute localnet stakeLaunch delistedRun).get delistedRun_ran).2

theorem batchedWindow_ran : (Chain.execute localnet batchedChain windowRun).isSome = true := by
  decide +kernel

theorem delistedWindow_ran : (Chain.execute localnet delistedChain windowRun).isSome = true := by
  decide +kernel

def batchedEnd : Chain := ((Chain.execute localnet batchedChain windowRun).get batchedWindow_ran).2

def delistedEnd : Chain := ((Chain.execute localnet delistedChain windowRun).get delistedWindow_ran).2

def ownMsg : MsgConfirmBatch :=
  ⟨1, hex localnet 8, hex localnet 7, ascii "gravity1orchestrator", hexEncode (exampleSignature 27)⟩

theorem stakeLaunch_empty : Chain.Empty localnet stakeLaunch :=
  ⟨⟨rfl, rfl, rfl, rfl⟩, stakeGenesis_empty⟩

theorem ownMsg_own (short : gravityId.length ≤ 32) :
    OwnConfirm localnet gravityId exampleBatch (ascii "orchestrator") 7 ownMsg := by
  obtain ⟨checkpoint, hashed⟩ : ∃ checkpoint, exampleBatch.getCheckpoint localnet gravityId =
      .ok checkpoint := by
    simp [OutgoingTxBatch.getCheckpoint, strToFixByteArray, require, short, orPanic]
  exact ⟨rfl, newEthAddress_hex localnet 8, by decide +kernel, newEthAddress_hex localnet 7,
    exampleSignature 27, checkpoint, by decide +kernel, hashed,
    validateEthereumSignature_eq_ok.mpr ⟨0, by decide, by decide, by decide,
      by decide, by decide, by decide, by decide, by rfl⟩⟩

/-- A pass that examined one batch and slashed the validator for it. -/
theorem slashed_of_examined
    (examined : (chain.batchSlashing localnet).toOption.map SlashingPass.examined =
      some [⟨exampleBatch, [ascii "validator"]⟩]) :
    ∃ pass, chain.batchSlashing localnet = .ok pass ∧
      ⟨exampleBatch, [ascii "validator"]⟩ ∈ pass.examined := by
  cases slashing : chain.batchSlashing localnet with
  | error fault =>
    rw [slashing] at examined
    contradiction
  | ok pass =>
    rw [slashing] at examined
    have log : pass.examined = [⟨exampleBatch, [ascii "validator"]⟩] := Option.some.inj examined
    exact ⟨pass, rfl, by rw [log]; exact List.mem_singleton_self _⟩

/-- What the examples need to know about a chain at which the batch can be confirmed. -/
def Signing (chain : Chain) : Prop :=
  exampleBatch ∈ chain.state.ledger.outgoing.batches.values ∧ chain.gravityID.length ≤ 32 ∧
    chain.delegates.validatorByOrchestrator.get (ascii "orchestrator") = some (ascii "validator") ∧
    chain.delegates.ethAddressByValidator.get (ascii "validator") = some 7 ∧
    chain.staking.validators.get (ascii "validator") = some ⟨ascii "validator", .bonded, false, 0⟩

instance (chain : Chain) : Decidable (Signing chain) := inferInstanceAs (Decidable (_ ∧ _))

/-- What they need to know about the chain at which the batch is due. -/
def Due (chain : Chain) : Prop :=
  chain.delegates.validatorByOrchestrator.get (ascii "orchestrator") = some (ascii "validator") ∧
    chain.delegates.ethAddressByValidator.get (ascii "validator") = some 7 ∧
    (chain.batchSlashing localnet).toOption.map SlashingPass.examined =
      some [⟨exampleBatch, [ascii "validator"]⟩]

instance (chain : Chain) : Decidable (Due chain) := inferInstanceAs (Decidable (_ ∧ _))

theorem batchedEnd_due : Due batchedEnd := by decide +kernel

theorem delistedEnd_due : Due delistedEnd := by decide +kernel

theorem batchedChain_signing : Signing batchedChain ∧
    batchedChain.state.ledger.classifyAccepted localnet 8 "" =
    .ok ⟨.cosmos, false, ascii "ustake", 8⟩ := by decide +kernel

theorem delistedChain_signing : Signing delistedChain ∧
    succeeds (delistedChain.confirmBatch localnet ownMsg) = false := by decide +kernel

/-- The validator is bonded and registered all along and its own confirm is refused once the token
is off the list, yet it is slashed for the batch. -/
theorem delisted_validator_slashed :
    ∃ trace more pass slashed, Chain.Reachable localnet (Chain.Empty localnet) trace delistedChain ∧
      exampleBatch ∈ delistedChain.state.ledger.outgoing.batches.values ∧
      Chain.Reachable localnet (· = delistedChain) more delistedEnd ∧
      delistedEnd.batchSlashing localnet = .ok pass ∧
      ⟨exampleBatch, slashed⟩ ∈ pass.examined ∧ ascii "validator" ∈ slashed ∧
      delistedChain.delegates.Keys (ascii "validator") (ascii "orchestrator") 7 ∧
      delistedEnd.delegates.Keys (ascii "validator") (ascii "orchestrator") 7 ∧
      delistedChain.staking.validators.get (ascii "validator") =
        some ⟨ascii "validator", .bonded, false, 0⟩ ∧
      OwnConfirm localnet delistedChain.gravityID exampleBatch (ascii "orchestrator") 7 ownMsg ∧
      ¬ ∃ next, delistedChain.confirmBatch localnet ownMsg = .ok next := by
  have reach : Chain.Reachable localnet (Chain.Empty localnet) _ delistedChain :=
    Chain.reachable_of_execute stakeLaunch_empty delistedRun_ran
  have run : Chain.Reachable localnet (· = delistedChain) _ delistedEnd :=
    Chain.run_of_execute delistedWindow_ran
  obtain ⟨votesEnd, signsEnd, slashes⟩ := delistedEnd_due
  obtain ⟨pass, slashing, examined⟩ := slashed_of_examined slashes
  obtain ⟨⟨stored, short, votes, signs, bonded⟩, refused⟩ := delistedChain_signing
  refine ⟨_, _, pass, [ascii "validator"], reach, stored, run, slashing, examined,
    List.mem_singleton_self _, ⟨votes, signs⟩, ⟨votesEnd, signsEnd⟩, bonded, ownMsg_own short, ?_⟩
  rintro ⟨next, confirmed⟩
  rw [confirmed, succeeds_ok] at refused
  exact Bool.noConfusion refused

/-- While the token is listed the same confirm is accepted. -/
theorem listed_validator_could_confirm :
    ∃ more pass, Chain.Reachable localnet (· = batchedChain) more batchedEnd ∧
      batchedEnd.batchSlashing localnet = .ok pass ∧
      ⟨exampleBatch, [ascii "validator"]⟩ ∈ pass.examined ∧
      ∃ next, batchedChain.confirmBatch localnet ownMsg = .ok next := by
  have reach : Chain.Reachable localnet (Chain.Empty localnet) _ batchedChain :=
    Chain.reachable_of_execute stakeLaunch_empty batchedRun_ran
  have run : Chain.Reachable localnet (· = batchedChain) _ batchedEnd :=
    Chain.run_of_execute batchedWindow_ran
  obtain ⟨votesEnd, signsEnd, slashes⟩ := batchedEnd_due
  obtain ⟨pass, slashing, examined⟩ := slashed_of_examined slashes
  obtain ⟨⟨stored, short, votes, signs, bonded⟩, accepted⟩ := batchedChain_signing
  exact ⟨_, pass, run, slashing, examined,
    (slashed_could_confirm_iff reach stored run slashing examined
      (List.mem_singleton_self _) ⟨votesEnd, signsEnd⟩ (ownMsg_own short)).mpr
      ⟨⟨votes, signs⟩, ⟨_, bonded, .inl rfl⟩, (accepts_iff "").mpr ⟨_, accepted⟩⟩⟩

end GravityBridge.Keeper
