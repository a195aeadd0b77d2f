import GravityBridge.Keeper.DelegateKeys
import GravityBridge.Keeper.Genesis
import GravityBridge.Keeper.Signable

/-!
# Confirms of what is still there

Every stored confirm of a batch or of a validator set is a valid one, by the keys
that its orchestrator registered, of something that is still stored. Whatever is
deleted takes its confirms along, keys never change, and a stored object never
changes either.
-/

namespace GravityBridge.Keeper

open Lib.Fallible Lib.ByteString Lib.Store Lib.Runs
open GravityBridge.Types KVStore

open Outgoing (WellFormed)

/-! ## The confirms that slashing looks up -/

section

variable (ext : External)

/-- `prepValsetConfirms`. -/
def Chain.prepValsetConfirms (chain : Chain) (nonce : Nat) : Go (List ValAddress) :=
  (chain.getValsetConfirms nonce).mapM (fun confirm =>
    chain.delegates.identify ext "Invalid confirm in store" confirm.orchestrator)

/-- `prepLogicCallConfirms`. -/
def Chain.prepLogicCallConfirms (chain : Chain) (call : OutgoingLogicCall) : Go (List ValAddress) :=
  (chain.getLogicConfirmsByInvalidationIdAndNonce call.invalidationId call.invalidationNonce).mapM
    (fun confirm =>
      chain.delegates.identify ext "decoding bech32 failed" confirm.orchestrator)

end

/-! ## Steps -/

variable {ext : External} {chain next : Chain} {label : ChainLabel}
  {trace handled : List EthereumClaim} {msg : MsgConfirmBatch}

/-- What a step does to the things to sign, to the keys and to the confirms. -/
inductive SigningStep (ext : External) (chain next : Chain) : Prop
  | batchConfirmed {msg : MsgConfirmBatch} : chain.confirmBatch ext msg = .ok next.state.ledger →
      next = { chain with state := { chain.state with ledger := next.state.ledger } } →
        SigningStep ext chain next
  | valsetConfirmed {msg : MsgValsetConfirm} : chain.valsetConfirm ext msg = .ok next →
      SigningStep ext chain next
  | callConfirmed {msg : MsgConfirmLogicCall} : chain.confirmLogicCall ext msg = .ok next →
      SigningStep ext chain next
  | registered {msg : MsgSetOrchestratorAddress} :
      chain.delegates.setOrchestratorAddress ext chain.staking msg = .ok next.delegates →
      next = { chain with delegates := next.delegates } → SigningStep ext chain next
  | moved {state : State} {staking : Staking}
      {lastSlashedValsetNonce lastSlashedLogicCallBlock : Nat} :
      Ledger.Moved ext chain.state.ledger state.ledger → state.blockHeight = chain.state.blockHeight →
      next = { chain with
        state := state
        staking := staking
        lastSlashedValsetNonce := lastSlashedValsetNonce
        lastSlashedLogicCallBlock := lastSlashedLogicCallBlock } → SigningStep ext chain next
  | ended : BlockEnd ext chain.state next.state → next.delegates = chain.delegates →
      next.logicCallConfirms = chain.logicCallConfirms →
      next.valsetConfirms = (Chain.prunedValsets chain.state.ledger next.state.ledger).foldl
        (Chain.deleteValsetConfirms ext) chain.valsetConfirms → SigningStep ext chain next

/-- A confirm that reaches the module comes with the check of its signature. -/
theorem Chain.resolve_confirmBatch {label : Label} {signatureOk : Bool}
    (resolved : chain.resolve ext label = .ledger (.confirmBatch msg signatureOk)) :
    signatureOk = succeeds (chain.verifyConfirm ext msg) := by
  unfold Chain.resolve at resolved
  split at resolved
  · contradiction
  · contradiction
  · obtain ⟨rfl, rfl⟩ : _ = msg ∧ _ = signatureOk := by simpa using resolved
    rfl
  · rename_i notConfirm
    exact absurd resolved (notConfirm msg signatureOk)

theorem Chain.step_signing (took : Chain.step ext label chain = (handled, .ok next)) :
    SigningStep ext chain next := by
  cases Chain.step_cases took with
  | delivered within stepped =>
    rcases step_moved stepped with ⟨powers, env, same⟩ | ⟨msg, signatureOk, same⟩ | ⟨moved, height⟩
    · exact absurd same (within powers env)
    · obtain rfl := Chain.resolve_confirmBatch same
      rw [same] at stepped
      cases Keeper.step_cases stepped with
      | delivered confirmed => exact .batchConfirmed confirmed rfl
      | _ =>
        refine .moved ?_ ?_ rfl
        · exact .refl ext _
        · rfl
    · exact .moved moved height rfl
  | ended _ stepped frame =>
    exact .ended (step_endBlock stepped) (by rw [frame]) (by rw [frame])
      (congrArg Chain.valsetConfirms frame)
  | registered registered => exact .registered registered rfl
  | valsetConfirmed confirmed => exact .valsetConfirmed confirmed
  | callConfirmed confirmed => exact .callConfirmed confirmed
  | _ => exact .moved (.refl ext _) rfl rfl

/-- Within a block validator sets are at most observed, and tokens at most registered. -/
structure Chain.Watched (chain next : Chain) : Prop where
  requests : next.state.ledger.valsets.requests = chain.state.ledger.valsets.requests
  latest : next.state.ledger.valsets.latestValsetNonce = chain.state.ledger.valsets.latestValsetNonce
  observed : next.state.ledger.valsets.lastObservedValset =
    chain.state.ledger.valsets.lastObservedValset ∨
    ∃ valset, next.state.ledger.valsets.lastObservedValset = some valset ∧
      (valset.nonce = 0 ∨ ∃ stored, chain.state.ledger.valsets.requests.get valset.nonce =
        some stored)
  registry : chain.state.ledger.registry.Grown next.state.ledger.registry
  height : next.state.blockHeight = chain.state.blockHeight

theorem Chain.Watched.of_same (valsets : next.state.ledger.valsets = chain.state.ledger.valsets)
    (registry : next.state.ledger.registry = chain.state.ledger.registry)
    (height : next.state.blockHeight = chain.state.blockHeight) : chain.Watched next :=
  ⟨by rw [valsets], by rw [valsets], .inl (by rw [valsets]), registry ▸ .refl _, height⟩

theorem SigningStep.watched (stepped : SigningStep ext chain next) :
    BlockEnd ext chain.state next.state ∨ chain.Watched next := by
  cases stepped with
  | batchConfirmed confirmed frame =>
    simp only [Chain.confirmBatch, Ledger.confirmBatch, bind_eq_ok, pure_eq_ok] at confirmed
    obtain ⟨_, _, _, _, _, _, _, _, _, _, _, _, same⟩ := confirmed
    refine .inr (.of_same ?_ ?_ ?_)
    · rw [← same]
    · rw [← same]
    · rw [frame]
  | valsetConfirmed confirmed =>
    rw [Chain.valsetConfirm_frame confirmed]
    exact .inr (.of_same rfl rfl rfl)
  | callConfirmed confirmed =>
    rw [Chain.confirmLogicCall_frame confirmed]
    exact .inr (.of_same rfl rfl rfl)
  | registered _ frame =>
    rw [frame]
    exact .inr (.of_same rfl rfl rfl)
  | moved moved height frame =>
    rw [frame]
    exact .inr ⟨moved.requests, moved.latest, moved.observed, moved.registry, height⟩
  | ended ended _ _ _ => exact .inl ended

/-! ## Valid confirms -/

/-- The signature is one of the validator that the orchestrator is registered for. -/
def SignedBy (ext : External) (delegates : Delegates) (checkpoint : Go Bytes)
    (orchestrator : AccAddress) (signature : Bytes) : Prop :=
  ∃ validator address sigBytes hash, delegates.validatorByOrchestrator.get orchestrator =
    some validator ∧
    delegates.ethAddressByValidator.get validator = some address ∧
    hexDecode signature = some sigBytes ∧
    checkpoint = .ok hash ∧ validateEthereumSignature ext hash sigBytes address = .ok ()

variable {delegates : Delegates} {orchestrator : AccAddress} {signature : Bytes} {staking : Staking}
  {outgoing : Outgoing} {valsetConfirms : KVStore ValsetConfirmKey MsgValsetConfirm}
  {nonce number : Nat} {confirm : MsgValsetConfirm}

theorem SignedBy.kept {later : Delegates} (kept : delegates.Kept later) {checkpoint : Go Bytes}
    (signed : SignedBy ext delegates checkpoint orchestrator signature) :
    SignedBy ext later checkpoint orchestrator signature := by
  obtain ⟨validator, address, sigBytes, hash, votes, signs, decoded, hashed, valid⟩ := signed
  exact ⟨validator, address, sigBytes, hash, kept.orchestrators _ _ votes,
    kept.validators _ _ signs, decoded, hashed, valid⟩

theorem votes_of_getOrchestratorValidator
    {validator : Validator}
    (found : delegates.getOrchestratorValidator staking orchestrator = some validator) :
    delegates.validatorByOrchestrator.get orchestrator = some validator.operator := by
  obtain ⟨operator, votes, staked⟩ := Option.bind_eq_some_iff.mp found
  unfold Delegates.getOrchestratorValidatorAddr at votes
  split_ifs at votes
  rw [votes, staking.keyed operator validator staked]

theorem signedBy_of_confirmHandlerCommon {ethAddress checkpoint : Bytes} {result : Unit}
    (accepted : delegates.confirmHandlerCommon ext staking ethAddress orchestrator signature
      checkpoint = .ok result) :
    SignedBy ext delegates (.ok checkpoint) orchestrator signature := by
  obtain ⟨sigBytes, address, validator, decoded, _, found, _, _, signs, valid⟩ :=
    Delegates.confirmHandlerCommon_eq_ok.mp accepted
  exact ⟨validator.operator, address, sigBytes, checkpoint, votes_of_getOrchestratorValidator found,
    signs, decoded, rfl, valid⟩

theorem Chain.confirmBatch_accepted {ledger : Ledger}
    (wellFormed : WellFormed ext chain.state.ledger.outgoing)
    (confirmed : chain.confirmBatch ext msg = .ok ledger) :
    ∃ contract orchestrator batch, accAddressFromBech32 ext msg.orchestrator = .ok orchestrator ∧
      chain.state.ledger.outgoing.batches.get (getOutgoingTxBatchKey contract msg.nonce.val) =
        some batch ∧
      SignedBy ext chain.delegates (batch.getCheckpoint ext chain.gravityID) orchestrator
        msg.signature ∧
      ledger = { chain.state.ledger with outgoing := { chain.state.ledger.outgoing with
        batchConfirms := chain.state.ledger.outgoing.batchConfirms.set
          (getBatchConfirmKey contract msg.nonce.val orchestrator) msg } } := by
  simp only [Chain.confirmBatch, Ledger.confirmBatch, Ledger.requireBridgeable, bind_eq_ok,
    rewrap_eq_ok, require_eq_ok, pure_eq_ok] at confirmed
  obtain ⟨_, _, contract, ⟨_, parsed, _, _, _, _, rfl⟩, _, _, orchestrator, decoded, _, verified, _,
    _, rfl⟩ := confirmed
  simp only [succeeds_eq_true, Chain.verifyConfirm, bind_eq_ok, rewrap_eq_ok, fromOption_eq_ok]
    at verified
  obtain ⟨_, read, parsedAgain, batch, loaded, checkpoint, hashed, sender, decodedAgain,
    accepted⟩ := verified
  obtain rfl := Except.ok.inj (parsed.symm.trans parsedAgain)
  obtain rfl := Except.ok.inj (decoded.symm.trans decodedAgain)
  rw [wellFormed.getOutgoingTXBatch_eq] at loaded
  refine ⟨_, _, batch, decoded, loaded, ?_, rfl⟩
  rw [hashed]
  exact signedBy_of_confirmHandlerCommon accepted

theorem Chain.valsetConfirm_accepted {msg : MsgValsetConfirm}
    (confirmed : chain.valsetConfirm ext msg = .ok next) :
    ∃ orchestrator valset, accAddressFromBech32 ext msg.orchestrator = .ok orchestrator ∧
      chain.state.ledger.valsets.requests.get msg.nonce.val = some valset ∧
      SignedBy ext chain.delegates (valset.getCheckpoint ext chain.gravityID) orchestrator
        msg.signature ∧
      next = { chain with
        valsetConfirms :=
        chain.valsetConfirms.set (getValsetConfirmKey msg.nonce orchestrator) msg } := by
  simp only [Chain.valsetConfirm, Chain.setValsetConfirm, bind_eq_ok, rewrap_eq_ok, orPanic_eq_ok,
    fromOption_eq_ok, pure_eq_ok] at confirmed
  obtain ⟨valset, stored, checkpoint, hashed, orchestrator, decoded, _, accepted, _, _, _,
    ⟨_, decodedAgain, rfl⟩, rfl⟩ := confirmed
  obtain rfl := Except.ok.inj (decoded.symm.trans decodedAgain)
  refine ⟨_, valset, decoded, stored, ?_, rfl⟩
  rw [hashed]
  exact signedBy_of_confirmHandlerCommon accepted

theorem Chain.confirmLogicCall_accepted {msg : MsgConfirmLogicCall}
    (confirmed : chain.confirmLogicCall ext msg = .ok next) :
    ∃ key orchestrator validator, accAddressFromBech32 ext msg.orchestrator = .ok orchestrator ∧
      chain.delegates.validatorByOrchestrator.get orchestrator = some validator ∧
      next = { chain with logicCallConfirms := chain.logicCallConfirms.set key msg } := by
  simp only [Chain.confirmLogicCall, Chain.setLogicCallConfirm, bind_eq_ok, rewrap_eq_ok,
    orPanic_eq_ok, pure_eq_ok] at confirmed
  obtain ⟨_, _, _, _, _, _, orchestrator, decoded, _, accepted, _, _, _, ⟨_, _, _, _, rfl⟩, rfl⟩ :=
    confirmed
  obtain ⟨validator, _, _, _, votes, _⟩ := signedBy_of_confirmHandlerCommon accepted
  exact ⟨_, orchestrator, validator, decoded, votes, rfl⟩

/-- Confirms are valid ones of stored objects, and those of logic calls come from registered
orchestrators. -/
structure Chain.Confirmed (ext : External) (chain : Chain) : Prop where
  batches : ∀ token nonce orchestrator confirm,
    chain.state.ledger.outgoing.batchConfirms.get (getBatchConfirmKey token nonce orchestrator) =
      some confirm →
    accAddressFromBech32 ext confirm.orchestrator = .ok orchestrator ∧
    ∃ batch, chain.state.ledger.outgoing.batches.get (getOutgoingTxBatchKey token nonce) =
      some batch ∧
      SignedBy ext chain.delegates (batch.getCheckpoint ext chain.gravityID) orchestrator
        confirm.signature
  valsets : ∀ nonce orchestrator confirm, chain.valsetConfirms.get (toLex (nonce, orchestrator)) =
    some confirm → accAddressFromBech32 ext confirm.orchestrator = .ok orchestrator ∧
    ∃ valset, chain.state.ledger.valsets.requests.get nonce = some valset ∧
      SignedBy ext chain.delegates (valset.getCheckpoint ext chain.gravityID) orchestrator
        confirm.signature
  calls : ∀ key confirm, chain.logicCallConfirms.get key = some confirm →
    ∃ orchestrator validator, accAddressFromBech32 ext confirm.orchestrator = .ok orchestrator ∧
      chain.delegates.validatorByOrchestrator.get orchestrator = some validator

/-! ## Deletion -/

/-- A confirm that is still there was there before, and its batch has not gone either. -/
structure Outgoing.Followed (outgoing next : Outgoing) : Prop where
  confirms : ∀ token nonce orchestrator confirm,
    next.batchConfirms.get (getBatchConfirmKey token nonce orchestrator) = some confirm →
    outgoing.batchConfirms.get (getBatchConfirmKey token nonce orchestrator) = some confirm ∧
    ∀ batch, outgoing.batches.get (getOutgoingTxBatchKey token nonce) = some batch →
      next.batches.get (getOutgoingTxBatchKey token nonce) = some batch

theorem Outgoing.Change.followed {next : Outgoing} (change : Outgoing.Change ext outgoing next)
    (confirmKeys : ∀ key confirm, outgoing.batchConfirms.get key = some confirm →
      ConfirmKeyed ext key confirm) :
    Outgoing.Followed outgoing next := by
  cases change with
  | pooled pool lastTXPoolID => exact ⟨fun _ _ _ _ found => ⟨found, fun _ stored => stored⟩⟩
  | stored fresh =>
    refine ⟨fun token nonce orchestrator confirm found => ⟨found, fun batch stored => ?_⟩⟩
    exact within_set fresh _ _ _ stored
  | dropped batch =>
    refine ⟨fun token nonce orchestrator confirm found => ?_⟩
    obtain ⟨gone, kept⟩ := Outgoing.deleteBatchConfirms_get (outgoing.deleteBatch batch) batch
      (getBatchConfirmKey token nonce orchestrator) confirmKeys
    have other : ¬ Outgoing.confirmsOf batch.tokenContract batch.batchNonce
        (getBatchConfirmKey token nonce orchestrator) := by
      intro its
      rw [gone its] at found
      contradiction
    rw [kept other] at found
    refine ⟨found, fun stored inStore => ?_⟩
    rw [Outgoing.deleteBatchConfirms_frame ext (outgoing.deleteBatch batch) batch]
    simp only [Outgoing.deleteBatch, get_delete]
    rw [if_neg, inStore]
    intro same
    obtain ⟨rfl, rfl⟩ : token = batch.tokenContract ∧ nonce = batch.batchNonce := by
      simpa [getOutgoingTxBatchKey] using same
    exact other Outgoing.confirmsOf_key

theorem Outgoing.Changes.followed {next : Outgoing} (changes : Outgoing.Changes ext outgoing next)
    (confirmKeys : ∀ key confirm, outgoing.batchConfirms.get key = some confirm →
      ConfirmKeyed ext key confirm) :
    Outgoing.Followed outgoing next := by
  induction changes with
  | refl => exact ⟨fun _ _ _ _ found => ⟨found, fun _ stored => stored⟩⟩
  | tail _ change ih =>
    -- What is left of the confirms is still stored under its own keys.
    have keys := change.followed (fun key confirm found =>
      confirmKeys key confirm (ih.confirms _ _ _ confirm found).1)
    refine ⟨fun token nonce orchestrator confirm found => ?_⟩
    obtain ⟨inMiddle, keptRight⟩ := keys.confirms token nonce orchestrator confirm found
    obtain ⟨inFirst, keptLeft⟩ := ih.confirms token nonce orchestrator confirm inMiddle
    exact ⟨inFirst, fun batch stored => keptRight batch (keptLeft batch stored)⟩

/-- Validator set confirms are stored under their orchestrators. -/
def ValsetConfirmsKeyed (ext : External)
    (valsetConfirms : KVStore ValsetConfirmKey MsgValsetConfirm) : Prop :=
  ∀ nonce orchestrator confirm, valsetConfirms.get (toLex (nonce, orchestrator)) = some confirm →
    accAddressFromBech32 ext confirm.orchestrator = .ok orchestrator

theorem get_deleteValsetConfirms (keyed : ValsetConfirmsKeyed ext valsetConfirms)
    (found : (Chain.deleteValsetConfirms ext valsetConfirms nonce).get
      (toLex (number, orchestrator)) = some confirm) :
    valsetConfirms.get (toLex (number, orchestrator)) = some confirm ∧ number ≠ nonce := by
  have shape : Chain.deleteValsetConfirms ext valsetConfirms nonce =
      (valsetConfirms.filter (fun key _ => (ofLex key).1 == nonce)).values.foldl (fun current other =>
        ((accAddressFromBech32 ext other.orchestrator).toOption.map
          (fun account => toLex (nonce, account))).elim current current.delete) valsetConfirms := by
    unfold Chain.deleteValsetConfirms
    congr 1
    funext current other
    cases accAddressFromBech32 ext other.orchestrator <;> rfl
  rw [shape] at found
  obtain ⟨kept, others⟩ := get_foldl_delete found
  refine ⟨kept, ?_⟩
  rintro rfl
  refine others confirm (mem_values.mpr ⟨toLex (number, orchestrator), ?_⟩) ?_
  · rw [get_filter, kept]
    simp
  · rw [keyed number orchestrator confirm kept]
    rfl

theorem get_foldl_deleteValsetConfirms {nonces : List Nat}
    (keyed : ValsetConfirmsKeyed ext valsetConfirms)
    (found : (nonces.foldl (Chain.deleteValsetConfirms ext) valsetConfirms).get
      (toLex (number, orchestrator)) = some confirm) :
    valsetConfirms.get (toLex (number, orchestrator)) = some confirm ∧ number ∉ nonces := by
  induction nonces generalizing valsetConfirms with
  | nil => exact ⟨found, by simp⟩
  | cons nonce rest ih =>
    rw [List.foldl_cons] at found
    obtain ⟨inRest, notInRest⟩ := ih
      (fun other account stored kept =>
        keyed other account stored (get_deleteValsetConfirms keyed kept).1) found
    obtain ⟨kept, other⟩ := get_deleteValsetConfirms keyed inRest
    exact ⟨kept, List.not_mem_cons_of_ne_of_not_mem other notInRest⟩

/-- At the end of a block a stored request stays as it is or goes. -/
theorem BlockEnd.requests {state final : State} (ended : BlockEnd ext state final) {valset : Valset}
    (stored : state.ledger.valsets.requests.get nonce = some valset) :
    final.ledger.valsets.requests.get nonce = some valset ∨
      final.ledger.valsets.requests.get nonce = none := by
  obtain ⟨moved, _, requests, _, _, _, result, _, _⟩ := ended
  rw [result, or_iff_not_imp_right]
  intro still
  obtain ⟨other, found⟩ := Option.ne_none_iff_exists'.mp still
  rw [← moved.requests] at stored
  obtain rfl := Option.some.inj
    ((get_pruneValsets.mp found).1.symm.trans (requests.within _ _ stored))
  exact found

/-! ## The invariant -/

theorem Chain.Confirmed.carried (confirmed : chain.Confirmed ext)
    (fixed : next.gravityID = chain.gravityID) (kept : chain.delegates.Kept next.delegates)
    (followed : Outgoing.Followed chain.state.ledger.outgoing next.state.ledger.outgoing)
    (valsets : ∀ nonce orchestrator confirm, next.valsetConfirms.get (toLex (nonce, orchestrator)) =
      some confirm → chain.valsetConfirms.get (toLex (nonce, orchestrator)) = some confirm ∧
      ∀ valset, chain.state.ledger.valsets.requests.get nonce = some valset →
        next.state.ledger.valsets.requests.get nonce = some valset)
    (calls : next.logicCallConfirms = chain.logicCallConfirms) : next.Confirmed ext where
  batches token nonce orchestrator confirm found := by
    obtain ⟨inFirst, stays⟩ := followed.confirms token nonce orchestrator confirm found
    obtain ⟨decoded, batch, stored, signed⟩ :=
      confirmed.batches token nonce orchestrator confirm inFirst
    rw [fixed]
    exact ⟨decoded, batch, stays batch stored, signed.kept kept⟩
  valsets nonce orchestrator confirm found := by
    obtain ⟨inFirst, stays⟩ := valsets nonce orchestrator confirm found
    obtain ⟨decoded, valset, stored, signed⟩ := confirmed.valsets nonce orchestrator confirm inFirst
    rw [fixed]
    exact ⟨decoded, valset, stays valset stored, signed.kept kept⟩
  calls key confirm found := by
    rw [calls] at found
    obtain ⟨orchestrator, validator, decoded, votes⟩ := confirmed.calls key confirm found
    exact ⟨orchestrator, validator, decoded, kept.orchestrators _ _ votes⟩

theorem Chain.Confirmed.step (confirmed : chain.Confirmed ext)
    (wellFormed : WellFormed ext chain.state.ledger.outgoing)
    (bijective : chain.delegates.Bijective) (fixed : next.gravityID = chain.gravityID)
    (stepped : SigningStep ext chain next) : next.Confirmed ext := by
  cases stepped with
  | batchConfirmed accepted frame =>
    obtain ⟨contract, orchestrator, batch, decoded, stored, signed, result⟩ :=
      Chain.confirmBatch_accepted wellFormed accepted
    rw [frame, result]
    refine { confirmed with batches := fun token nonce account confirm found => ?_ }
    simp only [get_set] at found
    split_ifs at found with same
    · obtain ⟨rfl, rfl, rfl⟩ : token = contract ∧ nonce = _ ∧ account = orchestrator := by
        simpa [getBatchConfirmKey] using same
      obtain rfl := Option.some.inj found
      exact ⟨decoded, batch, stored, signed⟩
    · exact confirmed.batches token nonce account confirm found
  | valsetConfirmed accepted =>
    obtain ⟨orchestrator, valset, decoded, stored, signed, rfl⟩ :=
      Chain.valsetConfirm_accepted accepted
    refine { confirmed with valsets := fun nonce account confirm found => ?_ }
    simp only [get_set] at found
    split_ifs at found with same
    · obtain ⟨rfl, rfl⟩ : nonce = _ ∧ account = orchestrator := by
        simpa [getValsetConfirmKey] using same
      obtain rfl := Option.some.inj found
      exact ⟨decoded, valset, stored, signed⟩
    · exact confirmed.valsets nonce account confirm found
  | callConfirmed accepted =>
    obtain ⟨key, orchestrator, validator, decoded, votes, rfl⟩ :=
      Chain.confirmLogicCall_accepted accepted
    refine { confirmed with calls := fun other confirm found => ?_ }
    simp only [get_set] at found
    split_ifs at found with same
    · obtain rfl := Option.some.inj found
      exact ⟨orchestrator, validator, decoded, votes⟩
    · exact confirmed.calls other confirm found
  | registered accepted frame =>
    have kept := (bijective.registered accepted).2
    rw [frame] at fixed ⊢
    exact confirmed.carried fixed kept ⟨fun _ _ _ _ found => ⟨found, fun _ stored => stored⟩⟩
      (fun _ _ _ found => ⟨found, fun _ stored => stored⟩) rfl
  | moved moved _ frame =>
    rw [frame] at fixed ⊢
    refine confirmed.carried fixed (.refl _) (moved.outgoing.followed wellFormed.confirmKeys)
      (fun nonce orchestrator confirm found => ⟨found, fun valset stored => ?_⟩) rfl
    exact moved.requests ▸ stored
  | ended ended delegates calls valsetConfirms =>
    have keyed : ValsetConfirmsKeyed ext chain.valsetConfirms :=
      fun nonce orchestrator confirm found => (confirmed.valsets nonce orchestrator confirm found).1
    refine confirmed.carried fixed (delegates ▸ .refl _) ?_
      (fun nonce orchestrator confirm found => ?_) calls
    · obtain ⟨moved, changes, _, _, _, _, result, _, _⟩ := ended
      rw [result, pruneValsets_frame]
      exact Outgoing.Changes.followed (moved.outgoing.trans changes) wellFormed.confirmKeys
    · rw [valsetConfirms] at found
      obtain ⟨inFirst, notPruned⟩ := get_foldl_deleteValsetConfirms keyed found
      refine ⟨inFirst, fun valset stored => ?_⟩
      rcases ended.requests stored with same | gone
      · exact same
      · refine absurd (List.mem_filter.mpr ⟨?_, ?_⟩) notPruned
        · exact List.mem_map.mpr ⟨(nonce, valset), mem_entries.mpr stored, rfl⟩
        · simp [gone]

/-! ## Runs -/

/-- The stores of the module are empty. The bank may hold anything. -/
structure Chain.Unused (chain : Chain) : Prop extends chain.Launched where
  unvoted : ∃ initial, BeforeVotes initial chain.state
  ledger : chain.state.ledger = .unused chain.state.ledger.registry.remappedERC20s
    chain.state.ledger.bank

/-- The chains that steps under one gravity id lead to from an empty store. -/
def Chain.FixedReach (ext : External) (handled : List EthereumClaim) (chain : Chain) : Prop :=
  Reach (Chain.step ext) Chain.Unused (fun chain _ _ next => next.gravityID = chain.gravityID)
    handled chain

/-- What a run from an empty store keeps: votes in order, stores keyed by what they hold, keys one
to one, and valid confirms. -/
structure Chain.Orderly (ext : External) (handled : List EthereumClaim) (chain : Chain) : Prop where
  ordered : ∃ initial, Ordered ext initial handled chain.state
  tidy : Tidy ext chain.state.ledger
  keys : chain.delegates.Bijective
  confirmed : chain.Confirmed ext

theorem Chain.Unused.orderly (unused : chain.Unused) : chain.Orderly ext [] := by
  obtain ⟨initial, fresh, start⟩ := unused.unvoted
  refine ⟨⟨initial, fresh.sound, rfl, start, by simp [fresh.attestations]⟩, ?_, ?_, ⟨?_, ?_, ?_⟩⟩
  · rw [unused.ledger]
    exact Ledger.tidy_unused ext _ _
  · rw [unused.delegates]
    exact Delegates.bijective_empty
  · rw [unused.ledger]
    simp [Ledger.unused]
  · rw [unused.valsetConfirms]
    simp
  · rw [unused.logicCallConfirms]
    simp

theorem Chain.Orderly.step (orderly : chain.Orderly ext trace)
    (fixed : next.gravityID = chain.gravityID)
    (took : Chain.step ext label chain = (handled, .ok next)) :
    next.Orderly ext (trace ++ handled) := by
  have confirmed :=
    orderly.confirmed.step orderly.tidy.outgoing orderly.keys fixed (Chain.step_signing took)
  have stepped := Chain.step_cases took
  have keys := (stepped.keys orderly.keys).1
  obtain ⟨initial, ordered⟩ := orderly.ordered
  rcases stepped.module with ⟨label, moved⟩ | ⟨rfl, same⟩
  · exact ⟨⟨initial, ordered.step (step_oracle moved)⟩, ((step_ledger moved).invariant
      (fun {_ _ _} _ _ _ => trivial) ordered.sound orderly.tidy trivial).1, keys, confirmed⟩
  · rw [List.append_nil]
    exact ⟨⟨initial, same ▸ ordered⟩, same ▸ orderly.tidy, keys, confirmed⟩

theorem Chain.FixedReach.orderly (reach : Chain.FixedReach ext handled chain) :
    chain.Orderly ext handled :=
  Reach.invariant (fun _ unused => unused.orderly) (fun _ _ _ _ _ _ orderly took fixed =>
    orderly.step fixed took) reach

/-! ## What slashing finds -/

/-- Confirms that come from registered orchestrators are identified. -/
theorem mapM_identify_succeeds {α : Type} {confirms : List α} (textOf : α → Bytes)
    (undecoded : String) (known : ∀ confirm ∈ confirms, ∃ orchestrator validator,
      accAddressFromBech32 ext (textOf confirm) = .ok orchestrator ∧
      delegates.validatorByOrchestrator.get orchestrator = some validator) :
    ∃ validators, confirms.mapM (fun confirm => delegates.identify ext undecoded (textOf confirm)) =
      .ok validators := by
  refine mapM_succeeds (fun confirm member => ?_)
  obtain ⟨orchestrator, validator, decoded, votes⟩ := known confirm member
  simp only [Delegates.identify, bind_eq_ok, orPanic_eq_ok, unwrap_eq_ok]
  exact ⟨validator, orchestrator, decoded,
    (getOrchestratorValidatorAddr_eq (verifyAddressFormat_of_bech32 decoded)).trans votes⟩

theorem Chain.Confirmed.prepBatchConfirms (confirmed : chain.Confirmed ext)
    (batch : OutgoingTxBatch) :
    ∃ confirms, Keeper.prepBatchConfirms ext chain.delegates chain.state.ledger.outgoing batch =
      .ok confirms := by
  refine mapM_identify_succeeds MsgConfirmBatch.orchestrator "decoding bech32 failed"
    (fun confirm member => ?_)
  obtain ⟨key, found⟩ := mem_values.mp member
  rw [get_filter, Option.filter_eq_some_iff] at found
  obtain ⟨decoded, _, _, validator, _, _, _, votes, _⟩ := confirmed.batches _ _ _ confirm found.1
  exact ⟨_, validator, decoded, votes⟩

theorem Chain.Confirmed.prepValsetConfirms (confirmed : chain.Confirmed ext) (nonce : Nat) :
    ∃ confirms, chain.prepValsetConfirms ext nonce = .ok confirms := by
  refine mapM_identify_succeeds MsgValsetConfirm.orchestrator _ (fun confirm member => ?_)
  obtain ⟨key, found⟩ := mem_values.mp member
  rw [get_filter, Option.filter_eq_some_iff] at found
  obtain ⟨decoded, _, _, validator, _, _, _, votes, _⟩ := confirmed.valsets _ _ confirm found.1
  exact ⟨_, validator, decoded, votes⟩

theorem Chain.Confirmed.prepLogicCallConfirms (confirmed : chain.Confirmed ext)
    (call : OutgoingLogicCall) :
    ∃ confirms, chain.prepLogicCallConfirms ext call = .ok confirms := by
  refine mapM_identify_succeeds MsgConfirmLogicCall.orchestrator _ (fun confirm member => ?_)
  obtain ⟨key, found⟩ := mem_values.mp member
  rw [get_filter, Option.filter_eq_some_iff] at found
  exact confirmed.calls key confirm found.1

/-- Confirms of one object, stored under their orchestrators, come from different orchestrators. -/
theorem nodup_orchestrators {κ ν : Type} [LinearOrder κ] {store : KVStore κ ν} {textOf : ν → Bytes}
    (keyOf : AccAddress → κ) (keyed : ∀ key confirm, store.get key = some confirm →
      ∃ orchestrator, accAddressFromBech32 ext (textOf confirm) = .ok orchestrator ∧
        key = keyOf orchestrator) :
    (store.values.map (fun confirm => accAddressFromBech32 ext (textOf confirm))).Nodup := by
  have keys : (store.values.map (fun confirm =>
      keyOf ((accAddressFromBech32 ext (textOf confirm)).toOption.getD []))).Nodup := by
    refine nodup_of_keyed (fun key confirm found => ?_)
    obtain ⟨orchestrator, decoded, same⟩ := keyed key confirm found
    rw [same, decoded]
    rfl
  refine List.Nodup.of_map (fun decoded : Go AccAddress => keyOf (decoded.toOption.getD [])) ?_
  rwa [List.map_map]

/-- Confirms in every state that a run under one gravity id leads to from an empty store. -/
theorem live_confirms_valid (reach : Chain.FixedReach ext handled chain) :
    (∀ token nonce orchestrator confirm,
      chain.state.ledger.outgoing.batchConfirms.get (getBatchConfirmKey token nonce orchestrator) =
        some confirm →
      ∃ batch, chain.state.ledger.outgoing.batches.get (getOutgoingTxBatchKey token nonce) =
        some batch ∧
        SignedBy ext chain.delegates (batch.getCheckpoint ext chain.gravityID) orchestrator
          confirm.signature) ∧
    (∀ nonce orchestrator confirm, chain.valsetConfirms.get (toLex (nonce, orchestrator)) =
      some confirm → ∃ valset, chain.state.ledger.valsets.requests.get nonce = some valset ∧
        SignedBy ext chain.delegates (valset.getCheckpoint ext chain.gravityID) orchestrator
          confirm.signature) ∧
    (∀ token nonce,
      ((chain.state.ledger.outgoing.getBatchConfirmByNonceAndTokenContract nonce token).map
        (fun confirm => accAddressFromBech32 ext confirm.orchestrator)).Nodup) ∧
    (∀ nonce, ((chain.getValsetConfirms nonce).map
      (fun confirm => accAddressFromBech32 ext confirm.orchestrator)).Nodup) ∧
    (∀ batch, ∃ confirms, prepBatchConfirms ext chain.delegates chain.state.ledger.outgoing batch =
      .ok confirms) ∧
    (∀ nonce, ∃ confirms, chain.prepValsetConfirms ext nonce = .ok confirms) ∧
    ∀ call, ∃ confirms, chain.prepLogicCallConfirms ext call = .ok confirms := by
  have confirmed := reach.orderly.confirmed
  refine ⟨fun token nonce orchestrator confirm found =>
    (confirmed.batches token nonce orchestrator confirm found).2,
      fun nonce orchestrator confirm found =>
        (confirmed.valsets nonce orchestrator confirm found).2, fun token nonce => ?_,
    fun nonce => ?_, confirmed.prepBatchConfirms, confirmed.prepValsetConfirms,
      confirmed.prepLogicCallConfirms⟩
  · refine nodup_orchestrators (getBatchConfirmKey token nonce) (fun key confirm found => ?_)
    rw [KVStore.get_filter, Option.filter_eq_some_iff] at found
    obtain ⟨stored, inside⟩ := found
    obtain ⟨rfl, rfl⟩ : (ofLex key).1 = token ∧ (ofLex (ofLex key).2).1 = nonce := by
      simpa using inside
    exact ⟨_, (confirmed.batches _ _ _ confirm stored).1, rfl⟩
  · refine nodup_orchestrators (fun orchestrator => toLex (nonce, orchestrator))
      (fun key confirm found => ?_)
    rw [KVStore.get_filter, Option.filter_eq_some_iff] at found
    obtain ⟨stored, inside⟩ := found
    obtain rfl : (ofLex key).1 = nonce := by simpa using inside
    exact ⟨_, (confirmed.valsets _ _ confirm stored).1, rfl⟩

/-- The batch and the validator set of the example are confirmed by their one validator. -/
def confirmedRun : List ChainLabel :=
  batchedRun ++ [.module (.ledger (.confirmBatch ownMsg true)),
    .valsetConfirm ⟨1, ascii "gravity1orchestrator", hex localnet 7,
      hexEncode (Contract.exampleSignature 27)⟩]

theorem confirmedRun_ran : (Chain.executeFixed localnet stakeLaunch confirmedRun).isSome =
    true := by decide +kernel

def confirmedChain : Chain :=
  ((Chain.executeFixed localnet stakeLaunch confirmedRun).get confirmedRun_ran).2

theorem stakeLaunch_unused : stakeLaunch.Unused :=
  ⟨stakeLaunch_empty.toLaunched, ⟨0, stakeLaunch_empty.bridge.unvoted⟩,
    stakeLaunch_empty.bridge.unused⟩

theorem confirmed_batch_signed :
    confirmedChain.state.ledger.outgoing.batchConfirms.get
      (getBatchConfirmKey 8 1 (ascii "orchestrator")) = some ownMsg ∧
    (confirmedChain.getValsetConfirms 1).length = 1 ∧
    ∃ batch, confirmedChain.state.ledger.outgoing.batches.get (getOutgoingTxBatchKey 8 1) =
      some batch ∧
      SignedBy localnet confirmedChain.delegates
        (batch.getCheckpoint localnet confirmedChain.gravityID)
        (ascii "orchestrator") ownMsg.signature := by
  have reach : Chain.FixedReach localnet _ confirmedChain :=
    reach_of_isSome (fun _ _ _ _ same => by simpa using same) stakeLaunch_unused confirmedRun_ran
  have stored : confirmedChain.state.ledger.outgoing.batchConfirms.get
      (getBatchConfirmKey 8 1 (ascii "orchestrator")) = some ownMsg := by decide +kernel
  exact ⟨stored, by decide +kernel,
    (live_confirms_valid reach).1 8 1 (ascii "orchestrator") ownMsg stored⟩

end GravityBridge.Keeper
