import GravityBridge.Keeper.ConfirmWindow
import GravityBridge.Keeper.Genesis

/-!
# Evidence of bad signatures

Whoever shows a validator's signature over something that the chain never asked to
sign has the validator slashed. The archive of checkpoints tells what the chain
asked for. A run archives everything that it stores. The import of a genesis
archives logic calls only, and the validator sets and batches of the genesis are
exactly what a validator can be slashed for although it was asked to sign it.
-/

namespace GravityBridge.Keeper

open Lib.Fallible Lib.ByteString Lib.Store Lib.Runs
open GravityBridge.Types KVStore

open Contract (exampleSignature)

/-! ## Checking evidence -/

/-- What validators sign, as it stands in a message. -/
inductive EthereumSigned where
  | batch (batch : ExternalTxBatch)
  | valset (valset : Valset)
  | logicCall (call : OutgoingLogicCall)

section

variable (ext : External)

def EthereumSigned.getCheckpoint (gravityID : Bytes) : EthereumSigned → Go Bytes
  | .batch signed => do
      let internal ← orPanic "invalid OutgoingTxBatch" (signed.toInternal ext)
      internal.getCheckpoint ext gravityID
  | .valset signed => signed.getCheckpoint ext gravityID
  | .logicCall call => call.getCheckpoint ext gravityID

/-- Text of less than two bytes makes the slice `signature[:2]` panic. -/
def decodeEvidenceSignature (signature : Bytes) : Go Bytes := do
  check (2 ≤ signature.length) "slice bounds out of range"
  fromOption ⟨.invalid, "signature decoding"⟩
    (hexDecode (if signature.take 2 = ascii "0x" then signature.drop 2 else signature))

/-- `CheckBadSignatureEvidence`, with the staking state that it leaves. -/
def Chain.checkBadSignatureEvidence (chain : Chain) (subject : EthereumSigned) (signature : Bytes) :
    Go Staking := do
  let checkpoint ← subject.getCheckpoint ext chain.gravityID
  require (chain.state.ledger.getPastEthSignatureCheckpoint checkpoint = false)
    ⟨.invalid, "Checkpoint exists, cannot slash"⟩
  let sigBytes ← decodeEvidenceSignature signature
  let ethAddress ← rewrap ⟨.invalid, "signature to eth address failed"⟩
    (ethAddressFromSignature ext checkpoint sigBytes)
  let validator ← fromOption ⟨.invalid, "Did not find validator for eth address"⟩
    (chain.delegates.getValidatorByEthAddress chain.staking ethAddress)
  if validator.jailed then pure chain.staking else pure (chain.staking.jail validator.operator)

/-- The chain holds the object and so asks validators to sign it. -/
def Chain.Stores (chain : Chain) : EthereumSigned → Prop
  | .batch batch => ∃ stored ∈ chain.state.ledger.outgoing.batches.values,
      stored.toExternal ext = batch
  | .valset valset => valset ∈ chain.state.ledger.valsets.requests.values
  | .logicCall call => call ∈ chain.logicCalls.values

/-- Whatever checkpoint the object has is in the archive. -/
def Chain.Archived (chain : Chain) (subject : EthereumSigned) : Prop :=
  ∀ checkpoint, subject.getCheckpoint ext chain.gravityID = .ok checkpoint →
    chain.state.ledger.getPastEthSignatureCheckpoint checkpoint = true

/-- The object is a validator set or a batch of the document. -/
def GenesisState.Holds (data : GenesisState) : EthereumSigned → Prop
  | .batch batch => ∃ given ∈ data.batches, ∃ stored, given.toInternal ext = .ok stored ∧
      stored.toExternal ext = batch
  | .valset valset => valset ∈ data.valsets
  | .logicCall _ => False

/-- A run in which the gravity id stays what it is. -/
def Chain.FixedRun (chain : Chain) (handled : List EthereumClaim) (next : Chain) : Prop :=
  Reach (Chain.step ext) (· = chain) (fun before _ _ after => after.gravityID = before.gravityID)
    handled next

end

variable {ext : External} {chain base start before after next : Chain} {data : GenesisState}
  {subject : EthereumSigned}
  {signature : Bytes} {handled trace more : List EthereumClaim} {call : OutgoingLogicCall}
  {label : ChainLabel}

/-- An archived object is no evidence. -/
theorem Chain.Archived.refuses (archived : chain.Archived ext subject) (signature : Bytes) :
    ∃ fault, chain.checkBadSignatureEvidence ext subject signature = .error fault := by
  cases checked : chain.checkBadSignatureEvidence ext subject signature with
  | error fault => exact ⟨fault, rfl⟩
  | ok staking =>
    simp only [Chain.checkBadSignatureEvidence, bind_eq_ok, require_eq_ok] at checked
    obtain ⟨checkpoint, hashed, _, absent, _⟩ := checked
    rw [archived checkpoint hashed] at absent
    contradiction

/-! ## A printed batch has the checkpoint of the stored one -/

theorem toInternal_toExternal_token {token result : ERC20Token}
    (read : (token.toExternal ext).toInternal = .ok result) : result = token := by
  simp only [ERC20Token.toExternal, ExternalERC20Token.toInternal, newEthAddress_hex, rewrap,
    ok_bind, bind_eq_ok, pure_eq_ok, Int.toNat_natCast] at read
  obtain ⟨_, _, rfl⟩ := read
  rfl

/-- Only the sender may be read back differently. -/
theorem toInternal_toExternal_transfer {tx result : OutgoingTransferTx}
    (read : (tx.toExternal ext).toInternal ext = .ok result) :
    result = { tx with sender := result.sender } := by
  simp only [OutgoingTransferTx.toExternal, ExternalTransferTx.toInternal, bind_eq_ok, rewrap_eq_ok,
    newEthAddress_hex, Except.ok.injEq, pure_eq_ok] at read
  obtain ⟨sender, _, _, rfl, token, tokenRead, fee, feeRead, rfl⟩ := read
  rw [toInternal_toExternal_token tokenRead, toInternal_toExternal_token feeRead]

/-- Reading back a list of transfers changes at most their senders. -/
theorem mapM_toInternal_toExternal {txs results : List OutgoingTransferTx} {cause : Err}
    (read : (txs.map (OutgoingTransferTx.toExternal ext)).mapM
      (fun tx => rewrap cause (tx.toInternal ext)) = .ok results) :
    ∀ {α : Type} (view : OutgoingTransferTx → α),
      (∀ tx sender, view { tx with sender := sender } = view tx) →
      results.map view = txs.map view := by
  intro α view blind
  induction txs generalizing results with
  | nil =>
    obtain rfl : [] = results := by simpa using read
    rfl
  | cons tx rest ih =>
    simp only [List.map_cons, List.mapM_cons, bind_eq_ok, rewrap_eq_ok, pure_eq_ok] at read
    obtain ⟨first, firstRead, others, othersRead, rfl⟩ := read
    rw [List.map_cons, List.map_cons, ih othersRead, toInternal_toExternal_transfer firstRead, blind]

theorem getCheckpoint_toExternal {batch : OutgoingTxBatch} {gravityID checkpoint : Bytes}
    (hashed : (EthereumSigned.batch (batch.toExternal ext)).getCheckpoint ext gravityID =
      .ok checkpoint) :
    batch.getCheckpoint ext gravityID = .ok checkpoint := by
  simp only [EthereumSigned.getCheckpoint, OutgoingTxBatch.toExternal, ExternalTxBatch.toInternal,
    bind_eq_ok, orPanic_eq_ok, rewrap_eq_ok, newEthAddress_hex, Except.ok.injEq, pure_eq_ok] at hashed
  obtain ⟨_, ⟨_, rfl, transactions, read, rfl⟩, hashed⟩ := hashed
  have same := @mapM_toInternal_toExternal ext batch.transactions transactions _ read
  rw [← hashed]
  simp only [OutgoingTxBatch.getCheckpoint, OutgoingTxBatch.checkpointArguments,
    same (fun tx => (tx.erc20Token.amount : Int)) (fun _ _ => rfl),
    same (fun tx => (tx.destAddress.val : Int)) (fun _ _ => rfl),
    same (fun tx => (tx.erc20Fee.amount : Int)) (fun _ _ => rfl)]

/-! ## Runs -/

/-- What a run leaves of the chain that it starts from. -/
structure Chain.Kept (ext : External) (chain next : Chain) : Prop where
  gravityID : next.gravityID = chain.gravityID
  archive : ∀ checkpoint, chain.state.ledger.getPastEthSignatureCheckpoint checkpoint = true →
    next.state.ledger.getPastEthSignatureCheckpoint checkpoint = true
  stores : ∀ subject, next.Stores ext subject → chain.Stores ext subject ∨ next.Archived ext subject

theorem Chain.Archived.kept (archived : chain.Archived ext subject)
    (kept : Chain.Kept ext chain next) :
    next.Archived ext subject := by
  intro checkpoint hashed
  rw [kept.gravityID] at hashed
  exact kept.archive checkpoint (archived checkpoint hashed)

theorem Chain.Kept.refl (ext : External) (chain : Chain) : Chain.Kept ext chain chain :=
  ⟨rfl, fun _ found => found, fun _ stored => .inl stored⟩

theorem Chain.Kept.trans (left : Chain.Kept ext chain before) (right : Chain.Kept ext before next) :
    Chain.Kept ext chain next where
  gravityID := right.gravityID.trans left.gravityID
  archive checkpoint found := right.archive checkpoint (left.archive checkpoint found)
  stores subject stored := by
    rcases right.stores subject stored with earlier | archived
    · exact (left.stores subject earlier).imp_right (·.kept right)
    · exact .inr archived

theorem mem_cleanupTimedOutLogicCalls {logicCalls : KVStore Bytes OutgoingLogicCall}
    {ethereumHeight : Nat}
    (stored : call ∈ (Chain.cleanupTimedOutLogicCalls logicCalls ethereumHeight).values) :
    call ∈ logicCalls.values := by
  have shrinks : ∀ (calls : List OutgoingLogicCall) (current : KVStore Bytes OutgoingLogicCall)
      key value, (calls.foldl (fun current call => if call.timeout.val < ethereumHeight then
        current.delete (getOutgoingLogicCallKey call.invalidationId call.invalidationNonce)
          else current)
        current).get key = some value → current.get key = some value := by
    intro calls
    induction calls with
    | nil => exact fun _ _ _ found => found
    | cons head rest ih =>
      intro current key value found
      have later := ih _ key value found
      beta_reduce at later
      split_ifs at later
      · rw [get_delete] at later
        split_ifs at later
        exact later
      · exact later
  obtain ⟨key, found⟩ := mem_values.mp stored
  exact mem_values.mpr ⟨key, shrinks _ _ key call found⟩

/-- No step stores a logic call. -/
theorem ChainStep.logicCalls (stepped : ChainStep ext chain label handled next)
    (stored : call ∈ next.logicCalls.values) : call ∈ chain.logicCalls.values := by
  cases stepped with
  | ended _ _ frame =>
    rw [frame] at stored
    exact mem_cleanupTimedOutLogicCalls stored
  | _ => exact stored

theorem ChainStep.kept (stepped : ChainStep ext chain label handled next)
    (fixed : next.gravityID = chain.gravityID) : Chain.Kept ext chain next := by
  have evolves := stepped.evolves
  refine ⟨fixed, evolves.archive, fun subject stored => ?_⟩
  cases subject with
  | batch batch =>
    obtain ⟨inside, member, rfl⟩ := stored
    obtain ⟨key, found⟩ := mem_values.mp member
    rcases evolves.batches (ofLex key).1 (ofLex key).2 inside found with
      earlier | ⟨bytes, hashed, archived⟩
    · exact .inl ⟨inside, mem_values.mpr ⟨_, earlier⟩, rfl⟩
    · refine .inr fun checkpoint printed => ?_
      have same := getCheckpoint_toExternal printed
      rw [fixed, hashed] at same
      obtain rfl := Except.ok.inj same
      exact archived
  | valset valset =>
    obtain ⟨nonce, found⟩ := mem_values.mp stored
    rcases evolves.valsets nonce valset found with earlier | ⟨bytes, hashed, archived⟩
    · exact .inl (mem_values.mpr ⟨nonce, earlier⟩)
    · refine .inr fun checkpoint printed => ?_
      have same : valset.getCheckpoint ext next.gravityID = .ok checkpoint := printed
      rw [fixed, hashed] at same
      obtain rfl := Except.ok.inj same
      exact archived
  | logicCall call => exact .inl (stepped.logicCalls stored)

theorem Chain.FixedRun.kept (run : chain.FixedRun ext handled next) : Chain.Kept ext chain next := by
  induction run with
  | start same => exact same ▸ .refl ext _
  | step _ took fixed ih => exact ih.trans ((Chain.step_cases took).kept fixed)

/-! ## The import -/

/-- What the first part of an import has stored: batches and validator sets come from the document,
and logic calls have been archived. -/
structure Imported (ext : External) (data : GenesisState) (chain : Chain) : Prop where
  batches : ∀ batch ∈ chain.state.ledger.outgoing.batches.values, ∃ given ∈ data.batches,
    given.toInternal ext = .ok batch
  valsets : ∀ valset ∈ chain.state.ledger.valsets.requests.values, valset ∈ data.valsets
  logicCalls : ∀ call ∈ chain.logicCalls.values,
  chain.state.ledger.Archived (call.getCheckpoint ext chain.gravityID)

theorem Imported.stores (imported : Imported ext data chain) (stored : chain.Stores ext subject) :
    data.Holds ext subject ∨ chain.Archived ext subject := by
  cases subject with
  | batch batch =>
    obtain ⟨inside, member, printed⟩ := stored
    obtain ⟨given, listed, read⟩ := imported.batches inside member
    exact .inl ⟨given, listed, inside, read, printed⟩
  | valset valset => exact .inl (imported.valsets valset stored)
  | logicCall call =>
    obtain ⟨bytes, hashed, archived⟩ := imported.logicCalls call stored
    refine .inr fun checkpoint printed => ?_
    have same : call.getCheckpoint ext chain.gravityID = .ok checkpoint := printed
    rw [hashed] at same
    obtain rfl := Except.ok.inj same
    exact archived

variable {ledger : Ledger}

theorem importValsets_eq_ok {result : Ledger} {valsets : List Valset}
    (ran : valsets.foldlM Ledger.storeValset ledger = .ok result) :
    result = { ledger with valsets := result.valsets } ∧
      ∀ valset ∈ result.valsets.requests.values, valset ∈ valsets ∨
        valset ∈ ledger.valsets.requests.values := by
  refine foldlM_invariant
    (fun current : Ledger => current = { ledger with valsets := current.valsets } ∧
      ∀ valset ∈ current.valsets.requests.values, valset ∈ valsets ∨
        valset ∈ ledger.valsets.requests.values)
    ?_ ⟨rfl, fun _ stored => .inr stored⟩ ran
  rintro current valset stored listed ⟨frame, inside⟩ pass
  simp only [Ledger.storeValset, bind_eq_ok, pure_eq_ok] at pass
  obtain ⟨_, _, rfl⟩ := pass
  refine ⟨by rw [frame], fun other member => ?_⟩
  rcases mem_values_set member with rfl | earlier
  · exact .inl listed
  · exact inside other earlier

variable {result outgoing : Outgoing}

theorem importBatches_eq_ok {batches : List ExternalTxBatch}
    (ran : batches.foldlM (Outgoing.importBatch ext) outgoing = .ok result) :
    ∀ batch ∈ result.batches.values, (∃ given ∈ batches, given.toInternal ext = .ok batch) ∨
      batch ∈ outgoing.batches.values := by
  refine foldlM_invariant (fun current : Outgoing => ∀ batch ∈ current.batches.values,
    (∃ given ∈ batches, given.toInternal ext = .ok batch) ∨ batch ∈ outgoing.batches.values) ?_
    (fun _ stored => .inr stored) ran
  intro current given stored listed inside pass
  simp only [Outgoing.importBatch, Outgoing.storeBatch, bind_eq_ok, orPanic_eq_ok, pure_eq_ok] at pass
  obtain ⟨internal, read, _, _, rfl⟩ := pass
  intro batch member
  rcases mem_values_set member with rfl | earlier
  · exact .inl ⟨given, listed, read⟩
  · exact inside batch earlier

theorem importConfirms_batches {confirms : List MsgConfirmBatch}
    (ran : confirms.foldlM (Outgoing.setBatchConfirm ext) outgoing = .ok result) :
    result.batches = outgoing.batches := by
  refine foldlM_invariant (fun current : Outgoing => current.batches = outgoing.batches) ?_ rfl ran
  intro current confirm stored _ same pass
  simp only [Outgoing.setBatchConfirm, bind_eq_ok, pure_eq_ok] at pass
  obtain ⟨_, _, _, _, rfl⟩ := pass
  exact same

theorem importTransfers_batches {txs : List ExternalTransferTx}
    (ran : txs.foldlM (Outgoing.importTransfer ext) outgoing = .ok result) :
    result.batches = outgoing.batches := by
  refine foldlM_invariant (fun current : Outgoing => current.batches = outgoing.batches) ?_ rfl ran
  intro current tx stored _ same pass
  simp only [Outgoing.importTransfer, Outgoing.addUnbatchedTX, bind_eq_ok, orPanic_eq_ok,
    pure_eq_ok] at pass
  obtain ⟨_, _, _, _, rfl⟩ := pass
  exact same

/-- Every logic call is archived, and nothing else changes. -/
theorem importLogicCalls_eq_ok {result : Chain} {calls : List OutgoingLogicCall}
    (none : chain.logicCalls = .empty)
    (ran : calls.foldlM (Chain.setOutgoingLogicCall ext) chain = .ok result) :
    result.state.params = chain.state.params ∧ result.state.ledger.outgoing =
      chain.state.ledger.outgoing ∧ result.state.ledger.valsets = chain.state.ledger.valsets ∧
      ∀ call ∈ result.logicCalls.values,
        result.state.ledger.Archived (call.getCheckpoint ext chain.gravityID) := by
  refine foldlM_invariant (fun current : Chain => current.state.params = chain.state.params ∧
    current.state.ledger.outgoing = chain.state.ledger.outgoing ∧
    current.state.ledger.valsets = chain.state.ledger.valsets ∧
    ∀ call ∈ current.logicCalls.values,
    current.state.ledger.Archived (call.getCheckpoint ext chain.gravityID))
    ?_ ⟨rfl, rfl, rfl, by simp [none]⟩ ran
  rintro current call stored _ ⟨params, outgoing, valsets, archived⟩ pass
  simp only [Chain.setOutgoingLogicCall, bind_eq_ok, pure_eq_ok] at pass
  obtain ⟨checkpoint, hashed, _, _, rfl⟩ := pass
  obtain ⟨inArchive, archive⟩ := getPastEthSignatureCheckpoint_set current.state.ledger checkpoint
  refine ⟨params, outgoing, valsets, fun other member => ?_⟩
  have sameId : current.gravityID = chain.gravityID := congrArg Params.gravityId params
  rcases mem_values_set member with rfl | earlier
  · exact ⟨checkpoint, by rw [← sameId]; exact hashed, inArchive⟩
  · exact (archived other earlier).mono archive

theorem importBridgeable_relisted {next : Ledger} {tokens : List Metadata}
    (ran : tokens.foldlM Ledger.importBridgeable ledger = .ok next) : Relisted ledger next := by
  refine foldlM_invariant (Relisted ledger) ?_ (.refl ledger) ran
  intro current metadata result _ relisted pass
  simp only [Ledger.importBridgeable, bind_eq_ok, pure_eq_ok] at pass
  obtain ⟨_, _, rfl⟩ := pass
  exact relisted.trans ⟨rfl, rfl, rfl, rfl, rfl, rfl⟩

theorem importForwards_frame {result : Ledger} {context : Context}
    {forwards : List PendingIbcAutoForward}
    {message : String} (ran : forwards.foldlM (fun current forward =>
      orPanic message (current.addPendingIbcAutoForward ext context forward)) ledger = .ok result) :
    result = { ledger with pendingIbcAutoForwards := result.pendingIbcAutoForwards } := by
  refine foldlM_invariant (fun current : Ledger =>
    current = { ledger with pendingIbcAutoForwards := current.pendingIbcAutoForwards }) ?_ rfl ran
  intro current forward stored _ frame pass
  simp only [Ledger.addPendingIbcAutoForward, orPanic_eq_ok, bind_eq_ok, pure_eq_ok] at pass
  obtain ⟨_, _, _, _, rfl⟩ := pass
  rw [frame]

theorem initBridgeDataFromGenesis_imported {result : Chain} (blank : chain.logicCalls = .empty)
    (noBatches : chain.state.ledger.outgoing.batches = .empty)
    (noValsets : chain.state.ledger.valsets.requests = .empty)
    (ran : chain.initBridgeDataFromGenesis ext data = .ok result) : Imported ext data result := by
  simp only [Chain.initBridgeDataFromGenesis, Ledger.setLatestValsetNonce, bind_eq_ok,
    pure_eq_ok] at ran
  obtain ⟨stored, storing, latest, ⟨_, _, rfl⟩, valsetConfirms, _, batched, batching, outgoing,
    confirming, called, calling, _, _, rfl⟩ := ran
  obtain ⟨frame, valsets⟩ := importValsets_eq_ok storing
  obtain ⟨params, sameOutgoing, sameValsets, archived⟩ :=
    importLogicCalls_eq_ok (by exact blank) calling
  have sameId : called.gravityID = chain.gravityID := congrArg Params.gravityId params
  refine ⟨fun batch member => ?_, fun valset member => ?_, fun call member => ?_⟩
  · change batch ∈ called.state.ledger.outgoing.batches.values at member
    rw [sameOutgoing] at member
    change batch ∈ outgoing.batches.values at member
    rw [importConfirms_batches confirming] at member
    rcases importBatches_eq_ok batching batch member with given | earlier
    · exact given
    · change batch ∈ stored.outgoing.batches.values at earlier
      rw [frame] at earlier
      change batch ∈ chain.state.ledger.outgoing.batches.values at earlier
      simp [noBatches] at earlier
  · change valset ∈ called.state.ledger.valsets.requests.values at member
    rw [sameValsets] at member
    rcases valsets valset member with given | earlier
    · exact given
    · simp [noValsets] at earlier
  · have inArchive := archived call member
    change called.state.ledger.Archived (call.getCheckpoint ext called.gravityID)
    rw [sameId]
    exact inArchive

theorem initGenesis_imported (accepted : base.initGenesis ext data = .ok start) :
    Imported ext data start := by
  simp only [Chain.initGenesis, Chain.importNonces, Ledger.setLatestValsetNonce, bind_eq_ok,
    pure_eq_ok] at accepted
  obtain ⟨_, _, _, ⟨_, ⟨_, _, rfl⟩, oracle, _, rfl⟩, bridged, bridging, outgoing, pooling, _, _, _,
    _, _, _, delegates, _, _, _, registry, _, listed, listing, _, _, _, _, ledger, forwarding,
    rfl⟩ := accepted
  have imported :=
    initBridgeDataFromGenesis_imported (by exact rfl) (by exact rfl) (by exact rfl) bridging
  have listedFrame := (importBridgeable_relisted listing).frame
  have frame := importForwards_frame forwarding
  have sameOutgoing : ledger.outgoing = outgoing := by rw [frame, listedFrame]
  have sameValsets : ledger.valsets = bridged.state.ledger.valsets := by rw [frame, listedFrame]
  have sameArchive : ledger.pastEthSignatureCheckpoints =
      bridged.state.ledger.pastEthSignatureCheckpoints := by
    rw [frame, listedFrame]
  refine ⟨fun batch member => ?_, fun valset member => ?_, fun call member => ?_⟩
  · change batch ∈ ledger.outgoing.batches.values at member
    rw [sameOutgoing, importTransfers_batches pooling] at member
    exact imported.batches batch member
  · change valset ∈ ledger.valsets.requests.values at member
    rw [sameValsets] at member
    exact imported.valsets valset member
  · refine (imported.logicCalls call member).mono fun bytes found => ?_
    change (ledger.pastEthSignatureCheckpoints.get _ == _) = true
    rw [sameArchive]
    exact found

/-! ## Who can be slashed for a requested signature -/

/-- What a run from a genesis stores is in the archive, except for the validator sets and batches of
the document. -/
theorem archived_of_stored (accepted : base.initGenesis ext data = .ok start)
    (run : start.FixedRun ext trace before)
    (stored : before.Stores ext subject) (fresh : ¬ data.Holds ext subject) :
    before.Archived ext subject := by
  rcases run.kept.stores subject stored with atStart | archived
  · exact (((initGenesis_imported accepted).stores atStart).resolve_left fresh).kept run.kept
  · exact archived

/-- From an accepted genesis, with the gravity id fixed, something is stored at one point that is
not a validator set or a batch of the document. Then no signature over it is accepted as evidence,
there or later. -/
theorem requested_evidence_refused (accepted : base.initGenesis ext data = .ok start)
    (run : start.FixedRun ext trace before) (stored : before.Stores ext subject)
    (fresh : ¬ data.Holds ext subject)
    (later : before.FixedRun ext more after) (signature : Bytes) :
    ∃ fault, after.checkBadSignatureEvidence ext subject signature = .error fault :=
  ((archived_of_stored accepted run stored fresh).kept later.kept).refuses signature

/-! ## A validator set of the genesis -/

def requestedValset : Valset :=
  ⟨1, [⟨4294967296, hex localnet 7⟩], 1, some 0, hex localnet zeroAddress⟩

/-- A document with one validator set to sign. -/
def requestedDocument : GenesisState where
  params := stakeGenesis.params
  gravityNonces := ⟨1, 0, 0, 0, 0, 0, 0⟩
  valsets := [requestedValset]
  valsetConfirms := []
  batches := []
  batchConfirms := []
  logicCalls := []
  logicCallConfirms := []
  attestations := []
  delegateKeys := []
  erc20ToDenoms := []
  unbatchedTransfers := []
  pendingIbcAutoForwards := []
  remappedErc20S := []
  cosmosBridgeableTokens := []

theorem requestedDocument_accepted :
    (stakeLaunch.initGenesis localnet requestedDocument).toOption.isSome = true := by decide +kernel

def requestedStart : Chain :=
  (stakeLaunch.initGenesis localnet requestedDocument).toOption.get requestedDocument_accepted

/-- The validator registers its keys on the new chain. -/
def registration : ChainLabel :=
  .setOrchestratorAddress ⟨ascii "gravity1validator", ascii "gravity1orchestrator", hex localnet 7⟩

theorem Chain.fixedRun_of_execute {labels : List ChainLabel}
    (ran : (chain.executeFixed ext labels).isSome = true) :
    chain.FixedRun ext ((chain.executeFixed ext labels).get ran).1
      ((chain.executeFixed ext labels).get ran).2 :=
  reach_of_isSome (fun _ _ _ _ fixed => beq_iff_eq.mp fixed) (by exact rfl) ran

theorem registration_ran : (requestedStart.executeFixed localnet [registration]).isSome = true := by
  decide +kernel

def requestedChain : Chain :=
  ((requestedStart.executeFixed localnet [registration]).get registration_ran).2

/-- Someone starts to unbond, and the end of the block requests another validator set. -/
def renewal : List ChainLabel :=
  [registration, .module (.endBlock (soleValidator (ascii "validator") 10) ⟨[], 1⟩)]

theorem renewal_ran : (requestedStart.executeFixed localnet renewal).isSome = true := by
  decide +kernel

def renewedChain : Chain := ((requestedStart.executeFixed localnet renewal).get renewal_ran).2

def renewedValset : Valset := { requestedValset with nonce := 2 }

theorem requestedStart_eq : stakeLaunch.initGenesis localnet requestedDocument = .ok requestedStart :=
  eq_ok_of_isSome requestedDocument_accepted

theorem requestedValset_stored :
    requestedValset ∈ requestedChain.state.ledger.valsets.requests.values := by
  decide +kernel

theorem requestedValset_evidence :
    (requestedChain.checkBadSignatureEvidence localnet (.valset requestedValset)
      (hexEncode (exampleSignature 27))).toOption.map (fun staking =>
        (staking.validators.get (ascii "validator")).map Validator.jailed) = some (some true) := by
  decide +kernel

/-- The chain asks for signatures of the validator set, and a signature of it has its signer
jailed. -/
theorem genesis_valset_slashed :
    ∃ start trace chain staking, stakeLaunch.initGenesis localnet requestedDocument = .ok start ∧
      start.FixedRun localnet trace chain ∧ chain.Stores localnet (.valset requestedValset) ∧
      chain.checkBadSignatureEvidence localnet (.valset requestedValset)
        (hexEncode (exampleSignature 27)) = .ok staking ∧
      (staking.validators.get (ascii "validator")).map Validator.jailed = some true := by
  have evidence := requestedValset_evidence
  cases checked : requestedChain.checkBadSignatureEvidence localnet (.valset requestedValset)
      (hexEncode (exampleSignature 27)) with
  | error fault =>
      rw [checked] at evidence
      contradiction
  | ok staking =>
      rw [checked] at evidence
      exact ⟨requestedStart, _, requestedChain, staking, requestedStart_eq,
        Chain.fixedRun_of_execute registration_ran, requestedValset_stored, checked,
        Option.some.inj evidence⟩

/-- The set that the run itself has requested is safe to sign. -/
theorem renewed_valset_refused : renewedChain.Stores localnet (.valset renewedValset) ∧
    ∃ fault, renewedChain.checkBadSignatureEvidence localnet (.valset renewedValset)
      (hexEncode (exampleSignature 27)) = .error fault := by
  have stored : renewedValset ∈ renewedChain.state.ledger.valsets.requests.values := by decide +kernel
  have stores : renewedChain.Stores localnet (.valset renewedValset) := stored
  have absent : renewedValset ∉ requestedDocument.valsets := by decide +kernel
  have fresh : ¬ requestedDocument.Holds localnet (.valset renewedValset) := absent
  exact ⟨stores, requested_evidence_refused requestedStart_eq
    (Chain.fixedRun_of_execute renewal_ran) stores fresh (.start rfl) _⟩

end GravityBridge.Keeper
