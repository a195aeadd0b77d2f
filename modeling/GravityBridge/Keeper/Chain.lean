import GravityBridge.Keeper.Evolution
import GravityBridge.Keeper.Slashing

/-!
# The chain around the module

The machine of the module takes from outside what delegate keys and staking know:
who votes for whom, and whether a signature is a validator's own. Here they are
part of the state, with the confirms, the logic calls and the slashing that
depend on them. Every run of the chain is a run of the module.
-/

namespace GravityBridge.Keeper

open Lib.Fallible Lib.ByteString Lib.Store Lib.Runs
open Lib.Digits GravityBridge.Types

/-! ## State -/

structure MsgValsetConfirm where
  nonce : U64
  orchestrator : Bytes
  ethAddress : Bytes
  signature : Bytes
  deriving DecidableEq, Repr

structure MsgConfirmLogicCall where
  invalidationId : Bytes
  invalidationNonce : U64
  ethSigner : Bytes
  orchestrator : Bytes
  signature : Bytes
  deriving DecidableEq, Repr

abbrev ValsetConfirmKey := Nat ×ₗ AccAddress

def getValsetConfirmKey (nonce : U64) (validator : AccAddress) : ValsetConfirmKey :=
  toLex (nonce.val, validator)

/-- `UInt64Bytes`. -/
def uint64Bytes (number : U64) : Bytes := (bigEndian 256 8 number.val).map UInt8.ofNat

/-- The identifier has no fixed length, so the key is only the bytes one after the other. -/
def getOutgoingLogicCallKey (invalidationId : Bytes) (invalidationNonce : U64) : Bytes :=
  invalidationId ++ uint64Bytes invalidationNonce

def getLogicConfirmKey (invalidationId : Bytes) (invalidationNonce : U64)
    (validator : AccAddress) : Bytes :=
  getOutgoingLogicCallKey invalidationId invalidationNonce ++ validator

structure Chain where
  state : State
  delegates : Delegates
  staking : Staking
  valsetConfirms : KVStore ValsetConfirmKey MsgValsetConfirm
  logicCalls : KVStore Bytes OutgoingLogicCall
  logicCallConfirms : KVStore Bytes MsgConfirmLogicCall
  lastSlashedValsetNonce : Nat
  lastSlashedBatchBlock : Nat
  lastSlashedLogicCallBlock : Nat

namespace Chain

variable (ext : External)

def gravityID (chain : Chain) : Bytes := chain.state.params.gravityId

/-! ## Confirms -/

/-- The part of `ConfirmBatch` that verifies the signature. -/
def verifyConfirm (chain : Chain) (msg : MsgConfirmBatch) : Go Unit := do
  let contract ← newEthAddress msg.tokenContract
  let batch ← fromOption ⟨.invalid, "couldn't find batch"⟩
    (chain.state.ledger.outgoing.getOutgoingTXBatch contract msg.nonce.val)
  let checkpoint ← batch.getCheckpoint ext chain.gravityID
  let orchestrator ← rewrap ⟨.invalid, "acc address invalid"⟩
    (accAddressFromBech32 ext msg.orchestrator)
  chain.delegates.confirmHandlerCommon ext chain.staking msg.ethSigner orchestrator msg.signature
    checkpoint

def confirmBatch (chain : Chain) (msg : MsgConfirmBatch) : Go Ledger :=
  chain.state.ledger.confirmBatch ext msg (succeeds (chain.verifyConfirm ext msg))

def setValsetConfirm (valsetConfirms : KVStore ValsetConfirmKey MsgValsetConfirm)
    (msg : MsgValsetConfirm) : Go (KVStore ValsetConfirmKey MsgValsetConfirm) := do
  let orchestrator ← orPanic "invalid orchestrator" (accAddressFromBech32 ext msg.orchestrator)
  pure (valsetConfirms.set (getValsetConfirmKey msg.nonce orchestrator) msg)

def valsetConfirm (chain : Chain) (msg : MsgValsetConfirm) : Go Chain := do
  let valset ← fromOption ⟨.invalid, "couldn't find valset"⟩
    (chain.state.ledger.valsets.requests.get msg.nonce.val)
  let checkpoint ← valset.getCheckpoint ext chain.gravityID
  let orchestrator ← rewrap ⟨.invalid, "acc address invalid"⟩
    (accAddressFromBech32 ext msg.orchestrator)
  chain.delegates.confirmHandlerCommon ext chain.staking msg.ethAddress orchestrator msg.signature
    checkpoint
  require (chain.valsetConfirms.get (getValsetConfirmKey msg.nonce orchestrator) = none)
    ⟨.duplicate, "signature duplicate"⟩
  let valsetConfirms ← setValsetConfirm ext chain.valsetConfirms msg
  pure { chain with valsetConfirms := valsetConfirms }

/-- What is left of the prepared call when there are no bytes to read into it. -/
def blankLogicCall (invalidationId : Bytes) (invalidationNonce : U64) : OutgoingLogicCall :=
  if ext.unmarshalResets then ⟨[], [], [], [], 0, [], 0, 0⟩
  else ⟨[], [], [], [], 0, invalidationId, invalidationNonce, 0⟩

/-- `GetOutgoingLogicCall` finds an empty call where there is none. -/
def getOutgoingLogicCall (chain : Chain) (invalidationId : Bytes) (invalidationNonce : U64) :
    OutgoingLogicCall :=
  (chain.logicCalls.get (getOutgoingLogicCallKey invalidationId invalidationNonce)).getD
    (blankLogicCall ext invalidationId invalidationNonce)

def setLogicCallConfirm (logicCallConfirms : KVStore Bytes MsgConfirmLogicCall)
    (msg : MsgConfirmLogicCall) : Go (KVStore Bytes MsgConfirmLogicCall) := do
  let invalidationId ← unwrap "encoding/hex: invalid byte" (hexDecode msg.invalidationId)
  let orchestrator ← orPanic "invalid orchestrator" (accAddressFromBech32 ext msg.orchestrator)
  pure (logicCallConfirms.set (getLogicConfirmKey invalidationId msg.invalidationNonce orchestrator)
    msg)

def confirmLogicCall (chain : Chain) (msg : MsgConfirmLogicCall) : Go Chain := do
  chain.state.params.requireBridgeActive
  let invalidationId ← fromOption ⟨.invalid, "invalidation id encoding"⟩
    (hexDecode msg.invalidationId)
  let checkpoint ← (chain.getOutgoingLogicCall ext invalidationId
    msg.invalidationNonce).getCheckpoint ext chain.gravityID
  let orchestrator ← rewrap ⟨.invalid, "acc address invalid"⟩
    (accAddressFromBech32 ext msg.orchestrator)
  chain.delegates.confirmHandlerCommon ext chain.staking msg.ethSigner orchestrator msg.signature
    checkpoint
  require (chain.logicCallConfirms.get
    (getLogicConfirmKey invalidationId msg.invalidationNonce orchestrator) = none)
    ⟨.duplicate, "duplicate signature"⟩
  let logicCallConfirms ← setLogicCallConfirm ext chain.logicCallConfirms msg
  pure { chain with logicCallConfirms := logicCallConfirms }

/-! ## The end of a block -/

/-- Nothing has been slashed yet in this block. -/
def docket (chain : Chain) : Docket := ⟨chain.staking, []⟩

def slashingBlock (chain : Chain) : SlashingBlock :=
  ⟨chain.state.ledger.outgoing, chain.delegates, chain.docket, chain.state.blockHeight,
    chain.state.params.signedBatchesWindow⟩

def batchSlashing (chain : Chain) : Go SlashingPass :=
  chain.slashingBlock.batchSlashing ext chain.lastSlashedBatchBlock

/-- `cleanupTimedOutLogicCalls`. -/
def cleanupTimedOutLogicCalls (logicCalls : KVStore Bytes OutgoingLogicCall) (ethereumHeight : Nat) :
    KVStore Bytes OutgoingLogicCall :=
  logicCalls.values.foldl (fun current call =>
    if call.timeout.val < ethereumHeight then
      current.delete (getOutgoingLogicCallKey call.invalidationId call.invalidationNonce)
    else current) logicCalls

/-- `DeleteValsetConfirms`: every confirm is deleted under the key made from its own orchestrator. -/
def deleteValsetConfirms (valsetConfirms : KVStore ValsetConfirmKey MsgValsetConfirm) (nonce : Nat) :
    KVStore ValsetConfirmKey MsgValsetConfirm :=
  (valsetConfirms.filter (fun key _ => (ofLex key).1 == nonce)).values.foldl (fun current confirm =>
    match accAddressFromBech32 ext confirm.orchestrator with
    | .ok orchestrator => current.delete (toLex (nonce, orchestrator))
    | .error _ => current) valsetConfirms

/-- The nonces of the validator sets that the end of a block pruned. -/
def prunedValsets (before after : Ledger) : List Nat :=
  (before.valsets.requests.entries.map Prod.fst).filter
    (fun nonce => (after.valsets.requests.get nonce).isNone)

/-- What a new validator set is made from: the bonded validators with the keys that they
registered. -/
def valsetEnv (chain : Chain) (staking : Staking) (powers : PowerTable)
    (env : ValsetEnv) : ValsetEnv :=
  { env with bonded := staking.getBondedValidatorsByPower.map (fun validator =>
    ⟨powers.power validator.operator, chain.delegates.ethAddressByValidator.get validator.operator⟩) }

/-- Slashing comes first and sees the state before the tally. -/
def endBlock (chain : Chain) (powers : PowerTable) (env : ValsetEnv) :
    List EthereumClaim × Go Chain :=
  match chain.batchSlashing ext with
  | .error fault => ([], .error fault)
  | .ok pass =>
      let ended := step ext (.endBlock powers (chain.valsetEnv pass.staking powers env)) chain.state
      (ended.1, do
        let state ← ended.2
        pure { chain with
          state := state
          staking := pass.staking
          lastSlashedBatchBlock := pass.lastSlashedBatchBlock
          logicCalls := cleanupTimedOutLogicCalls chain.logicCalls
            state.oracle.lastObservedEthereumBlockHeight.ethereumBlockHeight
          valsetConfirms :=
            (prunedValsets chain.state.ledger state.ledger).foldl (deleteValsetConfirms ext)
            chain.valsetConfirms })

/-! ## Steps -/

/-- The validator that the orchestrator of a claim votes for. -/
def voter (chain : Chain) (claim : EthereumClaim) : Voter :=
  match accAddressFromBech32 ext claim.orchestrator with
  | .error _ => ⟨none, false⟩
  | .ok orchestrator =>
      match chain.delegates.getOrchestratorValidator chain.staking orchestrator with
      | none => ⟨none, false⟩
      | some validator => ⟨some validator.operator, validator.status == .bonded⟩

/-- A step of the module with what the chain knows about its sender. -/
def resolve (chain : Chain) : Label → Label
  | .attest _ claim => .submitClaim (chain.voter ext claim) claim
  | .submitClaim _ claim => .submitClaim (chain.voter ext claim) claim
  | .ledger (.confirmBatch msg _) =>
    .ledger (.confirmBatch msg (succeeds (chain.verifyConfirm ext msg)))
  | label => label

end Chain

inductive ChainLabel where
  | module (label : Label)
  | setOrchestratorAddress (msg : MsgSetOrchestratorAddress)
  | valsetConfirm (msg : MsgValsetConfirm)
  | confirmLogicCall (msg : MsgConfirmLogicCall)
  /-- Anything that staking, and slashing for validator sets, logic calls and evidence, may do. -/
  | environment (staking : Staking) (lastSlashedValsetNonce lastSlashedLogicCallBlock : Nat)

def Chain.step (ext : External) : ChainLabel → Chain → List EthereumClaim × Go Chain
  | .module (.endBlock powers env), chain => chain.endBlock ext powers env
  | .module label, chain =>
      ((Keeper.step ext (chain.resolve ext label) chain.state).1, do
        let state ← (Keeper.step ext (chain.resolve ext label) chain.state).2
        pure { chain with state := state })
  | .setOrchestratorAddress msg, chain =>
      ([], .ok { chain with
        delegates := transaction chain.delegates
          (chain.delegates.setOrchestratorAddress ext chain.staking msg) })
  | .valsetConfirm msg, chain => ([], .ok (transaction chain (chain.valsetConfirm ext msg)))
  | .confirmLogicCall msg, chain => ([], .ok (transaction chain (chain.confirmLogicCall ext msg)))
  | .environment staking lastSlashedValsetNonce lastSlashedLogicCallBlock, chain =>
      ([], .ok { chain with
        staking := staking
        lastSlashedValsetNonce := lastSlashedValsetNonce
        lastSlashedLogicCallBlock := lastSlashedLogicCallBlock })

/-- The chains that any steps lead to from a start, with the claims handled on the way. -/
def Chain.Reachable (ext : External) (start : Chain → Prop) (handled : List EthereumClaim)
    (chain : Chain) : Prop :=
  Reach (Chain.step ext) start (fun _ _ _ _ => True) handled chain

variable {ext : External} {chain next : Chain} {label : ChainLabel} {handled : List EthereumClaim}
  {start : Chain → Prop} {labels : List ChainLabel}

/-! ## What a step does -/

/-- Every effect of a step. A rejected message changes nothing. -/
inductive ChainStep (ext : External) (chain : Chain) : ChainLabel → List EthereumClaim → Chain → Prop
  | rejected {label : ChainLabel} : ChainStep ext chain label [] chain
  | delivered {label : Label} {handled : List EthereumClaim} {state : State} :
      (∀ powers env, chain.resolve ext label ≠ .endBlock powers env) →
      Keeper.step ext (chain.resolve ext label) chain.state = (handled, .ok state) →
      ChainStep ext chain (.module label) handled { chain with state := state }
  | ended {powers : PowerTable} {env : ValsetEnv} {handled : List EthereumClaim}
      {pass : SlashingPass} {next : Chain} : chain.batchSlashing ext = .ok pass →
      Keeper.step ext (.endBlock powers (chain.valsetEnv pass.staking powers env)) chain.state =
        (handled, .ok next.state) →
      next = { chain with
        state := next.state
        staking := pass.staking
        lastSlashedBatchBlock := pass.lastSlashedBatchBlock
        logicCalls := Chain.cleanupTimedOutLogicCalls chain.logicCalls
          next.state.oracle.lastObservedEthereumBlockHeight.ethereumBlockHeight
        valsetConfirms := (Chain.prunedValsets chain.state.ledger next.state.ledger).foldl
          (Chain.deleteValsetConfirms ext) chain.valsetConfirms } →
      ChainStep ext chain (.module (.endBlock powers env)) handled next
  | registered {msg : MsgSetOrchestratorAddress} {delegates : Delegates} :
      chain.delegates.setOrchestratorAddress ext chain.staking msg = .ok delegates →
      ChainStep ext chain (.setOrchestratorAddress msg) [] { chain with delegates := delegates }
  | valsetConfirmed {msg : MsgValsetConfirm}
      {valsetConfirms : KVStore ValsetConfirmKey MsgValsetConfirm} :
      chain.valsetConfirm ext msg = .ok { chain with valsetConfirms := valsetConfirms } →
      ChainStep ext chain (.valsetConfirm msg) [] { chain with valsetConfirms := valsetConfirms }
  | callConfirmed {msg : MsgConfirmLogicCall}
      {logicCallConfirms : KVStore Bytes MsgConfirmLogicCall} :
      chain.confirmLogicCall ext msg = .ok { chain with logicCallConfirms := logicCallConfirms } →
      ChainStep ext chain (.confirmLogicCall msg) [] { chain with
        logicCallConfirms := logicCallConfirms }
  | environment {staking : Staking} {lastSlashedValsetNonce lastSlashedLogicCallBlock : Nat} :
      ChainStep ext chain (.environment staking lastSlashedValsetNonce lastSlashedLogicCallBlock) []
        { chain with
          staking := staking
          lastSlashedValsetNonce := lastSlashedValsetNonce
          lastSlashedLogicCallBlock := lastSlashedLogicCallBlock }

theorem Chain.valsetConfirm_frame {msg : MsgValsetConfirm}
    (confirmed : chain.valsetConfirm ext msg = .ok next) :
    next = { chain with valsetConfirms := next.valsetConfirms } := by
  simp only [Chain.valsetConfirm, bind_eq_ok, pure_eq_ok] at confirmed
  obtain ⟨_, _, _, _, _, _, _, _, _, _, _, _, rfl⟩ := confirmed
  rfl

theorem Chain.confirmLogicCall_frame {msg : MsgConfirmLogicCall}
    (confirmed : chain.confirmLogicCall ext msg = .ok next) :
    next = { chain with logicCallConfirms := next.logicCallConfirms } := by
  simp only [Chain.confirmLogicCall, bind_eq_ok, pure_eq_ok] at confirmed
  obtain ⟨_, _, _, _, _, _, _, _, _, _, _, _, _, _, rfl⟩ := confirmed
  rfl

theorem Chain.step_cases (took : Chain.step ext label chain = (handled, .ok next)) :
    ChainStep ext chain label handled next := by
  have resolved : ∀ inner, (∀ powers env, chain.resolve ext inner ≠ .endBlock powers env) →
      ((Keeper.step ext (chain.resolve ext inner) chain.state).1,
        (Keeper.step ext (chain.resolve ext inner) chain.state).2 >>= fun state =>
          (pure { chain with state := state } : Go Chain)) = (handled, .ok next) →
      ChainStep ext chain (.module inner) handled next := by
    intro inner within same
    simp only [Prod.mk.injEq, bind_eq_ok, pure_eq_ok] at same
    obtain ⟨rfl, state, stepped, rfl⟩ := same
    exact .delivered within (Prod.ext rfl stepped)
  cases label with
  | module label =>
    cases label with
    | endBlock powers env =>
      simp only [Chain.step, Chain.endBlock] at took
      split at took
      · simp at took
      · rename_i pass slashed
        simp only [Prod.mk.injEq, bind_eq_ok, pure_eq_ok] at took
        obtain ⟨rfl, state, stepped, rfl⟩ := took
        exact .ended slashed (Prod.ext rfl stepped) rfl
    | attest validator claim => exact resolved _ (by simp [Chain.resolve]) took
    | submitClaim voter claim => exact resolved _ (by simp [Chain.resolve]) took
    | ledger msg => exact resolved _ (by cases msg <;> simp [Chain.resolve]) took
    | unhaltBridge targetNonce => exact resolved _ (by simp [Chain.resolve]) took
    | updateParams params => exact resolved _ (by simp [Chain.resolve]) took
    | setHrpIbcRecord hrp channel => exact resolved _ (by simp [Chain.resolve]) took
  | setOrchestratorAddress msg =>
    obtain ⟨rfl, rfl⟩ : [] = handled ∧ _ = next := by simpa [Chain.step] using took
    rcases transaction_cases chain.delegates
      (chain.delegates.setOrchestratorAddress ext chain.staking msg) with
      registered | same
    · exact .registered registered
    · rw [same]
      exact .rejected
  | valsetConfirm msg =>
    obtain ⟨rfl, rfl⟩ : [] = handled ∧ _ = next := by simpa [Chain.step] using took
    rcases transaction_cases chain (chain.valsetConfirm ext msg) with confirmed | same
    · have frame := Chain.valsetConfirm_frame confirmed
      rw [frame]
      exact .valsetConfirmed (confirmed.trans (congrArg Except.ok frame))
    · rw [same]
      exact .rejected
  | confirmLogicCall msg =>
    obtain ⟨rfl, rfl⟩ : [] = handled ∧ _ = next := by simpa [Chain.step] using took
    rcases transaction_cases chain (chain.confirmLogicCall ext msg) with confirmed | same
    · have frame := Chain.confirmLogicCall_frame confirmed
      rw [frame]
      exact .callConfirmed (confirmed.trans (congrArg Except.ok frame))
    · rw [same]
      exact .rejected
  | environment staking lastSlashedValsetNonce lastSlashedLogicCallBlock =>
    obtain ⟨rfl, rfl⟩ : [] = handled ∧ _ = next := by simpa [Chain.step] using took
    exact .environment

/-- Beside the module nothing touches its state. -/
theorem ChainStep.module (stepped : ChainStep ext chain label handled next) :
    (∃ label, Keeper.step ext label chain.state = (handled, .ok next.state)) ∨
      (handled = [] ∧ next.state = chain.state) := by
  cases stepped with
  | delivered _ took => exact .inl ⟨_, took⟩
  | ended _ took _ => exact .inl ⟨_, took⟩
  | _ => exact .inr ⟨rfl, rfl⟩

/-- A run of the chain is a run of the module. -/
theorem Chain.Reachable.module {first : State → Prop}
    (starts : ∀ chain, start chain → first chain.state)
    (reach : Chain.Reachable ext start handled chain) :
    Keeper.Reachable ext first handled chain.state := by
  induction reach with
  | start started => exact .start (starts _ started)
  | step _ took _ ih =>
    rcases (Chain.step_cases took).module with ⟨label, stepped⟩ | ⟨rfl, same⟩
    · exact .step ih stepped trivial
    · rw [List.append_nil, same]
      exact ih

theorem ChainStep.evolves (stepped : ChainStep ext chain label handled next) :
    Evolves ext chain.gravityID chain.state.ledger next.state.ledger := by
  rcases stepped.module with ⟨_, took⟩ | ⟨_, same⟩
  · exact (step_ledger took).evolves
  · rw [same]
    exact .refl ext _ _

/-- Keys stay with their validators. -/
theorem ChainStep.delegates (stepped : ChainStep ext chain label handled next)
    (consistent : chain.delegates.Consistent) :
    Delegates.Extended chain.delegates next.delegates := by
  cases stepped with
  | ended _ _ frame =>
    rw [frame]
    exact .refl consistent
  | registered registered =>
    obtain ⟨validator, orchestrator, address, delegated, _⟩ :=
      consistent.setOrchestratorAddress registered
    exact delegated.extended consistent
  | _ => exact .refl consistent

/-- Nobody has registered keys or confirmed anything yet. -/
structure Chain.Launched (chain : Chain) : Prop where
  delegates : chain.delegates = ⟨.empty, .empty, .empty⟩
  valsetConfirms : chain.valsetConfirms = .empty
  logicCalls : chain.logicCalls = .empty
  logicCallConfirms : chain.logicCallConfirms = .empty

theorem Chain.Launched.consistent (launched : chain.Launched) : chain.delegates.Consistent := by
  rw [launched.delegates]
  exact ⟨by simp, by simp, by simp, by simp⟩

/-- The run of the labels from a chain, as long as no end of a block panics. -/
def Chain.execute (ext : External) (chain : Chain) (labels : List ChainLabel) :
    Option (List EthereumClaim × Chain) :=
  run (Chain.step ext) (fun _ _ _ _ => true) labels chain

/-- The run of the labels as long as the gravity id stays what it is. -/
def Chain.executeFixed (ext : External) (chain : Chain) (labels : List ChainLabel) :
    Option (List EthereumClaim × Chain) :=
  run (Chain.step ext) (fun before _ _ after => after.gravityID == before.gravityID) labels chain

theorem Chain.reachable_of_execute (started : start chain)
    (ran : (Chain.execute ext chain labels).isSome = true) :
    Chain.Reachable ext start ((Chain.execute ext chain labels).get ran).1
      ((Chain.execute ext chain labels).get ran).2 :=
  reach_of_isSome (fun _ _ _ _ _ => trivial) started ran

theorem Chain.run_of_execute (ran : (Chain.execute ext chain labels).isSome = true) :
    Chain.Reachable ext (· = chain) ((Chain.execute ext chain labels).get ran).1
      ((Chain.execute ext chain labels).get ran).2 :=
  Chain.reachable_of_execute (by exact rfl) ran

end GravityBridge.Keeper
