import GravityBridge.Keeper.EndBlocker
import GravityBridge.Lib.Runs

/-!
# The module as a machine

The steps are votes, messages, proposals, the few things that other modules do
to the state of the bridge, and the ends of blocks. Messages and proposals run
as transactions: one that fails in any way changes nothing. The end of a block
has no such protection, and a panic in it stops the chain.
-/

namespace GravityBridge.Keeper

open Lib.Fallible Lib.ByteString Lib.Store Lib.Runs
open GravityBridge.Types

/-- Messages and proposals that change the ledger, and what other modules do to it. -/
inductive LedgerMsg where
  | sendToEth (auctionable : Bool) (msg : MsgSendToEth)
  | cancelSendToEth (msg : MsgCancelSendToEth)
  | requestBatch (msg : MsgRequestBatch)
  | confirmBatch (msg : MsgConfirmBatch) (signatureOk : Bool)
  | executeIbcAutoForwards (effects : List TransferEffect)
  | setCosmosBridgeableTokens (metadatas : List Metadata)
  | deleteCosmosBridgeableTokens (metadatas : List Metadata)
  | setDenomMetaData (metadata : Metadata)
  | bankSend (sender receiver : AccAddress) (coin : Coin)

inductive Label where
  | attest (validator : Option ValAddress) (claim : EthereumClaim)
  | submitClaim (voter : Voter) (claim : EthereumClaim)
  | ledger (msg : LedgerMsg)
  | unhaltBridge (targetNonce : U64)
  | updateParams (params : Params)
  | setHrpIbcRecord (hrp channel : Bytes)
  | endBlock (powers : PowerTable) (env : ValsetEnv)

variable (ext : External)

/-- The module account has no key: it signs nothing. -/
def requireSigner (sender : Bytes) : Go Unit := do
  let account ← accAddressFromBech32 ext sender
  require (account ≠ ext.gravityModule) ⟨.unauthorized, "signature verification failed"⟩

def Ledger.deliver (context : Context) (ledger : Ledger) : LedgerMsg → Go Ledger
  | .sendToEth auctionable msg => do
      requireSigner ext msg.sender
      msg.validateBasic ext
      ledger.sendToEth ext context auctionable msg
  | .cancelSendToEth msg => do
      requireSigner ext msg.sender
      ledger.cancelSendToEth ext context.params msg
  | .requestBatch msg => do
      msg.validateBasic ext
      ledger.requestBatch ext context msg
  | .confirmBatch msg signatureOk => ledger.confirmBatch ext msg signatureOk
  | .executeIbcAutoForwards effects => ledger.processPendingIbcAutoForwards ext effects
  | .setCosmosBridgeableTokens metadatas => ledger.handleSetCosmosBridgeableTokensProposal metadatas
  | .deleteCosmosBridgeableTokens metadatas =>
    ledger.handleDeleteCosmosBridgeableTokensProposal metadatas
  | .setDenomMetaData metadata => pure { ledger with bank := ledger.bank.setDenomMetaData metadata }
  | .bankSend sender receiver coin => do
      require (sender ≠ ext.gravityModule) ⟨.unauthorized, "signature verification failed"⟩
      require (ext.blockedAddr receiver = false) ⟨.unauthorized, "not allowed to receive funds"⟩
      let bank ← ledger.bank.sendCoins sender receiver coin
      pure { ledger with bank := bank }

/-- One step, with the claims that it passed to the attestation handler. -/
def step : Label → State → List EthereumClaim × Go State
  | .attest validator claim, state =>
      ([], .ok { state with
        oracle := transaction state.oracle
          (state.oracle.attest ext state.blockHeight validator claim) })
  | .submitClaim voter claim, state =>
    ([], .ok (transaction state (state.submitClaim ext voter claim)))
  | .ledger msg, state =>
      ([], .ok { state with
        ledger := transaction state.ledger (state.ledger.deliver ext state.context msg) })
  | .unhaltBridge targetNonce, state =>
      ([], .ok { state with
        oracle := transaction state.oracle
          (state.oracle.pruneAttestationsAfterNonce ext targetNonce.val) })
  | .updateParams params, state => ([], .ok { state with params := params })
  | .setHrpIbcRecord hrp channel, state =>
      ([], .ok { state with hrpIbcRecords := state.hrpIbcRecords.set hrp channel })
  | .endBlock powers env, state =>
      ((state.endBlocker ext powers env).1, do
        let next ← (state.endBlocker ext powers env).2
        pure { next with blockHeight := next.blockHeight + 1 })

/-- The states that any steps lead to from a start state, with the claims handled on the way. -/
def Reachable (start : State → Prop) (handled : List EthereumClaim) (state : State) : Prop :=
  Reach (step ext) start (fun _ _ _ _ => True) handled state

/-! ## What a step does -/

/-- Every effect of a step. A rejected message changes nothing. -/
inductive Stepped (state : State) : Label → List EthereumClaim → State → Prop
  | rejected {label : Label} : Stepped state label [] state
  | voted {label : Label} {validator : Option ValAddress} {claim : EthereumClaim} {oracle : Oracle} :
      label = .attest validator claim ∨
      (∃ voter, label = .submitClaim voter claim ∧ voter.validator = validator) →
      state.oracle.attest ext state.blockHeight validator claim = .ok oracle →
      Stepped state label [] { state with oracle := oracle }
  | delivered {msg : LedgerMsg} {ledger : Ledger} :
      state.ledger.deliver ext state.context msg = .ok ledger →
      Stepped state (.ledger msg) [] { state with ledger := ledger }
  | rolledBack {targetNonce : U64} {oracle : Oracle} :
      state.oracle.pruneAttestationsAfterNonce ext targetNonce.val = .ok oracle →
      Stepped state (.unhaltBridge targetNonce) [] { state with oracle := oracle }
  | configured {label : Label} {params : Params} {hrpIbcRecords : KVStore Bytes Bytes} :
      Stepped state label [] { state with params := params, hrpIbcRecords := hrpIbcRecords }
  | ended {powers : PowerTable} {env : ValsetEnv} {handled : List EthereumClaim} {tallied : State}
      {ledger : Ledger}
      {oracle : Oracle} : state.attestationTally ext powers = (handled, .ok tallied) →
      tallied.ledger.maintain ext tallied.context env = .ok ledger →
      tallied.oracle.pruneAttestations ext = .ok oracle →
      Stepped state (.endBlock powers env) handled { tallied with
        ledger := ledger, oracle := oracle, blockHeight := tallied.blockHeight + 1 }

/-- A step either leaves the oracle alone, is a vote or a rollback of votes, or ends a block. -/
inductive OracleStep (state : State) : List EthereumClaim → State → Prop
  | unchanged {next : State} : next.oracle = state.oracle → OracleStep state [] next
  | voted {next : State} {validator : Option ValAddress} {claim : EthereumClaim} :
      state.oracle.attest ext state.blockHeight validator claim = .ok next.oracle →
      OracleStep state [] next
  | rolledBack {next : State} {targetNonce : U64} :
      state.oracle.pruneAttestationsAfterNonce ext targetNonce.val = .ok next.oracle →
      OracleStep state [] next
  | ended {next tallied : State} {powers : PowerTable} {handled : List EthereumClaim} :
      state.attestationTally ext powers = (handled, .ok tallied) →
      tallied.oracle.pruneAttestations ext = .ok next.oracle → OracleStep state handled next

/-- A step either leaves the ledger alone, delivers a message or ends a block. -/
inductive LedgerStep (state : State) : List EthereumClaim → State → Prop
  | unchanged {next : State} : next.ledger = state.ledger → LedgerStep state [] next
  | delivered {next : State} {msg : LedgerMsg} :
      state.ledger.deliver ext state.context msg = .ok next.ledger → LedgerStep state [] next
  | ended {next tallied : State} {powers : PowerTable} {env : ValsetEnv}
      {handled : List EthereumClaim} : state.attestationTally ext powers = (handled, .ok tallied) →
      tallied.ledger.maintain ext tallied.context env = .ok next.ledger →
      LedgerStep state handled next

variable {ext} {state next : State} {label : Label} {handled : List EthereumClaim}

theorem endBlocker_eq_ok {powers : PowerTable} {env : ValsetEnv}
    (ended : state.endBlocker ext powers env = (handled, .ok next)) :
    ∃ tallied ledger oracle, state.attestationTally ext powers = (handled, .ok tallied) ∧
      tallied.ledger.maintain ext tallied.context env = .ok ledger ∧
      tallied.oracle.pruneAttestations ext = .ok oracle ∧
      next = { tallied with ledger := ledger, oracle := oracle } := by
  simp only [State.endBlocker, Prod.mk.injEq, bind_eq_ok, pure_eq_ok] at ended
  obtain ⟨rfl, tallied, tally, ledger, maintained, oracle, pruned, rfl⟩ := ended
  exact ⟨tallied, ledger, oracle, Prod.ext rfl tally, maintained, pruned, rfl⟩

theorem submitClaim_eq_ok {voter : Voter} {claim : EthereumClaim}
    (submitted : state.submitClaim ext voter claim = .ok next) :
    ∃ oracle, state.oracle.attest ext state.blockHeight voter.validator claim = .ok oracle ∧
      next = { state with oracle := oracle } := by
  simp only [State.submitClaim, State.claimHandlerCommon, bind_eq_ok, rewrap_eq_ok,
    pure_eq_ok] at submitted
  obtain ⟨_, _, _, _, _, _, _, _, _, _, oracle, attested, rfl⟩ := submitted
  exact ⟨oracle, attested, rfl⟩

section

variable (took : step ext label state = (handled, .ok next))

include took

theorem step_cases : Stepped ext state label handled next := by
  cases label with
  | attest validator claim =>
    obtain ⟨rfl, rfl⟩ : [] = handled ∧ _ = next := by simpa [step] using took
    rcases transaction_cases state.oracle
      (state.oracle.attest ext state.blockHeight validator claim) with
      attested | same
    · exact .voted (.inl rfl) attested
    · rw [same]
      exact .rejected
  | submitClaim voter claim =>
    obtain ⟨rfl, rfl⟩ : [] = handled ∧ _ = next := by simpa [step] using took
    rcases transaction_cases state (state.submitClaim ext voter claim) with submitted | same
    · obtain ⟨oracle, attested, same⟩ := submitClaim_eq_ok submitted
      rw [same]
      exact .voted (.inr ⟨voter, rfl, rfl⟩) attested
    · rw [same]
      exact .rejected
  | ledger msg =>
    obtain ⟨rfl, rfl⟩ : [] = handled ∧ _ = next := by simpa [step] using took
    rcases transaction_cases state.ledger (state.ledger.deliver ext state.context msg) with
      delivered | same
    · exact .delivered delivered
    · rw [same]
      exact .rejected
  | unhaltBridge targetNonce =>
    obtain ⟨rfl, rfl⟩ : [] = handled ∧ _ = next := by simpa [step] using took
    rcases transaction_cases state.oracle
      (state.oracle.pruneAttestationsAfterNonce ext targetNonce.val) with
      pruned | same
    · exact .rolledBack pruned
    · rw [same]
      exact .rejected
  | updateParams params =>
    obtain ⟨rfl, rfl⟩ : [] = handled ∧ _ = next := by simpa [step] using took
    exact .configured
  | setHrpIbcRecord hrp channel =>
    obtain ⟨rfl, rfl⟩ : [] = handled ∧ _ = next := by simpa [step] using took
    exact .configured
  | endBlock powers env =>
    simp only [step, Prod.mk.injEq, bind_eq_ok, pure_eq_ok] at took
    obtain ⟨rfl, ended, endOk, rfl⟩ := took
    obtain ⟨tallied, ledger, oracle, tally, maintained, pruned, rfl⟩ :=
      endBlocker_eq_ok (Prod.ext rfl endOk)
    have stepped := Stepped.ended tally maintained pruned
    exact stepped

theorem step_oracle : OracleStep ext state handled next := by
  cases step_cases took with
  | rejected => exact .unchanged rfl
  | voted _ attested => exact .voted attested
  | delivered _ => exact .unchanged rfl
  | rolledBack pruned => exact .rolledBack pruned
  | configured => exact .unchanged rfl
  | ended tally _ pruned => exact .ended tally pruned

theorem step_ledger : LedgerStep ext state handled next := by
  cases step_cases took with
  | rejected => exact .unchanged rfl
  | voted _ _ => exact .unchanged rfl
  | delivered delivered => exact .delivered delivered
  | rolledBack _ => exact .unchanged rfl
  | configured => exact .unchanged rfl
  | ended tally maintained _ => exact .ended tally maintained

end

/-! ## A chain on which runs can be evaluated -/

/-- A new chain on which one account holds the given coin. -/
def genesis (holder : AccAddress) (coin : Coin) : State where
  params := defaultParams
  blockHeight := 1
  nativeHrp := some (ascii "gravity")
  hrpIbcRecords := .empty
  oracle := ⟨.empty, .empty, 0, ⟨0, 0⟩⟩
  ledger := .unused [] (Bank.empty.mint holder coin)

/-- One validator with all the power. -/
def soleValidator (validator : ValAddress) (power : Nat) : PowerTable where
  power other := if other = validator then power else 0
  total := power
  covers validators := by
    rw [Finset.sum_ite_eq']
    split_ifs
    · exact le_refl _
    · exact Nat.zero_le _

/-- The validator set stays the one validator with its Ethereum key. -/
def soleBonded (power : Nat) (ethAddress : EthAddress) : ValsetEnv := ⟨[⟨power, some ethAddress⟩], 0⟩

/-- The run of the labels from a state, as long as no end of a block panics. -/
def execute (ext : External) (labels : List Label) (state : State) :
    Option (List EthereumClaim × State) :=
  run (step ext) (fun _ _ _ _ => true) labels state

theorem reachable_of_execute {start : State → Prop} {labels : List Label} (started : start state)
    (ran : (execute ext labels state).isSome = true) :
    Reachable ext start ((execute ext labels state).get ran).1
      ((execute ext labels state).get ran).2 :=
  reach_of_isSome (fun _ _ _ _ _ => trivial) started ran

end GravityBridge.Keeper
