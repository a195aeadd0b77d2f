import GravityBridge.Keeper.Handler

/-!
# The oracle

Validators vote on claims about Ethereum events, each validator on one event
nonce after the other. The tally at the end of a block applies the events whose
claims have more than two thirds of the power, in the order of their nonces.
-/

namespace GravityBridge.Keeper

open Lib.Fallible Lib.ByteString Lib.Store
open GravityBridge.Types

/-- The powers of the validators after the last block. -/
structure PowerTable where
  power : ValAddress → Nat
  total : Nat
  covers : ∀ validators : Finset ValAddress, ∑ validator ∈ validators, power validator ≤ total

variable (ext : External)

namespace Oracle

/-- A validator without a stored nonce starts at the event before the last observed one. -/
def getLastEventNonceByValidator (oracle : Oracle) (validator : ValAddress) : Nat :=
  (oracle.lastEventNonceByValidator.get validator).getD (oracle.lastObservedEventNonce - 1)

def setLastEventNonceByValidator (oracle : Oracle) (validator : ValAddress) (nonce : Nat) : Oracle :=
  { oracle with lastEventNonceByValidator := oracle.lastEventNonceByValidator.set validator nonce }

def setAttestation (oracle : Oracle) (eventNonce : U64) (claimHash : Bytes)
    (att : Attestation) : Oracle :=
  { oracle with attestations := oracle.attestations.set (getAttestationKey eventNonce claimHash) att }

/-- The attestation of a claim, or a new one without votes. -/
def findOrCreate (oracle : Oracle) (blockHeight : Nat) (claim : EthereumClaim) (hash : Bytes) :
    Go Attestation :=
  match oracle.attestations.get (getAttestationKey claim.getEventNonce hash) with
  | some att => pure att
  | none => do
      let components ← rewrap ⟨.plain, "unable to extract claim hash components"⟩
        (extractClaimHashComponents ext claim)
      pure ⟨false, [], blockHeight, claim, claim.getType, components⟩

/-- The stored components must hash to the incoming hash and equal the incoming components. -/
def verifyComponents (att : Attestation) (claim : EthereumClaim) (hash : Bytes) : Go Unit := do
  let storedHash ← orPanic "could not compute hash from stored components"
    (att.claimComponents.computeClaimHash ext)
  require (storedHash = hash) ⟨.invalid,
    "incoming claim does not match stored attestation components"⟩
  let incomingComponents ← orPanic "unable to extract incoming claim components for comparison"
    (extractClaimHashComponents ext claim)
  require (att.claimComponents = incomingComponents)
    ⟨.invalid, "incoming claim fields do not match stored attestation components"⟩

/-- `Attest`, with the validator that the claimer is the orchestrator of. -/
def attest (blockHeight : Nat) (oracle : Oracle) (validator : Option ValAddress)
    (claim : EthereumClaim) : Go Oracle := do
  let _ ← claim.getClaimer ext
  let valAddr ← unwrap "Could not find ValAddr for delegate key, should be checked by now" validator
  verifyAddressFormat valAddr
  require (claim.getEventNonce.val = succU64 (oracle.getLastEventNonceByValidator valAddr))
    ⟨.plain, "non contiguous event nonce"⟩
  let hash ← rewrap ⟨.plain, "unable to compute claim hash"⟩ (claim.claimHash ext)
  let att ← oracle.findOrCreate ext blockHeight claim hash
  verifyComponents ext att claim hash
  pure ((oracle.setAttestation claim.getEventNonce hash { att with votes := att.votes ++ [valAddr] })
    |>.setLastEventNonceByValidator valAddr claim.getEventNonce.val)

/-- `setLastObservedEventNonce`: the nonce must increase, except that zero may be set over zero. -/
def setLastObservedEventNonce (oracle : Oracle) (nonce : Nat) : Go Oracle := do
  check (oracle.lastObservedEventNonce < nonce ∨ (oracle.lastObservedEventNonce = 0 ∧ nonce = 0))
    "Event nonce going backwards or replay!"
  pure { oracle with lastObservedEventNonce := nonce }

def setLastObservedEthereumBlockHeight (blockHeight : Nat) (oracle : Oracle) (ethereumHeight : Nat) :
    Go Oracle := do
  check (oracle.lastObservedEthereumBlockHeight.ethereumBlockHeight ≤ ethereumHeight)
    "Attempt to roll back Ethereum block height!"
  pure { oracle with lastObservedEthereumBlockHeight := ⟨blockHeight, ethereumHeight⟩ }

/-- The attestations in key order, which is the order of `GetAttestationMapping`. -/
def getAttestations (oracle : Oracle) : List Attestation := oracle.attestations.values

def deleteAttestation (oracle : Oracle) (att : Attestation) : Go Oracle := do
  let hash ← orPanic "unable to compute claim hash" (att.claim.claimHash ext)
  pure { oracle with
    attestations := oracle.attestations.delete (getAttestationKey att.claim.getEventNonce hash) }

/-- Delete the attestations whose event nonce passes a test. -/
def deleteWhere (oracle : Oracle) (outdated : Nat → Bool) : Go Oracle :=
  oracle.getAttestations.foldlM (fun current att =>
    if outdated att.claim.getEventNonce.val then current.deleteAttestation ext att
      else pure current) oracle

def eventsToKeep : Nat := 1000

/-- `pruneAttestations`. -/
def pruneAttestations (oracle : Oracle) : Go Oracle :=
  if oracle.lastObservedEventNonce ≤ eventsToKeep then pure oracle
  else oracle.deleteWhere ext (fun nonce => nonce < oracle.lastObservedEventNonce - eventsToKeep)

/-- `pruneAttestationsAfterNonce`: roll the votes back to a nonce that is not below the last
observed one, and let the affected validators vote again from there. -/
def pruneAttestationsAfterNonce (oracle : Oracle) (nonceCutoff : Nat) : Go Oracle :=
  if nonceCutoff < oracle.lastObservedEventNonce ∨ nonceCutoff = 0 then pure oracle
  else do
    let affected :=
      (oracle.getAttestations.filter (fun att => nonceCutoff < att.claim.getEventNonce.val)).flatMap
      Attestation.votes
    let deleted ← oracle.deleteWhere ext (fun nonce => nonceCutoff < nonce)
    pure (affected.foldl (fun current validator =>
      if nonceCutoff < current.getLastEventNonceByValidator validator then
        current.setLastEventNonceByValidator validator nonceCutoff
      else current) deleted)

end Oracle

/-! ## Observing events -/

/-- The power that the votes of an attestation must exceed. -/
def PowerTable.requiredPower (powers : PowerTable) : Nat := 66 * powers.total / 100

/-- The loop of `TryAttestation` over the votes: does the running sum ever exceed the threshold? -/
def PowerTable.passes (powers : PowerTable) : Nat → List ValAddress → Bool
  | _, [] => false
  | attestationPower, validator :: rest =>
      if powers.requiredPower < attestationPower + powers.power validator then true
      else powers.passes (attestationPower + powers.power validator) rest

namespace State

/-- What `TryAttestation` writes before it runs the handler. -/
def markObserved (state : State) (att : Attestation) (hash : Bytes) : Go State := do
  check (att.claim.getEventNonce.val = succU64 state.oracle.lastObservedEventNonce)
    "attempting to apply events to state out of order"
  let counted ← state.oracle.setLastObservedEventNonce att.claim.getEventNonce.val
  let raised ← counted.setLastObservedEthereumBlockHeight state.blockHeight
    att.claim.getEthBlockHeight.val
  pure { state with
    oracle := raised.setAttestation att.claim.getEventNonce hash { att with observed := true } }

/-- `processAttestation`: an error of the handler drops its changes and nothing else. -/
def processAttestation (state : State) (claim : EthereumClaim) : Go State := do
  let ledger ← cached state.ledger (state.ledger.handle ext state.context claim)
  pure { state with ledger := ledger }

/-- `emitObservedEvent`, after the handler. -/
def emitObservedEvent (state : State) : Go State := do
  let _ ← state.params.getBridgeContractAddress
  pure state

theorem emitObservedEvent_eq_ok {state next : State} :
    state.emitObservedEvent = .ok next ↔ state.params.NamesBridge ∧ state = next := by
  simp [emitObservedEvent, ← getBridgeContractAddress_eq_ok]

theorem emitObservedEvent_of_not_namesBridge (state : State) (unnamed : ¬ state.params.NamesBridge) :
    state.emitObservedEvent = panicking "failed to parse bridge ethereum address" := by
  rw [emitObservedEvent, getBridgeContractAddress_of_not unnamed]
  rfl

/-- `TryAttestation`, with the claims that it passed to the handler. -/
def tryAttestation (powers : PowerTable) (state : State) (att : Attestation) :
    List EthereumClaim × Go State :=
  match att.claim.claimHash ext with
  | .error _ => ([], panicking "unable to compute claim hash")
  | .ok hash =>
      if att.observed then ([], panicking "attempting to process observed attestation")
      else if powers.passes 0 att.votes then
        match state.markObserved att hash with
        | .error fault => ([], .error fault)
        | .ok marked => ([att.claim], marked.processAttestation ext att.claim >>= emitObservedEvent)
      else ([], .ok state)

/-- The loop of `attestationTally`. -/
def tallyLoop (powers : PowerTable) : State → List Attestation → List EthereumClaim × Go State
  | state, [] => ([], .ok state)
  | state, att :: rest =>
      if att.claim.getEventNonce.val = succU64 state.oracle.lastObservedEventNonce then
        match state.tryAttestation ext powers att with
        | (handled, .error fault) => (handled, .error fault)
        | (handled, .ok next) =>
            (handled ++ (next.tallyLoop powers rest).1, (next.tallyLoop powers rest).2)
      else state.tallyLoop powers rest

/-- `attestationTally`: nothing is observed while the bridge is paused. -/
def attestationTally (powers : PowerTable) (state : State) : List EthereumClaim × Go State :=
  if state.params.bridgeActive then state.tallyLoop ext powers state.oracle.getAttestations
  else ([], .ok state)

end State

end GravityBridge.Keeper
