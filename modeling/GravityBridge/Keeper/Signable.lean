import GravityBridge.Keeper.Evolution
import GravityBridge.Lib.Index

/-!
# What is there to sign, and for which tokens

What a step may do to the batches, the requests for validator sets and the
registered tokens, said once. A batch enters under a fresh nonce and leaves with
its confirms, a request takes the next nonce, and a token is only ever added.
Nothing is assumed about the state before the step.
-/

namespace GravityBridge.Keeper

open Lib.Fallible Lib.ByteString Lib.Store
open GravityBridge.Types KVStore

variable {ext : External} {context : Context}

/-! ## Batches -/

namespace Outgoing

/-- One change of the batches and their confirms, other than a new confirm. -/
inductive Change (ext : External) : Outgoing → Outgoing → Prop
  | pooled {outgoing : Outgoing} (pool : KVStore PoolKey OutgoingTransferTx) (lastTXPoolID : Nat) :
      Change ext outgoing { outgoing with pool := pool, lastTXPoolID := lastTXPoolID }
  | stored {outgoing : Outgoing} {batch : OutgoingTxBatch} :
      outgoing.batches.get (getOutgoingTxBatchKey batch.tokenContract batch.batchNonce) = none →
      Change ext outgoing { outgoing with
        batches := outgoing.batches.set (getOutgoingTxBatchKey batch.tokenContract batch.batchNonce)
          batch
        lastOutgoingBatchID := batch.batchNonce }
  | dropped {outgoing : Outgoing} (batch : OutgoingTxBatch) :
      Change ext outgoing ((outgoing.deleteBatch batch).deleteBatchConfirms ext batch)

abbrev Changes (ext : External) : Outgoing → Outgoing → Prop := Relation.ReflTransGen (Change ext)

end Outgoing

/-! ## Tokens -/

/-- Tokens may have been registered, for denoms without an embedded address; none was changed. -/
structure Registry.Grown (registry next : Registry) : Prop where
  denoms : registry.denomToERC20.Within next.denomToERC20
  tokens : registry.erc20ToDenom.Within next.erc20ToDenom
  added : ∀ denom token, next.denomToERC20.get denom = some token →
    registry.denomToERC20.get denom = some token ∨ containsEthAddress denom = false

theorem Registry.Grown.refl (registry : Registry) : registry.Grown registry :=
  ⟨.refl _, .refl _, fun _ _ found => .inl found⟩

theorem Registry.Grown.trans {registry between next : Registry} (left : registry.Grown between)
    (right : between.Grown next) : registry.Grown next where
  denoms := left.denoms.trans right.denoms
  tokens := left.tokens.trans right.tokens
  added denom token found := by
    rcases right.added denom token found with earlier | clean
    · exact left.added denom token earlier
    · exact .inr clean

theorem setCosmosOriginatedMapping_grown {registry next : Registry} {denom : Denom}
    {token : EthAddress}
    (written : registry.setCosmosOriginatedMapping denom token = .ok next) : registry.Grown next := by
  obtain ⟨clean, registrable, rfl⟩ := setCosmosOriginatedMapping_eq_ok.mp written
  refine ⟨within_set registrable.denomFresh token, within_set registrable.tokenFresh denom,
    fun name other found => ?_⟩
  simp only [Registry.register, get_set] at found
  split_ifs at found with same
  · exact .inr (same ▸ clean)
  · exact .inl found

/-! ## Messages, proposals and handled claims -/

variable {ledger between next : Ledger} {gravityId : Bytes} {env : ValsetEnv}

/-- Batches have changed as described, tokens were at most added, and the only thing new about
validator sets may be that Ethereum was seen at one of them. -/
structure Ledger.Moved (ext : External) (ledger next : Ledger) : Prop where
  outgoing : Outgoing.Changes ext ledger.outgoing next.outgoing
  requests : next.valsets.requests = ledger.valsets.requests
  latest : next.valsets.latestValsetNonce = ledger.valsets.latestValsetNonce
  observed : next.valsets.lastObservedValset = ledger.valsets.lastObservedValset ∨
    ∃ valset, next.valsets.lastObservedValset = some valset ∧
      (valset.nonce = 0 ∨ ∃ stored, ledger.valsets.requests.get valset.nonce = some stored)
  registry : ledger.registry.Grown next.registry

theorem Ledger.Moved.of_changes (outgoing : Outgoing.Changes ext ledger.outgoing next.outgoing)
    (valsets : next.valsets = ledger.valsets) (registry : next.registry = ledger.registry) :
    Ledger.Moved ext ledger next :=
  ⟨outgoing, by rw [valsets], by rw [valsets], .inl (by rw [valsets]), registry ▸ .refl _⟩

theorem Ledger.Moved.of_same (ext : External) (outgoing : next.outgoing = ledger.outgoing)
    (valsets : next.valsets = ledger.valsets) (registry : next.registry = ledger.registry) :
    Ledger.Moved ext ledger next :=
  .of_changes (outgoing ▸ .refl) valsets registry

theorem Ledger.Moved.refl (ext : External) (ledger : Ledger) : Ledger.Moved ext ledger ledger :=
  .of_same ext rfl rfl rfl

theorem Ledger.Moved.trans (left : Ledger.Moved ext ledger between)
    (right : Ledger.Moved ext between next) : Ledger.Moved ext ledger next where
  outgoing := left.outgoing.trans right.outgoing
  requests := right.requests.trans left.requests
  latest := right.latest.trans left.latest
  observed := by
    rcases right.observed with same | ⟨valset, seen, known⟩
    · rw [same]
      exact left.observed
    · rw [left.requests] at known
      exact .inr ⟨valset, seen, known⟩
  registry := left.registry.trans right.registry

/-- Only the start of a contract is observed without a request. -/
theorem observeValset_moved {claim : MsgValsetUpdatedClaim}
    (ran : ledger.observeValset claim = .ok next) : Ledger.Moved ext ledger next := by
  obtain ⟨height, requested, rfl⟩ := observeValset_eq_ok ran
  refine ⟨.refl, rfl, rfl, .inr ⟨claimSet claim height, rfl, ?_⟩, .refl _⟩
  by_cases start : claim.valsetNonce = 0
  · exact .inl (by simp [claimSet, start])
  · exact .inr ⟨_, requested start⟩

theorem Relisted.moved (relisted : Relisted ledger next) : Ledger.Moved ext ledger next where
  outgoing := by rw [relisted.frame]
  requests := by rw [relisted.frame]
  latest := by rw [relisted.frame]
  observed := .inl (by rw [relisted.frame])
  registry := by
    refine ⟨?_, ?_, ?_⟩
    · rw [relisted.denomToERC20]
      exact .refl _
    · rw [relisted.erc20ToDenom]
      exact .refl _
    · rw [relisted.denomToERC20]
      exact fun _ _ found => .inl found

theorem Ledger.Change.moved (change : Ledger.Change ext gravityId ledger next) :
    Ledger.Moved ext ledger next := by
  cases change with
  | coins bank communityPool forwards => exact .of_same ext rfl rfl rfl
  | pooled pool lastTXPoolID => exact .of_changes (.single (.pooled pool lastTXPoolID)) rfl rfl
  | stored fresh _ _ => exact .of_changes (.single (.stored fresh)) rfl rfl
  | dropped batch => exact .of_changes (.single (.dropped batch)) rfl rfl
  | relisted relisted => exact relisted.moved
  | registered written => exact ⟨.refl, rfl, rfl, .inl rfl, setCosmosOriginatedMapping_grown written⟩
  | observed observes => exact observeValset_moved observes

theorem Ledger.Changes.moved (changes : Ledger.Changes ext gravityId ledger next) :
    Ledger.Moved ext ledger next :=
  changes.related (Ledger.Moved.refl ext) Ledger.Moved.trans Ledger.Change.moved

/-! ## The end of a block -/

/-- A block requests no validator set, as there is a latest one, or the next one. -/
inductive Valsets.Requests (height : Nat) (valsets : Valsets) : Valsets → Prop
  | none : (∃ valset, valsets.requests.get valsets.latestValsetNonce = some valset) →
      Requests height valsets valsets
  | next {valset : Valset} : valset.nonce = valsets.latestValsetNonce + 1 → valset.height = height →
      valsets.requests.get valset.nonce = .none →
      Requests height valsets ⟨valsets.requests.set valset.nonce valset, valset.nonce,
        valsets.lastObservedValset⟩

/-- No stored request is changed. -/
theorem Valsets.Requests.within {height : Nat} {valsets later : Valsets}
    (requests : valsets.Requests height later) : valsets.requests.Within later.requests := by
  cases requests with
  | none _ => exact .refl _
  | next _ _ fresh => exact within_set fresh _

theorem createValsets_requests (created : ledger.createValsets ext context env = .ok next) :
    ledger.valsets.Requests context.blockHeight next.valsets ∧ next.outgoing = ledger.outgoing ∧
      next.registry = ledger.registry := by
  rcases createValsets_cases created with requested | ⟨rfl, stored⟩
  · obtain ⟨_, _, following, height, fresh, _, rfl⟩ := setValsetRequest_eq_ok requested
    exact ⟨.next following height fresh, rfl, rfl⟩
  · exact ⟨.none stored, rfl, rfl⟩

/-- Ethereum has moved past the set, and the window for signing it has passed. -/
def Valsets.Prunable (valsets : Valsets) (context : Context) (valset : Valset) : Prop :=
  ∃ lastObserved, valsets.lastObservedValset = some lastObserved ∧
    context.params.signedValsetsWindow ≤ context.blockHeight ∧ valset.nonce < lastObserved.nonce ∧
    valset.height < context.blockHeight - context.params.signedValsetsWindow

theorem pruneValsets_frame (context : Context) (ledger : Ledger) :
    ledger.pruneValsets context = { ledger with
      valsets := { ledger.valsets with
        requests := (ledger.pruneValsets context).valsets.requests } } := by
  unfold Ledger.pruneValsets
  split
  · rfl
  · split_ifs <;> rfl

theorem get_pruneValsets {nonce : Nat} {valset : Valset} :
    (ledger.pruneValsets context).valsets.requests.get nonce = some valset ↔
      ledger.valsets.requests.get nonce = some valset ∧ ¬ ledger.valsets.Prunable context valset := by
  unfold Ledger.pruneValsets Valsets.Prunable
  split
  · rename_i unobserved
    simp [unobserved]
  · rename_i lastObserved observed
    split_ifs with early
    · simp [Nat.not_le.mpr early]
    · simp only [get_filter, Option.filter_eq_some_iff, observed, Option.some.injEq, exists_eq_left',
        Nat.not_lt.mp early, true_and, Bool.not_eq_eq_eq_not, Bool.not_true, Bool.and_eq_false_imp,
        decide_eq_true_eq, decide_eq_false_iff_not, not_and]

/-- What the end of a block does after the tally. -/
theorem maintain_cases (maintained : ledger.maintain ext context env = .ok next) :
    ∃ requested : Ledger, Outgoing.Changes ext ledger.outgoing requested.outgoing ∧
      ledger.valsets.Requests context.blockHeight requested.valsets ∧
      requested.registry = ledger.registry ∧
      next = requested.pruneValsets context := by
  simp only [Ledger.maintain, bind_eq_ok, pure_eq_ok] at maintained
  obtain ⟨outgoing, cleaned, requested, created, rfl⟩ := maintained
  obtain ⟨requests, kept, registry⟩ := createValsets_requests created
  refine ⟨requested, ?_, requests, registry, rfl⟩
  rw [kept]
  have changes : Ledger.Changes ext context.params.gravityId ledger _ :=
    cleanupTimedOutBatches_changes cleaned
  exact changes.moved.outgoing

/-! ## Steps -/

variable {state final : State} {label : Label} {handled : List EthereumClaim}

/-- What the end of a block does: the tally, a request for a validator set or none, and the
pruning. -/
inductive BlockEnd (ext : External) (state final : State) : Prop
  | ended {tallied requested : Ledger} {context : Context} : Ledger.Moved ext state.ledger tallied →
      Outgoing.Changes ext tallied.outgoing requested.outgoing →
      tallied.valsets.Requests state.blockHeight requested.valsets →
      requested.registry = tallied.registry →
      context.blockHeight = state.blockHeight → context.params = state.params →
      final.ledger = requested.pruneValsets context → final.blockHeight = state.blockHeight + 1 →
      final.params = state.params → BlockEnd ext state final

theorem step_endBlock {powers : PowerTable}
    (took : step ext (.endBlock powers env) state = (handled, .ok final)) :
    BlockEnd ext state final := by
  simp only [step, Prod.mk.injEq, bind_eq_ok, pure_eq_ok] at took
  obtain ⟨rfl, ended, endOk, rfl⟩ := took
  obtain ⟨tallied, ledger, oracle, tally, maintained, _, rfl⟩ := endBlocker_eq_ok (Prod.ext rfl endOk)
  obtain ⟨frame, moved⟩ := attestationTally_related (Ledger.Moved.refl ext)
    (fun ran => (show Ledger.Changes ext [] _ _ from handle_changes ran).moved)
      Ledger.Moved.trans tally
  have height : tallied.blockHeight = state.blockHeight := by rw [frame]
  have params : tallied.params = state.params := by rw [frame]
  obtain ⟨requested, changes, requests, registry, result⟩ := maintain_cases maintained
  exact .ended moved changes (height ▸ requests) registry height params result (by rw [height]) params

/-- Within a block the ledger changes by confirms and in the ways described. -/
theorem step_moved (took : step ext label state = (handled, .ok final)) :
    (∃ powers env, label = .endBlock powers env) ∨
    (∃ confirm signatureOk, label = .ledger (.confirmBatch confirm signatureOk)) ∨
      (Ledger.Moved ext state.ledger final.ledger ∧ final.blockHeight = state.blockHeight) := by
  cases step_cases took with
  | delivered delivered =>
    rcases deliver_changes delivered with ⟨confirm, signatureOk, rfl⟩ | changes
    · exact .inr (.inl ⟨confirm, signatureOk, rfl⟩)
    · exact .inr (.inr ⟨changes.moved, rfl⟩)
  | ended _ _ _ => exact .inl ⟨_, _, rfl⟩
  | _ => exact .inr (.inr ⟨.refl ext _, rfl⟩)

end GravityBridge.Keeper
