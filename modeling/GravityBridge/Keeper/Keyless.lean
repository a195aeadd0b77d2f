import GravityBridge.Keeper.ConfirmWindow

/-!
# A chain on which no validator has registered keys

Only the orchestrators of validators vote, so as long as no keys are registered no
claim comes through. Then nothing is registered, minted or locked, and all that the
module stores are requests for validator sets and the allowlist of governance.
-/

namespace GravityBridge.Keeper

open Lib.Fallible Lib.ByteString Lib.Store Lib.Runs
open GravityBridge.Types KVStore

/-! ## The ledger -/

/-- Requests are stored under their nonces, and the latest nonce is that of a request unless it is
zero. -/
structure Valsets.Numbered (valsets : Valsets) : Prop where
  keyed : ∀ nonce valset, valsets.requests.get nonce = some valset → nonce = valset.nonce
  bound : ∀ nonce valset, valsets.requests.get nonce = some valset → nonce ≤ valsets.latestValsetNonce
  latest : valsets.latestValsetNonce = 0 ∨
    ∃ valset, valsets.requests.get valsets.latestValsetNonce = some valset

/-- The allowlist holds valid metadata of cosmos denoms under their base denoms. -/
structure Registry.Listed (registry : Registry) : Prop where
  keyed : ∀ denom metadata, registry.cosmosBridgeableTokens.get denom = some metadata →
    denom = metadata.base
  valid : ∀ metadata ∈ registry.cosmosBridgeableTokens.values, metadata.validate = .ok ()
  noAddress : ∀ metadata ∈ registry.cosmosBridgeableTokens.values,
  containsEthAddress metadata.base = false
  native : ∀ metadata ∈ registry.cosmosBridgeableTokens.values,
  gravityDenomPrefix.isPrefixOf metadata.base = false

/-- No claim has changed the ledger. -/
structure Ledger.Quiet (ledger : Ledger) : Prop where
  pool : ledger.outgoing.pool = .empty
  batches : ledger.outgoing.batches = .empty
  forwards : ledger.pendingIbcAutoForwards = .empty
  unmapped : ledger.registry.denomToERC20 = .empty
  voucherless : ∀ denom token, Reads denom token → ledger.bank.supply denom = 0
  unobserved : ledger.valsets.lastObservedValset = none
  numbered : ledger.valsets.Numbered
  listed : ledger.registry.Listed

variable {ext : External} {context : Context} {ledger next : Ledger} {denom : Denom}
  {metadatas : List Metadata}

theorem assertCosmosBridgeableTokensConsistent_of_listed (listed : ledger.registry.Listed) :
    ledger.assertCosmosBridgeableTokensConsistent = .ok () := by
  have distinct := nodup_of_keyed listed.keyed
  simp only [Ledger.assertCosmosBridgeableTokensConsistent, bind_eq_ok, require_eq_ok,
    List.forall_mem_map]
  exact ⟨(), listed.noAddress, (), distinct, listed.native⟩

/-- A successful proposal leaves valid entries under their base denoms. -/
theorem Registry.Listed.of_proposal
    (keyed : ∀ denom metadata, next.registry.cosmosBridgeableTokens.get denom = some metadata →
      denom = metadata.base ∧ metadata.validate = .ok ())
    (consistent : next.assertCosmosBridgeableTokensConsistent = .ok ()) : next.registry.Listed := by
  simp only [Ledger.assertCosmosBridgeableTokensConsistent, bind_eq_ok, require_eq_ok,
    List.forall_mem_map] at consistent
  obtain ⟨_, noAddress, _, _, native⟩ := consistent
  refine ⟨fun denom metadata found => (keyed denom metadata found).1, fun metadata member => ?_,
    noAddress, native⟩
  obtain ⟨denom, found⟩ := mem_values.mp member
  exact (keyed denom metadata found).2

theorem Registry.Listed.entry (listed : ledger.registry.Listed) {metadata : Metadata}
    (found : ledger.registry.cosmosBridgeableTokens.get denom = some metadata) :
    denom = metadata.base ∧ metadata.validate = .ok () :=
  ⟨listed.keyed denom metadata found, listed.valid metadata (mem_values.mpr ⟨denom, found⟩)⟩

theorem Registry.Listed.set (listed : ledger.registry.Listed)
    (handled : ledger.handleSetCosmosBridgeableTokensProposal metadatas = .ok next) :
    next.registry.Listed := by
  simp only [Ledger.handleSetCosmosBridgeableTokensProposal, bind_eq_ok, pure_eq_ok] at handled
  obtain ⟨_, _, _, ran, _, consistent, rfl⟩ := handled
  refine .of_proposal (foldlM_invariant (fun current : Ledger => ∀ denom metadata,
    current.registry.cosmosBridgeableTokens.get denom = some metadata → denom = metadata.base ∧
    metadata.validate = .ok ()) ?_ (fun _ _ found => listed.entry found) ran) consistent
  intro current metadata result _ entries pass denom other found
  simp only [Ledger.setBridgeable, bind_eq_ok, pure_eq_ok] at pass
  obtain ⟨_, valid, _, _, _, _, _, _, _, _, rfl⟩ := pass
  simp only [Ledger.setCosmosBridgeableToken, get_set] at found
  split_ifs at found with here
  · obtain rfl := Option.some.inj found
    exact ⟨here, valid⟩
  · exact entries denom other found

theorem Registry.Listed.delete (listed : ledger.registry.Listed)
    (handled : ledger.handleDeleteCosmosBridgeableTokensProposal metadatas = .ok next) :
    next.registry.Listed := by
  simp only [Ledger.handleDeleteCosmosBridgeableTokensProposal, bind_eq_ok, pure_eq_ok] at handled
  obtain ⟨_, _, _, ran, _, consistent, rfl⟩ := handled
  refine .of_proposal (foldlM_invariant (fun current : Ledger => ∀ denom metadata,
    current.registry.cosmosBridgeableTokens.get denom = some metadata → denom = metadata.base ∧
    metadata.validate = .ok ()) ?_ (fun _ _ found => listed.entry found) ran) consistent
  intro current metadata result _ entries pass denom other found
  simp only [Ledger.deleteBridgeable, bind_eq_ok, pure_eq_ok] at pass
  obtain ⟨_, _, _, _, rfl⟩ := pass
  simp only [Ledger.deleteCosmosBridgeableToken, get_delete] at found
  split_ifs at found
  exact entries denom other found

section

variable (quiet : ledger.Quiet)

include quiet

theorem Ledger.Quiet.relisted (relisted : Relisted ledger next) (listed : next.registry.Listed) :
    next.Quiet where
  pool := by rw [relisted.frame]; exact quiet.pool
  batches := by rw [relisted.frame]; exact quiet.batches
  forwards := by rw [relisted.frame]; exact quiet.forwards
  unmapped := relisted.denomToERC20.trans quiet.unmapped
  voucherless denom token reads := by rw [relisted.supply]; exact quiet.voucherless denom token reads
  unobserved := by rw [relisted.frame]; exact quiet.unobserved
  numbered := by rw [relisted.frame]; exact quiet.numbered
  listed := listed

theorem Ledger.Quiet.bank {bank : Bank} (supply : bank.supply = ledger.bank.supply) :
    { ledger with bank := bank }.Quiet :=
  { quiet with voucherless := fun denom token
    reads => by rw [supply]; exact quiet.voucherless denom token reads }

/-- There is nothing to lock: registered denoms and vouchers do not exist. -/
theorem Ledger.Quiet.not_issued {middle : Ledger} (settled : Settled ext ledger middle)
    {tx : OutgoingTransferTx} : ¬ Issued ext middle denom tx next := by
  intro issued
  obtain ⟨origin, classified, _⟩ := issued.classified
  obtain ⟨held, _⟩ := issued.result
  rcases (classifyDenom_cases classified).2 with ⟨mapped, _⟩ | ⟨reads, _⟩
  · have registered := (middle.registry.paired denom origin.erc20).mpr mapped
    rw [settled.denomToERC20, quiet.unmapped] at registered
    simp at registered
  · have bound := held.trans (middle.bank.balances_le_supply tx.sender denom)
    rw [settled.supply, quiet.voucherless denom origin.erc20 reads] at bound
    exact absurd issued.positive (Nat.not_lt.mpr bound)

theorem Ledger.Quiet.deliver (tidy : Tidy ext ledger) {msg : LedgerMsg}
    (delivered : ledger.deliver ext context msg = .ok next) : next.Quiet := by
  cases msg with
  | sendToEth auctionable msg =>
    simp only [Ledger.deliver, bind_eq_ok] at delivered
    obtain ⟨_, signed, _, _, sent⟩ := delivered
    obtain ⟨tx, moves⟩ := sendToEth_moves signed sent
    cases moves with
    | cons first rest =>
      cases rest with
      | cons second _ =>
        cases second with
        | issued _ issued =>
          cases first with
          | settled settled => exact absurd issued (quiet.not_issued settled)
          | forwarded found _ _ => simp [quiet.forwards] at found
  | cancelSendToEth msg =>
    simp only [Ledger.deliver, Ledger.cancelSendToEth, bind_eq_ok] at delivered
    obtain ⟨_, _, sender, _, removed⟩ := delivered
    obtain ⟨tx, _, _, refunded⟩ := tidy.outgoing.removeFromOutgoingPoolAndRefund removed
    have pooled := refunded.pooled
    simp [quiet.pool] at pooled
  | requestBatch msg =>
    simp only [Ledger.deliver, Ledger.requestBatch, bind_eq_ok, rewrap_eq_ok, pure_eq_ok,
      Prod.exists] at delivered
    obtain ⟨_, _, _, _, _, _, _, _, _, _, batch, _, ran, rfl⟩ := delivered
    obtain ⟨_, _, _, _, _, _, nonempty, rfl, _⟩ := buildOutgoingTXBatch_eq_ok ran
    obtain ⟨_, built⟩ := tidy.outgoing.buildOutgoingTXBatch ran
    have nothing := built.pool
    rw [quiet.pool, values_empty, List.nil_perm, List.append_eq_nil_iff] at nothing
    exact absurd nothing.1 nonempty
  | confirmBatch msg signatureOk =>
    simp only [Ledger.deliver, Ledger.confirmBatch, bind_eq_ok, rewrap_eq_ok, pure_eq_ok] at delivered
    obtain ⟨_, _, _, _, _, _, _, _, _, _, _, _, rfl⟩ := delivered
    exact { quiet with }
  | executeIbcAutoForwards effects =>
    cases effects with
    | nil => exact pure_eq_ok.mp delivered ▸ quiet
    | cons effect rest =>
      simp only [Ledger.deliver, Ledger.processPendingIbcAutoForwards,
        Ledger.getNextPendingIbcAutoForward, quiet.forwards, values_empty,
        List.head?_nil] at delivered
      exact pure_eq_ok.mp delivered ▸ quiet
  | setCosmosBridgeableTokens metadatas =>
    exact quiet.relisted (handleSetCosmosBridgeableTokensProposal_relisted delivered)
      (quiet.listed.set delivered)
  | deleteCosmosBridgeableTokens metadatas =>
    exact quiet.relisted (handleDeleteCosmosBridgeableTokensProposal_relisted delivered)
      (quiet.listed.delete delivered)
  | setDenomMetaData metadata =>
    obtain rfl := pure_eq_ok.mp delivered
    exact quiet.bank rfl
  | bankSend sender receiver coin =>
    simp only [Ledger.deliver, bind_eq_ok, Bank.sendCoins_eq_ok, pure_eq_ok] at delivered
    obtain ⟨_, _, _, _, bank, ⟨_, rfl⟩, rfl⟩ := delivered
    exact quiet.bank rfl

/-- A new request takes the next nonce. -/
theorem Ledger.Quiet.setValsetRequest {bonded : List BondedValidator}
    (requested : ledger.setValsetRequest ext context bonded = .ok next) : next.Quiet := by
  obtain ⟨valset, _, following, _, _, _, rfl⟩ := setValsetRequest_eq_ok requested
  refine { quiet with numbered := ⟨fun nonce other found => ?_, fun nonce other found => ?_,
    .inr ⟨valset, ?_⟩⟩ }
  · simp only [Ledger.setPastEthSignatureCheckpoint, get_set] at found
    split_ifs at found with here
    · exact Option.some.inj found ▸ here
    · exact quiet.numbered.keyed nonce other found
  · simp only [Ledger.setPastEthSignatureCheckpoint, get_set] at found
    change nonce ≤ valset.nonce
    split_ifs at found with here
    · exact here.le
    · have bound := quiet.numbered.bound nonce other found
      omega
  · simp only [Ledger.setPastEthSignatureCheckpoint, get_set, if_true]

theorem Ledger.Quiet.maintain {env : ValsetEnv}
    (maintained : ledger.maintain ext context env = .ok next) : next.Quiet := by
  simp only [Ledger.maintain, Outgoing.cleanupTimedOutBatches, Outgoing.getOutgoingTxBatches,
    quiet.batches, values_empty, List.reverse_nil, List.foldlM_nil, bind_eq_ok,
    pure_eq_ok] at maintained
  obtain ⟨_, rfl, requested, created, rfl⟩ := maintained
  have quietRequested : requested.Quiet := by
    rcases createValsets_cases created with made | ⟨rfl, -⟩
    · exact quiet.setValsetRequest made
    · exact quiet
  simpa [Ledger.pruneValsets, quietRequested.unobserved] using quietRequested

end

/-! ## The module -/

/-- Nobody has voted. -/
structure State.Quiet (state : State) : Prop where
  unvoted : state.oracle.attestations = .empty
  ledger : state.ledger.Quiet

/-- No step of a validator's vote. -/
def Label.Unvoted : Label → Prop
  | .attest _ _ => False
  | .submitClaim voter _ => voter.validator = none
  | _ => True

variable {state final : State} {label : Label} {handled trace : List EthereumClaim}
  {oracle : Oracle}

theorem deleteWhere_of_unvoted {outdated : Nat → Bool} (unvoted : oracle.attestations = .empty) :
    oracle.deleteWhere ext outdated = .ok oracle := by
  simp [Oracle.deleteWhere, Oracle.getAttestations, unvoted]

theorem State.Quiet.step (quiet : state.Quiet) (tidy : Tidy ext state.ledger) (silent : label.Unvoted)
    (took : Keeper.step ext label state = (handled, .ok final)) : final.Quiet := by
  cases step_cases took with
  | rejected => exact quiet
  | voted label attested =>
    rcases label with rfl | ⟨voter, rfl, rfl⟩
    · exact silent.elim
    · have unknown : voter.validator = none := silent
      simp [Oracle.attest, unknown, unwrap, panicking] at attested
  | delivered delivered => exact ⟨quiet.unvoted, quiet.ledger.deliver tidy delivered⟩
  | @rolledBack targetNonce oracle pruned =>
    have unchanged : state.oracle.pruneAttestationsAfterNonce ext targetNonce.val =
        .ok state.oracle := by
      unfold Oracle.pruneAttestationsAfterNonce
      split_ifs
      · rfl
      · rw [deleteWhere_of_unvoted quiet.unvoted, ok_bind, Oracle.getAttestations, quiet.unvoted]
        rfl
    obtain rfl := Except.ok.inj (unchanged.symm.trans pruned)
    exact quiet
  | configured => exact ⟨quiet.unvoted, quiet.ledger⟩
  | @ended _ _ _ tallied _ _ tally maintained pruned =>
    -- Without attestations the tally has nothing to look at.
    obtain rfl : state = tallied := by
      unfold State.attestationTally at tally
      split_ifs at tally
      · rw [Oracle.getAttestations, quiet.unvoted] at tally
        exact Except.ok.inj (Prod.mk.inj tally).2
      · exact Except.ok.inj (Prod.mk.inj tally).2
    have unpruned : state.oracle.pruneAttestations ext = .ok state.oracle := by
      unfold Oracle.pruneAttestations
      split_ifs
      · rfl
      · exact deleteWhere_of_unvoted quiet.unvoted
    obtain rfl := Except.ok.inj (unpruned.symm.trans pruned)
    exact ⟨quiet.unvoted, quiet.ledger.maintain maintained⟩

/-! ## The chain -/

/-- No validator has registered an Ethereum key. -/
def Chain.Keyless (chain : Chain) : Prop := chain.delegates.ethAddressByValidator = .empty

/-- What the absence of keys leaves of the chain. -/
structure Chain.Silent (chain : Chain) : Prop where
  module : chain.state.Quiet
  valsetConfirms : chain.valsetConfirms = .empty
  logicCalls : chain.logicCalls = .empty

variable {chain after : Chain} {chainLabel : ChainLabel}

section

variable (consistent : chain.delegates.Consistent)

include consistent

theorem Delegates.Consistent.getOrchestratorValidator_of_keyless
    (keyless : chain.Keyless) (orchestrator : AccAddress) :
    chain.delegates.getOrchestratorValidator chain.staking orchestrator = none := by
  have nobody : chain.delegates.validatorByOrchestrator.get orchestrator = none := by
    by_contra registered
    obtain ⟨validator, found⟩ := Option.ne_none_iff_exists'.mp registered
    obtain ⟨address, signed⟩ := consistent.signs orchestrator validator found
    rw [keyless] at signed
    simp at signed
  simp [Delegates.getOrchestratorValidator, Delegates.getOrchestratorValidatorAddr, nobody]

theorem Chain.resolve_unvoted (keyless : chain.Keyless) (label : Label) :
    (chain.resolve ext label).Unvoted := by
  have unknown : ∀ claim, (chain.voter ext claim).validator = none := by
    intro claim
    unfold Chain.voter
    split
    · rfl
    · rw [consistent.getOrchestratorValidator_of_keyless keyless]
  cases label with
  | attest validator claim => exact unknown claim
  | submitClaim voter claim => exact unknown claim
  | ledger msg =>
    cases msg with
    | _ => trivial
  | unhaltBridge targetNonce => trivial
  | updateParams params => trivial
  | setHrpIbcRecord hrp channel => trivial
  | endBlock powers env => trivial

theorem Chain.valsetConfirm_of_keyless (keyless : chain.Keyless)
    (msg : MsgValsetConfirm) : chain.valsetConfirm ext msg ≠ .ok after := by
  intro confirmed
  simp only [Chain.valsetConfirm, bind_eq_ok, Delegates.confirmHandlerCommon_eq_ok] at confirmed
  obtain ⟨_, _, _, _, orchestrator, _, _, ⟨_, _, validator, _, _, found, _⟩, _⟩ := confirmed
  rw [consistent.getOrchestratorValidator_of_keyless keyless] at found
  contradiction

end

theorem Chain.Silent.step (silent : chain.Silent) (tidy : Tidy ext chain.state.ledger)
    (consistent : chain.delegates.Consistent) (keyless : chain.Keyless)
    (took : Chain.step ext chainLabel chain = (handled, .ok after)) : after.Silent := by
  cases Chain.step_cases took with
  | rejected => exact silent
  | delivered _ stepped =>
    exact { silent with
      module := silent.module.step tidy (chain.resolve_unvoted consistent keyless _) stepped }
  | ended _ stepped frame =>
    rw [frame, silent.valsetConfirms, silent.logicCalls]
    exact ⟨silent.module.step tidy (by exact trivial) stepped,
      List.foldl_fixed' (fun _ => rfl) _, rfl⟩
  | valsetConfirmed confirmed =>
    exact absurd confirmed (Chain.valsetConfirm_of_keyless consistent keyless _)
  | _ => exact { silent with }

theorem Chain.Empty.silent (empty : Chain.Empty ext chain) : chain.Silent := by
  refine ⟨⟨empty.bridge.unvoted.1.attestations, ?_⟩, empty.valsetConfirms, empty.logicCalls⟩
  have voucherless := empty.bridge.voucherless
  rw [empty.bridge.unused] at voucherless ⊢
  exact ⟨rfl, rfl, rfl, rfl, voucherless, rfl,
    ⟨by simp [Ledger.unused], by simp [Ledger.unused], .inl rfl⟩,
    ⟨by simp [Ledger.unused], by simp [Ledger.unused], by simp [Ledger.unused],
      by simp [Ledger.unused]⟩⟩

/-- Keys are never removed, so a chain without keys never had any. -/
theorem Chain.silent_of_keyless (reach : Chain.Reachable ext (Chain.Empty ext) trace chain)
    (keyless : chain.Keyless) : chain.Silent := by
  induction reach with
  | start empty => exact empty.silent
  | @step _ _ before next _ earlier took _ ih =>
    have consistent := Chain.consistent_of_reachable earlier
    have extended := (Chain.step_cases took).delegates consistent
    have keylessBefore : before.Keyless := by
      refine ext_get fun validator => ?_
      rw [get_empty, Option.eq_none_iff_forall_not_mem]
      intro address found
      have kept := extended.addresses validator address found
      rw [keyless] at kept
      simp at kept
    exact (ih keylessBefore).step (Chain.tidy_of_reachable earlier) consistent keylessBefore took

end GravityBridge.Keeper
