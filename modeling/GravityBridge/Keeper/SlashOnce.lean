import GravityBridge.Keeper.ValsetLife

/-!
# One slash for one omission

The end of a block slashes for validator sets, then for batches, then for logic calls. Each stage
walks over a list of validators that it read before it jailed any of them, and reads a validator
once more before it slashes. Whoever was slashed before in the same block is in jail by then.
-/

namespace GravityBridge.Keeper

open Lib.Fallible Lib.ByteString Lib.Store
open GravityBridge.Types List

/-! ## Slashing for unsigned logic calls -/

/-- What a pass over the logic calls changes, and the calls that it has examined so far. -/
structure CallPass extends Docket where
  lastSlashedLogicCallBlock : Nat
  examined : List OutgoingLogicCall

/-- `GetUnSlashedLogicCalls`, which does not use the height it is given. -/
def getUnSlashedLogicCalls (logicCalls : KVStore Bytes OutgoingLogicCall)
    (lastSlashedLogicCallBlock : Nat) : List OutgoingLogicCall :=
  logicCalls.values.filter (fun call => lastSlashedLogicCallBlock < call.cosmosBlockCreated)

/-- `SetLastSlashedLogicCallBlock`, with the text of the check for batches. -/
def setLastSlashedLogicCallBlock (lastSlashedLogicCallBlock blockHeight : Nat) : Go Nat := do
  check (lastSlashedLogicCallBlock ≤ blockHeight) "Attempted to decrement LastSlashedBatchBlock"
  pure blockHeight

namespace Chain

variable (ext : External)

def examineLogicCall (chain : Chain) (currentBondedSet : List Validator) (pass : CallPass)
    (call : OutgoingLogicCall) : Go CallPass := do
  let confirms ← chain.prepLogicCallConfirms ext call
  let docket ← currentBondedSet.foldlM (Docket.visitBonded (.logicCall call) confirms) pass.toDocket
  let lastSlashedLogicCallBlock ←
    setLastSlashedLogicCallBlock pass.lastSlashedLogicCallBlock call.cosmosBlockCreated
  pure ⟨docket, lastSlashedLogicCallBlock, pass.examined ++ [call]⟩

def logicCallSlashing (chain : Chain) (signedLogicCallsWindow : Nat) (docket : Docket) :
    Go CallPass :=
  if signedLogicCallsWindow < chain.state.blockHeight then
    (getUnSlashedLogicCalls chain.logicCalls chain.lastSlashedLogicCallBlock).foldlM
      (chain.examineLogicCall ext docket.staking.getBondedValidatorsByPower)
      ⟨docket, chain.lastSlashedLogicCallBlock, []⟩
  else pure ⟨docket, chain.lastSlashedLogicCallBlock, []⟩

/-- `slashing`, with its calls of `Slash`. Each stage goes on with the validators that the one
before has left. -/
def slashing (chain : Chain) (queue : UnbondingQueue) (signedLogicCallsWindow : Nat) :
    Go (Chain × List Slash) := do
  let valsets ← chain.valsetSlashing ext queue
  let batches ← { chain.slashingBlock with docket := valsets.toDocket }.batchSlashing ext
    chain.lastSlashedBatchBlock
  let calls ← chain.logicCallSlashing ext signedLogicCallsWindow batches.toDocket
  pure ({ chain with
    staking := calls.staking
    lastSlashedValsetNonce := valsets.lastSlashedValsetNonce
    lastSlashedBatchBlock := batches.lastSlashedBatchBlock
    lastSlashedLogicCallBlock := calls.lastSlashedLogicCallBlock }, calls.slashes)

end Chain

/-! ## Omissions -/

/-- What is stored and has to be signed. -/
def Chain.Pending (chain : Chain) : Duty → Prop
  | .valset valset => valset ∈ chain.state.ledger.valsets.requests.values
  | .batch batch => batch ∈ chain.state.ledger.outgoing.batches.values
  | .logicCall call => call ∈ chain.logicCalls.values

/-- The orchestrators named in the stored confirms. -/
def Chain.confirmers (chain : Chain) : Duty → List Bytes
  | .valset valset => (chain.getValsetConfirms valset.nonce).map (fun confirm => confirm.orchestrator)
  | .batch batch =>
    (chain.state.ledger.outgoing.getBatchConfirmByNonceAndTokenContract batch.batchNonce
      batch.tokenContract).map (fun confirm => confirm.orchestrator)
  | .logicCall call => (chain.getLogicConfirmsByInvalidationIdAndNonce call.invalidationId
      call.invalidationNonce).map (fun confirm => confirm.orchestrator)

/-- Something was made after the validator started to sign, and no orchestrator of the validator has
confirmed it. -/
structure Chain.Omitted (ext : External) (chain : Chain) (validator : Validator)
    (duty : Duty) : Prop where
  pending : chain.Pending duty
  started : validator.startHeight < duty.created
  unconfirmed : ∀ orchestrator ∈ chain.confirmers duty, ∀ account,
  accAddressFromBech32 ext orchestrator = .ok account →
    chain.delegates.getOrchestratorValidatorAddr account ≠ some validator.operator

variable {ext : External} {chain after : Chain} {slashes : List Slash} {docket next : Docket}
  {duty : Duty} {confirms : List ValAddress} {queue : UnbondingQueue} {signedLogicCallsWindow : Nat}

/-- The validators behind the stored confirms of a duty, all of them. -/
def Chain.Prepared (ext : External) (chain : Chain) (duty : Duty)
    (confirms : List ValAddress) : Prop :=
  ∀ orchestrator ∈ chain.confirmers duty, ∀ account validator,
    accAddressFromBech32 ext orchestrator = .ok account →
    chain.delegates.getOrchestratorValidatorAddr account = some validator → validator ∈ confirms

theorem Chain.prepared_of_mapM {α : Type} {message : String} {orchestratorOf : α → Bytes}
    {items : List α}
    (ran : items.mapM (fun item => chain.delegates.identify ext message (orchestratorOf item)) =
      .ok confirms)
    (own : chain.confirmers duty = items.map orchestratorOf) : chain.Prepared ext duty confirms := by
  intro orchestrator named account validator decoded known
  obtain ⟨item, member, rfl⟩ := mem_map.mp (own ▸ named)
  obtain ⟨found, inside, same⟩ := mem_of_mapM ran member
  simp only [Delegates.identify, decoded, known, orPanic, unwrap, ok_bind, Except.ok.injEq] at same
  exact same ▸ inside

/-! ## What every visit keeps -/

/-- The calls of `Slash` so far were one for each validator, for omissions of validators that were
free and are in jail now. Jailing does not touch the heights at which validators started to sign. -/
structure Docket.Fair (ext : External) (chain : Chain) (docket : Docket) : Prop where
  heights : ∀ operator, (docket.staking.validators.get operator).map Validator.startHeight =
    (chain.staking.validators.get operator).map Validator.startHeight
  once : (docket.slashes.map (fun slash => slash.validator.operator)).Nodup
  free : ∀ slash ∈ docket.slashes, slash.validator.jailed = false
  omitted : ∀ slash ∈ docket.slashes, chain.Omitted ext slash.validator slash.duty
  jailed : ∀ slash ∈ docket.slashes, ∃ validator,
    docket.staking.validators.get slash.validator.operator = some validator ∧ validator.jailed = true

theorem Chain.docket_fair (ext : External) (chain : Chain) : chain.docket.Fair ext chain :=
  ⟨fun _ => rfl, nodup_nil, nofun, nofun, nofun⟩

theorem Docket.Fair.slashMissing {owes : Bool} {operator : ValAddress} (fair : docket.Fair ext chain)
    (pending : chain.Pending duty) (prepared : chain.Prepared ext duty confirms)
    (started : owes = true → ∀ validator, docket.staking.validators.get operator = some validator →
      validator.startHeight < duty.created)
    (ran : docket.slashMissing duty confirms owes operator = .ok next) : next.Fair ext chain := by
  unfold Docket.slashMissing at ran
  split_ifs at ran with missing
  · simp only [bind_eq_ok, unwrap_eq_ok, pure_eq_ok] at ran
    obtain ⟨refreshed, stored, rfl⟩ := ran
    obtain rfl := docket.staking.keyed operator refreshed stored
    split_ifs with jailed
    · exact fair
    · have free : refreshed.jailed = false := by simpa using jailed
      have fresh : refreshed.operator ∉
          docket.slashes.map (fun slash => slash.validator.operator) := by
        intro slashed
        obtain ⟨slash, member, same⟩ := mem_map.mp slashed
        obtain ⟨validator, found, inJail⟩ := fair.jailed slash member
        rw [same, stored, Option.some.injEq] at found
        rw [← found, free] at inJail
        contradiction
      refine ⟨fun operator => ?_, ?_, ?_, ?_, ?_⟩
      · rw [← fair.heights operator]
        change ((docket.staking.jail refreshed.operator).validators.get operator).map
          Validator.startHeight = _
        rw [Staking.jail, Staking.get_withJailed]
        split_ifs with same
        · rw [same, Option.map_map]
          rfl
        · rfl
      · rw [map_append, nodup_append]
        refine ⟨fair.once, nodup_singleton _, ?_⟩
        intro before inside after now same
        rw [same, mem_singleton.mp now] at inside
        exact fresh inside
      · exact forall_mem_append.mpr ⟨fair.free, forall_mem_singleton.mpr free⟩
      · refine forall_mem_append.mpr ⟨fair.omitted, forall_mem_singleton.mpr
          ⟨pending, started missing.1 refreshed stored, ?_⟩⟩
        intro orchestrator named account decoded known
        exact missing.2 (prepared orchestrator named account _ decoded known)
      · have jails : ∀ operator,
            (∃ validator, docket.staking.validators.get operator = some validator ∧
              (validator.jailed = true ∨ operator = refreshed.operator)) →
            ∃ validator, (docket.staking.jail refreshed.operator).validators.get operator =
              some validator ∧ validator.jailed = true := by
          rintro operator ⟨validator, found, inJail⟩
          rw [Staking.jail, Staking.get_withJailed]
          split_ifs with same
          · rw [stored]
            exact ⟨_, rfl, rfl⟩
          · exact ⟨validator, found, inJail.resolve_right same⟩
        refine forall_mem_append.mpr ⟨fun slash member => jails _ ?_,
          forall_mem_singleton.mpr (jails _ ?_)⟩
        · obtain ⟨validator, found, inJail⟩ := fair.jailed slash member
          exact ⟨validator, found, .inl inJail⟩
        · exact ⟨refreshed, stored, .inr rfl⟩
  · exact pure_eq_ok.mp ran ▸ fair

/-- Validators as they were read before, with the heights at which they started to sign. -/
def Chain.Snapshot (chain : Chain) (validators : List Validator) : Prop :=
  ∀ validator ∈ validators, (chain.staking.validators.get validator.operator).map
    Validator.startHeight = some validator.startHeight

theorem Docket.Fair.snapshot (fair : docket.Fair ext chain) :
    chain.Snapshot docket.staking.getBondedValidatorsByPower := by
  intro validator member
  obtain ⟨operator, _, found⟩ := mem_filterMap.mp member
  obtain rfl := docket.staking.keyed operator validator found
  rw [← fair.heights, found, Option.map_some]

variable {currentBondedSet : List Validator}

theorem Docket.Fair.bondedLoop (fair : docket.Fair ext chain)
    (snapshot : chain.Snapshot currentBondedSet) (pending : chain.Pending duty)
    (prepared : chain.Prepared ext duty confirms)
    (ran : currentBondedSet.foldlM (Docket.visitBonded duty confirms) docket = .ok next) :
    next.Fair ext chain := by
  refine foldlM_invariant (fun docket => docket.Fair ext chain) ?_ fair ran
  intro current validator after member fair visited
  refine fair.slashMissing pending prepared (fun owes stored found => ?_) visited
  have height := fair.heights validator.operator
  rw [found, snapshot validator member, Option.map_some, Option.some.injEq] at height
  rw [height]
  exact (of_decide_eq_true owes).trans_le (int64_le _)

theorem Docket.Fair.unbondingLoop {unbondSlashingValsetsWindow : Nat} (fair : docket.Fair ext chain)
    (pending : chain.Pending (.valset valset))
    (prepared : chain.Prepared ext (.valset valset) confirms)
    (ran : queue.addresses.foldlM
      (Docket.visitUnbonding queue unbondSlashingValsetsWindow valset confirms) docket =
      .ok next) : next.Fair ext chain := by
  refine foldlM_invariant (fun docket => docket.Fair ext chain) ?_ fair ran
  intro current address after _ fair visited
  simp only [Docket.visitUnbonding, bind_eq_ok, unwrap_eq_ok] at visited
  obtain ⟨validator, stored, visited⟩ := visited
  refine fair.slashMissing pending prepared (fun owes other found => ?_) visited
  rw [current.staking.keyed address validator stored, stored, Option.some.injEq] at found
  rw [← found]
  exact (of_decide_eq_true owes).1.trans_le (int64_le _)

theorem Chain.valsetSlashing_fair {pass : ValsetPass}
    (ran : chain.valsetSlashing ext queue = .ok pass) : pass.Fair ext chain := by
  unfold Chain.valsetSlashing at ran
  split_ifs at ran with early
  · exact pure_eq_ok.mp ran ▸ chain.docket_fair ext
  · refine foldlM_invariant (fun pass => pass.Fair ext chain) ?_ (chain.docket_fair ext) ran
    intro current valset after due fair examined
    simp only [Chain.examineValset, bind_eq_ok, pure_eq_ok] at examined
    obtain ⟨confirms, ranConfirms, bonded, ranBonded, unbonding, ranUnbonding, rfl⟩ := examined
    obtain ⟨⟨nonce, stored, -⟩, -⟩ := mem_getUnSlashedValsets.mp due
    have pending : chain.Pending (.valset valset) := KVStore.mem_values.mpr ⟨_, stored⟩
    have prepared : chain.Prepared ext (.valset valset) confirms :=
      Chain.prepared_of_mapM ranConfirms rfl
    exact (fair.bondedLoop (chain.docket_fair ext).snapshot pending prepared
      ranBonded).unbondingLoop pending prepared ranUnbonding

theorem Docket.Fair.batchSlashing (fair : docket.Fair ext chain) {pass : SlashingPass}
    (ran : { chain.slashingBlock with docket := docket }.batchSlashing ext
      chain.lastSlashedBatchBlock = .ok pass) :
    pass.Fair ext chain := by
  unfold SlashingBlock.batchSlashing at ran
  split_ifs at ran with late
  · refine foldlM_invariant (fun pass => pass.Fair ext chain) ?_ fair ran
    intro current batch after due fairNow examined
    simp only [examineBatch, bind_eq_ok, pure_eq_ok] at examined
    obtain ⟨confirms, ranConfirms, bonded, ranBonded, _, _, rfl⟩ := examined
    have pending : chain.Pending (.batch batch) := mem_reverse.mp (mem_filter.mp due).1
    exact fairNow.bondedLoop fair.snapshot pending (Chain.prepared_of_mapM ranConfirms rfl) ranBonded
  · exact pure_eq_ok.mp ran ▸ fair

theorem Docket.Fair.logicCallSlashing (fair : docket.Fair ext chain) {pass : CallPass}
    (ran : chain.logicCallSlashing ext signedLogicCallsWindow docket = .ok pass) :
    pass.Fair ext chain := by
  unfold Chain.logicCallSlashing at ran
  split_ifs at ran with late
  · refine foldlM_invariant (fun pass => pass.Fair ext chain) ?_ fair ran
    intro current call after due fairNow examined
    simp only [Chain.examineLogicCall, bind_eq_ok, pure_eq_ok] at examined
    obtain ⟨confirms, ranConfirms, bonded, ranBonded, _, _, rfl⟩ := examined
    have pending : chain.Pending (.logicCall call) := (mem_filter.mp due).1
    exact fairNow.bondedLoop fair.snapshot pending (Chain.prepared_of_mapM ranConfirms rfl) ranBonded
  · exact pure_eq_ok.mp ran ▸ fair

/-! ## The result -/

/-- Slashing that does not panic calls `Slash` at most once for each validator, and every call is
for a validator that was not in jail, for an omission of it, and leaves it in jail. -/
theorem slashed_once_for_omission
    (ran : chain.slashing ext queue signedLogicCallsWindow = .ok (after, slashes)) :
    (slashes.map (fun slash => slash.validator.operator)).Nodup ∧
      ∀ slash ∈ slashes, slash.validator.jailed = false ∧
        chain.Omitted ext slash.validator slash.duty ∧
        ∃ validator, after.staking.validators.get slash.validator.operator = some validator ∧
          validator.jailed = true := by
  simp only [Chain.slashing, bind_eq_ok, pure_eq_ok, Prod.mk.injEq] at ran
  obtain ⟨valsets, ranValsets, batches, ranBatches, calls, ranCalls, rfl, rfl⟩ := ran
  have fair := ((Chain.valsetSlashing_fair ranValsets).batchSlashing ranBatches).logicCallSlashing
    ranCalls
  exact ⟨fair.once, fun slash member =>
    ⟨fair.free slash member, fair.omitted slash member, fair.jailed slash member⟩⟩

/-- A validator set of height three and batches of heights five and six, none of them confirmed. -/
def unsignedChain : Chain :=
  { stakeLaunch with
    state := { stakeGenesis with
      blockHeight := 91
      params := { stakeGenesis.params with signedValsetsWindow := 10, signedBatchesWindow := 10 }
      ledger := { stakeGenesis.ledger with
        outgoing := risingBatches
        valsets := ⟨KVStore.empty.set 1 ⟨1, [], 3, some 0, []⟩, 1, none⟩ } } }

/-- The one validator is slashed for the set, and not again for the batches. -/
theorem omissions_slashed_once :
    ∃ after validator, unsignedChain.slashing localnet ⟨[], fun _ => 0⟩ 10 =
        .ok (after, [⟨validator, .valset ⟨1, [], 3, some 0, []⟩⟩]) ∧ after.lastSlashedBatchBlock = 6 ∧
      validator.jailed = false ∧
        unsignedChain.Omitted localnet validator (.valset ⟨1, [], 3, some 0, []⟩) := by
  have outcome : (unsignedChain.slashing localnet ⟨[], fun _ => 0⟩ 10).toOption.map
      (fun result => (result.2, result.1.lastSlashedBatchBlock)) =
        some ([⟨⟨ascii "validator", .bonded, false, 0⟩, .valset ⟨1, [], 3, some 0, []⟩⟩], 6) := by
          decide +kernel
  cases ran : unsignedChain.slashing localnet ⟨[], fun _ => 0⟩ 10 with
  | error fault => simp [ran, Except.toOption] at outcome
  | ok result =>
      obtain ⟨after, slashes⟩ := result
      rw [ran] at outcome
      obtain ⟨rfl, block⟩ := Prod.mk.inj (Option.some.inj outcome)
      obtain ⟨-, each⟩ := slashed_once_for_omission ran
      obtain ⟨free, omitted, -⟩ := each _ (List.mem_singleton_self _)
      exact ⟨after, _, rfl, block, free, omitted⟩

end GravityBridge.Keeper
