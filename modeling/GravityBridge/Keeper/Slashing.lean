import GravityBridge.Keeper.Delegates
import GravityBridge.Keeper.LedgerSteps
import GravityBridge.Lib.Runs

/-!
# Slashing for unsigned batches

Once the signing window of a batch has passed, the end of a block slashes the
bonded validators that did not confirm it. A watermark keeps the creation height
of the last batch examined, and panics when it would fall; the batches themselves
are visited in descending order of their keys.
-/

namespace GravityBridge.Keeper

open Lib.Fallible Lib.ByteString Lib.Store Lib.Runs
open GravityBridge.Types List

/-! ## The staking module -/

namespace Staking

/-- `GetBondedValidatorsByPower`. -/
def getBondedValidatorsByPower (staking : Staking) : List Validator :=
  staking.bondedByPower.filterMap staking.validators.get

/-- The validators with one of them marked as jailed. -/
def withJailed (validators : KVStore ValAddress Validator) (operator : ValAddress) :
    KVStore ValAddress Validator :=
  match validators.get operator with
  | some validator => validators.set operator { validator with jailed := true }
  | none => validators

theorem get_withJailed (validators : KVStore ValAddress Validator) (operator other : ValAddress) :
    (withJailed validators operator).get other = if other = operator
      then (validators.get operator).map (fun validator => { validator with jailed := true })
      else validators.get other := by
  unfold withJailed
  split
  · rename_i validator stored
    rw [KVStore.get_set, stored, Option.map_some]
    split_ifs <;> rfl
  · rename_i absent
    split_ifs with same
    · rw [same, absent]
      rfl
    · rfl

/-- `Jail` also takes the validator off the power index. -/
def jail (staking : Staking) (operator : ValAddress) : Staking where
  validators := withJailed staking.validators operator
  bondedByPower := staking.bondedByPower.filter (· ≠ operator)
  keyed other validator found := by
    rw [get_withJailed] at found
    split_ifs at found with same
    · obtain ⟨stored, inStore, rfl⟩ := Option.map_eq_some_iff.mp found
      rw [same]
      exact staking.keyed operator stored inStore
    · exact staking.keyed other validator found
  bonded other member := by
    obtain ⟨listed, different⟩ := List.mem_filter.mp member
    obtain ⟨validator, stored, status⟩ := staking.bonded other listed
    exact ⟨validator, by rw [get_withJailed, if_neg (by simpa using different), stored], status⟩
  distinct := staking.distinct.filter _

end Staking

/-! ## Slashing a validator -/

/-- What the validators owe their signatures on. -/
inductive Duty where
  | valset (valset : Valset)
  | batch (batch : OutgoingTxBatch)
  | logicCall (call : OutgoingLogicCall)
  deriving DecidableEq, Repr

/-- The height at which it was made. -/
def Duty.created : Duty → Nat
  | .valset made => made.height
  | .batch made => made.cosmosBlockCreated
  | .logicCall made => made.cosmosBlockCreated

/-- A call of `Slash`, with the validator as it was read right before. -/
structure Slash where
  validator : Validator
  duty : Duty
  deriving DecidableEq, Repr

/-- The validators, and the calls of `Slash` so far. -/
structure Docket where
  staking : Staking
  slashes : List Slash

/-- The part that all loops share: a validator that owes a signature and has not given it is read once
more, and slashed and jailed unless it is in jail already. -/
def Docket.slashMissing (duty : Duty) (confirms : List ValAddress) (owes : Bool) (docket : Docket)
    (operator : ValAddress) : Go Docket :=
  if owes = true ∧ operator ∉ confirms then do
    let refreshed ← unwrap "Validator exited set during endblocker?"
      (docket.staking.validators.get operator)
    pure (if refreshed.jailed then docket
      else { docket with
        staking := docket.staking.jail operator
        slashes := docket.slashes ++ [⟨refreshed, duty⟩] })
  else pure docket

/-- Validators that started to sign later owe no signature. The height is compared as a signed
number. -/
def Docket.visitBonded (duty : Duty) (confirms : List ValAddress) (docket : Docket)
    (validator : Validator) : Go Docket :=
  docket.slashMissing duty confirms (decide (validator.startHeight < int64 duty.created))
    validator.operator

/-! ## Examining the batches -/

/-- A batch that was examined, with the validators slashed for it. -/
structure ExaminedBatch where
  batch : OutgoingTxBatch
  slashed : List ValAddress
  deriving DecidableEq, Repr

/-- What a pass over the batches changes, and what it has examined so far. -/
structure SlashingPass extends Docket where
  lastSlashedBatchBlock : Nat
  examined : List ExaminedBatch

/-- `GetUnSlashedBatches`. -/
def Outgoing.getUnSlashedBatches (outgoing : Outgoing) (lastSlashedBatchBlock maxHeight : Nat) :
    List OutgoingTxBatch :=
  outgoing.getOutgoingTxBatches.filter (fun batch =>
    lastSlashedBatchBlock < batch.cosmosBlockCreated ∧ batch.cosmosBlockCreated < maxHeight)

variable (ext : External)

/-- The validator behind a confirm in the store. -/
def Delegates.identify (delegates : Delegates) (undecoded : String) (orchestrator : Bytes) :
    Go ValAddress := do
  let confVal ← orPanic undecoded (accAddressFromBech32 ext orchestrator)
  unwrap "Confirm from validator we can't identify?" (delegates.getOrchestratorValidatorAddr confVal)

/-- `prepBatchConfirms`: the validators behind the confirms of a batch. -/
def prepBatchConfirms (delegates : Delegates) (outgoing : Outgoing) (batch : OutgoingTxBatch) :
    Go (List ValAddress) :=
  (outgoing.getBatchConfirmByNonceAndTokenContract batch.batchNonce batch.tokenContract).mapM
    (fun confirm =>
      delegates.identify ext "decoding bech32 failed" confirm.orchestrator)

/-- `SetLastSlashedBatchBlock`. -/
def setLastSlashedBatchBlock (lastSlashedBatchBlock blockHeight : Nat) : Go Nat := do
  check (lastSlashedBatchBlock ≤ blockHeight) "Attempted to decrement LastSlashedBatchBlock"
  pure blockHeight

def examineBatch (delegates : Delegates) (outgoing : Outgoing) (currentBondedSet : List Validator)
    (pass : SlashingPass) (batch : OutgoingTxBatch) : Go SlashingPass := do
  let confirms ← prepBatchConfirms ext delegates outgoing batch
  let docket ← currentBondedSet.foldlM (Docket.visitBonded (.batch batch) confirms) pass.toDocket
  let lastSlashedBatchBlock ← setLastSlashedBatchBlock pass.lastSlashedBatchBlock
    batch.cosmosBlockCreated
  let slashed := docket.slashes.filter (· ∉ pass.slashes)
  pure ⟨docket, lastSlashedBatchBlock,
    pass.examined ++ [⟨batch, slashed.map (fun slash => slash.validator.operator)⟩]⟩

/-- What a block's end knows when it slashes for batches. -/
structure SlashingBlock where
  outgoing : Outgoing
  delegates : Delegates
  docket : Docket
  blockHeight : Nat
  signedBatchesWindow : Nat

namespace SlashingBlock

/-- The batches whose signing window has passed and that lie above the watermark. -/
def unslashed (block : SlashingBlock) (lastSlashedBatchBlock : Nat) : List OutgoingTxBatch :=
  block.outgoing.getUnSlashedBatches lastSlashedBatchBlock
    (block.blockHeight - block.signedBatchesWindow)

def batchSlashing (block : SlashingBlock) (lastSlashedBatchBlock : Nat) : Go SlashingPass :=
  if block.signedBatchesWindow < block.blockHeight then
    (block.unslashed lastSlashedBatchBlock).foldlM
      (examineBatch ext block.delegates block.outgoing
        block.docket.staking.getBondedValidatorsByPower)
      ⟨block.docket, lastSlashedBatchBlock, []⟩
  else pure ⟨block.docket, lastSlashedBatchBlock, []⟩

end SlashingBlock

variable {ext} {delegates : Delegates} {outgoing : Outgoing} {batch : OutgoingTxBatch} {duty : Duty}
  {docket middle next : Docket} {currentBondedSet : List Validator}

/-! ## Whoever has not signed is in jail afterwards -/

/-- Slashing for a duty has gone over the validators that miss it: those that were free are slashed,
all of them are in jail now, and the others are as they were. -/
structure Docket.Swept (duty : Duty) (misses : ValAddress → Prop) (docket next : Docket) : Prop where
  slashes : ∀ slash, slash ∈ next.slashes ↔ slash ∈ docket.slashes ∨
    (misses slash.validator.operator ∧ slash.duty = duty ∧
      docket.staking.validators.get slash.validator.operator = some slash.validator ∧
      slash.validator.jailed = false)
  jailed : ∀ operator, misses operator → next.staking.validators.get operator =
    (docket.staking.validators.get operator).map (fun validator => { validator with jailed := true })
  kept : ∀ operator, ¬ misses operator →
    next.staking.validators.get operator = docket.staking.validators.get operator

theorem Docket.Swept.refl (duty : Duty) (docket : Docket) :
    docket.Swept duty (fun _ => False) docket :=
  ⟨fun slash => by simp, nofun, fun _ _ => rfl⟩

theorem Docket.Swept.trans {first second : ValAddress → Prop} (start : docket.Swept duty first middle)
    (rest : middle.Swept duty second next) :
    docket.Swept duty (fun operator => first operator ∨ second operator) next where
  slashes slash := by
    rw [rest.slashes, start.slashes]
    by_cases before : first slash.validator.operator
    · rw [start.jailed _ before]
      constructor
      · rintro ((old | ⟨-, new⟩) | ⟨-, -, stored, free⟩)
        · exact .inl old
        · exact .inr ⟨.inl before, new⟩
        · obtain ⟨validator, -, same⟩ := Option.map_eq_some_iff.mp stored
          rw [← same] at free
          contradiction
      · rintro (old | ⟨-, new⟩)
        · exact .inl (.inl old)
        · exact .inl (.inr ⟨before, new⟩)
    · rw [start.kept _ before]
      simp only [before, false_and, or_false, false_or]
  jailed operator missing := by
    by_cases again : second operator
    · rw [rest.jailed operator again]
      by_cases before : first operator
      · rw [start.jailed operator before, Option.map_map]
        rfl
      · rw [start.kept operator before]
    · rw [rest.kept operator again, start.jailed operator (missing.resolve_right again)]
  kept operator clean := by
    obtain ⟨before, again⟩ := not_or.mp clean
    rw [rest.kept operator again, start.kept operator before]

variable {misses : ValAddress → Prop}

theorem Docket.Swept.isSome (swept : docket.Swept duty misses next) (operator : ValAddress) :
    (next.staking.validators.get operator).isSome =
    (docket.staking.validators.get operator).isSome := by
  by_cases missing : misses operator
  · rw [swept.jailed operator missing, Option.isSome_map]
  · rw [swept.kept operator missing]

theorem Docket.slashMissing_swept {confirms : List ValAddress} {owes : Bool} {operator : ValAddress}
    (stored : (docket.staking.validators.get operator).isSome = true) :
    ∃ next, docket.slashMissing duty confirms owes operator = .ok next ∧
      docket.Swept duty (fun other => other = operator ∧ owes = true ∧ operator ∉ confirms) next := by
  obtain ⟨validator, found⟩ := Option.isSome_iff_exists.mp stored
  unfold Docket.slashMissing
  by_cases missing : owes = true ∧ operator ∉ confirms
  · rw [if_pos missing, found]
    refine ⟨_, rfl, ?_⟩
    simp only [missing, not_false_eq_true, and_true]
    obtain rfl := docket.staking.keyed operator validator found
    by_cases inJail : validator.jailed = true
    · rw [if_pos inJail]
      refine ⟨fun slash => ⟨.inl, ?_⟩, ?_, fun _ _ => rfl⟩
      · rintro (old | ⟨same, -, again, free⟩)
        · exact old
        · rw [same, found, Option.some.injEq] at again
          rw [← again, inJail] at free
          contradiction
      · rintro _ rfl
        rw [found, Option.map_some, ← inJail]
    · rw [if_neg inJail]
      refine ⟨fun slash => ?_, ?_, ?_⟩
      · rw [mem_append, mem_singleton]
        refine or_congr_right ⟨?_, ?_⟩
        · rintro rfl
          exact ⟨rfl, rfl, found, by simpa using inJail⟩
        · rintro ⟨same, rfl, again, -⟩
          rw [same, found, Option.some.injEq] at again
          cases slash
          simp_all
      · rintro _ rfl
        change (docket.staking.jail validator.operator).validators.get validator.operator = _
        rw [Staking.jail, Staking.get_withJailed, if_pos rfl]
      · intro other different
        change (docket.staking.jail validator.operator).validators.get other = _
        rw [Staking.jail, Staking.get_withJailed, if_neg different]
  · rw [if_neg missing]
    refine ⟨docket, rfl, ?_⟩
    simpa only [missing, and_false] using Docket.Swept.refl duty docket

/-- The bonded validators are stored. -/
def Docket.Knows (docket : Docket) (validators : List Validator) : Prop :=
  ∀ validator ∈ validators, (docket.staking.validators.get validator.operator).isSome = true

theorem Docket.Swept.knows (swept : docket.Swept duty misses next)
    (knows : docket.Knows currentBondedSet) : next.Knows currentBondedSet :=
  fun validator member => (swept.isSome validator.operator).trans (knows validator member)

theorem Docket.bondedLoop_swept (duty : Duty) (confirms : List ValAddress)
    (knows : docket.Knows currentBondedSet) :
    ∃ next, currentBondedSet.foldlM (Docket.visitBonded duty confirms) docket = .ok next ∧
      docket.Swept duty (fun operator => ∃ validator ∈ currentBondedSet, validator.operator =
        operator ∧ validator.startHeight < int64 duty.created ∧ operator ∉ confirms) next := by
  induction currentBondedSet generalizing docket with
  | nil => exact ⟨docket, rfl, by simpa using Docket.Swept.refl duty docket⟩
  | cons validator rest ih =>
    obtain ⟨middle, visited, first⟩ := docket.slashMissing_swept (knows validator mem_cons_self)
    obtain ⟨next, ran, others⟩ :=
      ih (first.knows fun other member => knows other (mem_cons_of_mem _ member))
    refine ⟨next, by rw [foldlM_cons, Docket.visitBonded, visited, ok_bind, ran], ?_⟩
    have both := first.trans others
    simp only [exists_mem_cons_iff]
    convert both using 3 with operator
    simp only [decide_eq_true_eq]
    constructor
    · rintro ⟨rfl, owes, silent⟩
      exact ⟨rfl, owes, silent⟩
    · rintro ⟨rfl, owes, silent⟩
      exact ⟨rfl, owes, silent⟩

theorem Docket.knows_bonded (docket : Docket) :
    docket.Knows docket.staking.getBondedValidatorsByPower := by
  intro validator member
  obtain ⟨operator, -, found⟩ := mem_filterMap.mp member
  obtain rfl := docket.staking.keyed operator validator found
  exact Option.isSome_iff_exists.mpr ⟨validator, found⟩

/-! ## One batch -/

/-- The validator behind every confirm of the batch is known. -/
def Identified (ext : External) (delegates : Delegates) (outgoing : Outgoing)
    (batch : OutgoingTxBatch) : Prop :=
  ∀ confirm ∈ outgoing.getBatchConfirmByNonceAndTokenContract batch.batchNonce batch.tokenContract,
    ∃ orchestrator validator, accAddressFromBech32 ext confirm.orchestrator = .ok orchestrator ∧
      delegates.getOrchestratorValidatorAddr orchestrator = some validator

theorem prepBatchConfirms_succeeds_iff :
    (∃ confirms, prepBatchConfirms ext delegates outgoing batch = .ok confirms) ↔
      Identified ext delegates outgoing batch := by
  unfold prepBatchConfirms Identified
  generalize outgoing.getBatchConfirmByNonceAndTokenContract batch.batchNonce batch.tokenContract =
    confirms
  induction confirms with
  | nil => simp
  | cons confirm rest ih =>
    simp only [mapM_cons, Delegates.identify, bind_eq_ok, orPanic_eq_ok, unwrap_eq_ok, pure_eq_ok,
      forall_mem_cons]
    rw [← ih]
    constructor
    · rintro ⟨_, validator, ⟨orchestrator, decoded, found⟩, others, ran, rfl⟩
      exact ⟨⟨orchestrator, validator, decoded, found⟩, others, ran⟩
    · rintro ⟨⟨orchestrator, validator, decoded, found⟩, others, ran⟩
      exact ⟨_, validator, ⟨orchestrator, decoded, found⟩, others, ran, rfl⟩

variable {pass : SlashingPass}

/-- A batch is examined without a panic exactly when its confirms are identified and the watermark
need not fall. -/
theorem examineBatch_eq_ok (ext : External) (delegates : Delegates) (outgoing : Outgoing)
    (batch : OutgoingTxBatch) (knows : pass.Knows currentBondedSet) :
    (Identified ext delegates outgoing batch ∧ pass.lastSlashedBatchBlock ≤ batch.cosmosBlockCreated →
      ∃ next, examineBatch ext delegates outgoing currentBondedSet pass batch = .ok next) ∧
    ∀ next, examineBatch ext delegates outgoing currentBondedSet pass batch = .ok next →
      Identified ext delegates outgoing batch ∧
      pass.lastSlashedBatchBlock ≤ batch.cosmosBlockCreated ∧
      next.Knows currentBondedSet ∧ next.lastSlashedBatchBlock = batch.cosmosBlockCreated ∧
      ∃ slashed, next.examined = pass.examined ++ [⟨batch, slashed⟩] := by
  constructor
  · rintro ⟨identified, above⟩
    obtain ⟨confirms, prepared⟩ := prepBatchConfirms_succeeds_iff.mpr identified
    obtain ⟨docket, ran, _⟩ := Docket.bondedLoop_swept (.batch batch) confirms knows
    exact ⟨_, by simp [examineBatch, prepared, ran, setLastSlashedBatchBlock, above]; rfl⟩
  · intro next examined
    simp only [examineBatch, setLastSlashedBatchBlock, bind_eq_ok, check_eq_ok, pure_eq_ok]
      at examined
    obtain ⟨confirms, prepared, docket, ran, _, ⟨_, above, rfl⟩, rfl⟩ := examined
    obtain ⟨_, again, swept⟩ := Docket.bondedLoop_swept (.batch batch) confirms knows
    obtain rfl := Except.ok.inj (again.symm.trans ran)
    exact ⟨prepBatchConfirms_succeeds_iff.mp ⟨confirms, prepared⟩, above, swept.knows knows,
      rfl, _, rfl⟩

/-! ## A whole pass -/

/-- Creation heights do not fall along the list. -/
def Rising (batches : List OutgoingTxBatch) : Prop :=
  batches.Pairwise (fun first second => first.cosmosBlockCreated ≤ second.cosmosBlockCreated)

instance : DecidablePred Rising := fun _ => inferInstanceAs (Decidable (List.Pairwise _ _))

theorem examineLoop {batches : List OutgoingTxBatch} (knows : pass.Knows currentBondedSet) :
    ((∀ batch ∈ batches, Identified ext delegates outgoing batch ∧
        pass.lastSlashedBatchBlock ≤ batch.cosmosBlockCreated) ∧ Rising batches →
      ∃ next, batches.foldlM (examineBatch ext delegates outgoing currentBondedSet) pass = .ok next) ∧
    ∀ next, batches.foldlM (examineBatch ext delegates outgoing currentBondedSet) pass = .ok next →
      (∀ batch ∈ batches, Identified ext delegates outgoing batch) ∧ Rising batches ∧
      (∀ batch ∈ batches, pass.lastSlashedBatchBlock ≤ batch.cosmosBlockCreated) ∧
      next.examined.map ExaminedBatch.batch = pass.examined.map ExaminedBatch.batch ++ batches ∧
      next.lastSlashedBatchBlock =
        (batches.map OutgoingTxBatch.cosmosBlockCreated).foldl max pass.lastSlashedBatchBlock := by
  induction batches generalizing pass with
  | nil =>
    refine ⟨fun _ => ⟨pass, rfl⟩, fun next ran => ?_⟩
    obtain rfl : pass = next := by simpa using ran
    simp [Rising]
  | cons batch rest ih =>
    obtain ⟨examines, examined⟩ := examineBatch_eq_ok ext delegates outgoing batch knows
    constructor
    · rintro ⟨fit, rising⟩
      obtain ⟨identified, above⟩ := fit batch mem_cons_self
      obtain ⟨middle, ran⟩ := examines ⟨identified, above⟩
      obtain ⟨_, _, knowsNext, watermark, _⟩ := examined middle ran
      obtain ⟨next, ranRest⟩ := (ih knowsNext).1 ⟨fun other member =>
        ⟨(fit other (mem_cons_of_mem _ member)).1,
          watermark ▸ (pairwise_cons.mp rising).1 other member⟩,
        (pairwise_cons.mp rising).2⟩
      exact ⟨next, by rw [foldlM_cons, ran]; exact ranRest⟩
    · intro next ran
      rw [foldlM_cons, bind_eq_ok] at ran
      obtain ⟨middle, first, ran⟩ := ran
      obtain ⟨identified, above, knowsNext, watermark, slashed, log⟩ := examined middle first
      obtain ⟨others, rising, later, logRest, last⟩ := (ih knowsNext).2 next ran
      rw [watermark] at later last
      refine ⟨forall_mem_cons.mpr ⟨identified, others⟩, pairwise_cons.mpr ⟨later, rising⟩,
        forall_mem_cons.mpr ⟨above, fun other member => above.trans (later other member)⟩, ?_, ?_⟩
      · rw [logRest, log]
        simp
      · rw [last, map_cons, foldl_cons, max_eq_right above]

variable {block : SlashingBlock} {lastSlashedBatchBlock : Nat}

theorem SlashingBlock.mem_unslashed :
    batch ∈ block.unslashed lastSlashedBatchBlock ↔ batch ∈ block.outgoing.batches.values ∧
      lastSlashedBatchBlock < batch.cosmosBlockCreated ∧
      batch.cosmosBlockCreated < block.blockHeight - block.signedBatchesWindow := by
  simp [SlashingBlock.unslashed, Outgoing.getUnSlashedBatches, Outgoing.getOutgoingTxBatches]

/-- Before the window has passed once there is nothing to examine. -/
theorem SlashingBlock.unslashed_early (lastSlashedBatchBlock : Nat)
    (early : ¬ block.signedBatchesWindow < block.blockHeight) :
    block.unslashed lastSlashedBatchBlock = [] := by
  refine eq_nil_iff_forall_not_mem.mpr fun batch member => ?_
  have bounds := SlashingBlock.mem_unslashed.mp member
  omega

theorem SlashingBlock.batchSlashing_eq (ext : External) (block : SlashingBlock)
    (lastSlashedBatchBlock : Nat) :
    block.batchSlashing ext lastSlashedBatchBlock = (block.unslashed lastSlashedBatchBlock).foldlM
      (examineBatch ext block.delegates block.outgoing
        block.docket.staking.getBondedValidatorsByPower)
      ⟨block.docket, lastSlashedBatchBlock, []⟩ := by
  unfold SlashingBlock.batchSlashing
  split_ifs with late
  · rfl
  · rw [block.unslashed_early lastSlashedBatchBlock late]
    rfl

/-- Every batch that is due is examined exactly once, and the watermark is the greatest height
seen. -/
structure SlashingPass.Complete (block : SlashingBlock) (lastSlashedBatchBlock : Nat)
    (pass : SlashingPass) : Prop where
  examined : ∀ batch, batch ∈ pass.examined.map ExaminedBatch.batch ↔
    batch ∈ block.outgoing.batches.values ∧ lastSlashedBatchBlock < batch.cosmosBlockCreated ∧
    batch.cosmosBlockCreated < block.blockHeight - block.signedBatchesWindow
  once : (pass.examined.map ExaminedBatch.batch).Nodup
  watermark : pass.lastSlashedBatchBlock =
    (pass.examined.map (fun examined => examined.batch.cosmosBlockCreated)).foldl max
      lastSlashedBatchBlock

/-- The batches are stored under their own keys. -/
def SlashingBlock.Keyed (block : SlashingBlock) : Prop :=
  ∀ key batch, block.outgoing.batches.get key = some batch →
    key = getOutgoingTxBatchKey batch.tokenContract batch.batchNonce

theorem SlashingBlock.Keyed.nodup (keyed : block.Keyed) (lastSlashedBatchBlock : Nat) :
    (block.unslashed lastSlashedBatchBlock).Nodup :=
  (nodup_reverse.mpr (List.Nodup.of_map _ (KVStore.nodup_of_keyed keyed))).filter _

/-- What a pass that does not panic has done. -/
theorem SlashingBlock.batchSlashing_eq_ok
    (ran : block.batchSlashing ext lastSlashedBatchBlock = .ok pass) :
    (∀ batch ∈ block.unslashed lastSlashedBatchBlock,
      Identified ext block.delegates block.outgoing batch) ∧
      Rising (block.unslashed lastSlashedBatchBlock) ∧
      pass.examined.map ExaminedBatch.batch = block.unslashed lastSlashedBatchBlock ∧
      pass.lastSlashedBatchBlock = ((block.unslashed lastSlashedBatchBlock).map
        OutgoingTxBatch.cosmosBlockCreated).foldl max lastSlashedBatchBlock := by
  rw [SlashingBlock.batchSlashing_eq] at ran
  obtain ⟨identified, rising, _, log, last⟩ := (examineLoop block.docket.knows_bonded).2 pass ran
  exact ⟨identified, rising, log, last⟩

/-- Only validators that did not confirm a batch are slashed for it. -/
theorem SlashingBlock.slashed_unconfirmed
    (ran : block.batchSlashing ext lastSlashedBatchBlock = .ok pass) {examined : ExaminedBatch}
    (member : examined ∈ pass.examined) {operator : ValAddress}
    (slashed : operator ∈ examined.slashed) : examined.batch ∈ block.outgoing.batches.values ∧
      ∃ confirms, prepBatchConfirms ext block.delegates block.outgoing examined.batch = .ok confirms ∧
        operator ∉ confirms := by
  rw [SlashingBlock.batchSlashing_eq] at ran
  refine (foldlM_invariant (fun pass => pass.Knows block.docket.staking.getBondedValidatorsByPower ∧
    ∀ examined ∈ pass.examined, ∀ operator ∈ examined.slashed, examined.batch ∈
      block.outgoing.batches.values ∧
      ∃ confirms, prepBatchConfirms ext block.delegates block.outgoing examined.batch = .ok confirms ∧
        operator ∉ confirms) ?_ ⟨block.docket.knows_bonded, by simp⟩ ran).2 examined member
          operator slashed
  rintro current batch next due ⟨knows, earlier⟩ examines
  refine ⟨((examineBatch_eq_ok ext _ _ batch knows).2 next examines).2.2.1,
    fun other inLog guilty punished => ?_⟩
  simp only [examineBatch, bind_eq_ok, pure_eq_ok] at examines
  obtain ⟨confirms, prepared, docket, loop, _, _, rfl⟩ := examines
  rcases mem_append.mp inLog with before | now
  · exact earlier other before guilty punished
  · obtain rfl := mem_singleton.mp now
    obtain ⟨slash, isNew, rfl⟩ := mem_map.mp punished
    rw [mem_filter, decide_eq_true_eq] at isNew
    refine ⟨(SlashingBlock.mem_unslashed.mp due).1, confirms, prepared, ?_⟩
    obtain ⟨_, again, swept⟩ := Docket.bondedLoop_swept (.batch batch) confirms knows
    obtain rfl := Except.ok.inj (again.symm.trans loop)
    obtain ⟨⟨_, _, _, _, unconfirmed⟩, _⟩ := ((swept.slashes slash).mp isNew.1).resolve_left isNew.2
    exact unconfirmed

theorem foldl_max_le_iff {heights : List Nat} {start bound : Nat} :
    heights.foldl max start ≤ bound ↔ start ≤ bound ∧ ∀ height ∈ heights, height ≤ bound := by
  induction heights generalizing start with
  | nil => simp
  | cons height rest ih => simp [ih, and_assoc]

/-! ## Blocks one after the other -/

/-- One block's end: the watermark moves, and the batches that were examined are emitted. -/
def slashingStep (ext : External) (block : SlashingBlock) (lastSlashedBatchBlock : Nat) :
    List OutgoingTxBatch × Go Nat :=
  match block.batchSlashing ext lastSlashedBatchBlock with
  | .ok pass => (pass.examined.map ExaminedBatch.batch, .ok pass.lastSlashedBatchBlock)
  | .error fault => ([], .error fault)

/-- Batches up to the watermark, each of them once. -/
structure ExaminedOnce (examined : List OutgoingTxBatch) (watermark : Nat) : Prop where
  distinct : examined.Nodup
  bounds : ∀ batch ∈ examined, batch.cosmosBlockCreated ≤ watermark

/-- One block examines only batches above the watermark, and lifts it over them. -/
theorem ExaminedOnce.step {watermark next : Nat} {examined emitted : List OutgoingTxBatch}
    (once : ExaminedOnce examined watermark) (keyed : block.Keyed)
    (took : slashingStep ext block watermark = (emitted, .ok next)) :
    ExaminedOnce (examined ++ emitted) next := by
  unfold slashingStep at took
  split at took
  · rename_i pass ran
    obtain ⟨rfl, same⟩ := Prod.mk.inj took
    obtain rfl := Except.ok.inj same
    obtain ⟨_, _, log, last⟩ := SlashingBlock.batchSlashing_eq_ok ran
    rw [log]
    obtain ⟨kept, seen⟩ := foldl_max_le_iff.mp last.ge
    refine ⟨?_, fun batch member => ?_⟩
    · refine nodup_append.mpr ⟨once.distinct, keyed.nodup watermark,
        fun old before new due same => ?_⟩
      have oldBound := once.bounds old before
      have newBound := (SlashingBlock.mem_unslashed.mp due).2.1
      rw [same] at oldBound
      omega
    · rcases mem_append.mp member with before | due
      · exact (once.bounds batch before).trans kept
      · exact seen _ (mem_map_of_mem due)
  · simp at took

/-- Batches of two tokens, those of the lower one created later. -/
def risingBatches : Outgoing :=
  ⟨.empty, (KVStore.empty.set (getOutgoingTxBatchKey 5 2) ⟨2, 1000, [], 5, 6⟩).set
    (getOutgoingTxBatchKey 8 1) ⟨1, 1000, [], 8, 5⟩, .empty, 2, 2⟩

end GravityBridge.Keeper
