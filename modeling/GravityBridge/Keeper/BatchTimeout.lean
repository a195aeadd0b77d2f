import GravityBridge.Keeper.LedgerSteps
import GravityBridge.Keeper.Params

/-!
# Batch timeouts

The timeout of a batch is a projection of the Ethereum height: the time since the last observation in
Ethereum blocks, and the target timeout in Ethereum blocks. The projection multiplies and divides
64-bit numbers that the parameters bound from below only.
-/

namespace GravityBridge.Keeper

open Lib.Fallible Lib.ByteString
open GravityBridge.Types

/-- A number that a 64-bit variable holds as it is. -/
def withoutWrap (number : Nat) : Option Nat := if number < 2 ^ 64 then some number else none

theorem withoutWrap_eq_some {number result : Nat} :
    withoutWrap number = some result ↔ number < 2 ^ 64 ∧ number = result := by
  unfold withoutWrap
  split_ifs with fits
  · rw [Option.some.injEq, and_iff_right fits]
  · exact iff_of_false nofun (fun held => fits held.1)

/-- The computation of `getBatchTimeoutHeight` once both heights are known, with every operation
checked for leaving the range of 64-bit numbers. -/
def Context.exactBatchTimeoutHeight (context : Context) : Option Nat := do
  let heights := context.lastObservedEthereumBlockHeight
  let elapsed ← if heights.cosmosBlockHeight ≤ context.blockHeight then
    some (context.blockHeight - heights.cosmosBlockHeight) else none
  let projectedMillis ← withoutWrap (elapsed * context.params.averageBlockTime)
  let projectedCurrentEthereumHeight ←
    withoutWrap (projectedMillis /
      context.params.averageEthereumBlockTime + heights.ethereumBlockHeight)
  let blocksToAdd := context.params.targetBatchTimeout / context.params.averageEthereumBlockTime
  withoutWrap (projectedCurrentEthereumHeight + blocksToAdd)

/-- The last observation lies in the past, and both of its heights are known. -/
structure Context.Observed (context : Context) : Prop where
  cosmos_pos : 0 < context.lastObservedEthereumBlockHeight.cosmosBlockHeight
  ethereum_pos : 0 < context.lastObservedEthereumBlockHeight.ethereumBlockHeight
  cosmos_le : context.lastObservedEthereumBlockHeight.cosmosBlockHeight ≤ context.blockHeight
  ethereum_lt : context.lastObservedEthereumBlockHeight.ethereumBlockHeight < 2 ^ 63
  blockHeight_lt : context.blockHeight < 2 ^ 63

/-- The time since the last observation fits, the projection fits, and one of the two times lasts
for an Ethereum block. -/
structure Context.Projectable (context : Context) : Prop where
  millis : (context.blockHeight - context.lastObservedEthereumBlockHeight.cosmosBlockHeight) *
    context.params.averageBlockTime < 2 ^ 64
  height : (context.blockHeight - context.lastObservedEthereumBlockHeight.cosmosBlockHeight) *
      context.params.averageBlockTime / context.params.averageEthereumBlockTime +
    context.lastObservedEthereumBlockHeight.ethereumBlockHeight +
    context.params.targetBatchTimeout / context.params.averageEthereumBlockTime < 2 ^ 64
  advances : context.params.averageEthereumBlockTime ≤ context.params.targetBatchTimeout ∨
    context.params.averageEthereumBlockTime ≤
      (context.blockHeight - context.lastObservedEthereumBlockHeight.cosmosBlockHeight) *
        context.params.averageBlockTime

variable {context : Context}

theorem exactBatchTimeoutHeight_eq_some (observed : context.Observed) {timeout : Nat} :
    context.exactBatchTimeoutHeight = some timeout ↔
      (context.blockHeight - context.lastObservedEthereumBlockHeight.cosmosBlockHeight) *
          context.params.averageBlockTime < 2 ^ 64 ∧
        timeout < 2 ^ 64 ∧
        timeout = (context.blockHeight - context.lastObservedEthereumBlockHeight.cosmosBlockHeight) *
              context.params.averageBlockTime / context.params.averageEthereumBlockTime +
            context.lastObservedEthereumBlockHeight.ethereumBlockHeight +
            context.params.targetBatchTimeout / context.params.averageEthereumBlockTime := by
  simp only [Context.exactBatchTimeoutHeight, if_pos observed.cosmos_le, Option.bind_eq_bind,
    Option.bind_some, Option.bind_eq_some_iff, withoutWrap_eq_some]
  constructor
  · rintro ⟨_, ⟨millis, rfl⟩, _, ⟨-, rfl⟩, fits, rfl⟩
    exact ⟨millis, fits, rfl⟩
  · rintro ⟨millis, fits, rfl⟩
    exact ⟨_, ⟨millis, rfl⟩, _, ⟨Nat.lt_of_le_of_lt (Nat.le_add_right _ _) fits, rfl⟩, fits, rfl⟩

/-- Where no operation wraps, the code computes the exact height. -/
theorem getBatchTimeoutHeight_of_exact (observed : context.Observed)
    (divides : context.params.averageEthereumBlockTime ≠ 0) {timeout : Nat}
    (exact : context.exactBatchTimeoutHeight = some timeout) :
    context.getBatchTimeoutHeight = .ok timeout := by
  obtain ⟨millis, fits, rfl⟩ := (exactBatchTimeoutHeight_eq_some observed).mp exact
  have cosmos_pos := observed.cosmos_pos
  have ethereum_pos := observed.ethereum_pos
  have known : ¬ (context.lastObservedEthereumBlockHeight.cosmosBlockHeight = 0 ∨
      context.lastObservedEthereumBlockHeight.ethereumBlockHeight = 0) := by omega
  have elapsed :
      (2 ^ 64 + context.blockHeight - context.lastObservedEthereumBlockHeight.cosmosBlockHeight) %
        2 ^ 64 =
      context.blockHeight - context.lastObservedEthereumBlockHeight.cosmosBlockHeight := by
    have := observed.cosmos_le
    have := observed.blockHeight_lt
    omega
  simp only [Context.getBatchTimeoutHeight, if_neg known, elapsed, Nat.mod_eq_of_lt millis,
    bind_eq_ok, check_eq_ok, pure_eq_ok, Unique.exists_iff]
  refine ⟨divides, ?_⟩
  rw [Nat.mod_eq_of_lt (Nat.lt_of_le_of_lt (Nat.le_add_right _ _) fits), Nat.mod_eq_of_lt fits]

/-- The timeout is computed without wrapping and lies above the last observed Ethereum height
exactly when the projection fits and comes to at least one block. Every batch that is built then has
such a timeout. -/
theorem batch_timeout_in_future {params : ParamSet} (valid : params.validateBasic = .ok ())
    (stored : context.params = params.toParams) (observed : context.Observed) :
    ((∃ timeout, context.exactBatchTimeoutHeight = some timeout ∧
      context.getBatchTimeoutHeight = .ok timeout ∧
        context.lastObservedEthereumBlockHeight.ethereumBlockHeight < timeout) ↔
          context.Projectable) ∧
      (context.Projectable → ∀ ext ledger contract maxElements batch next,
        Ledger.buildOutgoingTXBatch ext context ledger contract maxElements = .ok (batch, next) →
        context.lastObservedEthereumBlockHeight.ethereumBlockHeight < batch.batchTimeout) := by
  have blockTime : 0 < context.params.averageEthereumBlockTime := by
    have := (params.accepted valid).averageEthereumBlockTime
    rw [stored]
    omega
  have future : (∃ timeout, context.exactBatchTimeoutHeight = some timeout ∧
      context.getBatchTimeoutHeight = .ok timeout ∧
      context.lastObservedEthereumBlockHeight.ethereumBlockHeight < timeout) ↔
        context.Projectable := by
    constructor
    · rintro ⟨timeout, exact, -, later⟩
      obtain ⟨millis, fits, rfl⟩ := (exactBatchTimeoutHeight_eq_some observed).mp exact
      refine ⟨millis, fits, ?_⟩
      by_contra short
      push Not at short
      rw [Nat.div_eq_of_lt short.1, Nat.div_eq_of_lt short.2] at later
      omega
    · rintro ⟨millis, fits, advances⟩
      have exact := (exactBatchTimeoutHeight_eq_some observed).mpr ⟨millis, fits, rfl⟩
      refine ⟨_, exact, getBatchTimeoutHeight_of_exact observed blockTime.ne' exact, ?_⟩
      rcases advances with target | elapsed
      · exact Nat.lt_of_le_of_lt (Nat.le_add_left _ _)
          (Nat.lt_add_of_pos_right (Nat.div_pos target blockTime))
      · exact Nat.lt_of_lt_of_le (Nat.lt_add_of_pos_left (Nat.div_pos elapsed blockTime))
          (Nat.le_add_right _ _)
  refine ⟨future, fun projectable ext ledger contract maxElements batch next built => ?_⟩
  obtain ⟨timeout, -, computed, later⟩ := future.mpr projectable
  obtain ⟨_, _, _, _, _, _, _, rfl, _, _, _, _, _, same⟩ := buildOutgoingTXBatch_eq_ok built
  exact Except.ok.inj (computed.symm.trans same) ▸ later

/-- Target timeout and Ethereum block time in milliseconds, the other parameters as small as they
may be. -/
def timeoutParams (targetBatchTimeout averageEthereumBlockTime : Fin 1000000) : ParamSet :=
  { plainParams [] with
    targetBatchTimeout := targetBatchTimeout
    averageEthereumBlockTime := averageEthereumBlockTime
    targetBatchTimeout_lt := by omega
    averageEthereumBlockTime_lt := by omega }

/-- The block right after an observation at height seven of Ethereum. -/
def observedContext (params : ParamSet) : Context :=
  ⟨params.toParams, 5, 0, ⟨5, 7⟩, none, .empty⟩

theorem observed_observedContext (params : ParamSet) : (observedContext params).Observed := by
  constructor <;> simp [observedContext]

/-- A minute at twelve seconds a block is five blocks. -/
theorem timeout_of_one_minute :
    (timeoutParams 60000 12000).validateBasic = .ok () ∧
      (observedContext (timeoutParams 60000 12000)).getBatchTimeoutHeight = .ok 12 ∧
      (observedContext (timeoutParams 60000 12000)).Projectable := by
  have short : (timeoutParams 60000 12000).validateBasic = .ok () := by decide
  have projectable : (observedContext (timeoutParams 60000 12000)).Projectable :=
    ((batch_timeout_in_future short rfl (observed_observedContext _)).1).mp
      ⟨12, by decide, by decide, by decide⟩
  exact ⟨short, by decide, projectable⟩

/-- An Ethereum block that lasts longer than the target timeout leaves a timeout at the observed
height. -/
theorem timeout_of_slow_blocks :
    (timeoutParams 60000 60001).validateBasic = .ok () ∧
    (observedContext (timeoutParams 60000 60001)).Observed ∧
      (observedContext (timeoutParams 60000 60001)).getBatchTimeoutHeight = .ok 7 ∧
      (observedContext
        (timeoutParams 60000 60001)).lastObservedEthereumBlockHeight.ethereumBlockHeight = 7 := by
  exact ⟨by decide, observed_observedContext _, by decide, rfl⟩

end GravityBridge.Keeper
