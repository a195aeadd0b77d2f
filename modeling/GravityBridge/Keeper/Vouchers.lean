import GravityBridge.Keeper.Escrow
import GravityBridge.Keeper.EventOrder

/-!
# Escrow of vouchers

From an unused bridge on, the module account holds of every voucher exactly what
the unfinished transfers and the waiting forwards add up to. When tokens are
registered only before their first deposit, a registered token has no vouchers at
all.
-/

namespace GravityBridge.Keeper

open Lib.Fallible Lib.ByteString Lib.Store Lib.Runs
open GravityBridge.Types Oracle List

/-- A bridge before its first message: no votes, no transfers, no registered tokens, an empty
module account and no coins that look like vouchers. -/
structure EmptyBridge (ext : External) (state : State) : Prop where
  unvoted : BeforeVotes 0 state
  unused : state.ledger = .unused state.ledger.registry.remappedERC20s state.ledger.bank
  unfunded : ∀ denom, state.ledger.bank.balances ext.gravityModule denom = 0
  voucherless : ∀ denom token, Reads denom token → state.ledger.bank.supply denom = 0

variable {ext : External} {powers : PowerTable} {state final : State} {ledger next : Ledger}
  {entry : Entry} {trace handled : List EthereumClaim} {claim : EthereumClaim} {token : EthAddress}

section

variable (empty : EmptyBridge ext state)

include empty

theorem EmptyBridge.tidy : Tidy ext state.ledger := by
  rw [empty.unused]
  exact Ledger.tidy_unused ext _ _

theorem EmptyBridge.owed (token : EthAddress) :
    state.ledger.outgoing.owed token = 0 := by
  rw [empty.unused]
  simp [Ledger.unused, Outgoing.owed, Outgoing.carried]

theorem EmptyBridge.queued (denom : Denom) : state.ledger.queued denom = 0 := by
  rw [empty.unused]
  exact KVStore.sumOf_empty _

theorem EmptyBridge.balanced : Balanced ext state.ledger := by
  intro token _
  refine ⟨fun denom reads _ => empty.voucherless denom token reads, ?_⟩
  rw [Ledger.slack, Ledger.held, empty.unfunded, empty.queued, empty.owed]
  rfl

end

/-- Events came in order, the stores are tidy and the books are balanced. -/
structure Books (ext : External) (trace : List EthereumClaim) (state : State) : Prop where
  ordered : Ordered ext 0 trace state
  tidy : Tidy ext state.ledger
  balanced : Balanced ext state.ledger

theorem EmptyBridge.books (empty : EmptyBridge ext state) : Books ext [] state := by
  obtain ⟨fresh, zero⟩ := empty.unvoted
  exact ⟨⟨fresh.sound, rfl, zero, by simp [fresh.attestations]⟩, empty.tidy, empty.balanced⟩

theorem Books.step {label : Label} (books : Books ext trace state)
    (took : step ext label state = (handled, .ok final)) : Books ext (trace ++ handled) final := by
  obtain ⟨tidy, balanced⟩ :=
    (step_ledger took).invariant Move.balanced books.ordered.sound books.tidy books.balanced
  exact ⟨books.ordered.step (step_oracle took), tidy, balanced⟩

theorem books_of_reachable (reach : Reachable ext (EmptyBridge ext) trace state) :
    Books ext trace state :=
  Reach.invariant (fun _ empty => empty.books) (fun _ _ _ _ _ _ books took _ => books.step took) reach

/-! ## Registered tokens have no vouchers -/

/-- A deposit of the token is among the claims. -/
def DepositedIn (trace : List EthereumClaim) (token : EthAddress) : Prop :=
  ∃ msg, EthereumClaim.sendToCosmos msg ∈ trace ∧ newEthAddress msg.tokenContract = .ok token

/-- Tokens are claimed to be deployed only before any deposit of them. -/
def FreshDeploys (trace : List EthereumClaim) : Prop :=
  ∀ before msg after token, trace = before ++ .erc20Deployed msg :: after →
    newEthAddress msg.tokenContract = .ok token → ¬ DepositedIn before token

theorem DepositedIn.mono {more : List EthereumClaim} (deposited : DepositedIn trace token) :
    DepositedIn (trace ++ more) token := by
  obtain ⟨msg, member, parsed⟩ := deposited
  exact ⟨msg, mem_append_left _ member, parsed⟩

theorem FreshDeploys.of_append {more : List EthereumClaim} (fresh : FreshDeploys (trace ++ more)) :
    FreshDeploys trace := by
  intro before msg after token same
  exact fresh before msg (after ++ more) token (by rw [same]; simp)

/-- Tokens that are registered, or were never deposited, have no vouchers. -/
def Voucherless (trace : List EthereumClaim) (ledger : Ledger) : Prop :=
  ∀ token, ledger.isMapped token = true ∨ ¬ DepositedIn trace token →
    ∀ denom, Reads denom token → ledger.bank.supply denom = 0

theorem Voucherless.mono (voucherless : Voucherless trace ledger) (more : List EthereumClaim) :
    Voucherless (trace ++ more) ledger := by
  intro token either
  exact voucherless token (either.imp_right (fun absent deposited => absent deposited.mono))

theorem Move.isMapped (move : Move ext ledger entry next) (mapped : next.isMapped token = true) :
    ledger.isMapped token = true ∨ ∃ denom, entry = .registered denom token := by
  rcases (move.mapping token).2 with same | ⟨denom, entered, _⟩
  · exact .inl (by rw [← mapped, Ledger.isMapped, Ledger.isMapped, same])
  · exact .inr ⟨denom, entered⟩

/-- A move keeps this, provided that it registers only tokens that were never deposited and that
deposits are on the trace. -/
theorem Move.voucherless (move : Move ext ledger entry next) (voucherless : Voucherless trace ledger)
    (registers : ∀ denom token, entry = .registered denom token → ¬ DepositedIn trace token)
    (deposits : ∀ token amount, entry = .deposited token amount → DepositedIn trace token) :
    Voucherless trace next := by
  intro token either denom reads
  have before : ledger.isMapped token = true ∨ ¬ DepositedIn trace token := by
    rcases either with mapped | absent
    · rcases move.isMapped mapped with mapped | ⟨denom, entered⟩
      · exact .inl mapped
      · exact .inr (registers denom token entered)
    · exact .inr absent
  refine move.unminted reads (voucherless token before denom reads) (fun amount entered => .inl ?_)
  exact before.resolve_right (fun absent => absent (deposits token amount entered))

theorem Moves.voucherless {entries : List Entry} (moves : Moves ext ledger entries next)
    (voucherless : Voucherless trace ledger)
    (quiet : ∀ entry ∈ entries, (∀ denom token, entry ≠ .registered denom token) ∧
      ∀ token amount, entry ≠ .deposited token amount) : Voucherless trace next := by
  induction moves with
  | nil => exact voucherless
  | @cons _ _ _ entry rest move _ ih =>
    obtain ⟨noRegister, noDeposit⟩ := quiet entry mem_cons_self
    refine ih (move.voucherless voucherless ?_ ?_) (fun other member =>
      quiet other (mem_cons_of_mem _ member))
    · exact fun denom token same => absurd same (noRegister denom token)
    · exact fun token amount same => absurd same (noDeposit token amount)

theorem Handled.voucherless (handled : Handled ext ledger claim next)
    (voucherless : Voucherless trace ledger)
    (fresh : FreshDeploys (trace ++ [claim])) : Voucherless (trace ++ [claim]) next := by
  cases handled with
  | ignored _ => exact voucherless.mono _
  | @deposited msg source value _ parsed _ deposited =>
    refine Move.voucherless (.deposited deposited) (voucherless.mono _) (by simp) ?_
    rintro token amount same
    obtain ⟨rfl, _⟩ := Entry.deposited.inj same
    exact ⟨msg, by simp, parsed⟩
  | executed _ _ _ executed =>
    exact Move.voucherless (.executed executed) (voucherless.mono _) (by simp) (by simp)
  | @registered msg source _ parsed registered =>
    have move : Move ext ledger _ next := .registered registered
    have keeps : Voucherless trace next := by
      refine move.voucherless voucherless ?_ (by simp)
      rintro denom token same
      obtain ⟨_, rfl⟩ := Entry.registered.inj same
      exact fresh trace msg [] source rfl parsed
    exact keeps.mono _
  | observed _ _ _ =>
    exact Move.voucherless (.settled (.of_valsets ext ledger _ _)) (voucherless.mono _)
      (by simp) (by simp)
  | rewarded _ _ _ rewarded =>
    refine Moves.voucherless
      (.cons (.settled (.of_valsets ext ledger _ _)) (.single (.rewarded rewarded)))
      (voucherless.mono _) (by simp)

theorem Tallied.voucherless (tallied : Tallied ext powers state handled final)
    (tidy : Tidy ext state.ledger)
    (voucherless : Voucherless trace state.ledger) (fresh : FreshDeploys (trace ++ handled)) :
    Voucherless (trace ++ handled) final.ledger := by
  induction tallied generalizing trace with
  | done => simpa using voucherless
  | @next state middle final claim rest applies _ ih =>
    rw [append_cons] at fresh ⊢
    rcases applies.ledger_cases tidy.outgoing with same | handled
    · exact ih (same ▸ tidy) (same ▸ voucherless.mono _) fresh
    · obtain ⟨_, moves⟩ := handled.moves
      exact ih (moves.tidy tidy) (handled.voucherless voucherless fresh.of_append) fresh

theorem LedgerStep.voucherless (stepped : LedgerStep ext state handled final)
    (books : Books ext trace state)
    (voucherless : Voucherless trace state.ledger) (fresh : FreshDeploys (trace ++ handled)) :
    Voucherless (trace ++ handled) final.ledger := by
  cases stepped with
  | unchanged same => exact same ▸ voucherless.mono _
  | delivered delivered =>
    obtain ⟨entries, users, moves⟩ := deliver_moves books.tidy delivered
    refine (moves.voucherless voucherless (fun entry member => ⟨?_, ?_⟩)).mono _
    · rintro denom token rfl
      exact absurd (users _ member) (by simp [Entry.byUser])
    · rintro token amount rfl
      exact absurd (users _ member) (by simp [Entry.byUser])
  | ended tally maintained =>
    have tallied := tallied_of_attestationTally books.ordered.sound tally
    obtain ⟨tidy, _⟩ := tallied.invariant Move.balanced books.tidy books.balanced
    exact (maintain_moves tidy maintained).voucherless
      (tallied.voucherless books.tidy voucherless fresh) (by simp)

theorem voucherless_of_reachable (reach : Reachable ext (EmptyBridge ext) trace state)
    (fresh : FreshDeploys trace) : Voucherless trace state.ledger := by
  induction reach with
  | start empty => exact fun token _ denom => empty.voucherless denom token
  | step before took _ ih =>
    exact (step_ledger took).voucherless (books_of_reachable before) (ih fresh.of_append) fresh

/-! ## The escrow of vouchers -/

/-- Transfers lock coins in the pool or in the batches of their token. -/
theorem Outgoing.WellFormed.owed_eq {outgoing : Outgoing}
    (wellFormed : Outgoing.WellFormed ext outgoing) (token : EthAddress) :
    outgoing.owed token = outgoing.pool.sumOf (fun tx => tx.totalIn token) +
      outgoing.batches.sumOf (fun batch => batch.totalIn token) := by
  have batched : (outgoing.batches.values.map (fun batch => batch.totalIn token)) =
      outgoing.batches.values.map (fun batch =>
        (batch.transactions.map (fun tx => tx.totalIn token)).sum) :=
    map_congr_left (fun batch member =>
      (sum_totalIn (wellFormed.batchContracts batch member) token).symm)
  rw [Outgoing.owed, Outgoing.carried, map_append, sum_append, KVStore.sumOf, KVStore.sumOf, batched,
    map_flatMap, flatMap_def, sum_flatten, map_map]
  rfl

/-- From an empty bridge on, if tokens are registered only before their first deposit: the module
account holds of the voucher of every token that is not registered what its transfers in the
pool, its transfers in batches and its waiting forwards add up to, and no other coin looks like
a voucher of it. A registered token has no vouchers. -/
theorem voucher_escrow (reach : Reachable ext (EmptyBridge ext) trace state)
    (fresh : FreshDeploys trace) (token : EthAddress) :
    (state.ledger.registry.erc20ToDenom.get token = none →
      state.ledger.bank.balances ext.gravityModule (state.ledger.registry.voucherDenom ext token) =
        state.ledger.outgoing.pool.sumOf (fun tx => tx.totalIn token) +
          state.ledger.outgoing.batches.sumOf (fun batch => batch.totalIn token) +
          state.ledger.pendingIbcAutoForwards.sumOf (fun forward =>
            forward.token.amountOf (state.ledger.registry.voucherDenom ext token))) ∧
    ∀ denom, Reads denom token →
      state.ledger.isMapped token = true ∨ denom ≠ state.ledger.registry.voucherDenom ext token →
      state.ledger.bank.supply denom = 0 := by
  have books := books_of_reachable reach
  refine ⟨fun unmapped => ?_, fun denom reads either => ?_⟩
  · obtain ⟨_, zero⟩ := books.balanced token unmapped
    rw [Ledger.slack, Ledger.held, Ledger.queued, denomOf_unmapped ext unmapped,
      books.tidy.outgoing.owed_eq] at zero
    omega
  · by_cases mapped : state.ledger.isMapped token = true
    · exact voucherless_of_reachable reach fresh token (.inl mapped) denom reads
    · have unmapped := isMapped_eq_false.mp (by simpa using mapped)
      refine (books.balanced token unmapped).1 denom reads ?_
      rw [denomOf_unmapped ext unmapped]
      exact either.resolve_left mapped

def exampleTransfer (amount fee : Nat) : Label :=
  .ledger (.sendToEth false ⟨ascii "gravity1recipient", hex localnet 7,
    ⟨gravityDenom localnet 5, amount⟩, ⟨gravityDenom localnet 5, fee⟩, ⟨gravityDenom localnet 5, 0⟩⟩)

/-- Two deposits, one of them to another chain, a batched transfer and one in the pool. -/
def exampleTransfers : List Label :=
  [.setHrpIbcRecord (ascii "cosmos") (ascii "channel-0"),
    .attest (some (ascii "validator")) (exampleDeposit 1 100 5 (ascii "gravity1recipient")),
    .attest (some (ascii "validator")) (exampleDeposit 2 101 5 (ascii "cosmos1recipient")),
    .endBlock (soleValidator (ascii "validator") 10) (soleBonded 10 1),
    exampleTransfer 10 1,
    .ledger (.requestBatch ⟨ascii "gravity1recipient", gravityDenom localnet 5⟩),
    exampleTransfer 7 2]

theorem genesis_empty {holder : AccAddress} {coin : Coin} (other : ext.gravityModule ≠ holder)
    (plain : isVoucher coin.denom = false) : EmptyBridge ext (genesis holder coin) where
  unvoted := ⟨⟨rfl, by simp [genesis]⟩, rfl⟩
  unused := rfl
  unfunded denom := (Bank.mint_balances_of_ne other).trans rfl
  voucherless denom token reads := by
    have different : denom ≠ coin.denom := by
      rintro rfl
      rw [isVoucher_of_reads reads] at plain
      contradiction
    change (Bank.empty.mint holder coin).supply denom = 0
    simp [Coin.amountOf, different, Bank.empty]

theorem exampleTransfers_ran : (execute localnet exampleTransfers exampleGenesis).isSome = true := by
  decide +kernel

/-- The module account holds thirty for the forward, eleven for the batch and nine for the pool. -/
theorem exampleTransfers_escrow :
    ∃ trace state, Reachable localnet (EmptyBridge localnet) trace state ∧ FreshDeploys trace ∧
      state.ledger.bank.balances localnet.gravityModule (gravityDenom localnet 5) = 50 ∧
      state.ledger.bank.balances localnet.gravityModule
        (state.ledger.registry.voucherDenom localnet 5) =
        state.ledger.outgoing.pool.sumOf (fun tx => tx.totalIn 5) +
          state.ledger.outgoing.batches.sumOf (fun batch => batch.totalIn 5) +
          state.ledger.pendingIbcAutoForwards.sumOf (fun forward =>
            forward.token.amountOf (state.ledger.registry.voucherDenom localnet 5)) := by
  have empty : EmptyBridge localnet exampleGenesis := genesis_empty (by decide) (by decide)
  have reach := reachable_of_execute empty exampleTransfers_ran
  have deposits : ((execute localnet exampleTransfers exampleGenesis).get exampleTransfers_ran).1 =
      [exampleDeposit 1 100 5 (ascii "gravity1recipient"),
        exampleDeposit 2 101 5 (ascii "cosmos1recipient")] := by
    decide +kernel
  have fresh : FreshDeploys
      ((execute localnet exampleTransfers exampleGenesis).get exampleTransfers_ran).1 := by
    rw [deposits]
    intro before msg after token same
    have member : EthereumClaim.erc20Deployed msg ∈ before ++ .erc20Deployed msg :: after := by simp
    rw [← same] at member
    simp [exampleDeposit] at member
  exact ⟨_, _, reach, fresh, by decide +kernel, (voucher_escrow reach fresh 5).1 (by decide +kernel)⟩

end GravityBridge.Keeper
