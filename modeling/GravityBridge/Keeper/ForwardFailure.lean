import GravityBridge.Keeper.Deposits

/-!
# Forwards whose IBC transfer fails

The IBC module is called on the context of the message itself, and its error is
only reported. Whatever it did to balances before it failed stays.
-/

namespace GravityBridge.Keeper

open Lib.Fallible Lib.ByteString Lib.Store
open GravityBridge.Types

variable {ext : External} {ledger next : Ledger} {forward : PendingIbcAutoForward}
  {transfer : IbcTransfer}

/-- The fallback account has the forward's coin more, the module account has it less, and no other
balance has changed. -/
structure FallbackHolds (ext : External) (ledger : Ledger) (token : Coin) (fallback : AccAddress)
    (next : Ledger) : Prop where
  credited : ∀ denom, next.bank.balances fallback denom =
    ledger.bank.balances fallback denom + token.amountOf denom
  moduleAccount : ∀ denom, next.bank.balances ext.gravityModule denom + token.amountOf denom =
    ledger.bank.balances ext.gravityModule denom
  others : ∀ account denom, account ≠ fallback → account ≠ ext.gravityModule →
    next.bank.balances account denom = ledger.bank.balances account denom

/-- A forward was taken from the queue, its coin sent to the local account, and the IBC module
called, which returned an error. -/
structure TransferFailed (ext : External) (ledger : Ledger) (transfer : IbcTransfer)
    (forward : PendingIbcAutoForward) (fallback : AccAddress) (sent : Bank) : Prop where
  head : ledger.getNextPendingIbcAutoForward = some forward
  decoded : ibcAddressFromBech32 ext forward.foreignReceiver = .ok fallback
  paid : ledger.bank.sendCoinsFromModuleToAccount ext ext.gravityModule fallback forward.token =
    .ok sent
  failed : ∃ cause, (transfer (createIbcMsgTransfer forward fallback) sent).2 = some cause

theorem TransferFailed.result {fallback : AccAddress} {sent : Bank} {stop : Bool}
    (transferFailed : TransferFailed ext ledger transfer forward fallback sent)
    (processed : ledger.processNextPendingIbcAutoForward ext transfer = .ok (stop, next)) :
    next.bank = (transfer (createIbcMsgTransfer forward fallback) sent).1 := by
  simp only [Ledger.processNextPendingIbcAutoForward, transferFailed.head, Ledger.handleForward,
    transferFailed.decoded, bind_eq_ok, orPanic_eq_ok, Except.ok.injEq, Prod.exists, pure_eq_ok,
    Prod.mk.injEq] at processed
  obtain ⟨_, _, ⟨_, _, _, _, _, _, _, rfl, handled⟩, _, rfl⟩ := processed
  rw [transferFailed.paid] at handled
  obtain ⟨_, rfl⟩ := Prod.mk.inj (pure_eq_ok.mp handled)
  rfl

/-- After a failed transfer the user has the funds, and nobody else gained or lost any, exactly when
the failing transfer left every balance as it found it. -/
theorem failed_forward_iff {fallback : AccAddress} {sent : Bank} {stop : Bool}
    (transferFailed : TransferFailed ext ledger transfer forward fallback sent)
    (processed : ledger.processNextPendingIbcAutoForward ext transfer = .ok (stop, next)) :
    FallbackHolds ext ledger forward.token fallback next ↔
      (transfer (createIbcMsgTransfer forward fallback) sent).1.balances = sent.balances := by
  rw [← transferFailed.result processed]
  obtain ⟨notBlocked, held, rfl⟩ := Bank.sendCoinsFromModuleToAccount_eq_ok.mp transferFailed.paid
  have leaves := ne_gravityModule_of_notBlocked notBlocked
  constructor
  · intro holds
    funext account denom
    by_cases isFallback : account = fallback
    · rw [isFallback, holds.credited, Bank.move_balances_receiver leaves]
    · by_cases isModule : account = ext.gravityModule
      · have taken : (ledger.bank.move ext.gravityModule fallback forward.token held).balances
            ext.gravityModule denom +
            forward.token.amountOf denom = ledger.bank.balances ext.gravityModule denom :=
          Bank.move_balances_sender leaves
        have left := holds.moduleAccount denom
        rw [isModule]
        omega
      · rw [holds.others account denom isFallback isModule,
          Bank.move_balances_bystander isModule isFallback]
  · intro same
    refine ⟨fun denom => ?_, fun denom => ?_, fun account denom notFallback notModule => ?_⟩
    · rw [same, Bank.move_balances_receiver leaves]
    · rw [same, Bank.move_balances_sender leaves]
    · rw [same, Bank.move_balances_bystander notModule notFallback]

def exampleForward : PendingIbcAutoForward :=
  ⟨ascii "cosmos1recipient", ⟨gravityDenom localnet 5, 30⟩, ascii "channel-0", 1⟩

/-- A forward of thirty vouchers waits, and the module account holds them. -/
def exampleQueue : Ledger :=
  { Ledger.unused [] (Bank.empty.mint localnet.gravityModule exampleForward.token) with
    pendingIbcAutoForwards := KVStore.empty.set 1 exampleForward }

/-- Fail before or after the coin was put in the escrow of the channel. -/
def failingTransfer (late : Bool) : IbcTransfer := fun msg bank =>
  (if late then bank.ibcTransfer localnet .escrowed msg.sender msg.sourceChannel msg.token else bank,
    some ⟨.plain, "could not send the packet to the channel"⟩)

theorem exampleQueue_failed (late : Bool) :
    ∃ sent, TransferFailed localnet exampleQueue (failingTransfer late)
    exampleForward (ascii "recipient") sent := by
  have held : exampleForward.token.amount ≤
      exampleQueue.bank.balances localnet.gravityModule exampleForward.token.denom := by
        decide +kernel
  exact ⟨exampleQueue.bank.move localnet.gravityModule (ascii "recipient") exampleForward.token
    held, rfl, by decide +kernel,
    Bank.sendCoinsFromModuleToAccount_eq_ok.mpr ⟨by decide, held, rfl⟩, _, rfl⟩

/-- What the recipient and the channel's escrow hold once the forward is processed. -/
theorem exampleQueue_processed (late : Bool) :
    ∃ next, exampleQueue.processNextPendingIbcAutoForward localnet (failingTransfer late) =
      .ok (false, next) ∧
      next.bank.balances (ascii "recipient") exampleForward.token.denom = (if late then 0 else 30) ∧
      next.bank.balances (localnet.ibcEscrow (ascii "channel-0")) exampleForward.token.denom =
        (if late then 30 else 0) := by
  have evaluated :
      (exampleQueue.processNextPendingIbcAutoForward localnet (failingTransfer late)).toOption.map
      (fun result => (result.1, result.2.bank.balances (ascii "recipient") exampleForward.token.denom,
        result.2.bank.balances (localnet.ibcEscrow (ascii "channel-0")) exampleForward.token.denom)) =
      some (false, if late then 0 else 30, if late then 30 else 0) := by
    cases late with
    | true => decide +kernel
    | false => decide +kernel
  cases processed : exampleQueue.processNextPendingIbcAutoForward localnet (failingTransfer late) with
  | ok result =>
    obtain ⟨stop, next⟩ := result
    rw [processed] at evaluated
    obtain ⟨rfl, recipient, escrow⟩ : stop = false ∧ _ ∧ _ := by simpa using Option.some.inj evaluated
    exact ⟨next, rfl, recipient, escrow⟩
  | error fault =>
    rw [processed] at evaluated
    contradiction

theorem early_failure_keeps_funds : ∃ sent next,
    TransferFailed localnet exampleQueue (failingTransfer false) exampleForward
      (ascii "recipient") sent ∧
      exampleQueue.processNextPendingIbcAutoForward localnet (failingTransfer false) =
        .ok (false, next) ∧
      FallbackHolds localnet exampleQueue exampleForward.token (ascii "recipient") next := by
  obtain ⟨sent, failed⟩ := exampleQueue_failed false
  obtain ⟨next, processed, _⟩ := exampleQueue_processed false
  exact ⟨sent, next, failed, processed, (failed_forward_iff failed processed).mpr rfl⟩

/-- The transfer fails and the message succeeds; the recipient has nothing, and the coin is in the
escrow of the channel. -/
theorem late_failure_loses_funds : ∃ sent next,
    TransferFailed localnet exampleQueue (failingTransfer true) exampleForward
      (ascii "recipient") sent ∧
      exampleQueue.processNextPendingIbcAutoForward localnet (failingTransfer true) =
        .ok (false, next) ∧
      next.bank.balances (localnet.ibcEscrow (ascii "channel-0")) exampleForward.token.denom = 30 ∧
      ¬ FallbackHolds localnet exampleQueue exampleForward.token (ascii "recipient") next := by
  obtain ⟨sent, failed⟩ := exampleQueue_failed true
  obtain ⟨next, processed, recipient, escrow⟩ := exampleQueue_processed true
  refine ⟨sent, next, failed, processed, escrow, fun holds => ?_⟩
  have credited := holds.credited exampleForward.token.denom
  rw [recipient] at credited
  exact absurd credited (by decide +kernel)

end GravityBridge.Keeper
