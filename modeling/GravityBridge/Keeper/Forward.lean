import GravityBridge.Keeper.Registry

/-!
# Pending IBC auto-forwards

Deposits to accounts of other chains wait in a queue, and the module account
holds their coins until a message executes them. The transfer itself belongs to
the IBC module: what it does to the bank is an argument, and its error is only reported.
-/

namespace GravityBridge.Keeper

open Lib.Fallible Lib.ByteString Lib.Store
open GravityBridge.Types

/-- What `ibcTransferKeeper.Transfer` did with the coins: it failed, put them in escrow for the
channel, or burned them because they return to their own chain. -/
inductive TransferEffect where
  | refused | escrowed | burned
  deriving DecidableEq, Repr

/-- `createIbcMsgTransfer`, without the port and the timeout. -/
structure MsgTransfer where
  sourceChannel : Bytes
  token : Coin
  sender : AccAddress
  receiver : Bytes
  deriving DecidableEq, Repr

def createIbcMsgTransfer (forward : PendingIbcAutoForward) (sender : AccAddress) : MsgTransfer :=
  ⟨forward.ibcChannel, forward.token, sender, forward.foreignReceiver⟩

/-- What `ibcTransferKeeper.Transfer` does to the bank, and the error it returns. -/
abbrev IbcTransfer := MsgTransfer → Bank → Bank × Option Err

/-- A forward that was dequeued, and the call of `ibcTransferKeeper.Transfer` for it. -/
structure Dequeued where
  forward : PendingIbcAutoForward
  call : Option MsgTransfer

variable (ext : External)

def PendingIbcAutoForward.validateBasic (forward : PendingIbcAutoForward) : Go Unit := do
  let (hrp, _) ← fromOption ⟨.plain, "ForeignReceiver is not a valid bech32 address"⟩
    (ext.decodeBech32 forward.foreignReceiver)
  require (hrp ≠ ext.accountPrefix) ⟨.invalidAddress,
    "ForeignReceiver cannot have the native chain prefix"⟩
  require (forward.token.amount ≠ 0) ⟨.invalidCoins, "Token must be non-zero"⟩
  require (forward.ibcChannel ≠ []) ⟨.invalid, "IbcChannel must not be an empty string"⟩
  require (forward.eventNonce ≠ 0) ⟨.invalid, "EventNonce must be non-zero"⟩

def Ledger.validatePendingIbcAutoForward (context : Context) (ledger : Ledger)
    (forward : PendingIbcAutoForward) : Go Unit := do
  forward.validateBasic ext
  validateStrictDenom forward.token.denom
  require (forward.eventNonce ≤ context.lastObservedEventNonce)
    ⟨.invalid, "EventNonce must be <= latest observed event nonce"⟩
  let (hrp, _) ← fromOption ⟨.plain, "ForeignReceiver is not a valid bech32 address"⟩
    (ext.decodeBech32 forward.foreignReceiver)
  let sourceChannel ← fromOption ⟨.plain, "ForeignReciever has an invalid or unregistered prefix"⟩
    (context.hrpIbcRecords.get hrp)
  require (forward.ibcChannel = sourceChannel)
    ⟨.mismatched, "IbcChannel does not match the registered prefix's IBC channel"⟩
  require (forward.token.amount ≤ ledger.bank.balances ext.gravityModule forward.token.denom)
    ⟨.insufficientFunds, "Gravity Module account does not have enough funds for a forward"⟩

def Ledger.addPendingIbcAutoForward (context : Context) (ledger : Ledger)
    (forward : PendingIbcAutoForward) : Go Ledger := do
  ledger.validatePendingIbcAutoForward ext context forward
  require (ledger.pendingIbcAutoForwards.get forward.eventNonce = none)
    ⟨.duplicate, "Pending IBC Auto-Forward Queue already has an entry with nonce"⟩
  pure { ledger with
    pendingIbcAutoForwards := ledger.pendingIbcAutoForwards.set forward.eventNonce forward }

def Ledger.sendToCommunityPool (ledger : Ledger) (coin : Coin) : Go Ledger := do
  let bank ← rewrap ⟨.plain, "transfer to community pool failed"⟩
    (ledger.bank.sendCoins ext.gravityModule ext.distributionModule coin)
  pure { ledger with
    bank := bank
    communityPool := fun denom => ledger.communityPool denom + coin.amountOf denom }

/-- The coins of the local receiver after the IBC module handled its transfer. -/
def Bank.ibcTransfer (bank : Bank) (effect : TransferEffect) (sender : AccAddress) (channel : Bytes)
    (coin : Coin) : Bank :=
  match effect with
  | .refused => bank
  | .escrowed => transaction bank (bank.sendCoins sender (ext.ibcEscrow channel) coin)
  | .burned => transaction bank (bank.burnCoins sender coin)

def Ledger.getNextPendingIbcAutoForward (ledger : Ledger) : Option PendingIbcAutoForward :=
  ledger.pendingIbcAutoForwards.values.head?

/-- The transfer of an effect that either happens or does not. -/
def TransferEffect.transfer (effect : TransferEffect) : IbcTransfer := fun msg bank =>
  (bank.ibcTransfer ext effect msg.sender msg.sourceChannel msg.token,
    if effect = .refused then some ⟨.plain, "transfer refused"⟩ else none)

/-- The rest of `ProcessNextPendingIbcAutoForward`, once a forward was found. -/
def Ledger.handleForward (ledger : Ledger) (forward : PendingIbcAutoForward)
    (transfer : IbcTransfer) : Go (Dequeued × Ledger) := do
  orPanic "Invalid forward found in Pending IBC Auto-Forward queue" (forward.validateBasic ext)
  orPanic "Invalid denom in Pending IBC Auto-Forward queue" (validateStrictDenom forward.token.denom)
  check ((ledger.pendingIbcAutoForwards.get forward.eventNonce).isSome = true)
    "Discovered nonexistent Pending IBC Auto-Forward in the queue"
  let dequeued := { ledger with
    pendingIbcAutoForwards := ledger.pendingIbcAutoForwards.delete forward.eventNonce }
  let fallback ← orPanic "Invalid ForeignReceiver found in Pending IBC Auto-Forward queue"
    (ibcAddressFromBech32 ext forward.foreignReceiver)
  match dequeued.bank.sendCoinsFromModuleToAccount ext ext.gravityModule fallback forward.token with
  | .ok bank =>
      -- the error of the transfer goes to a log and an event
      let msgTransfer := createIbcMsgTransfer forward fallback
      pure (⟨forward, some msgTransfer⟩, { dequeued with bank := (transfer msgTransfer bank).1 })
  | .error _ => do
      let pooled ← dequeued.sendToCommunityPool ext forward.token
      pure (⟨forward, none⟩, pooled)

/-- `ProcessNextPendingIbcAutoForward`. The flag tells that the queue was empty. -/
def Ledger.processNextPendingIbcAutoForward (ledger : Ledger) (transfer : IbcTransfer) :
    Go (Bool × Ledger) :=
  match ledger.getNextPendingIbcAutoForward with
  | none => pure (true, ledger)
  | some forward => do
      let (_, next) ← ledger.handleForward ext forward transfer
      pure (false, next)

/-- `ProcessPendingIbcAutoForwards`: one effect for each forward to clear. -/
def Ledger.processPendingIbcAutoForwards : Ledger → List TransferEffect → Go Ledger
  | ledger, [] => pure ledger
  | ledger, effect :: rest =>
      match ledger.getNextPendingIbcAutoForward with
      | none => pure ledger
      | some forward => do
          let (_, next) ← ledger.handleForward ext forward (effect.transfer ext)
          next.processPendingIbcAutoForwards rest

/-! ## What processing a forward changes -/

section

variable {ext} {ledger next : Ledger} {forward : PendingIbcAutoForward} {effect : TransferEffect}
  {transfer : IbcTransfer} {taken : Dequeued}

/-- A coin left the module account for an account that is not the module. -/
structure PaidOut (ext : External) (bank : Bank) (coin : Coin) (next : Bank) : Prop where
  balance : ∀ denom, next.balances ext.gravityModule denom + coin.amountOf denom =
    bank.balances ext.gravityModule denom
  supply : ∀ denom, next.supply denom ≤ bank.supply denom
  metadata : next.denomMetaData = bank.denomMetaData

theorem PaidOut.of_move {bank : Bank} {receiver : AccAddress} {coin : Coin}
    (held : coin.amount ≤ bank.balances ext.gravityModule coin.denom)
    (other : ext.gravityModule ≠ receiver) :
    PaidOut ext bank coin (bank.move ext.gravityModule receiver coin held) where
  balance _ := Bank.move_balances_sender other
  supply _ := le_refl _
  metadata := rfl

theorem ne_gravityModule_of_notBlocked {account : AccAddress}
    (notBlocked : ext.blockedAddr account = false) :
    ext.gravityModule ≠ account := by
  rintro rfl
  rw [ext.blocked_gravity] at notBlocked
  contradiction

/-- A transfer by another account leaves the module's balance alone and mints nothing. -/
theorem ibcTransfer_bystander (bank : Bank) (effect : TransferEffect) {sender : AccAddress}
    (channel : Bytes) (coin : Coin) (other : ext.gravityModule ≠ sender) (denom : Denom) :
    (bank.ibcTransfer ext effect sender channel coin).balances ext.gravityModule denom =
      bank.balances ext.gravityModule denom ∧
    (bank.ibcTransfer ext effect sender channel coin).supply denom ≤ bank.supply denom ∧
    (bank.ibcTransfer ext effect sender channel coin).denomMetaData = bank.denomMetaData := by
  cases effect with
  | refused => exact ⟨rfl, le_refl _, rfl⟩
  | escrowed =>
    rcases transaction_cases bank (bank.sendCoins sender (ext.ibcEscrow channel) coin) with
      moved | same
    · obtain ⟨held, result⟩ := Bank.sendCoins_eq_ok.mp moved
      rw [Bank.ibcTransfer, ← result]
      exact ⟨Bank.move_balances_bystander other (ext.ibcEscrow_ne channel).symm, le_refl _, rfl⟩
    · rw [Bank.ibcTransfer, same]
      exact ⟨rfl, le_refl _, rfl⟩
  | burned =>
    rcases transaction_cases bank (bank.burnCoins sender coin) with burned | same
    · obtain ⟨held, result⟩ := Bank.burnCoins_eq_ok.mp burned
      rw [Bank.ibcTransfer, ← result]
      exact ⟨by simp [Bank.burn, debit, other], Nat.sub_le _ _, rfl⟩
    · rw [Bank.ibcTransfer, same]
      exact ⟨rfl, le_refl _, rfl⟩

/-- A forward leaves the queue. Its coin goes to the local account and from there to the IBC module,
or to the community pool. -/
theorem handleForward_cases (ran : ledger.handleForward ext forward transfer = .ok (taken, next)) :
    (ledger.pendingIbcAutoForwards.get forward.eventNonce).isSome = true ∧
    ((∃ fallback held, ext.gravityModule ≠ fallback ∧
      ibcAddressFromBech32 ext forward.foreignReceiver = .ok fallback ∧
        taken = ⟨forward, some (createIbcMsgTransfer forward fallback)⟩ ∧
        next = { ledger with
          bank := (transfer (createIbcMsgTransfer forward fallback)
            (ledger.bank.move ext.gravityModule fallback forward.token held)).1
          pendingIbcAutoForwards := ledger.pendingIbcAutoForwards.delete forward.eventNonce }) ∨
      (taken = ⟨forward, none⟩ ∧ PaidOut ext ledger.bank forward.token next.bank ∧
        next = { ledger with
          bank := next.bank
          communityPool := next.communityPool
          pendingIbcAutoForwards := ledger.pendingIbcAutoForwards.delete forward.eventNonce })) := by
  simp only [Ledger.handleForward, bind_eq_ok, orPanic_eq_ok, check_eq_ok] at ran
  obtain ⟨_, _, _, _, _, queued, fallback, decoded, paid⟩ := ran
  refine ⟨queued, ?_⟩
  split at paid
  · rename_i bank sent
    obtain ⟨notBlocked, held, rfl⟩ := Bank.sendCoinsFromModuleToAccount_eq_ok.mp sent
    obtain ⟨rfl, rfl⟩ := Prod.mk.inj (pure_eq_ok.mp paid)
    exact .inl ⟨fallback, held, ne_gravityModule_of_notBlocked notBlocked, decoded, rfl, rfl⟩
  · simp only [Ledger.sendToCommunityPool, bind_eq_ok, rewrap_eq_ok, Bank.sendCoins_eq_ok, pure_eq_ok,
      Prod.mk.injEq] at paid
    obtain ⟨_, ⟨_, ⟨held, rfl⟩, rfl⟩, rfl, rfl⟩ := paid
    exact .inr ⟨rfl, PaidOut.of_move held ext.distribution_ne.symm, rfl⟩

/-- The forward's coins leave the module account, wherever they end up. -/
theorem handleForward_paidOut
    (ran : ledger.handleForward ext forward (effect.transfer ext) = .ok (taken, next)) :
    PaidOut ext ledger.bank forward.token next.bank ∧
    (ledger.pendingIbcAutoForwards.get forward.eventNonce).isSome = true ∧
    next = { ledger with
      bank := next.bank
      communityPool := next.communityPool
      pendingIbcAutoForwards := ledger.pendingIbcAutoForwards.delete forward.eventNonce } := by
  obtain ⟨queued, ⟨fallback, held, other, _, _, rfl⟩ | ⟨_, left, frame⟩⟩ := handleForward_cases ran
  · have left := PaidOut.of_move held other
    have bystander := fun denom => ibcTransfer_bystander (ledger.bank.move ext.gravityModule fallback
      forward.token held) effect forward.ibcChannel forward.token other denom
    exact ⟨⟨fun denom => (congrArg (· + _) (bystander denom).1).trans (left.balance denom),
      fun denom => (bystander denom).2.1, (bystander forward.token.denom).2.2⟩, queued, rfl⟩
  · exact ⟨left, queued, frame⟩

end

end GravityBridge.Keeper
