import GravityBridge.Keeper.Bank

/-!
# Airdrops from the community pool

The community pool is a number in the records of the distribution module, and its
coins are in the account of that module. An airdrop pays its recipients from the
account one by one and then lowers the record by the total. The account itself may
receive coins, and an amount for it leaves the account where it was.
-/

namespace GravityBridge.Keeper

open Lib.Fallible Lib.ByteString
open GravityBridge.Types List

/-! ## The code -/

structure AirdropProposal where
  denom : Denom
  /-- The addresses of the recipients, twenty bytes each. -/
  recipients : Bytes
  amounts : List U64
  deriving DecidableEq, Repr

/-- The balances, and the record of the community pool in units of ten to the power of minus
eighteen. -/
structure Treasury where
  bank : Bank
  communityPool : Denom → Nat

def decScale : Nat := 10 ^ 18

def AirdropProposal.total (proposal : AirdropProposal) : Nat := (proposal.amounts.map Fin.val).sum

def AirdropProposal.parsedRecipients (proposal : AirdropProposal) : List AccAddress :=
  (List.range (proposal.recipients.length / 20)).map
    (fun index => (proposal.recipients.drop (index * 20)).take 20)

/-- The recipients with their amounts. -/
def AirdropProposal.payments (proposal : AirdropProposal) : List (AccAddress × Nat) :=
  proposal.parsedRecipients.zip (proposal.amounts.map Fin.val)

variable (ext : External)

/-- One turn of the loop over the recipients, with the amount sent so far. -/
def payRecipient (denom : Denom) (current : Bank × Nat) (payment : AccAddress × Nat) :
    Go (Bank × Nat) := do
  let bank ← current.1.sendCoinsFromModuleToAccount ext ext.distributionModule payment.1
    ⟨denom, payment.2⟩
  pure (bank, current.2 + payment.2 * decScale)

def handleAirdropProposal (treasury : Treasury) (proposal : AirdropProposal) : Go Treasury := do
  rewrap ⟨.plain, "invalid airdrop denom"⟩ (validateStrictDenom proposal.denom)
  let startingSupply := treasury.bank.supply proposal.denom
  require (sdkValidateDenom proposal.denom = true) ⟨.invalid, "Invalid airdrop denom"⟩
  let feePoolAmount := treasury.communityPool proposal.denom
  let totalRequiredDec := proposal.total * decScale
  require (¬ feePoolAmount < totalRequiredDec) ⟨.invalid, "Insufficient tokens in community pool"⟩
  require (proposal.recipients.length % 20 = 0 ∧ proposal.recipients.length / 20 =
    proposal.amounts.length) ⟨.invalid, "Invalid recipients"⟩
  require (proposal.parsedRecipients.length = proposal.amounts.length)
    ⟨.invalid, "Invalid recipients"⟩
  let (bank, totalSent) ← proposal.payments.foldlM (payRecipient ext proposal.denom)
    (treasury.bank, 0)
  require (totalRequiredDec = totalSent) ⟨.invalid, "Invalid amount sent"⟩
  require (totalRequiredDec ≤ feePoolAmount) ⟨.invalid, "internal error!"⟩
  let newCoins := fun denom =>
    if denom = proposal.denom then feePoolAmount - totalRequiredDec else treasury.communityPool denom
  require (startingSupply = bank.supply proposal.denom) ⟨.invalid, "total chain supply has changed!"⟩
  pure ⟨bank, newCoins⟩

/-! ## What the loop pays -/

/-- The sum of the amounts listed for an account. -/
def listedFor (account : AccAddress) (payments : List (AccAddress × Nat)) : Nat :=
  ((payments.filter (fun payment => payment.1 = account)).map Prod.snd).sum

def paymentsTotal (payments : List (AccAddress × Nat)) : Nat := (payments.map Prod.snd).sum

variable {ext}

theorem listedFor_cons (account : AccAddress) (payment : AccAddress × Nat)
    (rest : List (AccAddress × Nat)) :
    listedFor account (payment :: rest) = (if account = payment.1 then
      payment.2 else 0) + listedFor account rest := by
  by_cases same : payment.1 = account
  · simp [listedFor, same]
  · simp [listedFor, same, Ne.symm same]

/-- Every account gets what is listed for it, and the account of the module pays for all of them. -/
theorem payRecipients_balances {denom : Denom} {payments : List (AccAddress × Nat)}
    {before after : Bank × Nat}
    (paid : payments.foldlM (payRecipient ext denom) before = .ok after) (account : AccAddress)
    (other : Denom) : after.1.balances account other +
        (if account = ext.distributionModule then
          (Coin.mk denom (paymentsTotal payments)).amountOf other else 0) =
      before.1.balances account other + (Coin.mk denom (listedFor account payments)).amountOf
        other := by
  induction payments generalizing before with
  | nil =>
    obtain rfl := pure_eq_ok.mp paid
    simp [paymentsTotal, listedFor, Coin.amountOf]
  | cons payment rest ih =>
    rw [foldlM_cons, bind_eq_ok] at paid
    obtain ⟨middle, one, later⟩ := paid
    simp only [payRecipient, bind_eq_ok, Bank.sendCoinsFromModuleToAccount_eq_ok, pure_eq_ok] at one
    obtain ⟨_, ⟨-, held, rfl⟩, rfl⟩ := one
    have first := @Bank.move_balances before.1 ext.distributionModule payment.1
      ⟨denom, payment.2⟩ held account other
    have remaining := ih later
    rw [listedFor_cons, paymentsTotal, map_cons, sum_cons]
    simp only [Coin.amountOf, paymentsTotal] at first remaining ⊢
    split_ifs at first remaining ⊢ <;> omega

theorem listedFor_le (account : AccAddress) (payments : List (AccAddress × Nat)) :
    listedFor account payments ≤ paymentsTotal payments :=
  (filter_sublist.map Prod.snd).sum_le_sum (fun _ _ => Nat.zero_le _)

theorem listedFor_eq_zero {account : AccAddress} {payments : List (AccAddress × Nat)}
    (absent : account ∉ payments.map Prod.fst) : listedFor account payments = 0 := by
  have none : payments.filter (fun payment => payment.1 = account) = [] := by
    refine filter_eq_nil_iff.mpr fun payment member same => absent ?_
    exact mem_map.mpr ⟨payment, member, of_decide_eq_true same⟩
  simp [listedFor, none]

/-! ## Backing -/

/-- The record and the account of the module are lowered by the total, and every recipient has the
amounts that are listed for it. -/
structure KeepsBacked (ext : External) (treasury : Treasury) (proposal : AirdropProposal)
    (next : Treasury) : Prop where
  record : next.communityPool proposal.denom + proposal.total * decScale =
    treasury.communityPool proposal.denom
  account : next.bank.balances ext.distributionModule proposal.denom + proposal.total =
    treasury.bank.balances ext.distributionModule proposal.denom
  recipients : ∀ recipient ∈ proposal.parsedRecipients, next.bank.balances recipient proposal.denom =
    treasury.bank.balances recipient proposal.denom + listedFor recipient proposal.payments

variable {treasury next : Treasury} {proposal : AirdropProposal}

/-- What a successful airdrop did to the record and to the balances. -/
theorem handleAirdropProposal_eq_ok
    (handled : handleAirdropProposal ext treasury proposal = .ok next) :
    proposal.payments.map Prod.fst = proposal.parsedRecipients ∧
    paymentsTotal proposal.payments = proposal.total ∧
      next.communityPool proposal.denom + proposal.total * decScale =
        treasury.communityPool proposal.denom ∧
      ∀ account, next.bank.balances account proposal.denom +
          (if account = ext.distributionModule then proposal.total else 0) =
        treasury.bank.balances account proposal.denom + listedFor account proposal.payments := by
  simp only [handleAirdropProposal, bind_eq_ok, rewrap_eq_ok, require_eq_ok, pure_eq_ok,
    Unique.exists_iff, Prod.exists] at handled
  obtain ⟨-, -, -, -, lengths, bank, sent, paid, -, within, -, rfl⟩ := handled
  have recipients : proposal.payments.map Prod.fst = proposal.parsedRecipients :=
    map_fst_zip (by simp [lengths])
  have amounts : proposal.payments.map Prod.snd = proposal.amounts.map Fin.val :=
    map_snd_zip (by simp [lengths])
  have total : paymentsTotal proposal.payments = proposal.total := by
    rw [paymentsTotal, amounts, AirdropProposal.total]
  refine ⟨recipients, total, ?_, fun account => ?_⟩
  · simpa using Nat.sub_add_cancel within
  · simpa [Coin.amountOf, total] using payRecipients_balances paid account proposal.denom

/-- The pool stays backed exactly when the account of the module is no recipient, or nothing is
paid. -/
theorem airdrop_keeps_backed_iff (handled : handleAirdropProposal ext treasury proposal = .ok next) :
    KeepsBacked ext treasury proposal next ↔
      ext.distributionModule ∉ proposal.parsedRecipients ∨ proposal.total = 0 := by
  obtain ⟨recipients, total, record, balances⟩ := handleAirdropProposal_eq_ok handled
  have own := balances ext.distributionModule
  rw [if_pos rfl] at own
  constructor
  · intro backed
    by_cases listed : ext.distributionModule ∈ proposal.parsedRecipients
    · have lowered := backed.account
      have raised := backed.recipients _ listed
      exact .inr (by omega)
    · exact .inl listed
  · intro condition
    have nothing : listedFor ext.distributionModule proposal.payments = 0 := by
      rcases condition with absent | zero
      · exact listedFor_eq_zero (recipients ▸ absent)
      · exact Nat.le_zero.mp ((listedFor_le _ _).trans (total.trans zero).le)
    refine ⟨record, by omega, fun recipient member => ?_⟩
    have paid := balances recipient
    by_cases isModule : recipient = ext.distributionModule
    · have zero := condition.resolve_left (not_not.mpr (isModule ▸ member))
      rw [if_pos isModule] at paid
      omega
    · rw [if_neg isModule] at paid
      exact paid

/-! ## Two airdrops -/

/-- The local network with a module account whose address has twenty bytes. -/
def airdropnet : External :=
  { localnet with distributionModule := ascii "distribution-account", distribution_ne := by decide }

/-- The community pool has one hundred coins, all of them in the account of the module. -/
def fundedPool : Treasury :=
  ⟨Bank.empty.mint airdropnet.distributionModule ⟨ascii "stake", 100⟩,
    fun denom => if denom = ascii "stake" then 100 * decScale else 0⟩

/-- Thirty and ten coins for one user. -/
def userAirdrop : AirdropProposal :=
  ⟨ascii "stake", ascii "a-user-of-the-bridgea-user-of-the-bridge", [30, 10]⟩

/-- Thirty coins for a user and ten for the account of the module. -/
def ownAirdrop : AirdropProposal :=
  ⟨ascii "stake", ascii "a-user-of-the-bridgedistribution-account", [30, 10]⟩

theorem userAirdrop_keeps_backed : ∃ next, handleAirdropProposal airdropnet fundedPool userAirdrop =
    .ok next ∧ KeepsBacked airdropnet fundedPool userAirdrop next := by
  have accepted : succeeds (handleAirdropProposal airdropnet fundedPool userAirdrop) = true := by
    decide +kernel
  obtain ⟨next, handled⟩ := succeeds_eq_true.mp accepted
  exact ⟨next, handled, (airdrop_keeps_backed_iff handled).mpr (.inl (by decide +kernel))⟩

/-- The record is lowered by forty coins and the account only by thirty. -/
theorem ownAirdrop_unbacked : ∃ next, handleAirdropProposal airdropnet fundedPool ownAirdrop =
    .ok next ∧
    next.communityPool (ascii "stake") = 60 * decScale ∧
    next.bank.balances airdropnet.distributionModule (ascii "stake") = 70 ∧
    ¬ KeepsBacked airdropnet fundedPool ownAirdrop next := by
  have evaluated : (handleAirdropProposal airdropnet fundedPool ownAirdrop).toOption.map (fun next =>
      (next.communityPool (ascii "stake"),
        next.bank.balances airdropnet.distributionModule (ascii "stake"))) =
      some (60 * decScale, 70) := by decide +kernel
  cases handled : handleAirdropProposal airdropnet fundedPool ownAirdrop with
  | ok next =>
      rw [handled] at evaluated
      obtain ⟨record, account⟩ := Prod.mk.inj (Option.some.inj evaluated)
      refine ⟨next, rfl, record, account, fun backed => ?_⟩
      have lowered : _ + ownAirdrop.total = _ := backed.account
      rw [show ownAirdrop.denom = ascii "stake" from rfl, account] at lowered
      exact absurd lowered (by decide +kernel)
  | error fault =>
      rw [handled] at evaluated
      contradiction

end GravityBridge.Keeper
