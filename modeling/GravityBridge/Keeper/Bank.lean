import GravityBridge.Types.Denom

/-!
# The bank module

Balances and supplies by account and denom, with the keeper calls that the
bridge makes. The supply of a denom covers the balances of every group of
accounts, and this is a field of the structure: an operation that would create
coins out of nothing cannot be defined.
-/

namespace GravityBridge.Keeper

open Lib.Fallible Lib.ByteString GravityBridge.Types

structure Coin where
  denom : Denom
  amount : Nat
  deriving DecidableEq, Repr

/-- How much of a denom the coin holds. -/
def Coin.amountOf (coin : Coin) (denom : Denom) : Nat :=
  if denom = coin.denom then coin.amount else 0

/-- `Coin.IsValid` on a coin whose amount is not negative. -/
def Coin.isValid (coin : Coin) : Bool := sdkValidateDenom coin.denom

structure DenomUnit where
  denom : Denom
  exponent : Nat
  aliases : List Bytes
  deriving DecidableEq, Repr

structure Metadata where
  description : Bytes
  denomUnits : List DenomUnit
  base : Denom
  display : Denom
  name : Bytes
  symbol : Bytes
  uri : Bytes
  uriHash : Bytes
  deriving DecidableEq, Repr

abbrev Balances := AccAddress → Denom → Nat

/-! ## Adding to and taking from one balance -/

def credit (balances : Balances) (account : AccAddress) (coin : Coin) : Balances :=
  fun other denom =>
    if other = account ∧ denom = coin.denom then balances other denom + coin.amount
    else balances other denom

def debit (balances : Balances) (account : AccAddress) (coin : Coin) : Balances :=
  fun other denom =>
    if other = account ∧ denom = coin.denom then balances other denom - coin.amount
    else balances other denom

/-- The part of a group's holdings that one changed balance accounts for. -/
def share (accounts : Finset AccAddress) (account : AccAddress) (coin : Coin) (denom : Denom) : Nat :=
  if account ∈ accounts ∧ denom = coin.denom then coin.amount else 0

theorem sum_credit (balances : Balances) (account : AccAddress) (coin : Coin) (denom : Denom)
    (accounts : Finset AccAddress) :
    ∑ other ∈ accounts, credit balances account coin other denom =
      ∑ other ∈ accounts, balances other denom + share accounts account coin denom := by
  have split : ∀ other, credit balances account coin other denom =
      balances other denom + if other = account ∧ denom = coin.denom then coin.amount else 0 := by
    intro other
    unfold credit
    split_ifs <;> rfl
  rw [Finset.sum_congr rfl (fun other _ => split other), Finset.sum_add_distrib]
  by_cases same : denom = coin.denom
  · simp [share, same]
  · simp [share, same]

theorem sum_debit {balances : Balances} {account : AccAddress} {coin : Coin}
    (held : coin.amount ≤ balances account coin.denom) (denom : Denom)
    (accounts : Finset AccAddress) :
    ∑ other ∈ accounts, debit balances account coin other denom + share accounts account coin denom =
      ∑ other ∈ accounts, balances other denom := by
  have restored : credit (debit balances account coin) account coin = balances := by
    funext other name
    unfold credit debit
    split_ifs with here
    · obtain ⟨rfl, rfl⟩ := here
      exact Nat.sub_add_cancel held
    · rfl
  rw [← sum_credit, restored]

structure Bank where
  balances : Balances
  supply : Denom → Nat
  denomMetaData : Denom → Option Metadata
  backed : ∀ (denom : Denom) (accounts : Finset AccAddress),
    ∑ account ∈ accounts, balances account denom ≤ supply denom

namespace Bank

def empty : Bank := ⟨fun _ _ => 0, fun _ => 0, fun _ => none, by simp⟩

def setDenomMetaData (bank : Bank) (metadata : Metadata) : Bank :=
  { bank with denomMetaData := fun denom =>
      if denom = metadata.base then some metadata else bank.denomMetaData denom }

theorem balances_le_supply (bank : Bank) (account : AccAddress) (denom : Denom) :
    bank.balances account denom ≤ bank.supply denom := by
  simpa using bank.backed denom {account}

/-- Take a held coin from one account and give it to another. -/
def move (bank : Bank) (sender receiver : AccAddress) (coin : Coin)
    (held : coin.amount ≤ bank.balances sender coin.denom) : Bank where
  balances := credit (debit bank.balances sender coin) receiver coin
  supply := bank.supply
  denomMetaData := bank.denomMetaData
  backed denom accounts := by
    have taken := sum_debit held denom (insert sender (insert receiver accounts))
    have given := sum_credit (debit bank.balances sender coin) receiver coin denom
      (insert sender (insert receiver accounts))
    have wider := Finset.sum_le_sum_of_subset (f := fun account =>
      credit (debit bank.balances sender coin) receiver coin account denom)
      ((Finset.subset_insert receiver accounts).trans (Finset.subset_insert sender _))
    have covered := bank.backed denom (insert sender (insert receiver accounts))
    simp only [share, Finset.mem_insert, true_or, or_true, true_and] at taken given
    omega

def mint (bank : Bank) (account : AccAddress) (coin : Coin) : Bank where
  balances := credit bank.balances account coin
  supply denom := bank.supply denom + coin.amountOf denom
  denomMetaData := bank.denomMetaData
  backed denom accounts := by
    have covered := bank.backed denom accounts
    rw [sum_credit]
    refine Nat.add_le_add covered ?_
    unfold share Coin.amountOf
    split_ifs with both single single
    · rfl
    · exact absurd both.2 single
    · exact Nat.zero_le _
    · rfl

def burn (bank : Bank) (account : AccAddress) (coin : Coin)
    (held : coin.amount ≤ bank.balances account coin.denom) : Bank where
  balances := debit bank.balances account coin
  supply denom := bank.supply denom - coin.amountOf denom
  denomMetaData := bank.denomMetaData
  backed denom accounts := by
    have taken := sum_debit held denom (insert account accounts)
    have wider := Finset.sum_le_sum_of_subset (f := fun other =>
      debit bank.balances account coin other denom) (Finset.subset_insert account accounts)
    have covered := bank.backed denom (insert account accounts)
    simp only [share, Finset.mem_insert, true_or, true_and] at taken
    simp only [Coin.amountOf]
    omega

/-! ## The keeper's calls

Integers beyond 256 bits panic. Only minting can reach them, since the other
calls move coins that the supply already counts. -/

def sendCoins (bank : Bank) (sender receiver : AccAddress) (coin : Coin) : Go Bank :=
  if held : coin.amount ≤ bank.balances sender coin.denom then
    .ok (bank.move sender receiver coin held)
  else fail ⟨.insufficientFunds, "spendable balance is smaller than the amount"⟩

def mintCoins (bank : Bank) (moduleAccount : AccAddress) (coin : Coin) : Go Bank := do
  check (bank.supply coin.denom + coin.amount < 2 ^ 256) "Int overflow"
  pure (bank.mint moduleAccount coin)

def burnCoins (bank : Bank) (moduleAccount : AccAddress) (coin : Coin) : Go Bank :=
  if held : coin.amount ≤ bank.balances moduleAccount coin.denom then
    .ok (bank.burn moduleAccount coin held)
  else fail ⟨.insufficientFunds, "spendable balance is smaller than the amount"⟩

def sendCoinsFromModuleToAccount (ext : External) (bank : Bank) (moduleAccount receiver : AccAddress)
    (coin : Coin) : Go Bank := do
  require (ext.blockedAddr receiver = false) ⟨.unauthorized, "is not allowed to receive funds"⟩
  bank.sendCoins moduleAccount receiver coin

/-! ## What an operation changes -/

section

variable {bank next : Bank} {sender receiver account : AccAddress} {coin : Coin} {denom : Denom}
  {held : coin.amount ≤ bank.balances sender coin.denom}

@[simp] theorem move_supply : (bank.move sender receiver coin held).supply = bank.supply := rfl

@[simp] theorem move_denomMetaData :
    (bank.move sender receiver coin held).denomMetaData = bank.denomMetaData := rfl

@[simp] theorem mint_supply :
    (bank.mint account coin).supply denom = bank.supply denom + coin.amountOf denom := rfl

@[simp] theorem mint_denomMetaData : (bank.mint account coin).denomMetaData = bank.denomMetaData :=
  rfl

@[simp] theorem burn_supply : (bank.burn sender coin held).supply denom =
    bank.supply denom - coin.amountOf denom := rfl

@[simp] theorem burn_denomMetaData :
    (bank.burn sender coin held).denomMetaData = bank.denomMetaData := rfl

theorem amountOf_le_balances (held : coin.amount ≤ bank.balances sender coin.denom) (denom : Denom) :
    coin.amountOf denom ≤ bank.balances sender denom := by
  unfold Coin.amountOf
  split_ifs with same
  · exact same ▸ held
  · exact Nat.zero_le _

theorem mint_balances :
    (bank.mint account coin).balances account denom =
      bank.balances account denom + coin.amountOf denom := by
  simp only [mint, credit, Coin.amountOf, true_and]
  split_ifs <;> rfl

theorem mint_balances_of_ne {other : AccAddress} (distinct : other ≠ account) :
    (bank.mint account coin).balances other denom = bank.balances other denom := by
  simp [mint, credit, distinct]

theorem burn_balances :
    (bank.burn sender coin held).balances sender denom + coin.amountOf denom =
      bank.balances sender denom := by
  have enough := amountOf_le_balances held denom
  simp only [burn, debit, Coin.amountOf, true_and] at enough ⊢
  split_ifs at enough ⊢ <;> omega

theorem move_balances_sender (distinct : sender ≠ receiver) :
    (bank.move sender receiver coin held).balances sender denom + coin.amountOf denom =
      bank.balances sender denom := by
  have enough := amountOf_le_balances held denom
  simp only [move, credit, debit, Coin.amountOf, true_and, distinct, false_and, if_false] at enough ⊢
  split_ifs at enough ⊢ <;> omega

theorem move_balances_receiver (distinct : sender ≠ receiver) :
    (bank.move sender receiver coin held).balances receiver denom =
      bank.balances receiver denom + coin.amountOf denom := by
  simp only [move, credit, debit, Coin.amountOf, true_and, distinct.symm, false_and, if_false]
  split_ifs <;> rfl

theorem move_balances_bystander (notSender : account ≠ sender) (notReceiver : account ≠ receiver) :
    (bank.move sender receiver coin held).balances account denom = bank.balances account denom := by
  simp [move, credit, debit, notSender, notReceiver]

/-- What any account sent and received, be it the same account. -/
theorem move_balances (held : coin.amount ≤ bank.balances sender coin.denom) (account : AccAddress)
    (denom : Denom) : (bank.move sender receiver coin held).balances account denom +
        (if account = sender then coin.amountOf denom else 0) =
      bank.balances account denom + (if account = receiver then coin.amountOf denom else 0) := by
  have enough := amountOf_le_balances held denom
  simp only [move, credit, debit, Coin.amountOf] at enough ⊢
  split_ifs at enough ⊢ <;> simp_all

theorem sendCoins_eq_ok : bank.sendCoins sender receiver coin = .ok next ↔
      ∃ held, bank.move sender receiver coin held = next := by
  unfold sendCoins
  split_ifs with held <;> simp [held]

theorem mintCoins_eq_ok : bank.mintCoins account coin = .ok next ↔
      bank.supply coin.denom + coin.amount < 2 ^ 256 ∧ bank.mint account coin = next := by
  simp [mintCoins]

theorem burnCoins_eq_ok : bank.burnCoins sender coin = .ok next ↔
    ∃ held, bank.burn sender coin held = next := by
  unfold burnCoins
  split_ifs with held <;> simp [held]

theorem sendCoinsFromModuleToAccount_eq_ok {ext : External} :
    bank.sendCoinsFromModuleToAccount ext sender receiver coin = .ok next ↔
      ext.blockedAddr receiver = false ∧ ∃ held, bank.move sender receiver coin held = next := by
  simp [sendCoinsFromModuleToAccount, sendCoins_eq_ok]

end

end Bank

/-- `sdk.Coins` around one coin is valid only with a positive amount; `sdk.NewCoins`
drops a zero coin instead, and moving nothing has no effect. -/
def singleCoins (coin : Coin) : Go Coin := do
  require (0 < coin.amount) ⟨.invalidCoins, "invalid coins"⟩
  pure coin

/-- `sdk.NewCoin`, which panics on a denom outside the chain's syntax and on a negative or
missing amount. -/
def newCoin (denom : Denom) (amount : Option Int) : Go Coin := do
  check (sdkValidateDenom denom = true) "invalid denom"
  let value ← unwrap "amount is nil" amount
  check (0 ≤ value) "negative coin amount"
  pure ⟨denom, value.toNat⟩

theorem newCoin_eq_ok {denom : Denom} {amount : Option Int} {coin : Coin} :
    newCoin denom amount = .ok coin ↔
      sdkValidateDenom denom = true ∧ ∃ value : Nat, amount = some ↑value ∧
        coin = ⟨denom, value⟩ := by
  simp only [newCoin, bind_eq_ok, check_eq_ok, unwrap_eq_ok, pure_eq_ok, Unique.exists_iff]
  constructor
  · rintro ⟨valid, value, rfl, positive, rfl⟩
    exact ⟨valid, value.toNat, by simp [positive], rfl⟩
  · rintro ⟨valid, value, rfl, rfl⟩
    exact ⟨valid, value, rfl, by simp, by simp⟩

theorem singleCoins_eq_ok {coin result : Coin} : singleCoins coin = .ok result ↔
    0 < coin.amount ∧ coin = result := by
  simp [singleCoins]

end GravityBridge.Keeper
