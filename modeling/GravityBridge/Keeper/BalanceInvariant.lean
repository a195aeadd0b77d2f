import GravityBridge.Keeper.Escrow

/-!
# The balance invariant of the module account

The invariant sums what batches, transfers and forwards should have left in the module account, by
denom, and compares the sums with the balances. The comparison runs over the denoms that the account
holds, so a denom that it should hold and does not is never looked at.
-/

namespace GravityBridge.Keeper

open Lib.Fallible Lib.ByteString Lib.Store
open GravityBridge.Types List

/-- `GetAllBalances`: every coin that an account holds, once for each denom. -/
structure Bank.Listing (bank : Bank) (account : AccAddress) where
  coins : List Coin
  once : (coins.map Coin.denom).Nodup
  listed : ∀ coin, coin ∈ coins ↔ coin.amount = bank.balances account coin.denom ∧ coin.amount ≠ 0

/-! ## The invariant -/

/-- The map of expected balances. -/
abbrev ExpectedBals := Denom → Option Nat

def ExpectedBals.add (expectedBals : ExpectedBals) (denom : Denom) (total : Nat) : ExpectedBals :=
  fun other => if other = denom then some ((expectedBals denom).getD 0 + total)
    else expectedBals other

section

variable (ext : External)

def Ledger.sumUnconfirmedBatchModuleBalances (ledger : Ledger) (expectedBals : ExpectedBals) :
    Go ExpectedBals :=
  ledger.outgoing.getOutgoingTxBatches.foldlM (fun current batch => do
    let batchOrigin ← orPanic "failed to classify ERC20 token"
      (ledger.classifyERC20 ext batch.tokenContract)
    pure (current.add batchOrigin.denom batch.total)) expectedBals

def Ledger.sumUnbatchedTxModuleBalances (ledger : Ledger) (expectedBals : ExpectedBals) :
    Go ExpectedBals :=
  ledger.outgoing.getUnbatchedTransactions.foldlM (fun current tx => do
    let txOrigin ← orPanic "failed to classify ERC20 token"
      (ledger.classifyERC20 ext tx.erc20Token.contract)
    pure (current.add txOrigin.denom tx.total)) expectedBals

/-- The first forward of a denom that is not expected yet only creates the entry. -/
def Ledger.sumPendingIbcAutoForwards (ledger : Ledger) (expectedBals : ExpectedBals) : ExpectedBals :=
  ledger.pendingIbcAutoForwards.values.foldl (fun current forward =>
    match current forward.token.denom with
    | none => current.add forward.token.denom 0
    | some _ => current.add forward.token.denom forward.token.amount) expectedBals

/-- The loop over the actual balances. It stops at the first problem and returns its description. -/
def Ledger.compareBalances (ledger : Ledger) (expectedBals : ExpectedBals) :
    List Coin → Go (Option String)
  | [] => pure none
  | actual :: rest =>
      match ledger.classifyDenom actual.denom with
      | .error (.panic message) => panicking message
      | .error (.error _) => pure (some "Failed to classify denom")
      | .ok origin =>
          match expectedBals actual.denom with
          | none => pure (some "Could not find expected balance for actual module balance")
          | some expected =>
              if origin.origin = .cosmos then ledger.compareBalances expectedBals rest
              else if actual.amount = expected then ledger.compareBalances expectedBals rest
              else pure (some "Mismatched balance of eth-originated denom")

/-- `ModuleBalanceInvariant`: nothing when it is not broken, or what is wrong. -/
def Ledger.moduleBalanceInvariant (ledger : Ledger) (actualBals : List Coin) :
    Go (Option String) := do
  let expectedBals : ExpectedBals := fun denom => if denom ∈ actualBals.map Coin.denom then
    some 0 else none
  let batches ← ledger.sumUnconfirmedBatchModuleBalances ext expectedBals
  let unbatched ← ledger.sumUnbatchedTxModuleBalances ext batches
  ledger.compareBalances (ledger.sumPendingIbcAutoForwards unbatched) actualBals

end

/-! ## What it should find -/

/-- What the module account should hold of a denom: the transfers of the ERC20 that stands for it,
and the forwards. -/
def Ledger.expectedBalance (ext : External) (ledger : Ledger) (denom : Denom) : Nat :=
  ledger.outgoing.batches.sumOf (fun batch => if ledger.registry.denomOf ext batch.tokenContract =
    denom then batch.total else 0) +
    ledger.outgoing.pool.sumOf (fun tx => if ledger.registry.denomOf ext tx.erc20Token.contract =
      denom then tx.total else 0) +
    ledger.queued denom

/-- The denoms that are vouchers of tokens from Ethereum. -/
def Ledger.EthOriginated (ledger : Ledger) (denom : Denom) : Prop :=
  ∃ origin, ledger.classifyDenom denom = .ok origin ∧ origin.origin = .ethereum

/-- Every token in escrow can be classified. -/
structure Ledger.Classifiable (ext : External) (ledger : Ledger) (actualBals : List Coin) : Prop where
  batches : ∀ batch ∈ ledger.outgoing.batches.values, ∃ origin,
  ledger.classifyERC20 ext batch.tokenContract = .ok origin
  pool : ∀ tx ∈ ledger.outgoing.pool.values, ∃ origin,
  ledger.classifyERC20 ext tx.erc20Token.contract = .ok origin
  balances : ∀ coin ∈ actualBals, ∃ origin, ledger.classifyDenom coin.denom = .ok origin

variable {ext : External} {ledger : Ledger}

/-! ## The sums -/

/-- Every entry that is there grows by its share. -/
def Adds (share : Denom → Nat) (start result : ExpectedBals) : Prop :=
  ∀ denom total, start denom = some total → result denom = some (total + share denom)

theorem adds_add (expectedBals : ExpectedBals) (denom : Denom) (total : Nat) :
    Adds (fun other => if denom = other then total else 0) expectedBals
      (expectedBals.add denom total) := by
  intro other held found
  unfold ExpectedBals.add
  by_cases same : other = denom
  · subst same
    simp [found]
  · simp [same, Ne.symm same, found]

theorem foldlM_adds {α : Type} {body : ExpectedBals → α → Go ExpectedBals} {share : α → Denom → Nat}
    {items : List α}
    (step : ∀ current item, item ∈ items → ∃ next, body current item = .ok next ∧
      Adds (share item) current next)
    (start : ExpectedBals) :
    ∃ result, items.foldlM body start = .ok result ∧
      Adds (fun denom => (items.map (fun item => share item denom)).sum) start result := by
  induction items generalizing start with
  | nil => exact ⟨start, rfl, fun denom total found => by simpa using found⟩
  | cons item rest ih =>
    obtain ⟨middle, ran, first⟩ := step start item mem_cons_self
    obtain ⟨result, ranRest, others⟩ :=
      ih (fun current other member => step current other (mem_cons_of_mem _ member)) middle
    refine ⟨result, by rw [foldlM_cons, ran, ok_bind, ranRest], fun denom total found => ?_⟩
    rw [others denom _ (first denom total found)]
    simp only [map_cons, sum_cons, Nat.add_assoc]

/-- A pass over transfers adds their totals to the denoms that their tokens stand for. -/
theorem foldlM_classified_adds {α : Type} (token : α → EthAddress) (total : α → Nat) {items : List α}
    (classified : ∀ item ∈ items, ∃ origin, ledger.classifyERC20 ext (token item) = .ok origin)
    (start : ExpectedBals) : ∃ result, items.reverse.foldlM (fun (current : ExpectedBals) item => do
        let origin ← orPanic "failed to classify ERC20 token" (ledger.classifyERC20 ext (token item))
        pure (current.add origin.denom (total item)) : ExpectedBals → α →
          Go ExpectedBals) start = .ok result ∧
      Adds (fun denom => (items.map (fun item =>
        if ledger.registry.denomOf ext (token item) = denom then total item
          else 0)).sum) start result := by
  have step : ∀ (current : ExpectedBals), ∀ item ∈ items.reverse, ∃ next, (do
        let origin ← orPanic "failed to classify ERC20 token" (ledger.classifyERC20 ext (token item))
        pure (current.add origin.denom (total item)) : Go ExpectedBals) = .ok next ∧
      Adds (fun denom => if ledger.registry.denomOf ext (token item) = denom then
        total item else 0) current next := by
    intro current item member
    obtain ⟨origin, found⟩ := classified item (mem_reverse.mp member)
    refine ⟨_, by rw [found]; rfl, ?_⟩
    rw [← (denom_of_classifyERC20 found).1]
    exact adds_add current origin.denom (total item)
  obtain ⟨result, ran, adds⟩ := foldlM_adds step start
  refine ⟨result, ran, ?_⟩
  simpa only [map_reverse, sum_reverse] using adds

theorem sumPendingIbcAutoForwards_adds (start : ExpectedBals) :
    Adds ledger.queued start (ledger.sumPendingIbcAutoForwards start) := by
  have step : ∀ (current : ExpectedBals), ∀ forward ∈ ledger.pendingIbcAutoForwards.values,
  ∃ next, (pure (match current forward.token.denom with
        | none => current.add forward.token.denom 0
        | some _ => current.add forward.token.denom forward.token.amount) :
            Go ExpectedBals) = .ok next ∧
      Adds forward.token.amountOf current next := by
    intro current forward member
    refine ⟨_, rfl, fun denom total found => ?_⟩
    -- a denom that has an entry is never the one whose amount is lost
    by_cases same : denom = forward.token.denom
    · subst same
      simp [found, ExpectedBals.add, Coin.amountOf]
    · cases current forward.token.denom <;> simp [ExpectedBals.add, Coin.amountOf, same, found]
  obtain ⟨result, ran, adds⟩ := foldlM_adds step start
  rw [foldlM_pure] at ran
  obtain rfl := Except.ok.inj ran
  exact adds

/-! ## The comparison -/

theorem compareBalances_eq_ok {expectedBals : ExpectedBals} {actualBals : List Coin}
    (classified : ∀ coin ∈ actualBals, ∃ origin, ledger.classifyDenom coin.denom = .ok origin)
    {expected : Denom → Nat}
    (found : ∀ coin ∈ actualBals, expectedBals coin.denom = some (expected coin.denom)) :
    ledger.compareBalances expectedBals actualBals = .ok none ↔
      ∀ coin ∈ actualBals, ledger.EthOriginated coin.denom → coin.amount = expected coin.denom := by
  induction actualBals with
  | nil => simp [Ledger.compareBalances]
  | cons actual rest ih =>
    obtain ⟨origin, origin_eq⟩ := classified actual mem_cons_self
    have others := ih (fun coin member => classified coin (mem_cons_of_mem _ member))
      (fun coin member => found coin (mem_cons_of_mem _ member))
    have here := found actual mem_cons_self
    simp only [Ledger.compareBalances, origin_eq, here, forall_mem_cons]
    cases from_ : origin.origin with
    | cosmos =>
      have plain : ¬ ledger.EthOriginated actual.denom := by
        rintro ⟨_, found, isEthereum⟩
        obtain rfl := Except.ok.inj (origin_eq.symm.trans found)
        simp [from_] at isEthereum
      simp [plain, others]
    | ethereum =>
      have voucher : ledger.EthOriginated actual.denom := ⟨origin, origin_eq, from_⟩
      by_cases equal : actual.amount = expected actual.denom
      · simp [equal, others]
      · simp [equal, voucher]

/-! ## What the invariant decides -/

variable {listing : ledger.bank.Listing ext.gravityModule}

/-- The invariant holds when every balance that is not zero is the expected one. -/
theorem moduleBalanceInvariant_eq_ok (classifiable : ledger.Classifiable ext listing.coins) :
    ledger.moduleBalanceInvariant ext listing.coins = .ok none ↔
      ∀ denom, ledger.EthOriginated denom → ledger.bank.balances ext.gravityModule denom ≠ 0 →
        ledger.bank.balances ext.gravityModule denom = ledger.expectedBalance ext denom := by
  obtain ⟨batches, ranBatches, addsBatches⟩ :=
    foldlM_classified_adds OutgoingTxBatch.tokenContract OutgoingTxBatch.total
    classifiable.batches (fun denom => if denom ∈ listing.coins.map Coin.denom then some 0 else none)
  obtain ⟨unbatched, ranUnbatched, addsUnbatched⟩ :=
    foldlM_classified_adds (fun tx => tx.erc20Token.contract)
    OutgoingTransferTx.total classifiable.pool batches
  have found : ∀ coin ∈ listing.coins,
      ledger.sumPendingIbcAutoForwards unbatched coin.denom =
        some (ledger.expectedBalance ext coin.denom) := by
    intro coin member
    have started := addsBatches coin.denom 0 (if_pos (mem_map_of_mem member))
    rw [sumPendingIbcAutoForwards_adds unbatched coin.denom _ (addsUnbatched coin.denom _ started)]
    simp [Ledger.expectedBalance, KVStore.sumOf]
  have ran : ledger.moduleBalanceInvariant ext listing.coins =
      ledger.compareBalances (ledger.sumPendingIbcAutoForwards unbatched) listing.coins := by
    simp only [Ledger.moduleBalanceInvariant, Ledger.sumUnconfirmedBatchModuleBalances,
      Ledger.sumUnbatchedTxModuleBalances, Outgoing.getOutgoingTxBatches,
      Outgoing.getUnbatchedTransactions, ranBatches, ok_bind, ranUnbatched]
  rw [ran, compareBalances_eq_ok classifiable.balances found]
  constructor
  · intro equal denom voucher held
    exact equal ⟨denom, _⟩ ((listing.listed ⟨denom, _⟩).mpr ⟨rfl, held⟩) voucher
  · intro equal coin member voucher
    obtain ⟨amount, held⟩ := (listing.listed coin).mp member
    rw [amount] at held ⊢
    exact equal coin.denom voucher held

/-- The invariant decides whether the balances are the expected ones, unless some denom that the
account does not hold is expected and no balance that it holds is wrong. -/
theorem module_balance_invariant_exact (classifiable : ledger.Classifiable ext listing.coins) :
    (ledger.moduleBalanceInvariant ext listing.coins = .ok none ↔
        ∀ denom, ledger.EthOriginated denom →
          ledger.bank.balances ext.gravityModule denom = ledger.expectedBalance ext denom) ↔
      (∀ denom, ledger.EthOriginated denom → ledger.bank.balances ext.gravityModule denom = 0 →
          ledger.expectedBalance ext denom = 0) ∨
        ∃ denom, ledger.EthOriginated denom ∧ ledger.bank.balances ext.gravityModule denom ≠ 0 ∧
          ledger.bank.balances ext.gravityModule denom ≠ ledger.expectedBalance ext denom := by
  rw [moduleBalanceInvariant_eq_ok classifiable]
  constructor
  · intro exact
    by_cases wrong : ∃ denom, ledger.EthOriginated denom ∧
      ledger.bank.balances ext.gravityModule denom ≠ 0 ∧
        ledger.bank.balances ext.gravityModule denom ≠ ledger.expectedBalance ext denom
    · exact .inr wrong
    · refine .inl (fun denom voucher none => ?_)
      have right := exact.mp (fun denom voucher held =>
        by_contra (fun differs => wrong ⟨denom, voucher, held, differs⟩))
      rw [← right denom voucher, none]
  · rintro (nothing | ⟨denom, voucher, held, differs⟩)
    · refine ⟨fun equal denom voucher => ?_, fun equal denom voucher _ => equal denom voucher⟩
      by_cases held : ledger.bank.balances ext.gravityModule denom = 0
      · rw [held, nothing denom voucher held]
      · exact equal denom voucher held
    · exact iff_of_false (fun equal => differs (equal denom voucher held))
        (fun equal => differs (equal denom voucher))

/-- One transfer of ten vouchers of ERC20 five with a fee of one waits in the pool. -/
def waitingTransfer : OutgoingTransferTx := ⟨1, ascii "holder", 7, ⟨5, 10⟩, ⟨5, 1⟩⟩

def waitingLedger (bank : Bank) : Ledger :=
  { Ledger.unused [] bank with
    outgoing := ⟨KVStore.empty.set (getOutgoingTxPoolKey waitingTransfer.erc20Fee 1)
      waitingTransfer, .empty, .empty, 1, 0⟩ }

/-- The module account holds what the transfer locks. -/
def fundedBank : Bank := Bank.empty.mint localnet.gravityModule ⟨gravityDenom localnet 5, 11⟩

theorem balances_fundedBank (denom : Denom) :
    fundedBank.balances localnet.gravityModule denom = if gravityDenom localnet 5 = denom then
      11 else 0 := by
  simp [fundedBank, Bank.mint, Bank.empty, credit, eq_comm]

def fundedListing : fundedBank.Listing localnet.gravityModule where
  coins := [⟨gravityDenom localnet 5, 11⟩]
  once := by simp
  listed := by
    rintro ⟨denom, amount⟩
    rw [balances_fundedBank]
    by_cases same : gravityDenom localnet 5 = denom
    · subst same
      simp +contextual
    · simp +contextual [same, Ne.symm same]

theorem expectedBalance_waitingLedger (bank : Bank) (denom : Denom) :
    (waitingLedger bank).expectedBalance localnet denom = if gravityDenom localnet 5 = denom then
      11 else 0 := by
  have pool : (waitingLedger bank).outgoing.pool.values = [waitingTransfer] := rfl
  have batches : (waitingLedger bank).outgoing.batches.values = [] := rfl
  have forwards : (waitingLedger bank).pendingIbcAutoForwards.values = [] := rfl
  have voucher : (waitingLedger bank).registry.denomOf localnet waitingTransfer.erc20Token.contract =
      gravityDenom localnet 5 := rfl
  have total : waitingTransfer.total = 11 := rfl
  simp [Ledger.expectedBalance, Ledger.queued, KVStore.sumOf, pool, batches, forwards, voucher, total]

theorem classifiable_waitingLedger {bank : Bank} {coins : List Coin}
    (token : ∃ origin, (waitingLedger bank).classifyERC20 localnet 5 = .ok origin)
    (balances : ∀ coin ∈ coins, ∃ origin, (waitingLedger bank).classifyDenom coin.denom =
      .ok origin) :
    (waitingLedger bank).Classifiable localnet coins where
  batches := nofun
  pool tx member := by
    obtain rfl : tx = waitingTransfer := mem_singleton.mp member
    exact token
  balances := balances

/-- The balance of the voucher covers the transfer, and no other voucher is held or expected. -/
theorem funded_transfer_balanced :
    (waitingLedger fundedBank).moduleBalanceInvariant localnet fundedListing.coins = .ok none ∧
      ∀ denom, (waitingLedger fundedBank).EthOriginated denom →
        fundedBank.balances localnet.gravityModule denom =
          (waitingLedger fundedBank).expectedBalance localnet denom := by
  have holds : (waitingLedger fundedBank).moduleBalanceInvariant localnet fundedListing.coins =
      .ok none := by
    decide +kernel
  have classifiable : (waitingLedger fundedBank).Classifiable localnet fundedListing.coins := by
    refine classifiable_waitingLedger ⟨⟨.ethereum, false, gravityDenom localnet 5, 5⟩,
      by decide +kernel⟩ ?_
    rintro _ (_ | ⟨_, ⟨⟩⟩)
    exact ⟨⟨.ethereum, false, gravityDenom localnet 5, 5⟩, by decide +kernel⟩
  have expected :=
    @module_balance_invariant_exact localnet (waitingLedger fundedBank) fundedListing classifiable
  refine ⟨holds, (expected.mpr (.inl fun denom _ nothing => ?_)).mp holds⟩
  exact (expectedBalance_waitingLedger fundedBank denom).trans
    ((balances_fundedBank denom).symm.trans nothing)

/-- The transfer waits, its voucher is gone from the module account, and the invariant is not
broken. -/
theorem missing_balance_unnoticed :
    (waitingLedger Bank.empty).Classifiable localnet [] ∧
      (waitingLedger Bank.empty).moduleBalanceInvariant localnet [] = .ok none ∧
      (waitingLedger Bank.empty).EthOriginated (gravityDenom localnet 5) ∧
      (waitingLedger Bank.empty).bank.balances localnet.gravityModule (gravityDenom localnet 5) = 0 ∧
      (waitingLedger Bank.empty).expectedBalance localnet (gravityDenom localnet 5) = 11 := by
  refine ⟨classifiable_waitingLedger ⟨⟨.ethereum, false, gravityDenom localnet 5, 5⟩,
    by decide +kernel⟩ nofun, by decide +kernel,
    ⟨⟨.ethereum, false, gravityDenom localnet 5, 5⟩, by decide +kernel, rfl⟩, rfl, ?_⟩
  rw [expectedBalance_waitingLedger, if_pos rfl]

end GravityBridge.Keeper
