import GravityBridge.Auctions.EndBlocker

/-!
# How coins flow when a period ends

Every operation of the module takes coins from some accounts and gives coins to some. These
flows add up along a sequence of operations, so that closing all auctions and placing all coins
of the pool are each described by one pair of sums.
-/

namespace GravityBridge.Auctions

open Lib.Fallible Lib.ByteString Lib.Store Lib.Search
open GravityBridge.Types Keeper List

variable {ext : External} {accounts : Accounts ext}

/-! ## Flows -/

/-- Amounts by account and denom. -/
abbrev Flow := AccAddress → Denom → Nat

/-- One coin of one account. -/
def only (account : AccAddress) (coin : Coin) : Flow :=
  fun other denom => if other = account then coin.amountOf denom else 0

theorem amountOf_zero (denom other : Denom) : (Coin.mk denom 0).amountOf other = 0 := by
  simp [Coin.amountOf]

/-- What leaves the accounts, what reaches them and what is burned between two vaults. -/
structure Flows (before after : Vault) (outflow inflow : Flow) (burned : Denom → Nat) : Prop where
  balances : ∀ account denom, after.bank.balances account denom + outflow account denom =
    before.bank.balances account denom + inflow account denom
  supply : ∀ denom, after.bank.supply denom + burned denom = before.bank.supply denom
  denoms : after.denoms = before.denoms

theorem Flows.refl (vault : Vault) : Flows vault vault 0 0 0 := ⟨fun _ _ => rfl, fun _ => rfl, rfl⟩

theorem Flows.trans {first second third : Vault} {outflow inflow moreOut moreIn : Flow}
    {burned moreBurned : Denom → Nat}
    (before : Flows first second outflow inflow burned)
    (after : Flows second third moreOut moreIn moreBurned) :
    Flows first third (outflow + moreOut) (inflow + moreIn) (burned + moreBurned) where
  balances account denom := by
    have left := before.balances account denom
    have right := after.balances account denom
    simp only [Pi.add_apply]
    omega
  supply denom := by
    have left := before.supply denom
    have right := after.supply denom
    simp only [Pi.add_apply]
    omega
  denoms := after.denoms.trans before.denoms

namespace Vault

variable {vault next : Vault} {sender receiver : AccAddress} {coin : Coin} {amount : Denom → Nat}

theorem sendCoins_flows (sent : vault.sendCoins sender receiver coin = .ok next) :
    Flows vault next (only sender coin) (only receiver coin) 0 := by
  unfold sendCoins at sent
  split_ifs at sent with held
  · obtain rfl := Except.ok.inj sent
    exact ⟨Bank.move_balances held, fun _ => rfl, rfl⟩
  · simp at sent

theorem sendCoins_succeeds (receiver : AccAddress)
    (held : coin.amount ≤ vault.bank.balances sender coin.denom) :
    ∃ next, vault.sendCoins sender receiver coin = .ok next := by
  simp [sendCoins, held]

theorem burnCoins_flows (burned : vault.burnCoins sender coin = .ok next) :
    Flows vault next (only sender coin) 0 coin.amountOf := by
  unfold burnCoins at burned
  split_ifs at burned with held
  · obtain rfl := Except.ok.inj burned
    have enough := Bank.amountOf_le_balances held
    refine ⟨fun account denom => ?_, fun denom => ?_, rfl⟩
    · by_cases same : account = sender
      · subst same
        simpa [only] using Bank.burn_balances
      · simp [only, same, Bank.burn, debit]
    · have within := (enough denom).trans (vault.bank.balances_le_supply sender denom)
      simpa using Nat.sub_add_cancel within
  · simp at burned

theorem burnCoins_succeeds (held : coin.amount ≤ vault.bank.balances sender coin.denom) :
    ∃ next, vault.burnCoins sender coin = .ok next := by
  simp [burnCoins, held]

/-- A denom without supply has no amount anywhere, so that listing the known denoms misses nothing. -/
theorem amountOf_listed (within : ∀ denom, amount denom ≤ vault.bank.supply denom) (denom : Denom) :
    amountOf (vault.listed amount) denom = amount denom := by
  have sorted : (vault.listed amount).Pairwise (fun first second => first.denom < second.denom) := by
    simpa only [listed, pairwise_map] using vault.sorted.filter _
  by_cases none : amount denom = 0
  · have absent : ∀ coin ∈ vault.listed amount, coin.denom ≠ denom := by
      intro coin member same
      obtain ⟨name, inDenoms, rfl⟩ := mem_map.mp member
      have positive := (mem_filter.mp inDenoms).2
      simp only [decide_eq_true_eq] at positive
      change name = denom at same
      exact positive (same ▸ none)
    simp [amountOf, search_of_absent absent, none]
  · have supplied := vault.covers denom (fun zero => none (Nat.le_zero.mp (zero ▸ within denom)))
    have member : Coin.mk denom (amount denom) ∈ vault.listed amount :=
      mem_map.mpr ⟨denom, mem_filter.mpr ⟨supplied, by simpa using none⟩, rfl⟩
    have found := search_of_mem sorted member
    simp only at found
    simp [amountOf, found]

theorem sum_amountOf_of_nodup {names : List Denom} (distinct : names.Nodup) (amount : Denom → Nat)
    (denom : Denom) :
    (names.map (fun name => (Coin.mk name (amount name)).amountOf denom)).sum = if denom ∈
      names then amount denom else 0 := by
  induction names with
  | nil => rfl
  | cons name rest ih =>
    obtain ⟨fresh, restDistinct⟩ := nodup_cons.mp distinct
    rw [map_cons, sum_cons, ih restDistinct]
    by_cases same : denom = name
    · subst same
      simp [Coin.amountOf, fresh]
    · simp [Coin.amountOf, same]

/-- Adding up what is listed of a denom gives its amount. -/
theorem sum_listed (within : ∀ denom, amount denom ≤ vault.bank.supply denom) (denom : Denom) :
    ((vault.listed amount).map (fun coin => coin.amountOf denom)).sum = amount denom := by
  rw [listed, map_map]
  refine (sum_amountOf_of_nodup (vault.sorted.nodup.filter _) amount denom).trans ?_
  by_cases none : amount denom = 0
  · simp [none]
  · have supplied := vault.covers denom (fun zero => none (Nat.le_zero.mp (zero ▸ within denom)))
    simp [supplied, none]

theorem amountOf_getAllBalances (account : AccAddress) (denom : Denom) :
    amountOf (vault.getAllBalances account) denom = vault.bank.balances account denom :=
  amountOf_listed (vault.bank.balances_le_supply account) denom

theorem amountOf_getBankSupplies (denom : Denom) :
    amountOf vault.getBankSupplies denom = vault.bank.supply denom :=
  amountOf_listed (fun _ => le_rfl) denom

end Vault

/-! ## Closing auctions -/

namespace Auction

variable (accounts) (auction : Auction)

def bidCoin : Coin := ⟨accounts.mintDenom, auction.highestBid.elim 0 (fun bid => bid.bidAmount.val)⟩

/-- What the module's account holds for an auction. -/
def locked (denom : Denom) : Nat :=
  auction.amount.amountOf denom + (auction.bidCoin accounts).amountOf denom

/-- Who gets the tokens of an auction. -/
def recipient (ext : External) : Option AccAddress :=
  match auction.highestBid with
  | some bid => (accAddressFromBech32 ext bid.bidderAddress).toOption
  | none => some ext.auctionPool

def outflow : Flow := fun account denom => if account = accounts.auction then
    auction.locked accounts denom else 0

def inflow (burn : Bool) : Flow := fun account denom =>
  (if auction.recipient ext = some account then auction.amount.amountOf denom else 0) +
    (if burn = false ∧ account = ext.distributionModule then
      (auction.bidCoin accounts).amountOf denom else 0)

def burned (burn : Bool) (denom : Denom) : Nat :=
  if burn then (auction.bidCoin accounts).amountOf denom else 0

/-- The winner, if there is one, may receive coins from a module. -/
def Payable (ext : External) : Prop :=
  ∀ bid ∈ auction.highestBid, ∃ bidder, accAddressFromBech32 ext bid.bidderAddress = .ok bidder ∧
    ext.blockedAddr bidder = false

end Auction

section Closing

variable {state next : State} {auction : Auction} {coin : Coin}

theorem State.takeBid_eq_ok (took : state.takeBid accounts coin = .ok next) :
    ∃ vault, next = { state with vault := vault } ∧
      Flows state.vault vault (only accounts.auction coin)
        (if state.params.burnWinningBids then 0 else only ext.distributionModule coin)
        (if state.params.burnWinningBids then coin.amountOf else 0) := by
  unfold takeBid at took
  split_ifs at took ⊢ with burns
  · obtain ⟨vault, burned, rfl⟩ := by simpa using took
    exact ⟨vault, rfl, Vault.burnCoins_flows burned⟩
  · obtain ⟨vault, sent, rfl⟩ := by simpa [sendFromModuleAccountToCommunityPool] using took
    exact ⟨vault, rfl, Vault.sendCoins_flows sent⟩

theorem State.takeBid_succeeds
    (held : coin.amount ≤ state.vault.bank.balances accounts.auction coin.denom) :
    ∃ next, state.takeBid accounts coin = .ok next := by
  unfold takeBid
  split_ifs
  · obtain ⟨vault, burned⟩ := Vault.burnCoins_succeeds held
    exact ⟨{ state with vault := vault }, by simp [burned]⟩
  · obtain ⟨vault, sent⟩ := Vault.sendCoins_succeeds ext.distributionModule held
    exact ⟨{ state with vault := vault }, by simp [sendFromModuleAccountToCommunityPool, sent]⟩

theorem State.payFromModule_eq_ok {receiver : AccAddress}
    (paid : state.payFromModule accounts receiver coin = .ok next) :
    ext.blockedAddr receiver = false ∧ ∃ vault, next = { state with vault := vault } ∧
      Flows state.vault vault (only accounts.auction coin) (only receiver coin) 0 := by
  obtain ⟨-, unblocked, vault, sent, rfl⟩ := by
    simpa [payFromModule, requireEnabled, Vault.sendCoinsFromModuleToAccount] using paid
  exact ⟨unblocked, vault, rfl, Vault.sendCoins_flows sent⟩

/-- Closing a stored auction pays its tokens and its bid out of the module's account. -/
theorem State.closeAuction_eq_ok (stored : state.auctions.get auction.id = some auction)
    (closed : state.closeAuction accounts auction = .ok next) :
    auction.Payable ext ∧ ∃ vault, next = { state with vault := vault } ∧
      Flows state.vault vault (auction.outflow accounts)
        (auction.inflow accounts state.params.burnWinningBids)
        (auction.burned accounts state.params.burnWinningBids) := by
  cases highest : auction.highestBid with
  | none =>
    obtain ⟨-, vault, sent, rfl⟩ := by
      simpa [closeAuction, highest, closeAuctionNoWinner, requireEnabled, stored, sendToAuctionPool]
        using closed
    have flows := Vault.sendCoins_flows sent
    refine ⟨by simp [Auction.Payable, highest], vault, rfl,
      ⟨fun account denom => ?_, fun denom => ?_, flows.denoms⟩⟩
    · have balance := flows.balances account denom
      simpa [Auction.outflow, Auction.inflow, Auction.locked, Auction.bidCoin, Auction.recipient,
        highest, only, amountOf_zero, eq_comm (a := ext.auctionPool)] using balance
    · have supply := flows.supply denom
      simpa [Auction.burned, Auction.bidCoin, highest, amountOf_zero] using supply
  | some bid =>
    obtain ⟨-, bidder, decoded, taken, took, paid⟩ := by
      simpa [closeAuction, highest, closeAuctionWithWinner, requireEnabled, stored] using closed
    obtain ⟨middle, rfl, takenFlows⟩ := takeBid_eq_ok took
    obtain ⟨unblocked, vault, rfl, paidFlows⟩ := payFromModule_eq_ok paid
    have flows := takenFlows.trans paidFlows
    refine ⟨?_, vault, rfl, ⟨fun account denom => ?_, fun denom => ?_, flows.denoms⟩⟩
    · intro winning same
      obtain rfl : bid = winning := Option.some.inj (highest.symm.trans same)
      exact ⟨bidder, decoded, unblocked⟩
    · have balance := flows.balances account denom
      cases burns : state.params.burnWinningBids <;>
        simp only [Auction.outflow, Auction.inflow, Auction.locked, Auction.bidCoin,
          Auction.recipient, highest, only, burns, decoded, Except.toOption, Option.some.injEq,
          Option.elim_some, Pi.add_apply, Pi.zero_apply, if_true, true_and, Bool.true_eq_false,
          Bool.false_eq_true, false_and, if_false, eq_comm (a := bidder)] at balance ⊢ <;>
        split_ifs at balance ⊢ <;> omega
    · have supply := flows.supply denom
      cases burns : state.params.burnWinningBids <;>
        simpa [Auction.burned, Auction.bidCoin, highest, burns] using supply

theorem State.closeAuction_succeeds (enabled : state.params.enabled = true)
    (stored : state.auctions.get auction.id = some auction) (payable : auction.Payable ext)
    (covered : ∀ denom, auction.locked accounts denom ≤
      state.vault.bank.balances accounts.auction denom) :
    ∃ next, state.closeAuction accounts auction = .ok next := by
  have award : auction.amount.amount + (auction.bidCoin accounts).amountOf auction.amount.denom ≤
      state.vault.bank.balances accounts.auction auction.amount.denom := by
    simpa [Auction.locked, Coin.amountOf] using covered auction.amount.denom
  cases highest : auction.highestBid with
  | none =>
    obtain ⟨vault, sent⟩ :=
      Vault.sendCoins_succeeds ext.auctionPool ((Nat.le_add_right _ _).trans award)
    exact ⟨{ state with vault := vault }, by
      simp [closeAuction, highest, closeAuctionNoWinner, requireEnabled, enabled, stored,
        sendToAuctionPool, sent]⟩
  | some bid =>
    obtain ⟨bidder, decoded, unblocked⟩ := payable bid highest
    have bidHeld : bid.bidAmount.val ≤
        state.vault.bank.balances accounts.auction accounts.mintDenom := by
      have both := covered accounts.mintDenom
      simp only [Auction.locked, Auction.bidCoin, highest, Option.elim_some, Coin.amountOf,
        if_true] at both
      omega
    obtain ⟨taken, took⟩ : ∃ taken, state.takeBid accounts ⟨accounts.mintDenom, bid.bidAmount.val⟩ =
        .ok taken :=
      takeBid_succeeds bidHeld
    obtain ⟨middle, rfl, flows⟩ := takeBid_eq_ok took
    have left : auction.amount.amount ≤
        middle.bank.balances accounts.auction auction.amount.denom := by
      have balance := flows.balances accounts.auction auction.amount.denom
      simp only [only, if_true] at balance
      simp only [Auction.bidCoin, highest, Option.elim_some] at award
      omega
    obtain ⟨vault, sent⟩ := Vault.sendCoins_succeeds bidder left
    exact ⟨{ state with vault := vault }, by
      simp [closeAuction, highest, closeAuctionWithWinner, requireEnabled, enabled, stored, decoded,
        took, awardAuction, payFromModule, Vault.sendCoinsFromModuleToAccount, unblocked, sent]⟩

/-- The sum of a flow over a list. -/
def total {α : Type} (flow : α → Flow) (items : List α) : Flow :=
  fun account denom => (items.map (fun item => flow item account denom)).sum

theorem total_cons {α : Type} (flow : α → Flow) (item : α) (rest : List α) :
    total flow (item :: rest) = flow item + total flow rest := by
  funext account denom
  simp [total]

def burnedOf (accounts : Accounts ext) (burn : Bool) (closing : List Auction) : Denom → Nat :=
  fun denom => (closing.map (fun auction => auction.burned accounts burn denom)).sum

variable {closing : List Auction}

theorem State.closeAll_eq_ok
    (stored : ∀ auction ∈ closing, state.auctions.get auction.id = some auction)
    (closed : closing.foldlM (State.closeAuction accounts) state = .ok next) :
    (∀ auction ∈ closing, auction.Payable ext) ∧ ∃ vault, next = { state with vault := vault } ∧
      Flows state.vault vault (total (Auction.outflow accounts) closing)
        (total (Auction.inflow accounts · state.params.burnWinningBids) closing)
        (burnedOf accounts state.params.burnWinningBids closing) := by
  induction closing generalizing state with
  | nil =>
    obtain rfl : state = next := by simpa using closed
    exact ⟨by simp, state.vault, rfl, Flows.refl _⟩
  | cons auction rest ih =>
    obtain ⟨middle, closedFirst, closedRest⟩ := by simpa only [foldlM_cons, bind_eq_ok] using closed
    obtain ⟨storedFirst, storedRest⟩ := forall_mem_cons.mp stored
    obtain ⟨payableFirst, between, rfl, flowsFirst⟩ := closeAuction_eq_ok storedFirst closedFirst
    obtain ⟨payableRest, vault, rfl, flowsRest⟩ := ih (by exact storedRest) closedRest
    refine ⟨forall_mem_cons.mpr ⟨payableFirst, payableRest⟩, vault, rfl, ?_⟩
    rw [total_cons, total_cons]
    exact flowsFirst.trans flowsRest

theorem State.closeAll_succeeds (enabled : state.params.enabled = true)
    (stored : ∀ auction ∈ closing, state.auctions.get auction.id = some auction)
    (payable : ∀ auction ∈ closing, auction.Payable ext)
    (covered : ∀ denom, (closing.map (fun auction => auction.locked accounts denom)).sum ≤
      state.vault.bank.balances accounts.auction denom) :
    ∃ next, closing.foldlM (State.closeAuction accounts) state = .ok next := by
  induction closing generalizing state with
  | nil => exact ⟨state, rfl⟩
  | cons auction rest ih =>
    obtain ⟨storedFirst, storedRest⟩ := forall_mem_cons.mp stored
    obtain ⟨payableFirst, payableRest⟩ := forall_mem_cons.mp payable
    simp only [map_cons, sum_cons] at covered
    obtain ⟨middle, closedFirst⟩ := closeAuction_succeeds enabled storedFirst payableFirst
      (fun denom => (Nat.le_add_right _ _).trans (covered denom))
    obtain ⟨-, between, rfl, flows⟩ := closeAuction_eq_ok storedFirst closedFirst
    have coveredRest : ∀ denom, (rest.map (fun auction => auction.locked accounts denom)).sum ≤
        between.bank.balances accounts.auction denom := by
      intro denom
      have balance := flows.balances accounts.auction denom
      have before := covered denom
      simp only [Auction.outflow, if_true] at balance
      omega
    obtain ⟨next, closedRest⟩ :
        ∃ next, rest.foldlM (State.closeAuction accounts) { state with vault := between } =
        .ok next := ih enabled storedRest payableRest coveredRest
    exact ⟨next, by simp only [foldlM_cons, closedFirst, ok_bind, closedRest]⟩

end Closing

/-! ## Opening auctions -/

/-- Every auction is stored under its id, and no id is beyond the nonce. -/
def State.Numbered (state : State) : Prop :=
  ∀ id auction, state.auctions.get id = some auction → auction.id = id ∧ id ≤ state.auctionNonce

/-- Where the coins of a denom in the pool go when a period starts. -/
def home (accounts : Accounts ext) (params : Params) (denom : Denom) : AccAddress :=
  if denom ∈ params.nonAuctionableTokens then ext.distributionModule else accounts.auction

/-- The auctions that a list of pool coins is put up in. -/
def opened (params : Params) : Nat → List Coin → List Auction
  | _, [] => []
  | nonce, coin :: rest =>
      if coin.denom ∈ params.nonAuctionableTokens then opened params nonce rest
      else ⟨nonce + 1, coin, none⟩ :: opened params (nonce + 1) rest

theorem opened_amounts (params : Params) (nonce : Nat) (coins : List Coin) :
    (opened params nonce coins).map Auction.amount = coins.filter
    (fun coin => coin.denom ∉ params.nonAuctionableTokens) := by
  induction coins generalizing nonce with
  | nil => rfl
  | cons coin rest ih =>
    unfold opened
    split_ifs with listed <;> simp [listed, ih]

theorem opened_ids (params : Params) (nonce : Nat) (coins : List Coin) :
    (opened params nonce coins).map Auction.id = List.range' (nonce + 1)
    (opened params nonce coins).length := by
  induction coins generalizing nonce with
  | nil => rfl
  | cons coin rest ih =>
    unfold opened
    split_ifs
    · exact ih nonce
    · rw [map_cons, ih (nonce + 1)]
      rfl

theorem mem_opened {params : Params} {nonce : Nat} {coins : List Coin} {auction : Auction}
    (member : auction ∈ opened params nonce coins) :
    nonce < auction.id ∧ auction.highestBid = none := by
  induction coins generalizing nonce with
  | nil => simp [opened] at member
  | cons coin rest ih =>
    unfold opened at member
    split_ifs at member
    · exact ih member
    · rcases mem_cons.mp member with rfl | later
      · exact ⟨Nat.lt_succ_self _, rfl⟩
      · exact ⟨(Nat.lt_succ_self _).trans (ih later).1, (ih later).2⟩

/-- What placing the coins of the pool does to the state. -/
structure Placed (accounts : Accounts ext) (state next : State) (coins : List Coin) : Prop where
  flows : Flows state.vault next.vault (total (only ext.auctionPool) coins)
    (total (fun coin => only (home accounts state.params coin.denom) coin) coins) 0
  params : next.params = state.params
  period : next.period = state.period
  height : next.height = state.height
  nonce : next.auctionNonce =
    state.auctionNonce + (opened state.params state.auctionNonce coins).length
  values : next.auctions.values.Perm
    (opened state.params state.auctionNonce coins ++ state.auctions.values)
  foreign : ∀ auction ∈ opened state.params state.auctionNonce coins, auction.amount.denom ≠
    accounts.mintDenom
  numbered : state.Numbered → next.Numbered

section Placing

variable {state next : State} {coin : Coin} {coins : List Coin}

theorem State.storeAuction_eq_ok {auction : Auction}
    (stored : state.storeAuction accounts auction = .ok next) :
    auction.validateBasic ext = .ok () ∧ auction.id = state.auctionNonce + 1 ∧
      (auction.amount.denom ≠ accounts.mintDenom ∧
        auction.amount.denom ∉ state.params.nonAuctionableTokens) ∧
      state.auctions.get auction.id = none ∧
      next = { state with
        auctions := state.auctions.set auction.id auction,
          auctionNonce := state.auctionNonce + 1 } := by
  obtain ⟨⟨⟨⟩, valid⟩, numbered, auctionable, absent, rfl⟩ := by
    simpa [storeAuction, isDenomAuctionable] using stored
  exact ⟨valid, numbered, auctionable, absent, rfl⟩

theorem State.Numbered.store {auction : Auction} (numbered : state.Numbered)
    (isNext : auction.id = state.auctionNonce + 1) : State.Numbered { state with
      auctions := state.auctions.set auction.id auction,
        auctionNonce := state.auctionNonce + 1 } := by
  intro id found stored
  rw [KVStore.get_set] at stored
  split_ifs at stored with same
  · obtain rfl := Option.some.inj stored
    exact ⟨same.symm, by simp [same, isNext]⟩
  · obtain ⟨keyed, within⟩ := numbered id found stored
    exact ⟨keyed, within.trans (Nat.le_succ _)⟩

theorem Placed.nil (state : State) : Placed accounts state state [] where
  flows := Flows.refl _
  params := rfl
  period := rfl
  height := rfl
  nonce := rfl
  values := List.Perm.refl _
  foreign := by simp [opened]
  numbered := id

theorem Placed.cons (placed : state.placePoolCoin accounts coin = .ok next) {last : State}
    (rest : Placed accounts next last coins) : Placed accounts state last (coin :: coins) := by
  unfold State.placePoolCoin at placed
  split_ifs at placed with listed
  · obtain ⟨vault, sent, rfl⟩ := by simpa [State.sendFromModuleAccountToCommunityPool] using placed
    have flows := (Vault.sendCoins_flows sent).trans rest.flows
    refine ⟨?_, rest.params, rest.period, rest.height, ?_, ?_, ?_, rest.numbered⟩
    · simpa only [total_cons, home, listed, if_true, add_zero] using flows
    · simpa [opened, listed] using rest.nonce
    · simpa [opened, listed] using rest.values
    · simpa [opened, listed] using rest.foreign
  · obtain ⟨middle, removed, stored⟩ := by simpa only [bind_eq_ok] using placed
    obtain ⟨-, -, vault, sent, rfl⟩ := by
      simpa [State.removeFromAuctionPool, State.requireEnabled] using removed
    obtain ⟨-, isNext, ⟨foreign, -⟩, absent, rfl⟩ := State.storeAuction_eq_ok stored
    have flows := (Vault.sendCoins_flows sent).trans rest.flows
    refine ⟨?_, rest.params, rest.period, rest.height, ?_, ?_, ?_, fun numbered => rest.numbered ?_⟩
    · simpa only [total_cons, home, listed, if_false, add_zero] using flows
    · have counted := rest.nonce
      simp only [opened, listed, if_false, length_cons] at counted ⊢
      omega
    · have fresh := KVStore.values_set_perm ⟨state.auctionNonce + 1, coin, none⟩ absent
      simpa [opened, listed] using rest.values.trans ((fresh.append_left _).trans perm_middle)
    · simpa [opened, listed, foreign] using rest.foreign
    · exact numbered.store isNext

theorem placed_of_placeAll (placed : coins.foldlM (State.placePoolCoin accounts) state = .ok next) :
    Placed accounts state next coins := by
  induction coins generalizing state with
  | nil =>
    obtain rfl : state = next := by simpa using placed
    exact .nil state
  | cons coin rest ih =>
    obtain ⟨middle, placedFirst, placedRest⟩ := by simpa only [foldlM_cons, bind_eq_ok] using placed
    exact .cons placedFirst (ih placedRest)

end Placing

end GravityBridge.Auctions
