import GravityBridge.Auctions.Flows
import GravityBridge.Auctions.Machine

/-!
# What a step of the auction module can do

A bid exchanges the highest bid of one auction, a roll-over closes all auctions and puts up the
coins of the pool, and nothing else touches the auctions or the module's account.
-/

namespace GravityBridge.Auctions

open Lib.Fallible Lib.ByteString Lib.Store Lib.Runs
open GravityBridge.Types Keeper

variable {ext : External} {accounts : Accounts ext} {state next : State}

/-! ## Bids -/

/-- A bid for a stored auction replaced its highest bid. -/
structure Outbid (accounts : Accounts ext) (state next : State) (id : Nat) (auction : Auction)
    (bid : Bid) : Prop where
  stored : state.auctions.get id = some auction
  rest : next = { state with
    vault := next.vault,
    auctions := state.auctions.set auction.id { auction with highestBid := some bid } }
  valid : bid.validateBasic ext = .ok ()
  balances : ∀ denom, next.vault.bank.balances accounts.auction
    denom + (auction.bidCoin accounts).amountOf denom =
    state.vault.bank.balances accounts.auction
      denom + (Coin.mk accounts.mintDenom bid.bidAmount.val).amountOf denom

theorem State.updateHighestBidder_eq_ok {id : Nat} {bid : Bid}
    (updated : state.updateHighestBidder ext id bid = .ok next) :
    ∃ auction, state.auctions.get id = some auction ∧ bid.validateBasic ext = .ok () ∧
      next = { state with
        auctions := state.auctions.set id { auction with highestBid := some bid } } := by
  simp only [updateHighestBidder, requireEnabled, Auction.validateBasic, bind_eq_ok,
    fromOption_eq_ok, require_eq_ok, rewrap_eq_ok, pure_eq_ok, Unique.exists_iff] at updated
  obtain ⟨auction, stored, ⟨-, valid⟩, -, rfl⟩ := updated
  exact ⟨auction, stored, valid, rfl⟩

theorem subCoin_eq_ok {coin other difference : Coin} : subCoin coin other = .ok difference ↔
      coin.denom = other.denom ∧ other.amount ≤ coin.amount ∧
        difference = ⟨coin.denom, coin.amount - other.amount⟩ := by
  rw [eq_comm (a := difference)]
  simp [subCoin]

theorem addCoin_eq_ok {coin other sum : Coin} :
    addCoin coin other = .ok sum ↔ coin.denom = other.denom ∧
      sum = ⟨coin.denom, coin.amount + other.amount⟩ := by
  rw [eq_comm (a := sum)]
  simp [addCoin]

variable {previous : Option (AccAddress × Coin)}

/-- The assertion behind a bid pins down the native balances of the module's account and of the two
bidders, and lets no bid pass on a chain whose bids are in another denom. -/
theorem balances_of_assertBidBalanceChanges {newBidder : AccAddress} {amount : Nat} {bidFee : Coin}
    (passed : assertBidBalanceChanges accounts state next previous newBidder
      ⟨nativeTokenDenom, amount⟩ bidFee = .ok ()) :
    nativeTokenDenom = bidFee.denom ∧
      next.vault.bank.balances accounts.auction nativeTokenDenom + previous.elim 0
        (fun refund => refund.2.amount) =
        state.vault.bank.balances accounts.auction nativeTokenDenom + amount ∧
      (∀ refund, previous = some refund → next.vault.bank.balances refund.1 nativeTokenDenom =
        state.vault.bank.balances refund.1 nativeTokenDenom + refund.2.amount) ∧
      next.vault.bank.balances newBidder nativeTokenDenom + (amount + bidFee.amount) =
        state.vault.bank.balances newBidder nativeTokenDenom := by
  unfold assertBidBalanceChanges at passed
  cases previous with
  | none =>
    simp only [bind_eq_ok, check_eq_ok, Unique.exists_iff, subCoin_eq_ok, addCoin_eq_ok,
      State.grav] at passed
    obtain ⟨_, ⟨-, grown, rfl⟩, held, _, ⟨-, within, rfl⟩, _, ⟨denoms, rfl⟩, spent⟩ := passed
    simp only [Coin.mk.injEq, true_and] at held spent
    refine ⟨denoms, ?_, by simp, by omega⟩
    simp only [Option.elim_none]
    omega
  | some refund =>
    simp only [bind_eq_ok, check_eq_ok, Unique.exists_iff, subCoin_eq_ok, addCoin_eq_ok,
      State.grav] at passed
    obtain ⟨_, ⟨-, grown, rfl⟩, _, ⟨-, refunded, rfl⟩, returned, _, ⟨-, larger, rfl⟩, held, _,
      ⟨-, within, rfl⟩, _, ⟨denoms, rfl⟩, spent⟩ := passed
    simp only [Coin.mk.injEq, true_and] at held spent
    refine ⟨denoms, ?_, ?_, by omega⟩
    · simp only [Option.elim_some]
      omega
    · rintro _ ⟨⟩
      have amounts : _ = refund.2.amount := congrArg Coin.amount returned
      simp only at amounts
      omega

/-- The refund of a surpassed bid is its coin. -/
theorem State.surpass_eq_ok {mintDenom : Denom} {msg : MsgBid} {highest : Option Bid}
    (surpassed : State.surpass ext mintDenom msg highest = .ok previous) :
    previous.elim 0 (fun refund => refund.2.amount) = highest.elim 0 (fun bid => bid.bidAmount.val) ∧
      ∀ refund ∈ previous, refund.2.denom = mintDenom := by
  cases highest with
  | none =>
    obtain rfl : none = previous := by simpa [State.surpass] using surpassed
    simp
  | some bid =>
    obtain ⟨-, -, acc, -, rfl⟩ := by simpa [State.surpass] using surpassed
    simp

theorem State.releaseBid_eq_ok (released : state.releaseBid accounts previous = .ok next) :
    ∃ vault, next = { state with vault := vault } ∧
      ∀ denom, (∀ refund ∈ previous, refund.2.denom ≠ denom) →
      vault.bank.balances accounts.auction denom =
        state.vault.bank.balances accounts.auction denom := by
  cases previous with
  | none =>
    obtain rfl : state = next := by simpa [State.releaseBid] using released
    exact ⟨state.vault, rfl, fun _ _ => rfl⟩
  | some refund =>
    obtain ⟨-, vault, rfl, flows⟩ := State.payFromModule_eq_ok released
    refine ⟨vault, rfl, fun denom others => ?_⟩
    have distinct : denom ≠ refund.2.denom := (others refund rfl).symm
    simpa [only, Coin.amountOf, distinct] using flows.balances accounts.auction denom

theorem State.bid_eq_ok {msg : MsgBid} (numbered : state.Numbered)
    (accepted : state.bid accounts msg = .ok next) :
    ∃ auction, Outbid accounts state next msg.auctionId auction ⟨msg.amount, msg.bidder⟩ := by
  simp only [State.bid, bind_eq_ok, rewrap_eq_ok, fromOption_eq_ok, pure_eq_ok, Unique.exists_iff]
    at accepted
  obtain ⟨-, newBidder, -, -, auction, stored, -, previous, surpassed, -, charged, paid,
    released, release, locked, lock, final, updated, passed, rfl⟩ := accepted
  obtain ⟨refunded, refundDenom⟩ := surpass_eq_ok surpassed
  obtain ⟨denoms, grav, -⟩ := balances_of_assertBidBalanceChanges passed
  obtain ⟨middle, rfl, releaseKeeps⟩ := releaseBid_eq_ok release
  obtain ⟨-, vault, sent, rfl⟩ := by simpa [State.lockBidAmount, State.requireEnabled] using lock
  obtain ⟨again, storedAgain, valid, rfl⟩ := updateHighestBidder_eq_ok updated
  obtain ⟨sameId, -⟩ := numbered _ _ stored
  obtain rfl : auction = again := by
    rw [sameId] at storedAgain
    exact Option.some.inj (stored.symm.trans storedAgain)
  refine ⟨auction, stored, rfl, valid, fun denom => ?_⟩
  change nativeTokenDenom = accounts.mintDenom at denoms
  by_cases native : denom = accounts.mintDenom
  · subst native
    rw [refunded, denoms] at grav
    simpa [Auction.bidCoin, Coin.amountOf] using grav
  · have feeKeeps := (Vault.sendCoins_flows paid).balances accounts.auction denom
    have lockKeeps := (Vault.sendCoins_flows sent).balances accounts.auction denom
    have middleKeeps :=
      releaseKeeps denom (fun refund member same => native (same ▸ refundDenom refund member))
    simp only [only, Coin.amountOf, native, if_false, ite_self, add_zero] at feeKeeps lockKeeps
    simp only [Auction.bidCoin, Coin.amountOf, native, if_false, add_zero]
    exact lockKeeps.trans (middleKeeps.trans feeKeeps)

/-! ## The end of a block -/

/-- The period that follows the one that ends at a height. -/
def State.followingPeriod (state : State) : AuctionPeriod :=
  State.initializeAuctionPeriodFromParams (Fin.ofNat _ (state.height + 1)) state.params

/-- What is left to put up once all auctions are closed. -/
def State.emptied (state : State) (vault : Vault) : State :=
  { state with vault := vault, period := some state.followingPeriod, auctions := .empty }

/-- The auctions of a period were closed and those of the next one opened. -/
structure RolledOver (accounts : Accounts ext) (state next : State) (closed : Vault) : Prop where
  enabled : state.params.enabled = true
  payable : ∀ auction ∈ state.auctions.values, auction.Payable ext
  flows : Flows state.vault closed (total (Auction.outflow accounts) state.auctions.values)
    (total (Auction.inflow accounts · state.params.burnWinningBids) state.auctions.values)
    (burnedOf accounts state.params.burnWinningBids state.auctions.values)
  starts : state.followingPeriod.startBlockHeight.val = state.height + 1
  ends : state.height + 1 < state.followingPeriod.endBlockHeight.val
  placed : Placed accounts (state.emptied closed) next (closed.getAllBalances ext.auctionPool)

theorem State.Numbered.stored (numbered : state.Numbered) {auction : Auction}
    (member : auction ∈ state.auctions.values) : state.auctions.get auction.id = some auction := by
  obtain ⟨id, found⟩ := KVStore.mem_values.mp member
  rw [(numbered id auction found).1]
  exact found

theorem State.endAuctionPeriod_eq_ok (numbered : state.Numbered)
    (ended : state.endAuctionPeriod accounts = .ok next) :
    ∃ vault, next = { state with vault := vault, auctions := .empty } ∧
      (∀ auction ∈ state.auctions.values, auction.Payable ext) ∧
      Flows state.vault vault (total (Auction.outflow accounts) state.auctions.values)
        (total (Auction.inflow accounts · state.params.burnWinningBids) state.auctions.values)
        (burnedOf accounts state.params.burnWinningBids state.auctions.values) := by
  obtain ⟨closed, closedAll, deleted⟩ := by simpa only [endAuctionPeriod, bind_eq_ok] using ended
  obtain ⟨payable, vault, rfl, flows⟩ := closeAll_eq_ok (fun _ => numbered.stored) closedAll
  obtain ⟨-, -, rfl⟩ := by simpa [deleteAllAuctions] using deleted
  exact ⟨vault, rfl, payable, flows⟩

theorem State.createNewAuctionPeriod_eq_ok (created : state.createNewAuctionPeriod = .ok next) :
    state.params.enabled = true ∧ next = { state with period := some state.followingPeriod } := by
  obtain ⟨enabled, -, -, -, -, rfl⟩ := by
    simpa [createNewAuctionPeriod, updateAuctionPeriod, updateAuctionPeriodUnsafe, requireEnabled]
      using created
  exact ⟨enabled, rfl⟩

theorem State.createAuctionsForAuctionPeriod_eq_ok
    (created : state.createAuctionsForAuctionPeriod accounts = .ok next) :
    (∃ period, state.period = some period ∧ period.startBlockHeight.val = state.height + 1 ∧
      state.height + 1 < period.endBlockHeight.val) ∧ state.auctions.values = [] ∧
      Placed accounts state next (state.vault.getAllBalances ext.auctionPool) := by
  obtain ⟨-, none, period, running, ⟨starts, ends⟩, placed⟩ := by
    simpa [createAuctionsForAuctionPeriod, requireEnabled] using created
  exact ⟨⟨period, running, starts, ends⟩, none, placed_of_placeAll placed⟩

theorem State.rollOver_eq_ok {resolution : Resolution} (numbered : state.Numbered)
    (rolled : state.rollOver accounts = .ok resolution) :
    resolution.closing = state.auctions.values ∧ resolution.periodEnded = true ∧
      state.affectedAccs ext = .ok resolution.affected ∧
        ∃ closed, RolledOver accounts state resolution.final closed := by
  obtain ⟨affected, recorded, ended, endedOk, final, scheduled, rfl⟩ := by
    simpa only [rollOver, bind_eq_ok, pure_eq_ok] using rolled
  obtain ⟨closed, rfl, payable, flows⟩ := endAuctionPeriod_eq_ok numbered endedOk
  obtain ⟨started, startedOk, opened⟩ := by
    simpa only [scheduleNextAuctionPeriod, bind_eq_ok, orPanic_eq_ok] using scheduled
  obtain ⟨enabled, rfl⟩ := createNewAuctionPeriod_eq_ok startedOk
  obtain ⟨⟨period, running, starts, ends⟩, -, placed⟩ := createAuctionsForAuctionPeriod_eq_ok opened
  obtain rfl : state.followingPeriod = period := Option.some.inj running
  exact ⟨rfl, rfl, recorded, closed, enabled, payable, flows, starts, ends, placed⟩

/-- The end blocker leaves the state alone unless the period is over. -/
theorem State.endBlocker_eq_ok (numbered : state.Numbered)
    (passed : state.endBlocker accounts = .ok next) :
    next = state ∨ ∃ closed, RolledOver accounts state next closed := by
  simp only [endBlocker, bind_eq_ok, pure_eq_ok] at passed
  obtain ⟨resolution, resolved, -, -, -, -, rfl⟩ := passed
  unfold resolve at resolved
  split_ifs at resolved with enabled
  · obtain ⟨period, running, decided⟩ := by simpa only [bind_eq_ok, unwrap_eq_ok] using resolved
    split_ifs at decided with finished
    · obtain ⟨-, -, -, closed, rolled⟩ := rollOver_eq_ok numbered decided
      exact .inr ⟨closed, rolled⟩
    · obtain rfl : state.quiet = resolution := by simpa using decided
      exact .inl rfl
  · obtain rfl : state.quiet = resolution := by simpa using resolved
    exact .inl rfl

/-! ## Steps -/

/-- What one step of a run does. -/
inductive Stepped (accounts : Accounts ext) (state : State) : State → Prop
  | coins (vault : Vault) : (∀ denom, vault.bank.balances accounts.auction denom =
      state.vault.bank.balances accounts.auction denom) →
      Stepped accounts state { state with vault := vault }
  | params (params : Params) : params.validateBasic = .ok () →
      Stepped accounts state { state with params := params }
  | bid {next : State} {id : Nat} {auction : Auction} {bid : Bid} :
      Outbid accounts state next id auction bid → Stepped accounts state next
  | quietBlock : state.height + 1 < 2 ^ 63 →
      Stepped accounts state { state with height := state.height + 1 }
  | rollOver {next : State} {closed : Vault} : state.height + 1 < 2 ^ 63 →
      RolledOver accounts state next closed →
      Stepped accounts state { next with height := next.height + 1 }

theorem Stepped.still : Stepped accounts state state := .coins state.vault (fun _ => rfl)

/-- A message that fails changes nothing. -/
theorem stepped_of_transaction {result : Go State}
    (does : ∀ after, result = .ok after → Stepped accounts state after) :
    Stepped accounts state (transaction state result) := by
  rcases transaction_cases state result with done | unchanged
  · exact does _ done
  · rw [unchanged]
    exact .still

theorem stepped_of_step {label : Label} {emitted : List Unit} (numbered : state.Numbered)
    (took : step accounts label state = (emitted, .ok next))
    (permitted : Allowed accounts state label) : emitted = [] ∧ Stepped accounts state next := by
  cases label with
  | deposit sender poolFee =>
    obtain ⟨rfl, same⟩ := Prod.mk.inj took
    obtain rfl := Except.ok.inj same
    refine ⟨rfl, stepped_of_transaction fun after done => ?_⟩
    obtain ⟨-, vault, sent, rfl⟩ := by simpa [State.depositFee] using done
    refine .coins vault (fun denom => ?_)
    have kept := (Vault.sendCoins_flows sent).balances accounts.auction denom
    have notSender : accounts.auction ≠ sender := Ne.symm permitted
    simpa [only, notSender, accounts.auction_ne_pool] using kept
  | bid msg =>
    obtain ⟨rfl, same⟩ := Prod.mk.inj took
    obtain rfl := Except.ok.inj same
    refine ⟨rfl, stepped_of_transaction fun after done => ?_⟩
    obtain ⟨auction, outbid⟩ := State.bid_eq_ok numbered done
    exact .bid outbid
  | updateParams authority updates =>
    obtain ⟨rfl, same⟩ := Prod.mk.inj took
    obtain rfl := Except.ok.inj same
    refine ⟨rfl, stepped_of_transaction fun after done => ?_⟩
    simp only [State.updateParamsProposal, bind_eq_ok, require_eq_ok, pure_eq_ok,
      Unique.exists_iff] at done
    obtain ⟨-, params, -, valid, rfl⟩ := done
    exact .params params valid
  | endBlock =>
    obtain ⟨rfl, ran⟩ := Prod.mk.inj took
    obtain ⟨final, passed, rfl⟩ := by simpa only [bind_eq_ok, pure_eq_ok] using ran
    refine ⟨rfl, ?_⟩
    rcases State.endBlocker_eq_ok numbered passed with rfl | ⟨closed, rolled⟩
    · exact .quietBlock permitted
    · exact .rollOver permitted rolled
  | elsewhere vault =>
    obtain ⟨rfl, same⟩ := Prod.mk.inj took
    obtain rfl := Except.ok.inj same
    exact ⟨rfl, .coins vault permitted⟩

end GravityBridge.Auctions
