import GravityBridge.Auctions.Escrow

/-!
# A roll-over that goes through

Closing the auctions fails only when a winner may not receive coins, and the next period can be
created only when its end does not wrap around. What the accounts then hold follows from
the flows: the pool is empty, and its coins are with the module or in the community pool.
-/

namespace GravityBridge.Auctions

open Lib.Fallible Lib.ByteString Lib.Store
open GravityBridge.Types Keeper List

variable {ext : External} {accounts : Accounts ext} {state next : State} {closed : Vault}

/-- The module is enabled and its period is over. -/
def State.RollsOver (state : State) : Prop :=
  state.params.enabled = true ∧ ∃ period, state.period = some period ∧
    period.endBlockHeight.val ≤ state.height

/-! ## The next period -/

/-- The end of the next period can be written in 64 bits. -/
def State.EndFits (state : State) : Prop := state.height + 1 + state.params.auctionLength.val < 2 ^ 64

theorem State.followingPeriod_start (within : state.height < 2 ^ 63) :
    state.followingPeriod.startBlockHeight.val = state.height + 1 := by
  simp only [followingPeriod, initializeAuctionPeriodFromParams, Fin.val_ofNat]
  exact Nat.mod_eq_of_lt (by omega)

theorem State.followingPeriod_end (within : state.height < 2 ^ 63) :
    state.followingPeriod.endBlockHeight.val =
      (state.height + 1 + state.params.auctionLength.val) % 2 ^ 64 := by
  have start := followingPeriod_start within
  simp only [followingPeriod, initializeAuctionPeriodFromParams] at start ⊢
  rw [Fin.val_add, start]

/-- An end that wraps around is not behind the current block. -/
theorem State.followingPeriod_ends_iff (within : state.height < 2 ^ 63)
    (positive : state.params.auctionLength ≠ 0) :
    state.height + 1 < state.followingPeriod.endBlockHeight.val ↔ state.EndFits := by
  have length := state.params.auctionLength.isLt
  have nonzero : 0 < state.params.auctionLength.val := Fin.pos_iff_ne_zero.mpr positive
  rw [followingPeriod_end within, EndFits]
  omega

theorem State.createNewAuctionPeriod_succeeds (rolls : state.RollsOver)
    (within : state.height < 2 ^ 63)
    (positive : state.params.auctionLength ≠ 0) (fits : state.EndFits) :
    state.createNewAuctionPeriod = .ok { state with period := some state.followingPeriod } := by
  obtain ⟨enabled, period, running, finished⟩ := rolls
  have start := followingPeriod_start within
  have ends := (followingPeriod_ends_iff within positive).mpr fits
  have notLate : period.endBlockHeight ≤ state.followingPeriod.startBlockHeight := by
    rw [Fin.le_def, start]
    omega
  have behind : period.endBlockHeight < state.followingPeriod.endBlockHeight := by
    rw [Fin.lt_def]
    omega
  have notPast : state.height ≤ state.followingPeriod.endBlockHeight.val := by omega
  change state.updateAuctionPeriod state.followingPeriod = _
  simp [updateAuctionPeriod, updateAuctionPeriodUnsafe, requireEnabled, enabled, running, finished,
    notLate, behind, start, notPast]

/-! ## Placing the coins of the pool -/

theorem State.placePoolCoin_succeeds {coin : Coin} (enabled : state.params.enabled = true)
    (native : nativeTokenDenom ∈ state.params.nonAuctionableTokens)
    (mint : accounts.mintDenom = nativeTokenDenom)
    (numbered : state.Numbered) (valid : coin.isValid = true)
    (held : coin.amount ≤ state.vault.bank.balances ext.auctionPool coin.denom) :
    ∃ next, state.placePoolCoin accounts coin = .ok next := by
  by_cases listed : coin.denom ∈ state.params.nonAuctionableTokens
  · obtain ⟨vault, sent⟩ := Vault.sendCoins_succeeds ext.distributionModule held
    exact ⟨{ state with vault := vault }, by
      simp [placePoolCoin, listed, sendFromModuleAccountToCommunityPool, sent]⟩
  · have notNative : coin.denom ≠ nativeTokenDenom := fun same => listed (same ▸ native)
    have absent : state.auctions.get (state.auctionNonce + 1) = none := by
      cases found : state.auctions.get (state.auctionNonce + 1) with
      | none => rfl
      | some auction =>
        have within := (numbered _ _ found).2
        omega
    obtain ⟨vault, sent⟩ := Vault.sendCoins_succeeds accounts.auction held
    exact ⟨_, by
      simp [placePoolCoin, listed, removeFromAuctionPool, notNative, requireEnabled, enabled, sent,
        storeAuction, Auction.validateBasic, valid, isDenomAuctionable, mint, absent]; rfl⟩

theorem State.placeAll_succeeds {coins : List Coin} (enabled : state.params.enabled = true)
    (native : nativeTokenDenom ∈ state.params.nonAuctionableTokens)
    (mint : accounts.mintDenom = nativeTokenDenom)
    (numbered : state.Numbered) (valid : ∀ coin ∈ coins, coin.isValid = true)
    (held : ∀ denom, (coins.map (fun coin => coin.amountOf denom)).sum ≤
      state.vault.bank.balances ext.auctionPool denom) :
    ∃ next, coins.foldlM (State.placePoolCoin accounts) state = .ok next := by
  induction coins generalizing state with
  | nil => exact ⟨state, rfl⟩
  | cons coin rest ih =>
    obtain ⟨validFirst, validRest⟩ := forall_mem_cons.mp valid
    simp only [map_cons, sum_cons] at held
    have heldFirst : coin.amount ≤ state.vault.bank.balances ext.auctionPool coin.denom := by
      have both := held coin.denom
      simp only [Coin.amountOf, if_true] at both
      omega
    obtain ⟨middle, placed⟩ :=
      placePoolCoin_succeeds enabled native mint numbered validFirst heldFirst
    have single : Placed accounts state middle [coin] := .cons placed (.nil middle)
    have heldRest : ∀ denom, (rest.map (fun coin => coin.amountOf denom)).sum ≤
        middle.vault.bank.balances ext.auctionPool denom := by
      intro denom
      have balance := single.flows.balances ext.auctionPool denom
      have before := held denom
      simp only [total, map_cons, map_nil, sum_cons, sum_nil, only, if_true] at balance
      omega
    obtain ⟨next, placedRest⟩ :=
      ih (single.params ▸ enabled) (single.params ▸ native) (single.numbered numbered)
      validRest heldRest
    exact ⟨next, by simp only [foldlM_cons, placed, ok_bind, placedRest]⟩

/-! ## The whole roll-over -/

/-- Every entry holds the balances of the account that its key names. -/
def Recorded (ext : External) (vault : Vault) (affected : KVStore Bytes (List Coin)) : Prop :=
  ∀ key coins, affected.get key = some coins → ∃ bidder, accAddressFromBech32 ext key = .ok bidder ∧
    coins = vault.getAllBalances bidder

theorem recordBidders_spec {vault : Vault} {auctions : List Auction}
    (before : KVStore Bytes (List Coin))
    (decodes : ∀ auction ∈ auctions, ∀ bid ∈ auction.highestBid, ∃ bidder,
      accAddressFromBech32 ext bid.bidderAddress =
        .ok bidder) (recorded : Recorded ext vault before) :
    ∃ affected, auctions.foldlM (State.recordBidder ext vault) before = .ok affected ∧
      Recorded ext vault affected ∧ (∀ key, before.get key ≠ none → affected.get key ≠ none) ∧
      ∀ auction ∈ auctions, ∀ bid ∈ auction.highestBid, affected.get bid.bidderAddress ≠ none := by
  induction auctions generalizing before with
  | nil => exact ⟨before, rfl, recorded, fun _ present => present, by simp⟩
  | cons auction rest ih =>
    obtain ⟨decodesFirst, decodesRest⟩ := forall_mem_cons.mp decodes
    cases highest : auction.highestBid with
    | none =>
      obtain ⟨affected, ran, after, kept, present⟩ := ih before decodesRest recorded
      refine ⟨affected, ?_, after, kept, forall_mem_cons.mpr ⟨by simp [highest], present⟩⟩
      simpa [State.recordBidder, highest] using ran
    | some bid =>
      obtain ⟨bidder, decoded⟩ := decodesFirst bid highest
      have recordedFirst :
          Recorded ext vault (before.set bid.bidderAddress (vault.getAllBalances bidder)) := by
        intro key coins found
        rw [KVStore.get_set] at found
        split_ifs at found with here
        · exact ⟨bidder, here ▸ decoded, (Option.some.inj found).symm⟩
        · exact recorded key coins found
      obtain ⟨affected, ran, after, kept, present⟩ := ih _ decodesRest recordedFirst
      refine ⟨affected, ?_, after, fun key there => kept key ?_, forall_mem_cons.mpr ⟨?_, present⟩⟩
      · simpa [State.recordBidder, highest, decoded, orPanic] using ran
      · rw [KVStore.get_set]
        split_ifs
        · simp
        · exact there
      · intro winning same
        obtain rfl : bid = winning := Option.some.inj (highest.symm.trans same)
        exact kept _ (by simp)

theorem Sound.decodes (sound : Sound accounts state) {auction : Auction}
    (member : auction ∈ state.auctions.values) {bid : Bid} (winning : bid ∈ auction.highestBid) :
    bid.bidAmount ≠ 0 ∧ ∃ bidder, accAddressFromBech32 ext bid.bidderAddress = .ok bidder := by
  have valid := (Auction.validateBasic_eq_ok.mp (sound.valid auction member)).2 bid winning
  simpa [Bid.validateBasic] using valid

theorem State.affectedAccs_succeeds (sound : Sound accounts state) :
    ∃ affected, state.affectedAccs ext = .ok affected ∧
      ∀ auction ∈ state.auctions.values, ∀ bid ∈ auction.highestBid, ∃ bidder,
        accAddressFromBech32 ext bid.bidderAddress = .ok bidder ∧
          affected.get bid.bidderAddress = some (state.vault.getAllBalances bidder) := by
  obtain ⟨affected, ran, recorded, -, present⟩ := recordBidders_spec .empty
    (fun auction member bid winning => (sound.decodes member winning).2) (by simp [Recorded])
  refine ⟨affected, ran, fun auction member bid winning => ?_⟩
  obtain ⟨coins, found⟩ := Option.ne_none_iff_exists'.mp (present auction member bid winning)
  obtain ⟨bidder, decoded, rfl⟩ := recorded _ _ found
  exact ⟨bidder, decoded, found⟩

/-- A roll-over fails only on a winner that may not receive coins or on a period that wraps around. -/
theorem State.rollOver_succeeds_iff (mint : accounts.mintDenom = nativeTokenDenom)
    (sound : Sound accounts state) (rolls : state.RollsOver) :
    (∃ resolution, state.rollOver accounts = .ok resolution) ↔
      (∀ auction ∈ state.auctions.values, auction.Payable ext) ∧ state.EndFits := by
  obtain ⟨positive, -, native⟩ := Params.validateBasic_eq_ok.mp sound.params
  constructor
  · rintro ⟨resolution, rolled⟩
    obtain ⟨-, -, -, closed, rolledOver⟩ := rollOver_eq_ok sound.numbered rolled
    exact ⟨rolledOver.payable, (followingPeriod_ends_iff sound.height positive).mp rolledOver.ends⟩
  · rintro ⟨payable, fits⟩
    obtain ⟨enabled, period, running, finished⟩ := id rolls
    obtain ⟨affected, recorded, -⟩ := affectedAccs_succeeds sound
    obtain ⟨after, closedAll⟩ := closeAll_succeeds enabled (fun _ => sound.numbered.stored) payable
      (fun denom => (sound.escrow denom).ge)
    obtain ⟨-, closed, rfl, -⟩ := closeAll_eq_ok (fun _ => sound.numbered.stored) closedAll
    have ended : state.endAuctionPeriod accounts =
        .ok { state with vault := closed, auctions := .empty } := by
      simp [endAuctionPeriod, closedAll, deleteAllAuctions, enabled, running, finished]
    have created : createNewAuctionPeriod { state with vault := closed, auctions := .empty } =
        .ok (state.emptied closed) :=
      createNewAuctionPeriod_succeeds rolls sound.height positive fits
    obtain ⟨final, placed⟩ :
        ∃ final, (closed.getAllBalances ext.auctionPool).foldlM (placePoolCoin accounts)
        (state.emptied closed) = .ok final :=
      placeAll_succeeds enabled native mint (by simp [Numbered, emptied])
        (fun coin member => RolledOver.isValid_of_mem_getAllBalances member)
        (fun denom => (closed.sum_listed (closed.bank.balances_le_supply ext.auctionPool) denom).le)
    have ends := (followingPeriod_ends_iff sound.height positive).mpr fits
    have start := followingPeriod_start sound.height
    have opening : (state.emptied closed).createAuctionsForAuctionPeriod accounts = .ok final := by
      have period : (state.emptied closed).period = some state.followingPeriod := rfl
      have height : (state.emptied closed).height = state.height := rfl
      have isEnabled : (state.emptied closed).params.enabled = true := enabled
      have vault : (state.emptied closed).vault = closed := rfl
      simpa [createAuctionsForAuctionPeriod, requireEnabled, isEnabled, period, height, vault,
        start, ends] using
        And.intro (show (state.emptied closed).auctions.values = [] from rfl) placed
    have scheduled : scheduleNextAuctionPeriod accounts { state with
        vault := closed, auctions := .empty } = .ok final := by
      simp [scheduleNextAuctionPeriod, created, opening]
    exact ⟨_, by simp only [rollOver, recorded, ended, scheduled, ok_bind]; rfl⟩

/-! ## The balances behind a roll-over -/

theorem total_home (accounts : Accounts ext) (params : Params) (coins : List Coin)
    (account : AccAddress) (denom : Denom) :
    total (fun coin => only (home accounts params coin.denom) coin) coins account denom =
      if account = home accounts params denom then (coins.map (fun coin => coin.amountOf denom)).sum
        else 0 := by
  have single : ∀ coin : Coin, only (home accounts params coin.denom) coin account denom =
      if account = home accounts params denom then coin.amountOf denom else 0 := by
    intro coin
    by_cases same : denom = coin.denom
    · subst same
      rfl
    · simp [only, Coin.amountOf, same]
  unfold total
  rw [map_congr_left (fun coin _ => single coin)]
  split_ifs
  · rfl
  · exact sum_eq_zero_of_forall fun _ _ => rfl

theorem home_ne_pool (accounts : Accounts ext) (params : Params) (denom : Denom) :
    ext.auctionPool ≠ home accounts params denom := by
  unfold home
  split_ifs
  · exact accounts.pool_ne_distribution
  · exact accounts.auction_ne_pool.symm

/-- What goes back to the pool of a denom when auctions are closed. -/
def recycled (auctions : List Auction) (denom : Denom) : Nat :=
  (auctions.map (fun auction => if auction.highestBid = none then auction.amount.amountOf denom
    else 0)).sum

namespace RolledOver

theorem sum_pool (closed : Vault) (denom : Denom) :
    ((closed.getAllBalances ext.auctionPool).map (fun coin => coin.amountOf denom)).sum =
      closed.bank.balances ext.auctionPool denom :=
  closed.sum_listed (closed.bank.balances_le_supply ext.auctionPool) denom

variable (rolled : RolledOver accounts state next closed)

include rolled

theorem pool_empty (denom : Denom) :
    next.vault.bank.balances ext.auctionPool denom = 0 := by
  have balance := rolled.placed.flows.balances ext.auctionPool denom
  rw [total_home, if_neg (home_ne_pool accounts _ denom)] at balance
  have spent : total (only ext.auctionPool) (closed.getAllBalances ext.auctionPool)
      ext.auctionPool denom = closed.bank.balances ext.auctionPool denom := by
    rw [← sum_pool closed denom]
    simp [total, only]
  simp only [State.emptied] at balance
  omega

/-- An account other than the pool gains what was in the pool, if that is where the denom goes. -/
theorem final_balance {account : AccAddress}
    (notPool : account ≠ ext.auctionPool) (denom : Denom) :
    next.vault.bank.balances account denom = closed.bank.balances account denom +
      if account = home accounts state.params denom then closed.bank.balances ext.auctionPool denom
        else 0 := by
  have balance := rolled.placed.flows.balances account denom
  have spent : total (only ext.auctionPool) (closed.getAllBalances ext.auctionPool) account denom =
      0 :=
    sum_eq_zero_of_forall fun coin _ => by simp [only, notPool]
  rw [total_home, sum_pool, spent, add_zero] at balance
  exact balance

theorem closed_balance {account : AccAddress}
    (notModule : account ≠ accounts.auction) (denom : Denom) :
    closed.bank.balances account denom = state.vault.bank.balances account denom +
      total (Auction.inflow accounts · state.params.burnWinningBids) state.auctions.values account
        denom := by
  have balance := rolled.flows.balances account denom
  have spent : total (Auction.outflow accounts) state.auctions.values account denom = 0 :=
    sum_eq_zero_of_forall fun auction _ => by simp [Auction.outflow, notModule]
  rw [spent, add_zero] at balance
  exact balance

/-- Only what nobody bid for goes back to the pool. -/
theorem closed_pool (denom : Denom) :
    closed.bank.balances ext.auctionPool denom =
      state.vault.bank.balances ext.auctionPool denom + recycled state.auctions.values denom := by
  rw [rolled.closed_balance accounts.auction_ne_pool.symm]
  congr 1
  refine congrArg List.sum (map_congr_left fun auction member => ?_)
  cases highest : auction.highestBid with
  | none => simp [Auction.inflow, Auction.recipient, highest, accounts.pool_ne_distribution]
  | some bid =>
    obtain ⟨bidder, decoded, unblocked⟩ := rolled.payable auction member bid highest
    have notPool : bidder ≠ ext.auctionPool := by
      rintro rfl
      rw [accounts.blocked_pool] at unblocked
      contradiction
    simp [Auction.inflow, Auction.recipient, highest, decoded, Except.toOption, notPool,
      accounts.pool_ne_distribution]

/-- The module's account ends with the pool of the denoms that are put up. -/
theorem final_module (sound : Sound accounts state) (denom : Denom) :
    next.vault.bank.balances accounts.auction denom =
      if denom ∈ state.params.nonAuctionableTokens then 0
      else state.vault.bank.balances ext.auctionPool denom +
        recycled state.auctions.values denom := by
  rw [rolled.final_balance accounts.auction_ne_pool, rolled.closed_module sound,
    rolled.closed_pool, zero_add]
  by_cases listed : denom ∈ state.params.nonAuctionableTokens
  · simp [home, listed, accounts.auction_ne_distribution]
  · simp [home, listed]

end RolledOver

end GravityBridge.Auctions
