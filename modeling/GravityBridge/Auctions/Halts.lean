import GravityBridge.Auctions.Rollover

/-!
# When the end blocker halts the chain

The assertions at the end of a block compare balances with the parameters of that moment, while the
auctions were opened under those of an earlier one. A token that becomes non-auctionable while its
auction runs, a winner that may not receive coins, or a length that wraps the end of the next period
around stops the chain.
-/

namespace GravityBridge.Auctions

open Lib.Fallible Lib.ByteString Lib.Store Lib.Runs
open GravityBridge.Types Keeper List

variable {ext : External} {accounts : Accounts ext} {state next : State} {closed : Vault}
  {auction : Auction}

/-- The tokens of one denom that the stored auctions award. -/
def State.awards (state : State) (denom : Denom) : Nat :=
  (state.auctions.values.map (fun auction => auction.amount.amountOf denom)).sum

/-- What the assertions want of a closing auction. -/
structure Auction.Settles (accounts : Accounts ext) (state : State) (auction : Auction) : Prop where
  sole : state.awards auction.amount.denom = auction.amount.amount
  /-- A token that is not auctionable any more must not come back to the module. -/
  listed : auction.amount.denom ∈ state.params.nonAuctionableTokens →
    state.vault.bank.balances ext.auctionPool auction.amount.denom = 0 ∧
      (auction.highestBid = none → auction.amount.amount = 0)
  /-- The community pool gains native tokens otherwise. -/
  community : auction.recipient ext = some ext.distributionModule →
    state.params.burnWinningBids = true ∧
    state.vault.bank.balances ext.auctionPool nativeTokenDenom = 0

/-! ## Sums over the closing auctions -/

theorem Sound.module_award (sound : Sound accounts state) {denom : Denom}
    (notMint : denom ≠ accounts.mintDenom) :
    state.vault.bank.balances accounts.auction denom = state.awards denom := by
  rw [sound.accounted denom, if_neg notMint, add_zero, State.awards]

theorem Sound.awards_mint (sound : Sound accounts state) : state.awards accounts.mintDenom = 0 :=
  sum_eq_zero_of_forall fun auction member => by
    simp [Coin.amountOf, (sound.foreign auction member).symm]

theorem recycled_le_awards (denom : Denom) :
    recycled state.auctions.values denom ≤ state.awards denom :=
  sum_le_sum fun auction _ => by split_ifs <;> simp

/-- An auction that is the only one to award something in its denom. -/
theorem recycled_of_sole (member : auction ∈ state.auctions.values)
    (sole : state.awards auction.amount.denom = auction.amount.amount) :
    recycled state.auctions.values auction.amount.denom =
      if auction.highestBid = none then auction.amount.amount else 0 := by
  split_ifs with failed
  · refine le_antisymm (sole ▸ recycled_le_awards _) ?_
    refine le_sum_of_mem (mem_map.mpr ⟨auction, member, ?_⟩)
    simp [failed, Coin.amountOf]
  · -- the winner's share and what is recycled together are the award
    have together : (state.auctions.values.map (fun other =>
        (if other.highestBid = none then other.amount.amountOf auction.amount.denom else 0) +
          (if other.highestBid = none then 0 else other.amount.amountOf auction.amount.denom))).sum =
        state.awards auction.amount.denom :=
      congrArg List.sum (map_congr_left fun other _ => by split_ifs <;> simp)
    rw [sum_map_add] at together
    have single : auction.amount.amount ≤ (state.auctions.values.map (fun other =>
        if other.highestBid = none then 0 else other.amount.amountOf auction.amount.denom)).sum :=
      le_sum_of_mem (mem_map.mpr ⟨auction, member, by simp [failed, Coin.amountOf]⟩)
    unfold recycled
    omega

variable {bidder : AccAddress}

/-- The winner of such an auction receives its tokens and nothing else in that denom. -/
theorem awarded_of_sole (burn : Bool) (member : auction ∈ state.auctions.values)
    (sole : state.awards auction.amount.denom = auction.amount.amount)
    (notMint : auction.amount.denom ≠ accounts.mintDenom)
    (wins : auction.recipient ext = some bidder) :
    total (Auction.inflow accounts · burn) state.auctions.values bidder auction.amount.denom =
      auction.amount.amount := by
  have inflow : ∀ other : Auction, other.inflow accounts burn bidder auction.amount.denom =
      if other.recipient ext = some bidder then other.amount.amountOf auction.amount.denom
        else 0 := by
    intro other
    simp [Auction.inflow, Auction.bidCoin, Coin.amountOf, notMint]
  unfold total
  rw [map_congr_left (fun other _ => inflow other)]
  refine le_antisymm ?_ (le_sum_of_mem (mem_map.mpr ⟨auction, member, by simp [wins, Coin.amountOf]⟩))
  rw [← sole]
  exact sum_le_sum fun other _ => by split_ifs <;> simp

/-- Native tokens only come from the bids, and only to the community pool. -/
theorem Sound.inflow_mint (sound : Sound accounts state) (burn : Bool) (account : AccAddress) :
    total (Auction.inflow accounts · burn) state.auctions.values account accounts.mintDenom =
      if burn = false ∧ account = ext.distributionModule then highestBids state.auctions.values
        else 0 := by
  have inflow : ∀ other ∈ state.auctions.values,
  other.inflow accounts burn account accounts.mintDenom =
      if burn = false ∧ account = ext.distributionModule then
        other.highestBid.elim 0 (fun bid => bid.bidAmount.val)
      else 0 := by
    intro other member
    simp [Auction.inflow, Auction.bidCoin, Coin.amountOf, (sound.foreign other member).symm]
  unfold total
  rw [map_congr_left inflow]
  split_ifs
  · rfl
  · exact sum_eq_zero_of_forall fun _ _ => rfl

variable {bid : Bid}

theorem Sound.bids_positive (sound : Sound accounts state) (member : auction ∈ state.auctions.values)
    (winning : auction.highestBid = some bid) : 0 < highestBids state.auctions.values := by
  have positive : 0 < bid.bidAmount.val := Fin.pos_iff_ne_zero.mpr (sound.decodes member winning).1
  refine positive.trans_le (le_sum_of_mem (mem_map.mpr ⟨auction, member, ?_⟩))
  simp [winning]

/-! ## The assertions on one auction -/

variable {affected : KVStore Bytes (List Coin)}

section Assertions

variable (sound : Sound accounts state) (rolled : RolledOver accounts state next closed)
  (member : auction ∈ state.auctions.values)

include sound rolled member

theorem assertClosed_failed_iff (failed : auction.highestBid = none) :
    assertClosed ext next.vault affected (state.snapshots accounts next) auction = .ok () ↔
      auction.Settles accounts state := by
  have notMint := sound.foreign auction member
  simp only [assertClosed, failed, State.snapshots, bind_eq_ok, check_eq_ok, Unique.exists_iff,
    Vault.amountOf_getAllBalances, sound.module_award notMint, rolled.final_module sound]
  constructor
  · rintro ⟨sole, ended⟩
    refine ⟨sole, fun listed => ?_, fun toCommunity => ?_⟩
    · rw [if_pos listed] at ended
      omega
    · simp only [Auction.recipient, failed, Option.some.injEq] at toCommunity
      exact absurd toCommunity accounts.pool_ne_distribution
  · intro settles
    refine ⟨settles.sole, ?_⟩
    rw [recycled_of_sole member settles.sole, if_pos failed, settles.sole]
    split_ifs with listed
    · obtain ⟨empty, nothing⟩ := settles.listed listed
      have none := nothing failed
      omega
    · omega

/-- The native balance of a winner stays, unless the winner is the community pool and it receives
some. -/
theorem winner_grav_iff (mint : accounts.mintDenom = nativeTokenDenom)
    (winning : auction.highestBid = some bid) (notModule : bidder ≠ accounts.auction)
    (notPool : bidder ≠ ext.auctionPool) :
    next.vault.bank.balances bidder nativeTokenDenom =
      state.vault.bank.balances bidder nativeTokenDenom ↔
      (bidder = ext.distributionModule → state.params.burnWinningBids = true ∧
        state.vault.bank.balances ext.auctionPool nativeTokenDenom = 0) := by
  have native := (Params.validateBasic_eq_ok.mp sound.params).2.2
  have bids := sound.bids_positive member winning
  have recycledNative : recycled state.auctions.values nativeTokenDenom = 0 :=
    Nat.le_zero.mp ((recycled_le_awards _).trans (mint ▸ sound.awards_mint).le)
  have received := sound.inflow_mint state.params.burnWinningBids bidder
  rw [mint] at received
  rw [rolled.final_balance notPool, rolled.closed_balance notModule, rolled.closed_pool, received,
    recycledNative]
  simp only [home, native, if_true]
  by_cases toCommunity : bidder = ext.distributionModule
  · cases burns : state.params.burnWinningBids
    · simp only [toCommunity, true_and, if_true, Bool.false_eq_true, false_and, forall_const,
        iff_false]
      omega
    · simp [toCommunity]
  · simp [toCommunity]

theorem winner_gains (settles : auction.Settles accounts state)
    (winning : auction.highestBid = some bid) (wins : auction.recipient ext = some bidder)
    (notModule : bidder ≠ accounts.auction) (notPool : bidder ≠ ext.auctionPool) :
    next.vault.bank.balances bidder auction.amount.denom =
      state.vault.bank.balances bidder auction.amount.denom + auction.amount.amount := by
  rw [rolled.final_balance notPool, rolled.closed_balance notModule, rolled.closed_pool,
    awarded_of_sole _ member settles.sole (sound.foreign auction member) wins,
    recycled_of_sole member settles.sole]
  simp only [winning, reduceCtorEq, if_false, add_zero, add_eq_left, ite_eq_right_iff]
  intro atHome
  by_cases listed : auction.amount.denom ∈ state.params.nonAuctionableTokens
  · exact (settles.listed listed).1
  · exact absurd atHome (by simp [home, listed, notModule])

theorem module_ends_iff (winning : auction.highestBid = some bid)
    (sole : state.awards auction.amount.denom = auction.amount.amount) :
    next.vault.bank.balances accounts.auction auction.amount.denom =
        state.vault.bank.balances ext.auctionPool auction.amount.denom ↔
      (auction.amount.denom ∈ state.params.nonAuctionableTokens →
        state.vault.bank.balances ext.auctionPool auction.amount.denom = 0) := by
  rw [rolled.final_module sound, recycled_of_sole member sole]
  by_cases listed : auction.amount.denom ∈ state.params.nonAuctionableTokens
  · simp [listed, eq_comm]
  · simp [listed, winning]

theorem assertClosed_won_iff (mint : accounts.mintDenom = nativeTokenDenom)
    (winning : auction.highestBid = some bid)
    (decoded : accAddressFromBech32 ext bid.bidderAddress = .ok bidder)
    (recorded : affected.get bid.bidderAddress = some (state.vault.getAllBalances bidder)) :
    assertClosed ext next.vault affected (state.snapshots accounts next) auction = .ok () ↔
      auction.Settles accounts state := by
  have notMint := sound.foreign auction member
  have unblocked : ext.blockedAddr bidder = false := by
    obtain ⟨other, decodedOther, unblocked⟩ := rolled.payable auction member bid winning
    obtain rfl : other = bidder := Except.ok.inj (decodedOther.symm.trans decoded)
    exact unblocked
  have notModule : bidder ≠ accounts.auction := by
    rintro rfl
    exact absurd accounts.blocked_auction (by simp [unblocked])
  have notPool : bidder ≠ ext.auctionPool := by
    rintro rfl
    exact absurd accounts.blocked_pool (by simp [unblocked])
  have wins : auction.recipient ext = some bidder := by
    simp [Auction.recipient, winning, decoded, Except.toOption]
  have grav := winner_grav_iff sound rolled member mint winning notModule notPool
  simp only [assertClosed, assertAwarded, winning, decoded, recorded, Option.getD_some,
    State.snapshots, bind_eq_ok, check_eq_ok, orPanic_eq_ok, Except.ok.injEq, Unique.exists_iff,
    subCoin_eq_ok, Vault.amountOf_getAllBalances, sound.module_award notMint, true_and,
    exists_eq_left', and_assoc]
  constructor
  · rintro ⟨sole, kept, gained, -, -, -, ended⟩
    refine ⟨sole, fun listed => ⟨(module_ends_iff sound rolled member winning sole).mp ended listed,
      ?_⟩, fun toCommunity => ?_⟩
    · simp [winning]
    · exact grav.mp kept (Option.some.inj (wins.symm.trans toCommunity))
  · intro settles
    have gains := winner_gains sound rolled member settles winning wins notModule notPool
    refine ⟨settles.sole, grav.mpr fun same => settles.community (same ▸ wins), _, ?_, rfl, ?_,
      (module_ends_iff sound rolled member winning settles.sole).mpr fun listed =>
        (settles.listed listed).1⟩
    · omega
    · rw [gains, Nat.add_sub_cancel_left]

end Assertions

/-! ## The assertions on the whole roll-over -/

theorem burnedOf_eq (accounts : Accounts ext) (burn : Bool) (closing : List Auction) (denom : Denom) :
    burnedOf accounts burn closing denom =
      if burn = true ∧ denom = accounts.mintDenom then highestBids closing else 0 := by
  have single : ∀ auction : Auction, auction.burned accounts burn denom =
      if burn = true ∧ denom = accounts.mintDenom then
        auction.highestBid.elim 0 (fun bid => bid.bidAmount.val) else 0 := by
    intro auction
    by_cases native : denom = accounts.mintDenom <;>
      simp [Auction.burned, Auction.bidCoin, Coin.amountOf, native]
  unfold burnedOf
  rw [map_congr_left (fun auction _ => single auction)]
  split_ifs
  · rfl
  · exact sum_eq_zero_of_forall fun _ _ => rfl

/-- Only the supply of the native token shrinks, and only by bids that are burned. -/
theorem RolledOver.supply (rolled : RolledOver accounts state next closed) (denom : Denom) :
    next.vault.bank.supply denom +
        (if state.params.burnWinningBids = true ∧ denom = accounts.mintDenom then
          highestBids state.auctions.values else 0) =
      state.vault.bank.supply denom := by
  have closing := rolled.flows.supply denom
  have placing := rolled.placed.flows.supply denom
  rw [burnedOf_eq] at closing
  simp only [State.emptied, Pi.zero_apply, add_zero] at placing
  rw [placing]
  exact closing

theorem assertSupplyIntegrity_passes (mint : accounts.mintDenom = nativeTokenDenom)
    (rolled : RolledOver accounts state next closed) :
    assertSupplyIntegrity next.params state.vault.getBankSupplies next.vault.getBankSupplies true =
      .ok () := by
  have params : next.params = state.params := rolled.placed.params
  have notLarger : ∀ other ∈ next.vault.getBankSupplies, other.amount ≤
      amountOf state.vault.getBankSupplies other.denom := by
    intro other member
    obtain ⟨denom, -, rfl⟩ := mem_map.mp member
    rw [Vault.amountOf_getBankSupplies, ← rolled.supply denom]
    exact Nat.le_add_right _ _
  have changed : ∀ coin ∈ (state.vault.getBankSupplies.map (fun coin =>
      Coin.mk coin.denom (coin.amount - amountOf next.vault.getBankSupplies coin.denom))).filter
        (·.amount ≠ 0),
      coin.denom = nativeTokenDenom ∧ state.params.burnWinningBids = true := by
    intro coin member
    obtain ⟨inMap, differs⟩ := mem_filter.mp member
    obtain ⟨before, inSupplies, rfl⟩ := mem_map.mp inMap
    obtain ⟨denom, -, rfl⟩ := mem_map.mp inSupplies
    have supply := rolled.supply denom
    simp only [Vault.amountOf_getBankSupplies, decide_eq_true_eq] at differs
    by_contra otherwise
    rw [if_neg (fun both => otherwise ⟨mint ▸ both.2, both.1⟩)] at supply
    omega
  have distinct : ((state.vault.getBankSupplies.map (fun coin =>
      Coin.mk coin.denom (coin.amount - amountOf next.vault.getBankSupplies coin.denom))).filter
        (·.amount ≠ 0)).map Coin.denom |>.Nodup := by
    refine List.Nodup.sublist (List.Sublist.map _ filter_sublist) ?_
    rw [map_map]
    exact listed_nodup state.vault state.vault.bank.supply
  simp only [assertSupplyIntegrity, if_true, subCoins, bind_eq_ok, check_eq_ok, pure_eq_ok,
    Unique.exists_iff]
  refine ⟨_, ⟨notLarger, rfl⟩, ?_⟩
  generalize (state.vault.getBankSupplies.map _).filter _ = difference at changed distinct ⊢
  rcases difference with _ | ⟨first, _ | ⟨second, rest⟩⟩
  · simp
  · obtain ⟨native, burns⟩ := changed first mem_cons_self
    split_ifs
    · rfl
    · simp [native, params, burns]
  · -- two changes would both be in the native token
    have same := (changed first (by simp)).1.trans (changed second (by simp)).1.symm
    simp [same] at distinct

theorem assertRolledOver_iff (mint : accounts.mintDenom = nativeTokenDenom)
    (sound : Sound accounts state)
    (rolled : RolledOver accounts state next closed)
    (recorded : state.affectedAccs ext = .ok affected) :
    assertRolledOver ext next state.auctions.values affected (state.snapshots accounts next) =
      .ok () ↔ ∀ auction ∈ state.auctions.values, auction.Settles accounts state := by
  have native := (Params.validateBasic_eq_ok.mp sound.params).2.2
  have closing : ∀ auction ∈ state.auctions.values,
      (assertClosed ext next.vault affected (state.snapshots accounts next) auction = .ok () ↔
        auction.Settles accounts state) := by
    intro auction member
    cases highest : auction.highestBid with
    | none => exact assertClosed_failed_iff sound rolled member highest
    | some bid =>
      obtain ⟨again, recordedAgain, entries⟩ := State.affectedAccs_succeeds sound
      obtain rfl : affected = again := Except.ok.inj (recorded.symm.trans recordedAgain)
      obtain ⟨bidder, decoded, entry⟩ := entries auction member bid highest
      exact assertClosed_won_iff sound rolled member mint highest decoded entry
  have poolEmpty : next.vault.getAllBalances ext.auctionPool = [] := by
    simp [Vault.getAllBalances, Vault.listed, rolled.pool_empty]
  have noGrav : next.vault.bank.balances accounts.auction nativeTokenDenom = 0 := by
    rw [rolled.final_module sound, if_pos native]
  have bids : state.vault.bank.balances accounts.auction nativeTokenDenom =
      highestBids state.auctions.values := by
    rw [← mint, sound.accounted, if_pos rfl]
    exact (Nat.add_eq_right).mpr sound.awards_mint
  have fresh : ∀ auction ∈ next.auctions.values,
      next.vault.bank.balances accounts.auction auction.amount.denom = auction.amount.amount := by
    intro auction member
    have amount := mem_map_of_mem (f := Auction.amount) (rolled.values_perm.mem_iff.mp member)
    rw [opened_amounts, mem_filter] at amount
    obtain ⟨inPool, unlisted⟩ := amount
    simp only [decide_eq_true_eq] at unlisted
    obtain ⟨denom, -, same⟩ := mem_map.mp inPool
    rw [rolled.final_module sound, if_neg unlisted, ← rolled.closed_pool, ← same]
  simp only [assertRolledOver, bind_eq_ok, forM_eq_ok, check_eq_ok, Unique.exists_iff,
    State.snapshots, poolEmpty, Vault.amountOf_getAllBalances, noGrav, bids, true_and, not_mem_nil,
    false_implies, implies_true]
  constructor
  · rintro ⟨passed, -⟩ auction member
    exact (closing auction member).mp (passed auction member)
  · intro settle
    exact ⟨fun auction member => (closing auction member).mpr (settle auction member), fresh⟩

/-! ## The end blocker -/

/-- What a roll-over needs to go through. -/
structure State.Settleable (accounts : Accounts ext) (state : State) : Prop where
  endFits : state.EndFits
  payable : ∀ auction ∈ state.auctions.values, auction.Payable ext
  settles : ∀ auction ∈ state.auctions.values, auction.Settles accounts state

theorem State.endBlocker_quiet (sound : Sound accounts state) (stays : ¬ state.RollsOver) :
    state.endBlocker accounts = .ok state := by
  obtain ⟨period, running⟩ := sound.period
  have resolved : state.resolve accounts = .ok state.quiet := by
    unfold resolve
    split_ifs with enabled
    · have notFinished : ¬ period.endBlockHeight.val ≤ state.height := fun finished =>
        stays ⟨enabled, period, running, finished⟩
      simp [running, notFinished, unwrap]
    · rfl
  simp [endBlocker, resolved, quiet, assertSupplyIntegrity, assertBalanceChanges, assertUnchanged,
    snapshots]

theorem State.resolve_rollOver (rolls : state.RollsOver) :
    state.resolve accounts = state.rollOver accounts := by
  obtain ⟨enabled, period, running, finished⟩ := rolls
  simp [resolve, enabled, running, unwrap, finished]

theorem State.endBlocker_rollOver_iff (mint : accounts.mintDenom = nativeTokenDenom)
    (sound : Sound accounts state) (rolls : state.RollsOver) :
    (∃ next, state.endBlocker accounts = .ok next) ↔ state.Settleable accounts := by
  simp only [endBlocker, resolve_rollOver rolls, bind_eq_ok, pure_eq_ok, Unique.exists_iff]
  constructor
  · rintro ⟨final, resolution, rolled, -, passed, -⟩
    obtain ⟨closing, ended, recorded, closed, rolledOver⟩ := rollOver_eq_ok sound.numbered rolled
    obtain ⟨payable, fits⟩ := (rollOver_succeeds_iff mint sound rolls).mp ⟨resolution, rolled⟩
    rw [assertBalanceChanges, if_pos ended, closing] at passed
    exact ⟨fits, payable, (assertRolledOver_iff mint sound rolledOver recorded).mp passed⟩
  · intro settleable
    obtain ⟨resolution, rolled⟩ :=
      (rollOver_succeeds_iff mint sound rolls).mpr ⟨settleable.payable, settleable.endFits⟩
    obtain ⟨closing, ended, recorded, closed, rolledOver⟩ := rollOver_eq_ok sound.numbered rolled
    refine ⟨resolution.final, resolution, rolled, ?_, ?_, rfl⟩
    · rw [ended]
      exact assertSupplyIntegrity_passes mint rolledOver
    · rw [assertBalanceChanges, if_pos ended, closing]
      exact (assertRolledOver_iff mint sound rolledOver recorded).mpr settleable.settles

theorem State.rolledOver_of_endBlocker (numbered : state.Numbered) (rolls : state.RollsOver)
    (passed : state.endBlocker accounts = .ok next) :
    ∃ closed, RolledOver accounts state next closed := by
  simp only [endBlocker, resolve_rollOver rolls, bind_eq_ok, pure_eq_ok, Unique.exists_iff] at passed
  obtain ⟨resolution, rolled, -, -, rfl⟩ := passed
  exact (rollOver_eq_ok numbered rolled).2.2.2

theorem Reachable.sound (reachable : Reachable accounts state) : Sound accounts state := by
  obtain ⟨start, ⟨vault, height, genState, within, started⟩, leads⟩ := reachable
  exact leads.sound (sound_of_initGenesis started within)

/-- The end blocker goes through exactly when a roll-over, if one is due, can be settled; the next
period then ends behind its start. -/
theorem endBlocker_succeeds_iff (mint : accounts.mintDenom = nativeTokenDenom)
    (reachable : Reachable accounts state) :
    (∃ next, state.endBlocker accounts = .ok next ∧ (state.RollsOver →
      ∃ period, next.period = some period ∧ period.startBlockHeight < period.endBlockHeight)) ↔
      (state.RollsOver → state.Settleable accounts) := by
  have sound := reachable.sound
  by_cases rolls : state.RollsOver
  · simp only [rolls, true_implies]
    rw [← State.endBlocker_rollOver_iff mint sound rolls]
    constructor
    · rintro ⟨next, passed, -⟩
      exact ⟨next, passed⟩
    · rintro ⟨next, passed⟩
      obtain ⟨closed, rolled⟩ := State.rolledOver_of_endBlocker sound.numbered rolls passed
      refine ⟨next, passed, state.followingPeriod, rolled.placed.period, ?_⟩
      rw [Fin.lt_def, rolled.starts]
      exact rolled.ends
  · simp only [rolls, false_implies, and_true, iff_true]
    exact ⟨state, State.endBlocker_quiet sound rolls⟩

/-! ## Runs that can be evaluated -/

def permits (accounts : Accounts ext) (state : State) (label : Label) (_ : List Unit)
    (_ : State) : Bool :=
  match label with
  | .deposit sender _ => decide (sender ≠ accounts.auction)
  | .endBlock => decide (state.height + 1 < 2 ^ 63)
  | .elsewhere _ => false
  | _ => true

theorem allowed_of_permits (state : State) (label : Label) (emitted : List Unit) (after : State)
    (permitted : permits accounts state label emitted after = true) :
    Allowed accounts state label := by
  cases label <;> simp_all [permits, Allowed]

/-- A test of the state that a genesis document and some steps lead to. -/
def runTest (accounts : Accounts ext) (vault : Vault) (height : Nat) (genState : GenesisState)
    (labels : List Label) (test : State → Bool) : Bool :=
  match initGenesis accounts vault height genState with
  | .ok start =>
    (run (step accounts) (permits accounts) labels start).any (fun result => test result.2)
  | .error _ => false

theorem reachable_of_runTest {vault : Vault} {height : Nat} {genState : GenesisState}
    {labels : List Label} {test : State → Bool} (within : height < 2 ^ 63)
    (passed : runTest accounts vault height genState labels test = true) :
    ∃ state, Reachable accounts state ∧ test state = true := by
  unfold runTest at passed
  split at passed
  · rename_i start started
    cases ran : run (step accounts) (permits accounts) labels start with
    | none => simp [ran] at passed
    | some result =>
      obtain ⟨trace, first⟩ : Leads accounts start start := .refl start
      have leads : Leads accounts start result.2 := ⟨_, reach_of_run allowed_of_permits first ran⟩
      exact ⟨result.2, ⟨start, ⟨vault, height, genState, within, started⟩, leads⟩,
        by simpa [ran] using passed⟩
  · contradiction

/-- Whether the period is over, as a test. -/
def State.rollsOver (state : State) : Bool :=
  state.params.enabled && state.period.any (fun period =>
    decide (period.endBlockHeight.val ≤ state.height))

theorem State.rollsOver_eq_true : state.rollsOver = true ↔ state.RollsOver := by
  cases running : state.period <;> simp [rollsOver, RollsOver, running]

/-- The tokens of the pool are put up again when a period without bids is over. -/
theorem unsold_tokens_settle :
    ∃ state, Reachable auctionnetAccounts state ∧ state.RollsOver ∧
      state.Settleable auctionnetAccounts := by
  obtain ⟨state, reachable, tested⟩ := reachable_of_runTest (by decide)
    (show runTest auctionnetAccounts (vaultWith auctionnet.auctionPool) 10 newGenesis
      [.endBlock, .endBlock, .endBlock] (fun state =>
        state.rollsOver && succeeds (state.endBlocker auctionnetAccounts)) = true by decide +kernel)
  obtain ⟨rolls, passes⟩ := Bool.and_eq_true_iff.mp tested
  have due := State.rollsOver_eq_true.mp rolls
  obtain ⟨next, passed⟩ := succeeds_eq_true.mp passes
  obtain ⟨closed, rolled⟩ := State.rolledOver_of_endBlocker reachable.sound.numbered due passed
  refine ⟨state, reachable, due,
    (endBlocker_succeeds_iff rfl reachable).mp ⟨next, passed, fun _ => ?_⟩ due⟩
  exact ⟨state.followingPeriod, rolled.placed.period,
    by rw [Fin.lt_def, rolled.starts]; exact rolled.ends⟩

/-- The message of a panic. -/
def panicOf {α : Type} : Go α → Option String
  | .error (.panic message) => some message
  | _ => none

theorem panicOf_eq_some {α : Type} {result : Go α} {message : String} :
    panicOf result = some message ↔ result = .error (.panic message) := by
  rcases result with (_ | _) | _ <;> simp [panicOf]

/-- Governance makes a token non-auctionable while its auction runs, and nobody bids. -/
def delisting : List Label :=
  [.updateParams (ascii "gravity1module/gov")
    [.nonAuctionableTokens [nativeTokenDenom, ascii "uatom"]], .endBlock, .endBlock, .endBlock]

/-- The chain halts at the end of the period. -/
theorem delisted_token_halts :
    ∃ state, Reachable auctionnetAccounts state ∧ state.endBlocker auctionnetAccounts =
      .error (.panic
        "Auction EndBlocker: Expected module account to add the pool balance to its own balance") := by
  obtain ⟨state, reachable, tested⟩ := reachable_of_runTest (by decide)
    (show runTest auctionnetAccounts (vaultWith auctionnet.auctionPool) 10 newGenesis delisting
      (fun state => panicOf (state.endBlocker auctionnetAccounts) = some
        "Auction EndBlocker: Expected module account to add the pool balance to its own balance") =
        true
      by decide +kernel)
  exact ⟨state, reachable, panicOf_eq_some.mp (of_decide_eq_true tested)⟩

end GravityBridge.Auctions
