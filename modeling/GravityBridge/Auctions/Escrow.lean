import GravityBridge.Auctions.Steps

/-!
# What the module's account holds

In every state of a run the account of the auction module holds exactly the tokens of the stored
auctions and their highest bids. An id is used once. Two auctions of one denom can only come from
a genesis document, since the coins of the pool are listed by denom.
-/

namespace GravityBridge.Auctions

open Lib.Fallible Lib.ByteString Lib.Store Lib.Runs
open GravityBridge.Types Keeper List

variable {ext : External} {accounts : Accounts ext} {state next : State}

/-! ## The invariant -/

/-- What holds in every state of a run. -/
structure Sound (accounts : Accounts ext) (state : State) : Prop where
  numbered : state.Numbered
  escrow : ∀ denom, state.vault.bank.balances accounts.auction denom =
    (state.auctions.values.map (fun auction => auction.locked accounts denom)).sum
  foreign : ∀ auction ∈ state.auctions.values, auction.amount.denom ≠ accounts.mintDenom
  valid : ∀ auction ∈ state.auctions.values, auction.validateBasic ext = .ok ()
  params : state.params.validateBasic = .ok ()
  period : ∃ period, state.period = some period
  height : state.height < 2 ^ 63

theorem Auction.validateBasic_eq_ok {auction : Auction} : auction.validateBasic ext = .ok () ↔
      auction.amount.isValid = true ∧ ∀ bid ∈ auction.highestBid, bid.validateBasic ext = .ok () := by
  cases highest : auction.highestBid <;> simp [Auction.validateBasic, highest]

theorem Params.validateBasic_eq_ok {params : Params} : params.validateBasic = .ok () ↔
    params.auctionLength ≠ 0 ∧
      (∀ token ∈ params.nonAuctionableTokens, sdkValidateDenom token = true) ∧
      nativeTokenDenom ∈ params.nonAuctionableTokens := by
  simp [Params.validateBasic]

namespace Outbid

variable {id : Nat} {auction : Auction} {bid : Bid}

variable (outbid : Outbid accounts state next id auction bid)

include outbid

theorem auctions_eq :
    next.auctions = state.auctions.set auction.id { auction with highestBid := some bid } := by
  rw [outbid.rest]

theorem stored_own (numbered : state.Numbered) :
    state.auctions.get auction.id = some auction := by
  rw [(numbered id auction outbid.stored).1]
  exact outbid.stored

/-- The bids are no part of what a bid leaves as it was. -/
theorem amounts (numbered : state.Numbered) :
    next.auctions.values.map Auction.amount = state.auctions.values.map Auction.amount := by
  rw [outbid.auctions_eq]
  exact KVStore.map_values_set Auction.amount (outbid.stored_own numbered) rfl

theorem sound (sound : Sound accounts state) :
    Sound accounts next := by
  have own := outbid.stored_own sound.numbered
  have member : auction ∈ state.auctions.values := KVStore.mem_values.mpr ⟨_, own⟩
  have listed : ∀ other ∈ next.auctions.values,
      other = { auction with highestBid := some bid } ∨ other ∈ state.auctions.values := by
    rw [outbid.auctions_eq]
    exact fun _ => KVStore.mem_values_set
  have same : next.params = state.params ∧ next.period = state.period ∧ next.height = state.height ∧
      next.auctionNonce = state.auctionNonce := by
    rw [outbid.rest]
    exact ⟨rfl, rfl, rfl, rfl⟩
  obtain ⟨params, period, height, nonce⟩ := same
  refine ⟨?_, fun denom => ?_, ?_, ?_, params ▸ sound.params, period ▸ sound.period,
    height ▸ sound.height⟩
  · intro key other found
    rw [outbid.auctions_eq, KVStore.get_set] at found
    rw [nonce]
    split_ifs at found with here
    · obtain rfl := Option.some.inj found
      exact ⟨here.symm, here ▸ (sound.numbered _ _ own).2⟩
    · exact sound.numbered key other found
  · have removed : (state.auctions.set auction.id { auction with highestBid := some bid }).delete
        auction.id = state.auctions.delete auction.id := by
      apply KVStore.ext_get
      intro other
      simp only [KVStore.get_delete, KVStore.get_set]
      split_ifs <;> rfl
    have before := KVStore.sumOf_delete (fun auction => auction.locked accounts denom) own
    have after := KVStore.sumOf_delete (fun auction => auction.locked accounts denom)
      (show (state.auctions.set auction.id { auction with highestBid := some bid }).get auction.id =
        some { auction with highestBid := some bid } by simp)
    rw [removed, ← outbid.auctions_eq] at after
    have moved := outbid.balances denom
    have held := sound.escrow denom
    simp only [KVStore.sumOf, Auction.locked, Auction.bidCoin, Option.elim_some]
      at before after moved held ⊢
    omega
  · intro other inNext
    rcases listed other inNext with rfl | before
    · exact sound.foreign auction member
    · exact sound.foreign other before
  · intro other inNext
    rcases listed other inNext with rfl | before
    · have valid := (Auction.validateBasic_eq_ok.mp (sound.valid auction member)).1
      exact Auction.validateBasic_eq_ok.mpr ⟨valid, by simpa using outbid.valid⟩
    · exact sound.valid other before

end Outbid

/-! ## Roll-over -/

/-- What the module's account receives from the pool is what the new auctions put up. -/
theorem sum_home (accounts : Accounts ext) (params : Params) (nonce : Nat) (coins : List Coin)
    (denom : Denom) :
    total (fun coin => only (home accounts params coin.denom) coin) coins accounts.auction denom =
      ((opened params nonce coins).map (fun auction => auction.locked accounts denom)).sum := by
  induction coins generalizing nonce with
  | nil => rfl
  | cons coin rest ih =>
    rw [total_cons, Pi.add_apply, Pi.add_apply]
    unfold opened
    split_ifs with listed
    · rw [ih nonce]
      simp [only, home, listed, accounts.auction_ne_distribution]
    · rw [ih (nonce + 1)]
      simp [only, home, listed, Auction.locked, Auction.bidCoin, amountOf_zero]

theorem sum_eq_zero_of_forall {α : Type} {items : List α} {measure : α → Nat}
    (none : ∀ item ∈ items, measure item = 0) : (items.map measure).sum = 0 := by
  rw [sum_eq_zero_iff]
  intro value member
  obtain ⟨item, inItems, rfl⟩ := mem_map.mp member
  exact none item inItems

theorem Auction.inflow_module {auction : Auction} (payable : auction.Payable ext) (burn : Bool)
    (denom : Denom) : auction.inflow accounts burn accounts.auction denom = 0 := by
  have notRecipient : auction.recipient ext ≠ some accounts.auction := by
    unfold Auction.recipient
    split
    · rename_i bid highest
      obtain ⟨bidder, decoded, unblocked⟩ := payable bid highest
      rw [decoded]
      intro same
      obtain rfl : bidder = accounts.auction := Option.some.inj same
      rw [accounts.blocked_auction] at unblocked
      contradiction
    · exact fun same => accounts.auction_ne_pool (Option.some.inj same).symm
  simp [Auction.inflow, notRecipient, accounts.auction_ne_distribution]

namespace RolledOver

variable {closed : Vault}

section

variable (rolled : RolledOver accounts state next closed)

include rolled

/-- Nothing is left in the module's account when all auctions are closed. -/
theorem closed_module (sound : Sound accounts state) (denom : Denom) :
    closed.bank.balances accounts.auction denom = 0 := by
  have balance := rolled.flows.balances accounts.auction denom
  have received : total (Auction.inflow accounts · state.params.burnWinningBids) state.auctions.values
      accounts.auction denom = 0 :=
    sum_eq_zero_of_forall fun auction member =>
      Auction.inflow_module (rolled.payable auction member) _ denom
  have spent : total (Auction.outflow accounts) state.auctions.values accounts.auction denom =
      (state.auctions.values.map (fun auction => auction.locked accounts denom)).sum := by
    simp [total, Auction.outflow]
  rw [received, spent, sound.escrow denom] at balance
  omega

theorem values_perm : next.auctions.values.Perm
      (opened state.params state.auctionNonce (closed.getAllBalances ext.auctionPool)) := by
  simpa [State.emptied] using rolled.placed.values

/-- The new auctions hold what came out of the pool. -/
theorem module_balance (sound : Sound accounts state) (denom : Denom) :
    next.vault.bank.balances accounts.auction denom =
      ((opened state.params state.auctionNonce (closed.getAllBalances ext.auctionPool)).map
        (fun auction => auction.locked accounts denom)).sum := by
  have balance := rolled.placed.flows.balances accounts.auction denom
  have spent : total (only ext.auctionPool) (closed.getAllBalances ext.auctionPool) accounts.auction
      denom = 0 :=
    sum_eq_zero_of_forall fun coin _ => by simp [only, accounts.auction_ne_pool]
  have received := sum_home accounts state.params state.auctionNonce
    (closed.getAllBalances ext.auctionPool) denom
  have empty := rolled.closed_module sound denom
  simp only [State.emptied] at balance
  omega

end

theorem isValid_of_mem_getAllBalances {vault : Vault} {account : AccAddress} {coin : Coin}
    (member : coin ∈ vault.getAllBalances account) : coin.isValid = true := by
  obtain ⟨denom, inDenoms, rfl⟩ := mem_map.mp member
  exact vault.valid denom (mem_filter.mp inDenoms).1

theorem sound (rolled : RolledOver accounts state next closed) (sound : Sound accounts state) :
    Sound accounts next := by
  have fresh : ∀ auction ∈ next.auctions.values, auction ∈ opened state.params state.auctionNonce
      (closed.getAllBalances ext.auctionPool) := fun auction member =>
        rolled.values_perm.mem_iff.mp member
  refine ⟨rolled.placed.numbered ?_, fun denom => ?_, fun auction member =>
    rolled.placed.foreign auction (fresh auction member), fun auction member => ?_, ?_, ?_, ?_⟩
  · intro id auction found
    simp [State.emptied] at found
  · rw [rolled.module_balance sound denom, ((rolled.values_perm).map _).sum_eq]
  · have amounts := mem_map_of_mem (f := Auction.amount) (fresh auction member)
    rw [opened_amounts, mem_filter] at amounts
    refine Auction.validateBasic_eq_ok.mpr ⟨isValid_of_mem_getAllBalances amounts.1, ?_⟩
    simp [(mem_opened (fresh auction member)).2]
  · rw [rolled.placed.params]
    exact sound.params
  · rw [rolled.placed.period]
    exact ⟨_, rfl⟩
  · rw [rolled.placed.height]
    exact sound.height

end RolledOver

/-- The number of the current block is no part of the invariant, except that it stays in range. -/
theorem Sound.atHeight (sound : Sound accounts state) {height : Nat} (within : height < 2 ^ 63) :
    Sound accounts { state with height := height } :=
  ⟨sound.numbered, sound.escrow, sound.foreign, sound.valid, sound.params, sound.period, within⟩

theorem Stepped.sound (stepped : Stepped accounts state next) (sound : Sound accounts state) :
    Sound accounts next := by
  cases stepped with
  | coins vault same =>
    exact ⟨sound.numbered, fun denom => (same denom).trans (sound.escrow denom), sound.foreign,
      sound.valid, sound.params, sound.period, sound.height⟩
  | params params valid =>
    exact ⟨sound.numbered, sound.escrow, sound.foreign, sound.valid, valid, sound.period,
      sound.height⟩
  | bid outbid => exact outbid.sound sound
  | quietBlock within => exact sound.atHeight within
  | rollOver within rolled =>
    refine (rolled.sound sound).atHeight ?_
    rw [rolled.placed.height]
    exact within

/-! ## Ids -/

/-- An id that was given out is not given out again. -/
structure Retains (state later : State) : Prop where
  nonce : state.auctionNonce ≤ later.auctionNonce
  stored : ∀ id auction, later.auctions.get id = some auction → id ≤ state.auctionNonce →
    ∃ earlier, state.auctions.get id = some earlier ∧ earlier.amount = auction.amount

theorem Retains.refl (state : State) : Retains state state :=
  ⟨le_rfl, fun _ auction found _ => ⟨auction, found, rfl⟩⟩

theorem Retains.trans {first second third : State} (before : Retains first second)
    (after : Retains second third) : Retains first third := by
  refine ⟨before.nonce.trans after.nonce, fun id auction found within => ?_⟩
  obtain ⟨middle, foundMiddle, sameMiddle⟩ :=
    after.stored id auction found (within.trans before.nonce)
  obtain ⟨earlier, foundEarlier, same⟩ := before.stored id middle foundMiddle within
  exact ⟨earlier, foundEarlier, same.trans sameMiddle⟩

theorem Retains.of_auctions (auctions : next.auctions = state.auctions)
    (nonce : next.auctionNonce = state.auctionNonce) : Retains state next :=
  ⟨nonce.ge, fun _ auction found _ => ⟨auction, auctions ▸ found, rfl⟩⟩

theorem RolledOver.id_above {closed : Vault} (rolled : RolledOver accounts state next closed)
    {id : Nat}
    {auction : Auction} (found : next.auctions.get id = some auction) : state.auctionNonce < id := by
  have member := rolled.values_perm.mem_iff.mp (KVStore.mem_values.mpr ⟨id, found⟩)
  have keyed := (rolled.placed.numbered (by simp [State.Numbered, State.emptied]) id auction found).1
  exact keyed ▸ (mem_opened member).1

theorem Stepped.retains (stepped : Stepped accounts state next) (numbered : state.Numbered) :
    Retains state next := by
  cases stepped with
  | coins vault same => exact .of_auctions rfl rfl
  | params params valid => exact .of_auctions rfl rfl
  | @bid next id auction bid outbid =>
    have nonce : next.auctionNonce = state.auctionNonce := by rw [outbid.rest]
    refine ⟨nonce.ge, fun key other found within => ?_⟩
    rw [outbid.auctions_eq, KVStore.get_set] at found
    split_ifs at found with here
    · obtain rfl := Option.some.inj found
      exact ⟨auction, here ▸ outbid.stored_own numbered, rfl⟩
    · exact ⟨other, found, rfl⟩
  | quietBlock within => exact .of_auctions rfl rfl
  | @rollOver next closed within rolled =>
    refine ⟨?_, fun id auction found below => ?_⟩
    · have counted := rolled.placed.nonce
      simp only [State.emptied] at counted
      exact counted ▸ Nat.le_add_right _ _
    · -- the new ids are above the nonce, so that none of them is an old one
      exact absurd (rolled.id_above found) (not_lt.mpr below)

/-! ## One auction per denom -/

def State.OnePerDenom (state : State) : Prop :=
  (state.auctions.values.map (fun auction => auction.amount.denom)).Nodup

theorem listed_nodup (vault : Vault) (amount : Denom → Nat) :
    ((vault.listed amount).map Coin.denom).Nodup := by
  have same : (vault.listed amount).map Coin.denom =
      vault.denoms.filter (fun denom => amount denom ≠ 0) := by
    simp [Vault.listed, map_map, Function.comp_def]
  rw [same]
  exact vault.sorted.nodup.filter _

/-- The coins of an account are listed by denom, and each is put up once. -/
theorem opened_nodup (vault : Vault) (account : AccAddress) (params : Params) (nonce : Nat) :
    ((opened params nonce (vault.getAllBalances account)).map
      (fun auction => auction.amount.denom)).Nodup := by
  have denoms : (opened params nonce (vault.getAllBalances account)).map
      (fun auction => auction.amount.denom) =
      ((opened params nonce (vault.getAllBalances account)).map Auction.amount).map Coin.denom := by
    rw [map_map]
    rfl
  rw [denoms, opened_amounts]
  exact (listed_nodup vault _).sublist (List.Sublist.map _ filter_sublist)

theorem Stepped.onePerDenom (stepped : Stepped accounts state next) (numbered : state.Numbered)
    (distinct : state.OnePerDenom) : next.OnePerDenom := by
  cases stepped with
  | coins vault same => exact distinct
  | params params valid => exact distinct
  | bid outbid =>
    have denoms := congrArg (List.map Coin.denom) (outbid.amounts numbered)
    simp only [map_map, Function.comp_def] at denoms
    unfold State.OnePerDenom
    rw [denoms]
    exact distinct
  | quietBlock within => exact distinct
  | rollOver within rolled => exact (rolled.values_perm.map _).nodup_iff.mpr (opened_nodup _ _ _ _)

/-! ## Genesis -/

/-- What storing the auctions of a genesis document one after the other does. -/
structure StoredAll (accounts : Accounts ext) (state next : State)
    (auctions : List Auction) : Prop where
  rest : next = { state with
    auctions := next.auctions, auctionNonce := state.auctionNonce + auctions.length }
  values : next.auctions.values.Perm (auctions ++ state.auctions.values)
  auctionable : ∀ auction ∈ auctions, auction.amount.denom ≠ accounts.mintDenom ∧
    auction.amount.denom ∉ state.params.nonAuctionableTokens
  valid : ∀ auction ∈ auctions, auction.validateBasic ext = .ok ()
  ids : auctions.map Auction.id = List.range' (state.auctionNonce + 1) auctions.length
  numbered : state.Numbered → next.Numbered

variable {auctions : List Auction}

theorem storedAll_of_foldlM (stored : auctions.foldlM (fun current auction =>
      orPanic "Unable to store auction" (current.storeAuction accounts auction)) state = .ok next) :
    StoredAll accounts state next auctions := by
  induction auctions generalizing state with
  | nil =>
    obtain rfl : state = next := by simpa using stored
    exact ⟨rfl, List.Perm.refl _, by simp, by simp, rfl, id⟩
  | cons auction rest ih =>
    obtain ⟨middle, storedFirst, storedRest⟩ := by
      simpa only [foldlM_cons, bind_eq_ok, orPanic_eq_ok] using stored
    obtain ⟨valid, isNext, auctionable, absent, rfl⟩ := State.storeAuction_eq_ok storedFirst
    have after := ih storedRest
    refine ⟨?_, ?_, ?_, ?_, ?_, fun numbered => after.numbered (numbered.store isNext)⟩
    · have same := after.rest
      simp only [length_cons] at same ⊢
      rw [Nat.add_right_comm] at same
      exact same
    · have fresh := KVStore.values_set_perm auction absent
      exact after.values.trans ((fresh.append_left _).trans perm_middle)
    · exact forall_mem_cons.mpr ⟨auctionable, after.auctionable⟩
    · exact forall_mem_cons.mpr ⟨valid, after.valid⟩
    · rw [map_cons, after.ids, isNext]
      rfl

theorem tallyAward_eq_ok {before after : List Coin} {auction : Auction} :
    tallyAward before auction = .ok after ↔
      amountOf before auction.amount.denom = 0 ∧ before ++ [auction.amount] = after := by
  simp [tallyAward]

theorem foldlM_tallyAward_eq_ok {before awards : List Coin}
    (tallied : auctions.foldlM tallyAward before = .ok awards) :
    awards = before ++ auctions.map Auction.amount := by
  induction auctions generalizing before with
  | nil =>
    obtain rfl : before = awards := by simpa using tallied
    simp
  | cons auction rest ih =>
    obtain ⟨middle, first, talliedRest⟩ := by simpa only [foldlM_cons, bind_eq_ok] using tallied
    obtain ⟨-, rfl⟩ := tallyAward_eq_ok.mp first
    simpa using ih talliedRest

theorem tallyAwards_eq_ok {awards : List Coin} (tallied : tallyAwards auctions = .ok awards) :
    awards = auctions.map Auction.amount := by
  simpa using foldlM_tallyAward_eq_ok tallied

theorem sum_locked (auctions : List Auction) (denom : Denom) :
    (auctions.map (fun auction => auction.locked accounts denom)).sum =
      (auctions.map (fun auction => auction.amount.amountOf denom)).sum +
        (Coin.mk accounts.mintDenom (highestBids auctions)).amountOf denom := by
  have bids : (auctions.map (fun auction => (auction.bidCoin accounts).amountOf denom)).sum =
      (Coin.mk accounts.mintDenom (highestBids auctions)).amountOf denom := by
    by_cases native : denom = accounts.mintDenom <;>
      simp [Auction.bidCoin, Coin.amountOf, native, highestBids]
  simp only [Auction.locked]
  rw [sum_map_add, bids]

/-- The invariants that run on the new state establish the escrow. -/
theorem State.escrow_of_moduleBalanceInvariant
    (passed : state.moduleBalanceInvariant accounts = .ok ()) (denom : Denom) :
    state.vault.bank.balances accounts.auction denom =
      (state.auctions.values.map (fun auction => auction.locked accounts denom)).sum := by
  simp only [moduleBalanceInvariant, expectedAuctionModuleBalances, bind_eq_ok, check_eq_ok,
    pure_eq_ok, Unique.exists_iff] at passed
  obtain ⟨expected, ⟨awards, tallied, -, rfl⟩, equal⟩ := passed
  obtain rfl := tallyAwards_eq_ok tallied
  have expectation : (((state.auctions.values.map Auction.amount) ++
      [Coin.mk accounts.mintDenom (highestBids state.auctions.values)]).map
        (fun coin => coin.amountOf denom)).sum =
      (state.auctions.values.map (fun auction => auction.locked accounts denom)).sum := by
    rw [sum_locked]
    simp [map_map, Function.comp_def]
  by_cases known : denom ∈ state.vault.denoms ++ accounts.mintDenom :: state.auctions.values.map
    (·.amount.denom)
  · exact (equal denom known).trans expectation
  · -- a denom that nobody knows has no supply and no auction
    simp only [mem_append, mem_cons, mem_map, not_or, not_exists, not_and] at known
    obtain ⟨unknown, notMint, notAuctioned⟩ := known
    have noSupply : state.vault.bank.supply denom = 0 := by
      by_contra supplied
      exact unknown (state.vault.covers denom supplied)
    have noBalance :=
      Nat.le_zero.mp (noSupply ▸ state.vault.bank.balances_le_supply accounts.auction denom)
    rw [noBalance, sum_eq_zero_of_forall]
    intro auction member
    have other : denom ≠ auction.amount.denom := Ne.symm (notAuctioned auction member)
    simp [Auction.locked, Auction.bidCoin, Coin.amountOf, other, notMint]

variable {vault : Vault} {height : Nat} {genState : GenesisState}

section

variable (started : initGenesis accounts vault height genState = .ok state)

include started

/-- The auctions that a genesis document starts with. -/
theorem initGenesis_eq_ok :
    genState.params.validateBasic = .ok () ∧ state.params = genState.params ∧ state.height = height ∧
      state.moduleBalanceInvariant accounts = .ok () ∧
      ((∃ period, genState.activePeriod = some period ∧
        (period.startBlockHeight.val ≤ height + 1 ∧ height ≤ period.endBlockHeight.val) ∧
        StoredAll accounts ⟨vault, genState.params, some period, .empty, 0, height⟩ state
          genState.activeAuctions) ∨
        (genState.activePeriod = none ∧ ∃ period,
          Placed accounts ⟨vault, genState.params, some period, .empty, 0, height⟩ state
          (vault.getAllBalances ext.auctionPool))) := by
  simp only [initGenesis, bind_eq_ok, orPanic_eq_ok, pure_eq_ok, Unique.exists_iff] at started
  obtain ⟨valid, built, building, balanced, -, rfl⟩ := started
  unfold loadGenesis at building
  cases activePeriod : genState.activePeriod with
  | some period =>
    simp only [activePeriod, bind_eq_ok] at building
    obtain ⟨running, updated, stored⟩ := building
    obtain ⟨starts, ends, rfl⟩ := by simpa [State.updateAuctionPeriodUnsafe] using updated
    have all := storedAll_of_foldlM stored
    refine ⟨valid, ?_, ?_, balanced, .inl ⟨period, rfl, ⟨starts, ends⟩, all⟩⟩
    · rw [all.rest]
    · rw [all.rest]
  | none =>
    simp only [activePeriod, bind_eq_ok, orPanic_eq_ok] at building
    obtain ⟨running, created, opening⟩ := building
    obtain ⟨enabled, rfl⟩ := State.createNewAuctionPeriod_eq_ok created
    rw [if_pos enabled, orPanic_eq_ok] at opening
    obtain ⟨-, -, placed⟩ := State.createAuctionsForAuctionPeriod_eq_ok opening
    exact ⟨valid, placed.params, placed.height, balanced, .inr ⟨rfl, _, placed⟩⟩

theorem sound_of_initGenesis
    (within : height < 2 ^ 63) : Sound accounts state := by
  obtain ⟨valid, params, sameHeight, balanced, genesis⟩ := initGenesis_eq_ok started
  have escrow := State.escrow_of_moduleBalanceInvariant balanced
  rcases genesis with ⟨period, -, -, stored⟩ | ⟨-, period, placed⟩
  · have listed : ∀ auction ∈ state.auctions.values, auction ∈ genState.activeAuctions := by
      simpa using fun auction => (stored.values.mem_iff (a := auction)).mp
    refine ⟨stored.numbered (by simp [State.Numbered]), escrow, fun auction member =>
      (stored.auctionable auction (listed auction member)).1, fun auction member =>
        stored.valid auction (listed auction member), params ▸ valid, ⟨period, ?_⟩,
          sameHeight ▸ within⟩
    rw [stored.rest]
  · have listed : ∀ auction ∈ state.auctions.values, auction ∈ opened genState.params 0
        (vault.getAllBalances ext.auctionPool) := by
      simpa using fun auction => (placed.values.mem_iff (a := auction)).mp
    refine ⟨placed.numbered (by simp [State.Numbered]), escrow, fun auction member =>
      placed.foreign auction (listed auction member), fun auction member =>
        ?_, params ▸ valid, ⟨period, placed.period⟩, sameHeight ▸ within⟩
    have amounts := mem_map_of_mem (f := Auction.amount) (listed auction member)
    rw [opened_amounts, mem_filter] at amounts
    refine Auction.validateBasic_eq_ok.mpr ⟨RolledOver.isValid_of_mem_getAllBalances amounts.1, ?_⟩
    simp [(mem_opened (listed auction member)).2]

theorem onePerDenom_of_initGenesis :
    state.OnePerDenom ↔ (genState.activePeriod ≠ none →
      (genState.activeAuctions.map (fun auction => auction.amount.denom)).Nodup) := by
  obtain ⟨-, -, -, -, ⟨period, active, -, stored⟩ | ⟨none, period, placed⟩⟩ :=
    initGenesis_eq_ok started
  · have same := (stored.values.map (fun auction => auction.amount.denom)).nodup_iff
    simpa [State.OnePerDenom, active] using same
  · have distinct := (placed.values.map (fun auction => auction.amount.denom)).nodup_iff.mpr
      (by simpa using opened_nodup vault ext.auctionPool genState.params 0)
    simp [none, State.OnePerDenom, distinct]

end

/-! ## Runs -/

variable {start : State}

/-- What holds of a start and is kept by every kind of step holds behind every run. -/
theorem Leads.invariant {motive : State → Prop} (numbered : ∀ state, motive state → state.Numbered)
    (initially : motive start)
    (kept : ∀ state next, motive state → Stepped accounts state next → motive next)
    (leads : Leads accounts start state) : motive state := by
  obtain ⟨trace, reach⟩ := leads
  refine Reach.invariant (motive := fun _ state => motive state) ?_ ?_ reach
  · intro first same
    subst same
    exact initially
  · intro _ before _ _ after _ held took permitted
    exact kept before after held (stepped_of_step (numbered before held) took permitted).2

theorem Leads.sound (leads : Leads accounts start state) (sound : Sound accounts start) :
    Sound accounts state :=
  leads.invariant (fun _ sound => sound.numbered) sound (fun _ _ sound stepped => stepped.sound sound)

theorem Leads.retains (leads : Leads accounts start state) (sound : Sound accounts start) :
    Retains start state :=
  (leads.invariant (motive := fun state => Sound accounts state ∧ Retains start state)
    (fun _ held => held.1.numbered) ⟨sound, .refl start⟩ (fun _ _ held stepped =>
      ⟨stepped.sound held.1, held.2.trans (stepped.retains held.1.numbered)⟩)).2

theorem Leads.onePerDenom (leads : Leads accounts start state) (sound : Sound accounts start)
    (distinct : start.OnePerDenom) : state.OnePerDenom :=
  (leads.invariant (motive := fun state => Sound accounts state ∧ state.OnePerDenom)
    (fun _ held => held.1.numbered) ⟨sound, distinct⟩ (fun _ _ held stepped =>
      ⟨stepped.sound held.1, stepped.onePerDenom held.1.numbered held.2⟩)).2

theorem Leads.refl (start : State) : Leads accounts start start := ⟨[], .start rfl⟩

/-- The module's account holds the tokens and the bids of the stored auctions. -/
def State.Accounted (accounts : Accounts ext) (state : State) : Prop :=
  ∀ denom, state.vault.bank.balances accounts.auction denom =
    (state.auctions.values.map (fun auction => auction.amount.amountOf denom)).sum +
      if denom = accounts.mintDenom then highestBids state.auctions.values else 0

theorem Sound.accounted (sound : Sound accounts state) : state.Accounted accounts := by
  intro denom
  rw [sound.escrow denom, sum_locked]
  rfl

/-- The escrow of the module is exact in every run, no auction is in the denom of the bids and no id
is used twice; no two auctions are for one denom exactly when the genesis document has no two such
auctions. -/
theorem auction_escrow_iff {start : State} (within : height < 2 ^ 63)
    (started : initGenesis accounts vault height genState = .ok start) :
    (∀ state, Leads accounts start state →
      state.Accounted accounts ∧ state.OnePerDenom ∧
        (∀ auction ∈ state.auctions.values, auction.amount.denom ≠ accounts.mintDenom) ∧
        state.Numbered ∧ ∀ later, Leads accounts state later → Retains state later) ↔
      (genState.activePeriod ≠ none →
        (genState.activeAuctions.map (fun auction => auction.amount.denom)).Nodup) := by
  have sound := sound_of_initGenesis started within
  rw [← onePerDenom_of_initGenesis started]
  constructor
  · intro all
    exact (all start (.refl start)).2.1
  · intro distinct state leads
    have here := leads.sound sound
    exact ⟨here.accounted, leads.onePerDenom sound distinct, here.foreign, here.numbered,
      fun later further => further.retains here⟩

/-! ## A small chain -/

/-- The local network, on which the accounts of modules may not receive coins. -/
def auctionnet : External :=
  { localnet with
    blockedAddr := fun address =>
      address ∈ [ascii "module/gravity", ascii "module/auction", ascii "module/auctionpool",
        ascii "module/gov"]
    blocked_gravity := by decide }

def auctionnetAccounts : Accounts auctionnet where
  auction := ascii "module/auction"
  mintDenom := nativeTokenDenom
  authority := ascii "gravity1module/gov"
  auction_ne_pool := by decide
  auction_ne_distribution := by decide
  pool_ne_distribution := by decide
  blocked_auction := by decide
  blocked_pool := by decide

/-- Users and the account of governance with native tokens, and an amount of another token in one
account. -/
def vaultWith (owner : AccAddress) : Vault where
  bank := ((Bank.empty.mint (ascii "alice") ⟨nativeTokenDenom, 1000⟩).mint (ascii "module/gov")
    ⟨nativeTokenDenom, 1000⟩).mint owner ⟨ascii "uatom", 7⟩
  denoms := [ascii "uatom", nativeTokenDenom]
  sorted := by decide
  valid := by decide
  covers := by
    intro denom supplied
    by_contra unknown
    simp only [List.mem_cons, List.not_mem_nil, or_false, not_or] at unknown
    simp [Bank.empty, Coin.amountOf, unknown] at supplied

def shortParams : Params := ⟨2, 1, [nativeTokenDenom], true, true⟩

def newGenesis : GenesisState := ⟨shortParams, none, []⟩

/-- The tokens in the pool of a new chain are put up in one auction, and its escrow is exact from
then on. -/
theorem pooled_tokens_escrowed :
    ∃ start, initGenesis auctionnetAccounts (vaultWith auctionnet.auctionPool) 10 newGenesis =
      .ok start ∧ ∀ state, Leads auctionnetAccounts start state →
        state.Accounted auctionnetAccounts ∧ state.OnePerDenom ∧
          (∀ auction ∈ state.auctions.values, auction.amount.denom ≠ nativeTokenDenom) ∧
          state.Numbered ∧ ∀ later, Leads auctionnetAccounts state later → Retains state later := by
  obtain ⟨start, started⟩ := succeeds_eq_true.mp (show succeeds
    (initGenesis auctionnetAccounts (vaultWith auctionnet.auctionPool) 10 newGenesis) =
      true by decide +kernel)
  exact ⟨start, started, (auction_escrow_iff (by decide) started).mpr (by simp [newGenesis])⟩

/-- Two auctions for one token, the first of them for nothing. -/
def doubledGenesis : GenesisState :=
  ⟨shortParams, some ⟨5, 12⟩, [⟨1, ⟨ascii "uatom", 0⟩, none⟩, ⟨2, ⟨ascii "uatom", 7⟩, none⟩]⟩

/-- The tally of the awards does not see an earlier auction for nothing. -/
theorem doubled_auction_accepted :
    ∃ start, initGenesis auctionnetAccounts (vaultWith auctionnetAccounts.auction) 10
      doubledGenesis = .ok start ∧ ¬ start.OnePerDenom := by
  obtain ⟨start, started⟩ := succeeds_eq_true.mp (show succeeds
    (initGenesis auctionnetAccounts (vaultWith auctionnetAccounts.auction) 10 doubledGenesis) =
      true by decide +kernel)
  refine ⟨start, started, fun distinct => ?_⟩
  have pairwise := (onePerDenom_of_initGenesis started).mp distinct (by simp [doubledGenesis])
  simp [doubledGenesis] at pairwise

end GravityBridge.Auctions
