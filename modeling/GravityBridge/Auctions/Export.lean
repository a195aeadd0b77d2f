import GravityBridge.Auctions.Halts

/-!
# Exporting and importing the auctions

The exported document has the parameters, the period and the auctions, but not the nonce: the import
counts the ids from one again. A document is read back as it was written only while no auction has
been closed, and while the stored auctions and the period would be accepted as new ones.
-/

namespace GravityBridge.Auctions

open Lib.Fallible Lib.ByteString Lib.Store Lib.Search
open GravityBridge.Types Keeper List

variable {ext : External} {accounts : Accounts ext} {state next : State} {auctions : List Auction}
  {closed : Vault} {height : Nat}

/-! ## The document -/

def AuctionPeriod.validateBasic (period : AuctionPeriod) : Go Unit := do
  require (period.startBlockHeight < period.endBlockHeight)
    ⟨.invalidAuctionPeriod, "end block height must be after start block height"⟩
  require (period.startBlockHeight ≠ 0) ⟨.invalidAuctionPeriod, "start block height must be positive"⟩

def GenesisState.validateBasic (ext : External) (genState : GenesisState) : Go Unit := do
  rewrap ⟨.invalidParams, "invalid params"⟩ genState.params.validateBasic
  match genState.activePeriod with
  | some period => rewrap ⟨.invalidAuctionPeriod, "invalid auction period"⟩ period.validateBasic
  | none => pure ()
  genState.activeAuctions.forM (fun auction =>
    rewrap ⟨.invalidAuction, "auction is invalid"⟩ (auction.validateBasic ext))

def exportGenesis (state : State) : GenesisState :=
  ⟨state.params, state.period, state.auctions.values⟩

/-! ## The tally of the awards -/

/-- The awards of the stored auctions can be added up: no denom is met twice, and they are in
order. -/
def State.Tallied (state : State) : Prop :=
  ∃ awards, tallyAwards state.auctions.values = .ok awards ∧
    awards.Pairwise (fun first second => first.denom ≤ second.denom)

/-- The tally reads nothing but the amounts. -/
theorem tallyAwards_congr {first second : List Auction}
    (same : first.map Auction.amount = second.map Auction.amount) :
    tallyAwards first = tallyAwards second := by
  have onAmounts : ∀ auctions : List Auction, tallyAwards auctions =
      (auctions.map Auction.amount).foldlM (fun awards amount =>
        tallyAward awards ⟨0, amount, none⟩) [] := by
    intro auctions
    rw [foldlM_map]
    rfl
  rw [onAmounts, onAmounts, same]

theorem foldlM_tallyAward_of_sorted {before : List Coin}
    (sorted : auctions.Pairwise (fun first second => first.amount.denom < second.amount.denom))
    (apart : ∀ coin ∈ before, ∀ auction ∈ auctions, coin.denom ≠ auction.amount.denom) :
    auctions.foldlM tallyAward before = .ok (before ++ auctions.map Auction.amount) := by
  induction auctions generalizing before with
  | nil => simp [pure, Except.pure]
  | cons auction rest ih =>
    obtain ⟨firstBefore, restSorted⟩ := pairwise_cons.mp sorted
    have none : amountOf before auction.amount.denom = 0 := by
      simp [amountOf, search_of_absent fun coin member => apart coin member auction mem_cons_self]
    have apartRest : ∀ coin ∈ before ++ [auction.amount], ∀ other ∈ rest,
    coin.denom ≠ other.amount.denom := by
      intro coin member other inRest
      rcases mem_append.mp member with earlier | new
      · exact apart coin earlier other (mem_cons_of_mem _ inRest)
      · obtain rfl := mem_singleton.mp new
        exact (firstBefore other inRest).ne
    rw [foldlM_cons, tallyAward_eq_ok.mpr ⟨none, rfl⟩, ok_bind, ih restSorted apartRest]
    simp

/-- The auctions are listed in the order in which they were opened. -/
theorem RolledOver.values_eq (rolled : RolledOver accounts state next closed) :
    next.auctions.values = opened state.params state.auctionNonce
      (closed.getAllBalances ext.auctionPool) := by
  have numbered := rolled.placed.numbered (by simp [State.Numbered, State.emptied])
  have listed := KVStore.values_pairwise fun id auction found => (numbered id auction found).1.symm
  refine rolled.values_perm.eq_of_pairwise ?_ listed ?_
  · intro first second _ _ less greater
    omega
  · rw [← pairwise_map, opened_ids]
    exact pairwise_lt_range'

theorem opened_sorted (vault : Vault) (account : AccAddress) (params : Params) (nonce : Nat) :
    (opened params nonce (vault.getAllBalances account)).Pairwise
      (fun first second => first.amount.denom < second.amount.denom) := by
  have coins : (vault.getAllBalances account).Pairwise (fun first second =>
      first.denom < second.denom) := by
    simpa only [Vault.getAllBalances, Vault.listed, pairwise_map] using vault.sorted.filter _
  have amounts := opened_amounts params nonce (vault.getAllBalances account)
  rw [← pairwise_map (R := fun first second : Coin => first.denom < second.denom), amounts]
  exact coins.filter _

theorem RolledOver.tallied (rolled : RolledOver accounts state next closed) : next.Tallied := by
  have sorted := opened_sorted closed ext.auctionPool state.params state.auctionNonce
  unfold State.Tallied
  rw [rolled.values_eq]
  refine ⟨_, foldlM_tallyAward_of_sorted sorted (by simp), ?_⟩
  rw [nil_append, pairwise_map]
  exact sorted.imp fun less => less.le

theorem Stepped.tallied (stepped : Stepped accounts state next) (numbered : state.Numbered)
    (tallied : state.Tallied) :
    next.Tallied := by
  cases stepped with
  | coins vault same => exact tallied
  | params params valid => exact tallied
  | bid outbid =>
    unfold State.Tallied
    rw [tallyAwards_congr (outbid.amounts numbered)]
    exact tallied
  | quietBlock within => exact tallied
  | rollOver within rolled => exact rolled.tallied

theorem State.tallied_of_moduleBalanceInvariant
    (passed : state.moduleBalanceInvariant accounts = .ok ()) : state.Tallied := by
  simp only [moduleBalanceInvariant, expectedAuctionModuleBalances, bind_eq_ok, check_eq_ok,
    pure_eq_ok, Unique.exists_iff] at passed
  obtain ⟨-, ⟨awards, tallied, sorted, -⟩, -⟩ := passed
  exact ⟨awards, tallied, sorted⟩

theorem Reachable.tallied (reachable : Reachable accounts state) : state.Tallied := by
  obtain ⟨start, ⟨vault, height, genState, within, started⟩, leads⟩ := reachable
  have tallied := State.tallied_of_moduleBalanceInvariant (initGenesis_eq_ok started).2.2.2.1
  exact (leads.invariant (motive := fun state => Sound accounts state ∧ state.Tallied)
    (fun _ held => held.1.numbered)
    ⟨sound_of_initGenesis started within, tallied⟩ (fun _ _ held stepped =>
      ⟨stepped.sound held.1, stepped.tallied held.1.numbered held.2⟩)).2

/-! ## Importing -/

/-- Auctions with consecutive ids that could be opened now are accepted one after the other. -/
theorem storeAll_succeeds (numbered : state.Numbered)
    (valid : ∀ auction ∈ auctions, auction.validateBasic ext = .ok ())
    (auctionable : ∀ auction ∈ auctions, auction.amount.denom ≠ accounts.mintDenom ∧
      auction.amount.denom ∉ state.params.nonAuctionableTokens)
    (ids : auctions.map Auction.id = List.range' (state.auctionNonce + 1) auctions.length) :
    ∃ imported, auctions.foldlM (fun current auction =>
      orPanic "Unable to store auction" (current.storeAuction accounts auction)) state =
        .ok imported := by
  induction auctions generalizing state with
  | nil => exact ⟨state, rfl⟩
  | cons auction rest ih =>
    obtain ⟨validFirst, validRest⟩ := forall_mem_cons.mp valid
    obtain ⟨⟨foreign, unlisted⟩, auctionableRest⟩ := forall_mem_cons.mp auctionable
    simp only [map_cons, length_cons, range'_succ, List.cons.injEq] at ids
    obtain ⟨isNext, idsRest⟩ := ids
    have absent : state.auctions.get auction.id = none := by
      cases found : state.auctions.get auction.id with
      | none => rfl
      | some other =>
        have within := (numbered _ _ found).2
        omega
    have stored : state.storeAuction accounts auction = .ok { state with
        auctions := state.auctions.set auction.id auction,
        auctionNonce := state.auctionNonce + 1 } := by
      simp [State.storeAuction, validFirst, isNext, State.isDenomAuctionable, foreign, unlisted,
        isNext ▸ absent]
    obtain ⟨imported, storedRest⟩ := ih (numbered.store isNext) validRest auctionableRest idsRest
    refine ⟨imported, ?_⟩
    rw [foldlM_cons, orPanic_eq_ok.mpr stored, ok_bind]
    exact storedRest

theorem State.moduleBalanceInvariant_passes (tallied : state.Tallied)
    (escrow : ∀ denom, state.vault.bank.balances accounts.auction denom =
      (state.auctions.values.map (fun auction => auction.locked accounts denom)).sum) :
    state.moduleBalanceInvariant accounts = .ok () := by
  obtain ⟨awards, added, sorted⟩ := tallied
  simp only [moduleBalanceInvariant, expectedAuctionModuleBalances, bind_eq_ok, check_eq_ok,
    pure_eq_ok, Unique.exists_iff]
  refine ⟨_, ⟨awards, added, sorted, rfl⟩, fun denom _ => ?_⟩
  rw [escrow denom, sum_locked, tallyAwards_eq_ok added]
  simp [map_map, Function.comp_def]

/-- Two numbered stores with the same auctions are the same. -/
theorem auctions_eq_of_perm (numbered : state.Numbered) (numberedNext : next.Numbered)
    (same : next.auctions.values.Perm state.auctions.values) : next.auctions = state.auctions := by
  have found : ∀ {state : State}, state.Numbered → ∀ id auction,
      state.auctions.get id = some auction ↔ auction ∈ state.auctions.values ∧ auction.id = id := by
    intro state numbered id auction
    constructor
    · intro stored
      exact ⟨KVStore.mem_values.mpr ⟨id, stored⟩, (numbered id auction stored).1⟩
    · rintro ⟨member, rfl⟩
      obtain ⟨key, stored⟩ := KVStore.mem_values.mp member
      rwa [← (numbered key auction stored).1] at stored
  refine KVStore.ext_get fun id => Option.ext fun auction => ?_
  rw [found numberedNext, found numbered, same.mem_iff]

/-! ## The round trip -/

/-- The exported document is valid and, on the bank of the state, is read back as the state was. -/
def State.RoundTrips (accounts : Accounts ext) (state : State) (height : Nat) : Prop :=
  (exportGenesis state).validateBasic ext = .ok () ∧
    ∃ imported, initGenesis accounts state.vault height (exportGenesis state) = .ok imported ∧
      imported.auctions = state.auctions ∧ imported.period = state.period ∧
      imported.auctionNonce = state.auctionNonce

/-- What the import asks of a state beyond what every run keeps. -/
structure State.Importable (state : State) (height : Nat) : Prop where
  period : ∀ period ∈ state.period, period.startBlockHeight < period.endBlockHeight ∧
    period.startBlockHeight ≠ 0 ∧
    period.startBlockHeight.val ≤ height + 1 ∧ height ≤ period.endBlockHeight.val
  ids : state.auctions.values.map Auction.id = List.range' 1 state.auctionNonce
  unlisted : ∀ auction ∈ state.auctions.values, auction.amount.denom ∉
    state.params.nonAuctionableTokens

theorem GenesisState.validateBasic_eq_ok {genState : GenesisState} :
    genState.validateBasic ext = .ok () ↔ genState.params.validateBasic = .ok () ∧
      (∀ period ∈ genState.activePeriod, period.startBlockHeight < period.endBlockHeight ∧
        period.startBlockHeight ≠ 0) ∧
      ∀ auction ∈ genState.activeAuctions, auction.validateBasic ext = .ok () := by
  cases running : genState.activePeriod <;>
    simp only [GenesisState.validateBasic, AuctionPeriod.validateBasic, running, bind_eq_ok,
      rewrap_eq_ok, require_eq_ok, forM_eq_ok, Unique.exists_iff] <;>
    simp

theorem State.RoundTrips.importable (trips : state.RoundTrips accounts height)
    (period : AuctionPeriod) (running : state.period = some period) : state.Importable height := by
  obtain ⟨valid, imported, started, -, -, nonce⟩ := trips
  obtain ⟨-, ordered, -⟩ := GenesisState.validateBasic_eq_ok.mp valid
  obtain ⟨-, -, -, -, ⟨active, isActive, within, stored⟩ | ⟨absent, -⟩⟩ := initGenesis_eq_ok started
  · have counted : imported.auctionNonce = state.auctions.values.length := by
      rw [stored.rest]
      exact Nat.zero_add _
    refine ⟨fun period isPeriod => ?_, ?_, fun auction member =>
      (stored.auctionable auction member).2⟩
    · obtain ⟨less, positive⟩ := ordered period isPeriod
      obtain rfl : active = period := Option.some.inj (isActive.symm.trans isPeriod)
      exact ⟨less, positive, within⟩
    · rw [← nonce, counted]
      exact stored.ids
  · rw [show (exportGenesis state).activePeriod = some period from running] at absent
    contradiction

theorem State.Importable.roundTrips (importable : state.Importable height)
    (sound : Sound accounts state)
    (tallied : state.Tallied) : state.RoundTrips accounts height := by
  obtain ⟨period, running⟩ := sound.period
  obtain ⟨less, positive, starts, ends⟩ := importable.period period running
  have counted : state.auctions.values.length = state.auctionNonce := by
    simpa using congrArg List.length importable.ids
  have valid : (exportGenesis state).validateBasic ext = .ok () :=
    GenesisState.validateBasic_eq_ok.mpr ⟨sound.params,
      fun period isPeriod =>
        ⟨(importable.period period isPeriod).1, (importable.period period isPeriod).2.1⟩, sound.valid⟩
  have fresh : State.Numbered ⟨state.vault, state.params, some period, .empty, 0, height⟩ := by
    simp [State.Numbered]
  obtain ⟨imported, storing⟩ := storeAll_succeeds fresh sound.valid
    (fun auction member => ⟨sound.foreign auction member, importable.unlisted auction member⟩)
    (by rw [counted]; exact importable.ids)
  have stored := storedAll_of_foldlM storing
  have auctions : imported.auctions = state.auctions :=
    auctions_eq_of_perm sound.numbered (stored.numbered fresh) (by simpa using stored.values)
  have vault : imported.vault = state.vault := by rw [stored.rest]
  have balanced : imported.moduleBalanceInvariant accounts = .ok () :=
    State.moduleBalanceInvariant_passes (by rwa [State.Tallied, auctions])
      (by simpa only [vault, auctions] using sound.escrow)
  refine ⟨valid, imported, ?_, auctions, ?_, ?_⟩
  · have noNative : imported.validAuctionsInvariant accounts = .ok () := by
      simpa [State.validAuctionsInvariant, auctions] using sound.foreign
    have loading : loadGenesis accounts ⟨state.vault, state.params, none, .empty, 0, height⟩
        (exportGenesis state) = .ok imported := by
      simp only [loadGenesis, exportGenesis, running, State.updateAuctionPeriodUnsafe, bind_eq_ok,
        check_eq_ok, pure_eq_ok, Unique.exists_iff]
      exact ⟨_, ⟨starts, ends, rfl⟩, storing⟩
    simp only [initGenesis, bind_eq_ok, orPanic_eq_ok, pure_eq_ok, Unique.exists_iff]
    exact ⟨sound.params, imported, loading, balanced, noNative, rfl⟩
  · rw [stored.rest, running]
  · rw [stored.rest]
    exact (Nat.zero_add _).trans counted

/-- A reachable state survives export and import exactly when no id has been given up, the period is
a proper one around the import height, and no stored auction is of a token that has become
non-auctionable. -/
theorem roundTrips_iff_importable (reachable : Reachable accounts state) (height : Nat) :
    state.RoundTrips accounts height ↔ state.Importable height := by
  constructor
  · intro trips
    obtain ⟨period, running⟩ := reachable.sound.period
    exact trips.importable period running
  · intro importable
    exact importable.roundTrips reachable.sound reachable.tallied

/-- The condition, as a test. -/
def State.importable (state : State) (height : Nat) : Bool :=
  state.period.all (fun period => decide (period.startBlockHeight < period.endBlockHeight ∧
    period.startBlockHeight ≠ 0 ∧
      period.startBlockHeight.val ≤ height + 1 ∧ height ≤ period.endBlockHeight.val)) &&
    decide (state.auctions.values.map Auction.id = List.range' 1 state.auctionNonce) &&
    state.auctions.values.all (fun auction =>
      decide (auction.amount.denom ∉ state.params.nonAuctionableTokens))

theorem State.importable_eq_true : state.importable height = true ↔ state.Importable height := by
  constructor
  · intro tested
    simp only [importable, Bool.and_eq_true, decide_eq_true_eq, all_eq_true,
      Option.all_eq_true] at tested
    exact ⟨tested.1.1, tested.1.2, tested.2⟩
  · intro importable
    simp only [State.importable, Bool.and_eq_true, decide_eq_true_eq, all_eq_true, Option.all_eq_true]
    exact ⟨⟨importable.period, importable.ids⟩, importable.unlisted⟩

/-- In the first period, with one auction running. -/
theorem first_period_roundTrips :
    ∃ state, Reachable auctionnetAccounts state ∧ state.auctions.values ≠ [] ∧
      state.RoundTrips auctionnetAccounts 11 := by
  obtain ⟨state, reachable, tested⟩ := reachable_of_runTest (by decide)
    (show runTest auctionnetAccounts (vaultWith auctionnet.auctionPool) 10 newGenesis [.endBlock]
      (fun state => decide (state.auctions.values ≠ []) && state.importable 11) =
        true by decide +kernel)
  obtain ⟨running, importable⟩ := Bool.and_eq_true_iff.mp tested
  exact ⟨state, reachable, of_decide_eq_true running,
    (roundTrips_iff_importable reachable 11).mpr (State.importable_eq_true.mp importable)⟩

/-- In the second period the auction put up again has the id 2, and an import expects the id 1. -/
theorem second_period_import_panics :
    ∃ state, Reachable auctionnetAccounts state ∧
      initGenesis auctionnetAccounts state.vault state.height (exportGenesis state) =
        .error (.panic "Unable to store auction") := by
  obtain ⟨state, reachable, tested⟩ := reachable_of_runTest (by decide)
    (show runTest auctionnetAccounts (vaultWith auctionnet.auctionPool) 10 newGenesis
      [.endBlock, .endBlock, .endBlock, .endBlock]
      (fun state => panicOf (initGenesis auctionnetAccounts state.vault state.height
        (exportGenesis state)) = some "Unable to store auction") = true by decide +kernel)
  exact ⟨state, reachable, panicOf_eq_some.mp (of_decide_eq_true tested)⟩

end GravityBridge.Auctions
