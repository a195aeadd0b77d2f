import GravityBridge.Auctions.Halts

/-!
# Bids for one auction

Every message that bids for one auction is recorded, with the states around it,
along an arbitrary run of the module. The handler refuses a bid below the highest
one, so that an equal bid by another account takes its place.
-/

namespace GravityBridge.Auctions

open Lib.Fallible Lib.ByteString Lib.Store Lib.Runs
open GravityBridge.Types Keeper List

variable {ext : External} (accounts : Accounts ext)

/-! ## The record of a run -/

structure Attempt where
  msg : MsgBid
  before : State
  accepted : Bool
  after : State

/-- The bid for the auction that a label carries. -/
def attempts (id : Nat) (label : Label) (state : State) : List Attempt :=
  match label with
  | .bid msg =>
      if msg.auctionId = id then
        [⟨msg, state, succeeds (state.bid accounts msg), transaction state (state.bid accounts msg)⟩]
      else []
  | _ => []

/-- A step of the module that reports bids for the auction. -/
def recordedStep (id : Nat) (label : Label) (state : State) : List Attempt × Go State :=
  (attempts accounts id label state, (step accounts label state).2)

/-- Runs of the module from a state, with every bid for the auction. -/
def Bidding (id : Nat) (start : State) (log : List Attempt) (state : State) : Prop :=
  Reach (recordedStep accounts id) (· = start) (fun before label _ _ =>
    Allowed accounts before label) log state

/-- The highest bid for the auction when the message came. -/
def Attempt.highestBid (id : Nat) (attempt : Attempt) : Option Bid :=
  (attempt.before.auctions.get id).bind Auction.highestBid

def Attempt.bid (attempt : Attempt) : Bid := ⟨attempt.msg.amount, attempt.msg.bidder⟩

def acceptedOf (log : List Attempt) : List Attempt := log.filter Attempt.accepted

variable {accounts} {state next : State} {msg : MsgBid} {id : Nat} {label : Label}
  {auction : Auction}

/-! ## An accepted bid -/

/-- The previous bidder got the previous bid back, and the new one paid its bid and the fee. -/
structure Exchanged (accounts : Accounts ext) (before after : State) (msg : MsgBid)
    (highest : Option Bid) : Prop where
  refunded : ∀ bid, highest = some bid → ∃ account, accAddressFromBech32 ext bid.bidderAddress =
    .ok account ∧ after.vault.bank.balances account accounts.mintDenom =
      before.vault.bank.balances account accounts.mintDenom + bid.bidAmount.val
  debited : ∃ account, accAddressFromBech32 ext msg.bidder = .ok account ∧
    after.vault.bank.balances account accounts.mintDenom + (msg.amount.val + msg.bidFee.val) =
      before.vault.bank.balances account accounts.mintDenom

theorem State.bid_exchanged (accepted : state.bid accounts msg = .ok next) :
    ∃ auction, state.auctions.get msg.auctionId = some auction ∧
      (∀ bid, auction.highestBid = some bid → bid.bidAmount ≤ msg.amount) ∧
      Exchanged accounts state next msg auction.highestBid := by
  simp only [State.bid, bind_eq_ok, rewrap_eq_ok, fromOption_eq_ok, pure_eq_ok, Unique.exists_iff]
    at accepted
  obtain ⟨-, newBidder, decoded, -, auction, stored, -, previous, surpassed, -, charged, paid,
    released, release, locked, lock, final, updated, passed, rfl⟩ := accepted
  obtain ⟨denoms, -, refunds, spent⟩ := balances_of_assertBidBalanceChanges passed
  change nativeTokenDenom = accounts.mintDenom at denoms
  rw [denoms] at refunds spent
  refine ⟨auction, stored, ?_⟩
  cases highest : auction.highestBid with
  | none => exact ⟨by simp, by simp, newBidder, decoded, spent⟩
  | some bid =>
    obtain ⟨atLeast, -, oldBidder, decodedOld, rfl⟩ := by
      simpa [State.surpass, highest] using surpassed
    refine ⟨?_, ?_, newBidder, decoded, spent⟩
    · rintro _ ⟨⟩
      exact atLeast
    · rintro _ ⟨⟩
      exact ⟨oldBidder, decodedOld, refunds _ rfl⟩

/-! ## The history of an auction -/

theorem auctions_of_transaction {result : Go State}
    (keeps : ∀ after, result = .ok after → after.auctions = state.auctions) :
    (transaction state result).auctions = state.auctions := by
  rcases transaction_cases state result with done | unchanged
  · exact keeps _ done
  · rw [unchanged]

/-- A step that is no bid for the auction leaves it as it is, or closes it. -/
theorem auction_kept (numbered : state.Numbered) (took : (step accounts label state).2 = .ok next)
    (other : ∀ msg, label = .bid msg → msg.auctionId ≠ id) (given : id ≤ state.auctionNonce)
    (found : next.auctions.get id = some auction) : state.auctions.get id = some auction := by
  have same : next.auctions = state.auctions → state.auctions.get id = some auction :=
    fun kept => kept ▸ found
  cases label with
  | deposit sender poolFee =>
    obtain rfl := Except.ok.inj took
    refine same (auctions_of_transaction fun after done => ?_)
    obtain ⟨-, vault, -, rfl⟩ := by simpa [State.depositFee] using done
    rfl
  | bid msg =>
    obtain rfl := Except.ok.inj took
    rcases transaction_cases state (state.bid accounts msg) with done | unchanged
    · obtain ⟨stored, outbid⟩ := State.bid_eq_ok numbered done
      have elsewhere : id ≠ stored.id := (numbered _ _ outbid.stored).1 ▸ (other msg rfl).symm
      rwa [outbid.auctions_eq, KVStore.get_set, if_neg elsewhere] at found
    · rwa [unchanged] at found
  | updateParams authority updates =>
    obtain rfl := Except.ok.inj took
    refine same (auctions_of_transaction fun after done => ?_)
    obtain ⟨-, params, -, -, rfl⟩ := by simpa [State.updateParamsProposal] using done
    rfl
  | endBlock =>
    simp only [step, bind_eq_ok, pure_eq_ok] at took
    obtain ⟨final, passed, rfl⟩ := took
    rcases State.endBlocker_eq_ok numbered passed with rfl | ⟨closed, rolled⟩
    · exact found
    · exact absurd (rolled.id_above found) (not_lt.mpr given)
  | elsewhere vault =>
    obtain rfl := Except.ok.inj took
    exact found

/-- No accepted bid equals the highest bid before it. -/
def Untied (id : Nat) (log : List Attempt) : Prop :=
  ∀ attempt ∈ log, attempt.accepted = true → ∀ bid, attempt.highestBid id = some bid →
    bid.bidAmount ≠ attempt.msg.amount

/-- What one attempt did. -/
structure Attempt.Handled (accounts : Accounts ext) (id : Nat) (attempt : Attempt) : Prop where
  atLeast : attempt.accepted = true → ∀ bid, attempt.highestBid id = some bid →
    bid.bidAmount ≤ attempt.msg.amount
  exchanged : attempt.accepted = true →
    Exchanged accounts attempt.before attempt.after attempt.msg (attempt.highestBid id)
  unchanged : attempt.accepted = false → attempt.after = attempt.before

/-- The highest bid is the last one that was accepted, and bids grow as long as there is no tie. -/
structure History (accounts : Accounts ext) (id : Nat) (initial : Option Bid) (log : List Attempt)
    (state : State) : Prop where
  sound : Sound accounts state
  given : id ≤ state.auctionNonce
  handled : ∀ attempt ∈ log, attempt.Handled accounts id
  highest : ∀ auction, state.auctions.get id = some auction →
    auction.highestBid = ((acceptedOf log).getLast?.map Attempt.bid).or initial
  growing : Untied id log →
    (acceptedOf log).Pairwise (fun first second => first.msg.amount < second.msg.amount)

theorem Untied.front {log rest : List Attempt} (untied : Untied id (log ++ rest)) : Untied id log :=
  fun attempt member => untied attempt (mem_append_left _ member)

variable {initial : Option Bid} {log : List Attempt}

section

variable (history : History accounts id initial log state)

include history

theorem History.bid (own : msg.auctionId = id)
    (accepted : state.bid accounts msg = .ok next) (sound : Sound accounts next) :
    History accounts id initial (log ++ [⟨msg, state, true, next⟩]) next := by
  subst own
  obtain ⟨auction, stored, atLeast, exchanged⟩ := State.bid_exchanged accepted
  obtain ⟨again, outbid⟩ := State.bid_eq_ok history.sound.numbered accepted
  obtain rfl : auction = again := Option.some.inj (stored.symm.trans outbid.stored)
  have previous : Attempt.highestBid msg.auctionId ⟨msg, state, true, next⟩ = auction.highestBid := by
    simp [Attempt.highestBid, stored]
  have extended : acceptedOf (log ++ [⟨msg, state, true, next⟩]) =
      acceptedOf log ++ [⟨msg, state, true, next⟩] := by
    simp [acceptedOf]
  refine ⟨sound, ?_, ?_, fun current found => ?_, fun untied => ?_⟩
  · rw [outbid.rest]
    exact history.given
  · intro attempt member
    rcases mem_append.mp member with before | last
    · exact history.handled attempt before
    · obtain rfl := mem_singleton.mp last
      exact ⟨fun _ => previous ▸ atLeast, fun _ => previous ▸ exchanged, by simp⟩
  · rw [outbid.auctions_eq, KVStore.get_set, if_pos (history.sound.numbered _ _ stored).1.symm]
      at found
    obtain rfl := Option.some.inj found
    simp [extended, Attempt.bid]
  · rw [extended]
    have before := history.growing untied.front
    refine pairwise_append.mpr ⟨before, pairwise_singleton _ _, fun earlier member new isNew => ?_⟩
    obtain rfl := mem_singleton.mp isNew
    rcases eq_nil_or_concat (acceptedOf log) with none | ⟨front, last, listed⟩
    · simp [none] at member
    · -- the highest bid is the last one, and the bids before that one were lower
      have highest : auction.highestBid = some last.bid := by
        rw [history.highest auction stored, listed]
        simp
      have larger : last.msg.amount < msg.amount :=
        lt_of_le_of_ne (atLeast _ highest) (untied _ (by simp) rfl _ (previous.trans highest))
      rw [listed, concat_eq_append] at before member
      rcases mem_append.mp member with inFront | isLast
      · exact ((pairwise_append.mp before).2.2 earlier inFront last (by simp)).trans larger
      · obtain rfl := mem_singleton.mp isLast
        exact larger

theorem History.rejected :
    History accounts id initial (log ++ [⟨msg, state, false, state⟩]) state := by
  have same : acceptedOf (log ++ [⟨msg, state, false, state⟩]) = acceptedOf log := by
    simp [acceptedOf]
  refine ⟨history.sound, history.given, fun attempt member => ?_, ?_, fun untied => ?_⟩
  · rcases mem_append.mp member with before | last
    · exact history.handled attempt before
    · obtain rfl := mem_singleton.mp last
      exact ⟨by simp, by simp, fun _ => rfl⟩
  · rw [same]
    exact history.highest
  · rw [same]
    exact history.growing untied.front

/-- Steps that are no bid for the auction. -/
theorem History.other
    (took : (step accounts label state).2 = .ok next)
    (other : ∀ msg, label = .bid msg → msg.auctionId ≠ id)
    (stepped : Stepped accounts state next) : History accounts id initial log next where
  sound := stepped.sound history.sound
  given := history.given.trans (stepped.retains history.sound.numbered).nonce
  handled := history.handled
  highest auction found :=
    history.highest auction (auction_kept history.sound.numbered took other history.given found)
  growing := history.growing

theorem History.step {emitted : List Attempt}
    (took : recordedStep accounts id label state = (emitted, .ok next))
    (permitted : Allowed accounts state label) :
    History accounts id initial (log ++ emitted) next := by
  obtain ⟨rfl, ran⟩ := Prod.mk.inj took
  have stepped := (stepped_of_step history.sound.numbered (Prod.ext rfl ran) permitted).2
  cases label with
  | bid msg =>
    by_cases own : msg.auctionId = id
    · obtain rfl := Except.ok.inj ran
      simp only [attempts, if_pos own]
      cases result : state.bid accounts msg with
      | ok after =>
        rw [result] at stepped
        exact history.bid own result (stepped.sound history.sound)
      | error fault => exact history.rejected
    · simp only [attempts, if_neg own, append_nil]
      refine history.other ran ?_ stepped
      rintro _ ⟨⟩
      exact own
  | deposit sender poolFee => simpa [attempts] using history.other ran (by simp) stepped
  | updateParams authority updates => simpa [attempts] using history.other ran (by simp) stepped
  | endBlock => simpa [attempts] using history.other ran (by simp) stepped
  | elsewhere vault => simpa [attempts] using history.other ran (by simp) stepped

end

theorem Bidding.history {start : State} (bidding : Bidding accounts id start log state)
    (sound : Sound accounts start) (stored : start.auctions.get id = some auction) :
    History accounts id auction.highestBid log state := by
  refine Reach.invariant (motive := fun log state =>
    History accounts id auction.highestBid log state) ?_ ?_ bidding
  · rintro _ rfl
    refine ⟨sound, (sound.numbered _ _ stored).2, by simp, fun other found => ?_,
      by simp [acceptedOf]⟩
    obtain rfl := Option.some.inj (stored.symm.trans found)
    simp [acceptedOf]
  · intro _ _ _ _ _ _ history took permitted
    exact history.step took permitted

/-! ## Better and better bids -/

/-- An accepted bid is above the highest one, which is refunded, and its bidder pays it with the
fee. -/
structure Attempt.Surpasses (accounts : Accounts ext) (id : Nat) (attempt : Attempt) : Prop where
  above : ∀ bid, attempt.highestBid id = some bid → bid.bidAmount < attempt.msg.amount
  exchanged : Exchanged accounts attempt.before attempt.after attempt.msg (attempt.highestBid id)

/-- Closing the auction awards it to the bidder of the attempt. -/
def Attempt.Wins (accounts : Accounts ext) (id : Nat) (attempt : Attempt)
    (state closed : State) : Prop :=
  ∃ auction account taken, state.auctions.get id = some auction ∧
    accAddressFromBech32 ext attempt.msg.bidder = .ok account ∧
    state.takeBid accounts ⟨accounts.mintDenom, attempt.msg.amount.val⟩ = .ok taken ∧
    taken.awardAuction accounts account auction.amount = .ok closed

/-- The auction only got better: its winner is the bidder of the strictly highest accepted bid. -/
structure Improves (accounts : Accounts ext) (id : Nat) (log : List Attempt)
    (state : State) : Prop where
  accepted : ∀ attempt ∈ log, attempt.accepted = true → attempt.Surpasses accounts id
  rejected : ∀ attempt ∈ log, attempt.accepted = false → attempt.after.vault = attempt.before.vault
  winner : ∀ closed, acceptedOf log ≠ [] → state.closeAuctionWithWinner accounts id = .ok closed →
    ∃ others won, acceptedOf log = others ++ [won] ∧ won.Wins accounts id state closed ∧
      ∀ other ∈ others, other.msg.amount < won.msg.amount

theorem History.wins {closed : State} {others : List Attempt} {won : Attempt}
    (history : History accounts id initial log state) (listed : acceptedOf log = others ++ [won])
    (closing : state.closeAuctionWithWinner accounts id = .ok closed) :
    won.Wins accounts id state closed := by
  simp only [State.closeAuctionWithWinner, State.requireEnabled, bind_eq_ok, require_eq_ok,
    fromOption_eq_ok, unwrap_eq_ok, orPanic_eq_ok, Unique.exists_iff] at closing
  obtain ⟨-, auction, stored, bid, highest, account, decoded, taken, took, awarded⟩ := closing
  obtain rfl : won.bid = bid := by
    rw [history.highest auction stored, listed] at highest
    simpa using highest
  exact ⟨auction, account, taken, stored, decoded, took, awarded⟩

/-- An auction only improves along a run exactly when no accepted bid equals the highest bid before
it. -/
theorem auction_improves_iff {start : State} {auction : Auction}
    (reachable : Reachable accounts start)
    (stored : start.auctions.get id = some auction) (bidding : Bidding accounts id start log state) :
    Improves accounts id log state ↔ Untied id log := by
  have history := bidding.history reachable.sound stored
  constructor
  · intro improves attempt member accepted bid highest
    exact ((improves.accepted attempt member accepted).above bid highest).ne
  · intro untied
    refine ⟨fun attempt member accepted => ⟨fun bid highest => ?_, ?_⟩,
      fun attempt member refused => ?_, fun closed some closing => ?_⟩
    · exact lt_of_le_of_ne ((history.handled attempt member).atLeast accepted bid highest)
        (untied attempt member accepted bid highest)
    · exact (history.handled attempt member).exchanged accepted
    · rw [(history.handled attempt member).unchanged refused]
    · obtain ⟨others, won, listed⟩ := (List.eq_nil_or_concat (acceptedOf log)).resolve_left some
      rw [List.concat_eq_append] at listed
      have growing := history.growing untied
      rw [listed] at growing
      exact ⟨others, won, listed, history.wins listed closing,
        fun other member => (List.pairwise_append.mp growing).2.2 other member won (by simp)⟩

/-! ## Two bidders -/

/-- A test of the record that a genesis document and some steps lead to. -/
def biddingTest (accounts : Accounts ext) (vault : Vault) (height : Nat) (genState : GenesisState)
    (id : Nat) (labels : List Label) (test : List Attempt → State → Bool) : Bool :=
  match initGenesis accounts vault height genState with
  | .ok start => (start.auctions.get id).isSome &&
      (run (recordedStep accounts id) (fun state label _ after =>
        permits accounts state label [] after) labels
        start).any (fun result => test result.1 result.2)
  | .error _ => false

theorem bidding_of_biddingTest {vault : Vault} {height : Nat} {genState : GenesisState}
    {labels : List Label} {test : List Attempt → State → Bool} (within : height < 2 ^ 63)
    (passed : biddingTest accounts vault height genState id labels test = true) :
    ∃ start auction log state, Reachable accounts start ∧ start.auctions.get id = some auction ∧
      Bidding accounts id start log state ∧ test log state = true := by
  unfold biddingTest at passed
  split at passed
  · rename_i start started
    obtain ⟨listed, ran⟩ := Bool.and_eq_true_iff.mp passed
    obtain ⟨auction, stored⟩ := Option.isSome_iff_exists.mp listed
    cases result : run (recordedStep accounts id) (fun state label _ after =>
      permits accounts state label [] after) labels start with
    | none => simp [result] at ran
    | some reached =>
      have first : Bidding accounts id start [] start := .start rfl
      have bidding : Bidding accounts id start ([] ++ reached.1) reached.2 :=
        reach_of_run (fun state label _ after => allowed_of_permits state label [] after) first result
      exact ⟨start, auction, reached.1, reached.2,
        ⟨start, ⟨vault, height, genState, within, started⟩, .refl start⟩, stored, bidding,
        by simpa [result] using ran⟩
  · contradiction

/-- Two users with native tokens, and an amount of another token in the pool. -/
def biddersVault : Vault where
  bank := ((Bank.empty.mint (ascii "alice") ⟨nativeTokenDenom, 1000⟩).mint (ascii "bob")
    ⟨nativeTokenDenom, 1000⟩).mint auctionnet.auctionPool ⟨ascii "uatom", 7⟩
  denoms := [ascii "uatom", nativeTokenDenom]
  sorted := (vaultWith []).sorted
  valid := (vaultWith []).valid
  covers := by
    intro denom supplied
    by_contra unknown
    simp only [List.mem_cons, List.not_mem_nil, or_false, not_or] at unknown
    simp [Bank.empty, Coin.amountOf, unknown] at supplied

/-- Both bid for the first auction, with a fee of one. -/
def bothBid (first second : U64) : List Label :=
  [.bid ⟨1, ascii "gravity1alice", first, 1⟩, .bid ⟨1, ascii "gravity1bob", second, 1⟩]

/-- The amounts of the accepted bids, and of the highest bids before them. -/
def acceptedAmounts (id : Nat) (log : List Attempt) : List (Nat × Option Nat) :=
  (acceptedOf log).map (fun attempt => (attempt.msg.amount.val,
    (attempt.highestBid id).map (fun bid => bid.bidAmount.val)))

theorem untied_iff_amounts : Untied id log ↔
    ∀ entry ∈ acceptedAmounts id log, entry.2 ≠ some entry.1 := by
  simp only [Untied, acceptedAmounts, acceptedOf, forall_mem_map, mem_filter, and_imp, ne_eq,
    Option.map_eq_some_iff, not_exists, not_and, Fin.val_inj]

theorem higher_bid_improves : ∃ start auction log state, Reachable auctionnetAccounts start ∧
    start.auctions.get 1 = some auction ∧ Bidding auctionnetAccounts 1 start log state ∧
    acceptedAmounts 1 log = [(100, none), (150, some 100)] ∧
      Improves auctionnetAccounts 1 log state := by
  obtain ⟨start, auction, log, state, reachable, stored, bidding, tested⟩ :=
    bidding_of_biddingTest (by decide)
    (show biddingTest auctionnetAccounts biddersVault 10 newGenesis 1 (bothBid 100 150)
      (fun log _ => acceptedAmounts 1 log = [(100, none), (150, some 100)]) = true by decide +kernel)
  have amounts := of_decide_eq_true tested
  have untied : Untied 1 log := by
    rw [untied_iff_amounts, amounts]
    decide
  exact ⟨start, auction, log, state, reachable, stored, bidding, amounts,
    (auction_improves_iff reachable stored bidding).mpr untied⟩

/-- The second bid equals the first and takes its place. -/
theorem equal_bid_accepted : ∃ start auction log state, Reachable auctionnetAccounts start ∧
    start.auctions.get 1 = some auction ∧ Bidding auctionnetAccounts 1 start log state ∧
    acceptedAmounts 1 log = [(100, none), (100, some 100)] ∧
    (state.auctions.get 1).bind Auction.highestBid = some ⟨100, ascii "gravity1bob"⟩ ∧
    ¬ Improves auctionnetAccounts 1 log state := by
  obtain ⟨start, auction, log, state, reachable, stored, bidding, tested⟩ :=
    bidding_of_biddingTest (by decide)
    (show biddingTest auctionnetAccounts biddersVault 10 newGenesis 1 (bothBid 100 100)
      (fun log state => acceptedAmounts 1 log = [(100, none), (100, some 100)] ∧
        (state.auctions.get 1).bind Auction.highestBid = some ⟨100, ascii "gravity1bob"⟩) =
          true by decide +kernel)
  obtain ⟨amounts, displaced⟩ := of_decide_eq_true tested
  refine ⟨start, auction, log, state, reachable, stored, bidding, amounts, displaced,
    fun improves => ?_⟩
  -- the second entry says that the bid of one hundred met a highest bid of one hundred
  obtain ⟨attempt, member, entry⟩ : ∃ attempt ∈ acceptedOf log, (attempt.msg.amount.val,
      (attempt.highestBid 1).map (fun bid => bid.bidAmount.val)) = (100, some 100) :=
    List.mem_map.mp (amounts ▸ by simp : (100, some 100) ∈ acceptedAmounts 1 log)
  obtain ⟨amount, highest⟩ := Prod.mk.inj entry
  obtain ⟨bid, found, value⟩ := Option.map_eq_some_iff.mp highest
  obtain ⟨inLog, accepted⟩ := List.mem_filter.mp member
  have above := (improves.accepted attempt inLog accepted).above bid found
  rw [Fin.lt_def] at above
  omega

end GravityBridge.Auctions
