import GravityBridge.Auctions.EndBlocker
import GravityBridge.Lib.Runs

/-!
# Messages of the auction module, and its runs

Users bid, fees are deposited in the pool, proposals change the parameters and blocks
end. A message that fails or panics leaves the state as it was; a panic at the end of a
block halts the chain, so that a run does not go on behind it.
-/

namespace GravityBridge.Auctions

open Lib.Fallible Lib.ByteString Lib.Runs
open GravityBridge.Types Keeper

variable {ext : External} (accounts : Accounts ext)

/-! ## Bids -/

structure MsgBid where
  auctionId : Nat
  bidder : Bytes
  amount : U64
  bidFee : U64
  deriving DecidableEq, Repr

/-- How much of the native token an account holds. -/
def State.grav (state : State) (account : AccAddress) : Coin :=
  ⟨nativeTokenDenom, state.vault.bank.balances account nativeTokenDenom⟩

/-- `assertBalanceChanges` of a successful bid; the previous bidder comes with the bid to return. -/
def assertBidBalanceChanges (before after : State) (previous : Option (AccAddress × Coin))
    (newBidder : AccAddress) (newBid bidFee : Coin) : Go Unit := do
  let modDiff ← subCoin (after.grav accounts.auction) (before.grav accounts.auction)
  match previous with
  | some (oldBidder, oldBid) => do
      let oldBidderDiff ← subCoin (after.grav oldBidder) (before.grav oldBidder)
      check (oldBidderDiff = oldBid) "Expected old bidder to receive their locked Grav"
      let outbidAmount ← subCoin newBid oldBid
      check (modDiff = outbidAmount) "Expected module Grav balance to increase by new bid - old bid"
  | none => check (modDiff = newBid) "Expected module Grav balance to increase by new bid"
  let newBidderDiff ← subCoin (before.grav newBidder) (after.grav newBidder)
  let spent ← addCoin newBid bidFee
  check (newBidderDiff = spent) "Expected new bidder Grav balance to decrease by bid + fee amount"

namespace State

/-- The bidder to be refunded, once the new bid is found to be acceptable. -/
def surpass (ext : External) (mintDenom : Denom) (msg : MsgBid) :
    Option Bid → Go (Option (AccAddress × Coin))
  | none => pure none
  | some highestBid => do
      require (highestBid.bidAmount ≤ msg.amount) ⟨.bidTooLow, "bid must surpass current highest"⟩
      require (msg.bidder ≠ highestBid.bidderAddress)
        ⟨.invalidBid, "bidding again as the current highest bidder is not allowed"⟩
      let oldBidderAcc ← orPanic "invalid address" (accAddressFromBech32 ext highestBid.bidderAddress)
      pure (some (oldBidderAcc, ⟨mintDenom, highestBid.bidAmount.val⟩))

def releaseBid (previous : Option (AccAddress × Coin)) (state : State) : Go State :=
  match previous with
  | some (oldBidder, oldBid) => state.returnPreviousBidAmount accounts oldBidder oldBid
  | none => pure state

def bid (msg : MsgBid) (state : State) : Go State := do
  state.requireEnabled
  let newBidderAcc ← rewrap ⟨.plain, "invalid bidder"⟩ (accAddressFromBech32 ext msg.bidder)
  require (state.params.minBidFee ≤ msg.bidFee) ⟨.invalidBid, "bid fee is too small"⟩
  let currentAuction ← fromOption ⟨.auctionNotFound, "no active auction with id"⟩
    (state.auctions.get msg.auctionId)
  check (currentAuction.amount.denom ≠ accounts.mintDenom) "Bid for auction of the native token"
  let previous ← surpass ext accounts.mintDenom msg currentAuction.highestBid
  require (msg.amount.val + msg.bidFee.val ≤
    state.vault.bank.balances newBidderAcc accounts.mintDenom)
    ⟨.insufficientFunds, "insufficient balance"⟩
  let bidFee : Coin := ⟨accounts.mintDenom, msg.bidFee.val⟩
  let vault ← state.vault.sendCoins newBidderAcc ext.feeCollector bidFee
  let released ← releaseBid accounts previous { state with vault := vault }
  let locked ← released.lockBidAmount accounts newBidderAcc ⟨accounts.mintDenom, msg.amount.val⟩
  let final ← locked.updateHighestBidder ext currentAuction.id ⟨msg.amount, msg.bidder⟩
  assertBidBalanceChanges accounts state final previous newBidderAcc ⟨nativeTokenDenom,
    msg.amount.val⟩ bidFee
  pure final

/-! ## Deposits and parameters -/

/-- The share of the auction pool in a chain fee. -/
def depositFee (sender : AccAddress) (poolFee : Coin) (state : State) : Go State := do
  require (state.isDenomAuctionable accounts poolFee.denom = true) ⟨.plain, "not auctionable"⟩
  let vault ← state.vault.sendCoins sender ext.auctionPool poolFee
  pure { state with vault := vault }

end State

/-- An entry of `ParamUpdates` with its value already parsed. -/
inductive ParamUpdate where
  | auctionLength (value : U64)
  | minBidFee (value : U64)
  | nonAuctionableTokens (value : List Denom)
  | burnWinningBids (value : Bool)
  | enabled (value : Bool)
  | malformed
  | unknownKey
  deriving DecidableEq, Repr

def Params.update (params : Params) : ParamUpdate → Go Params
  | .auctionLength value => pure { params with auctionLength := value }
  | .minBidFee value => pure { params with minBidFee := value }
  | .nonAuctionableTokens value => pure { params with nonAuctionableTokens := value }
  | .burnWinningBids value => pure { params with burnWinningBids := value }
  | .enabled value => pure { params with enabled := value }
  | .malformed => fail ⟨.invalidRequest, "invalid value"⟩
  | .unknownKey => fail ⟨.unknownRequest, "unknown parameter key"⟩

def State.updateParamsProposal (authority : Bytes) (updates : List ParamUpdate) (state : State) :
    Go State := do
  require (accounts.authority = authority) ⟨.unauthorized, "invalid authority"⟩
  let params ← updates.foldlM Params.update state.params
  params.validateBasic
  pure { state with params := params }

/-! ## Runs -/

inductive Label where
  | deposit (sender : AccAddress) (poolFee : Coin)
  | bid (msg : MsgBid)
  | updateParams (authority : Bytes) (updates : List ParamUpdate)
  | endBlock
  /-- Anything else that happens on the chain. -/
  | elsewhere (vault : Vault)

def step (label : Label) (state : State) : List Unit × Go State :=
  match label with
  | .deposit sender poolFee =>
    ([], .ok (transaction state (state.depositFee accounts sender poolFee)))
  | .bid msg => ([], .ok (transaction state (state.bid accounts msg)))
  | .updateParams authority updates =>
    ([], .ok (transaction state (state.updateParamsProposal accounts authority updates)))
  | .endBlock => ([], do
      let final ← state.endBlocker accounts
      pure { final with height := final.height + 1 })
  | .elsewhere vault => ([], .ok { state with vault := vault })

/-- The module's account signs no messages, no other module takes coins from it or gives it any, and
heights are signed 64-bit integers. -/
def Allowed (state : State) (label : Label) : Prop :=
  match label with
  | .deposit sender _ => sender ≠ accounts.auction
  | .endBlock => state.height + 1 < 2 ^ 63
  | .elsewhere vault =>
      ∀ denom, vault.bank.balances accounts.auction denom =
        state.vault.bank.balances accounts.auction denom
  | _ => True

/-- A run of the module leads from one state to another. -/
def Leads (start state : State) : Prop :=
  ∃ trace, Reach (step accounts) (· = start) (fun before label _ _ => Allowed accounts before label)
    trace state

/-- The state that a genesis document is turned into. -/
def Started (state : State) : Prop :=
  ∃ vault height genState, height < 2 ^ 63 ∧ initGenesis accounts vault height genState = .ok state

def Reachable (state : State) : Prop := ∃ start, Started accounts start ∧ Leads accounts start state

end GravityBridge.Auctions
