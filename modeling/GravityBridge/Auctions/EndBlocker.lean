import GravityBridge.Auctions.Keeper

/-!
# The end of a block in the auction module

When a period is over its auctions are closed and the coins of the pool are put up in
new ones. Afterwards the supplies and the balances are compared with what they were
before, and the chain halts when they did not change as expected.
-/

namespace GravityBridge.Auctions

open Lib.Fallible Lib.ByteString Lib.Store
open GravityBridge.Types Keeper

variable {ext : External} (accounts : Accounts ext)

namespace State

def closeAuction (state : State) (auction : Auction) : Go State :=
  orPanic "unable to close auction"
    (if auction.highestBid.isSome then state.closeAuctionWithWinner accounts auction.id
    else state.closeAuctionNoWinner accounts auction.id)

def endAuctionPeriod (state : State) : Go State := do
  let closed ← state.auctions.values.foldlM (closeAuction accounts) state
  closed.deleteAllAuctions

def scheduleNextAuctionPeriod (state : State) : Go State := do
  let started ← orPanic "unable to create new auction period" state.createNewAuctionPeriod
  orPanic "unable to create auctions for new auction period"
    (started.createAuctionsForAuctionPeriod accounts)

/-- The balances of a winning bidder, by the text of their address. -/
def recordBidder (ext : External) (vault : Vault) (affected : KVStore Bytes (List Coin))
    (auction : Auction) : Go (KVStore Bytes (List Coin)) :=
  match auction.highestBid with
  | some bid => do
      let acc ← orPanic "invalid address" (accAddressFromBech32 ext bid.bidderAddress)
      pure (affected.set bid.bidderAddress (vault.getAllBalances acc))
  | none => pure affected

def affectedAccs (ext : External) (state : State) : Go (KVStore Bytes (List Coin)) :=
  state.auctions.values.foldlM (recordBidder ext state.vault) .empty

end State

/-! ## The assertions -/

def assertSupplyIntegrity (params : Params) (startSupplies endSupplies : List Coin)
    (periodEnded : Bool) : Go Unit :=
  if periodEnded then do
    let difference ← subCoins startSupplies endSupplies
    if ∀ coin ∈ difference, coin.amount = 0 then pure ()
    else match difference with
      | [affectedToken] => do
          check (affectedToken.denom = nativeTokenDenom)
            "auction close affected a token which is NOT the native token"
          check (params.burnWinningBids = true)
            "BurnWinningBids is false but the auction close affected native token supply"
      | _ => panicking "auction close changed the supply of more than just the native token"
  else check (startSupplies = endSupplies) "unexpected supply change during auction module EndBlocker"

/-- The balances of the module and of the pool, before and after. -/
structure Snapshots where
  startModule : List Coin
  startPool : List Coin
  endModule : List Coin
  endPool : List Coin

/-- What is asserted of an auction that was won. -/
def assertAwarded (ext : External) (final : Vault) (affected : KVStore Bytes (List Coin))
    (snapshots : Snapshots) (award : Coin) (bid : Bid) : Go Unit := do
  let startBidderBals := (affected.get bid.bidderAddress).getD []
  let bidder ← orPanic "invalid address" (accAddressFromBech32 ext bid.bidderAddress)
  check (final.bank.balances bidder nativeTokenDenom = amountOf startBidderBals nativeTokenDenom)
    "Auction EndBlocker: Unexpected change to bidder's GRAV"
  let bidderAmountDiff ← subCoin ⟨award.denom, final.bank.balances bidder award.denom⟩
    ⟨award.denom, amountOf startBidderBals award.denom⟩
  check (bidderAmountDiff = award)
    "Auction EndBlocker: Bidder gained another amount than expected by winning auction"
  check (amountOf snapshots.endModule award.denom = amountOf snapshots.startPool award.denom)
    "Auction EndBlocker: Expected auction module to receive auction pool balance"

def assertClosed (ext : External) (final : Vault) (affected : KVStore Bytes (List Coin))
    (snapshots : Snapshots) (auction : Auction) : Go Unit := do
  check (amountOf snapshots.startModule auction.amount.denom = auction.amount.amount)
    "Auction EndBlocker: Expected auction module account to only hold the closing auction amount"
  match auction.highestBid with
  | some bid => assertAwarded ext final affected snapshots auction.amount bid
  | none =>
      check (amountOf snapshots.endModule auction.amount.denom =
          amountOf snapshots.startModule auction.amount.denom + amountOf snapshots.startPool
            auction.amount.denom)
        "Auction EndBlocker: Expected module account to add the pool balance to its own balance"

/-- The auctions of the final state are the new ones. -/
def assertRolledOver (ext : External) (final : State) (closing : List Auction)
    (affected : KVStore Bytes (List Coin)) (snapshots : Snapshots) : Go Unit := do
  closing.forM (assertClosed ext final.vault affected snapshots)
  check (∀ coin ∈ snapshots.endPool, coin.amount = 0)
    "Auction EndBlocker: Expected auction pool to lose all balances at the end of EndBlocker"
  check (amountOf snapshots.endModule nativeTokenDenom = 0)
    "Auction EndBlocker: Expected module to lose its balance of Grav after auctions close"
  check (amountOf snapshots.startModule nativeTokenDenom = highestBids closing)
    "Auction EndBlocker: Expected the module account to hold only the bid amounts in Grav"
  check (∀ auction ∈ final.auctions.values, amountOf snapshots.endModule auction.amount.denom =
    auction.amount.amount)
    "Auction EndBlocker: Expected module account to hold the new auction amount"

def assertUnchanged (affected : KVStore Bytes (List Coin)) (snapshots : Snapshots) : Go Unit := do
  check (affected.values = [])
    "No auctions closed but there were user accounts affected by the auction module"
  check (snapshots.startModule = snapshots.endModule)
    "No auctions closed but the module balance changed during EndBlocker"
  check (snapshots.startPool = snapshots.endPool)
    "No auctions closed but the pool balance changed during EndBlocker"

def assertBalanceChanges (ext : External) (final : State) (periodEnded : Bool)
    (closing : List Auction)
    (affected : KVStore Bytes (List Coin)) (snapshots : Snapshots) : Go Unit :=
  if periodEnded then assertRolledOver ext final closing affected snapshots
  else assertUnchanged affected snapshots

/-! ## The end blocker -/

/-- What the body of the end blocker leaves to the assertions that it deferred. -/
structure Resolution where
  final : State
  closing : List Auction
  affected : KVStore Bytes (List Coin)
  periodEnded : Bool

namespace State

def quiet (state : State) : Resolution := ⟨state, [], .empty, false⟩

def rollOver (state : State) : Go Resolution := do
  let affected ← state.affectedAccs ext
  let ended ← state.endAuctionPeriod accounts
  let final ← ended.scheduleNextAuctionPeriod accounts
  pure ⟨final, state.auctions.values, affected, true⟩

def resolve (state : State) : Go Resolution :=
  if state.params.enabled then do
    let auctionPeriod ← unwrap "nil auction period discovered in EndBlocker" state.period
    if auctionPeriod.endBlockHeight.val ≤ state.height then state.rollOver accounts
      else pure state.quiet
  else pure state.quiet

def snapshots (before after : State) : Snapshots where
  startModule := before.vault.getAllBalances accounts.auction
  startPool := before.vault.getAllBalances ext.auctionPool
  endModule := after.vault.getAllBalances accounts.auction
  endPool := after.vault.getAllBalances ext.auctionPool

/-- A panic of the body stays one whatever the deferred assertions find. -/
def endBlocker (state : State) : Go State := do
  let resolution ← state.resolve accounts
  let final := resolution.final
  assertSupplyIntegrity final.params state.vault.getBankSupplies final.vault.getBankSupplies
    resolution.periodEnded
  assertBalanceChanges ext final resolution.periodEnded resolution.closing resolution.affected
    (state.snapshots accounts final)
  pure final

end State

end GravityBridge.Auctions
