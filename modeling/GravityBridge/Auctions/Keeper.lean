import GravityBridge.Keeper.Bank
import GravityBridge.Lib.Search
import GravityBridge.Lib.Store

/-!
# The keeper of the auction module

Fees paid in tokens that can be auctioned are collected in a pool. Every period the
tokens of the pool are put up for the native token: the module account holds what the
running auctions award and the highest bid of each. When the period ends the winning
bids are burned or go to the community pool, and what nobody bid for returns to the pool.
-/

namespace GravityBridge.Auctions

open Lib.Fallible Lib.ByteString Lib.Store Lib.Search
open GravityBridge.Types Keeper

/-! ## Coins -/

/-- `Coins.AmountOf`, which searches the coins by halves. -/
def amountOf (coins : List Coin) (denom : Denom) : Nat :=
  (search Coin.denom denom coins).elim 0 Coin.amount

/-- `Coin.Sub`. -/
def subCoin (coin other : Coin) : Go Coin := do
  check (coin.denom = other.denom) "invalid coin denominations"
  check (other.amount ≤ coin.amount) "negative coin amount"
  pure ⟨coin.denom, coin.amount - other.amount⟩

/-- `Coin.Add`. -/
def addCoin (coin other : Coin) : Go Coin := do
  check (coin.denom = other.denom) "invalid coin denominations"
  pure ⟨coin.denom, coin.amount + other.amount⟩

/-- `Coins.Sub` on coins that list every denom once. -/
def subCoins (coins others : List Coin) : Go (List Coin) := do
  check (∀ other ∈ others, other.amount ≤ amountOf coins other.denom) "negative coin amount"
  pure ((coins.map (fun coin => ⟨coin.denom, coin.amount - amountOf others coin.denom⟩)).filter
    (·.amount ≠ 0))

/-- The bank together with the denoms in circulation, in the order in which it lists them. -/
structure Vault where
  bank : Bank
  denoms : List Denom
  sorted : denoms.Pairwise (· < ·)
  valid : ∀ denom ∈ denoms, sdkValidateDenom denom = true
  covers : ∀ denom, bank.supply denom ≠ 0 → denom ∈ denoms

namespace Vault

def sendCoins (vault : Vault) (sender receiver : AccAddress) (coin : Coin) : Go Vault :=
  if held : coin.amount ≤ vault.bank.balances sender coin.denom then
    .ok { vault with bank := vault.bank.move sender receiver coin held, covers := vault.covers }
  else fail ⟨.insufficientFunds, "spendable balance is smaller than the amount"⟩

def burnCoins (vault : Vault) (moduleAccount : AccAddress) (coin : Coin) : Go Vault :=
  if held : coin.amount ≤ vault.bank.balances moduleAccount coin.denom then
    .ok { vault with
      bank := vault.bank.burn moduleAccount coin held
      covers := fun denom left => vault.covers denom fun none => left (by simp [none]) }
  else fail ⟨.insufficientFunds, "spendable balance is smaller than the amount"⟩

def sendCoinsFromModuleToAccount (ext : External) (vault : Vault)
    (moduleAccount receiver : AccAddress) (coin : Coin) : Go Vault := do
  require (ext.blockedAddr receiver = false) ⟨.unauthorized, "is not allowed to receive funds"⟩
  vault.sendCoins moduleAccount receiver coin

/-- The denoms that have an amount, each with it. -/
def listed (vault : Vault) (amount : Denom → Nat) : List Coin :=
  (vault.denoms.filter (fun denom => amount denom ≠ 0)).map (fun denom => ⟨denom, amount denom⟩)

def getAllBalances (vault : Vault) (account : AccAddress) : List Coin :=
  vault.listed (vault.bank.balances account)

def getBankSupplies (vault : Vault) : List Coin := vault.listed vault.bank.supply

end Vault

/-! ## State -/

/-- `config.NativeTokenDenom`. -/
def nativeTokenDenom : Denom := ascii "ugraviton"

structure Params where
  auctionLength : U64
  minBidFee : U64
  nonAuctionableTokens : List Denom
  burnWinningBids : Bool
  enabled : Bool
  deriving DecidableEq, Repr

def Params.validateBasic (params : Params) : Go Unit := do
  require (params.auctionLength ≠ 0) ⟨.invalidParams, "auction length must be positive"⟩
  require (∀ token ∈ params.nonAuctionableTokens, sdkValidateDenom token = true)
    ⟨.invalidParams, "string is invalid"⟩
  require (nativeTokenDenom ∈ params.nonAuctionableTokens)
    ⟨.invalidParams, "non auctionable tokens must contain the native token"⟩

structure AuctionPeriod where
  startBlockHeight : U64
  endBlockHeight : U64
  deriving DecidableEq, Repr

structure Bid where
  bidAmount : U64
  bidderAddress : Bytes
  deriving DecidableEq, Repr

structure Auction where
  id : Nat
  amount : Coin
  highestBid : Option Bid
  deriving DecidableEq, Repr

/-- The counter of the auctions is a 64-bit number in the source; here it does not wrap. -/
structure State where
  vault : Vault
  params : Params
  period : Option AuctionPeriod
  auctions : KVStore Nat Auction
  auctionNonce : Nat
  height : Nat

/-- The module's own account, and what other modules are configured with. -/
structure Accounts (ext : External) where
  auction : AccAddress
  mintDenom : Denom
  /-- The account whose proposals may change the parameters. -/
  authority : Bytes
  auction_ne_pool : auction ≠ ext.auctionPool
  auction_ne_distribution : auction ≠ ext.distributionModule
  pool_ne_distribution : ext.auctionPool ≠ ext.distributionModule
  blocked_auction : ext.blockedAddr auction = true
  blocked_pool : ext.blockedAddr ext.auctionPool = true

variable {ext : External} (accounts : Accounts ext)

def Bid.validateBasic (ext : External) (bid : Bid) : Go Unit := do
  require (bid.bidAmount ≠ 0) ⟨.invalidBid, "bid amount must be positive"⟩
  let _ ← rewrap ⟨.invalidBid, "invalid bidder"⟩ (accAddressFromBech32 ext bid.bidderAddress)

def Auction.validateBasic (ext : External) (auction : Auction) : Go Unit := do
  require (auction.amount.isValid = true) ⟨.invalidAuction, "invalid amount"⟩
  match auction.highestBid with
  | some bid => rewrap ⟨.invalidAuction, "invalid bid"⟩ (bid.validateBasic ext)
  | none => pure ()

namespace State

/-! ## Moving coins -/

def requireEnabled (state : State) : Go Unit :=
  require (state.params.enabled = true) ⟨.disabledModule, "Auction Module is not currently enabled"⟩

def sendToAuctionPool (coin : Coin) (state : State) : Go State := do
  state.requireEnabled
  let vault ← state.vault.sendCoins accounts.auction ext.auctionPool coin
  pure { state with vault := vault }

def removeFromAuctionPool (coin : Coin) (state : State) : Go State := do
  require (coin.denom ≠ nativeTokenDenom)
    ⟨.invalidAuction, "not allowed to collect community pool native token balance"⟩
  state.requireEnabled
  let vault ← state.vault.sendCoins ext.auctionPool accounts.auction coin
  pure { state with vault := vault }

/-- `SendCoinsFromModuleToAccount` from the account of the module, which awards an auction and
returns a bid that was surpassed. -/
def payFromModule (receiver : AccAddress) (amount : Coin) (state : State) : Go State := do
  state.requireEnabled
  let vault ← state.vault.sendCoinsFromModuleToAccount ext accounts.auction receiver amount
  pure { state with vault := vault }

def returnPreviousBidAmount (recipient : AccAddress) (amount : Coin) (state : State) : Go State :=
  state.payFromModule accounts recipient amount

def awardAuction (bidder : AccAddress) (amount : Coin) (state : State) : Go State :=
  state.payFromModule accounts bidder amount

def lockBidAmount (sender : AccAddress) (amount : Coin) (state : State) : Go State := do
  state.requireEnabled
  let vault ← state.vault.sendCoins sender accounts.auction amount
  pure { state with vault := vault }

/-- The coins of the community pool are in the account of the distribution module. -/
def sendFromModuleAccountToCommunityPool (ext : External) (moduleAccount : AccAddress) (coin : Coin)
    (state : State) : Go State := do
  let vault ← state.vault.sendCoins moduleAccount ext.distributionModule coin
  pure { state with vault := vault }

def isDenomAuctionable (state : State) (denom : Denom) : Bool :=
  decide (denom ≠ accounts.mintDenom) && decide (denom ∉ state.params.nonAuctionableTokens)

/-! ## Auctions -/

/-- The amount of an updated auction is the stored one, so that `UpdateAuction` does not refuse it. -/
def updateHighestBidder (ext : External) (auctionId : Nat) (highestBidder : Bid) (state : State) :
    Go State := do
  let auction ← fromOption ⟨.auctionNotFound, "Auction not found"⟩ (state.auctions.get auctionId)
  let updated : Auction := { auction with highestBid := some highestBidder }
  updated.validateBasic ext
  state.requireEnabled
  pure { state with auctions := state.auctions.set auctionId updated }

def storeAuction (auction : Auction) (state : State) : Go State := do
  auction.validateBasic ext
  require (auction.id = state.auctionNonce + 1) ⟨.invalidAuction,
    "expected next auction to have another id"⟩
  require (state.isDenomAuctionable accounts auction.amount.denom = true)
    ⟨.invalidAuction, "denom is on the NonAuctionableTokens list"⟩
  require (state.auctions.get auction.id = none) ⟨.duplicateAuction, "Duplicate Auction"⟩
  pure { state with
    auctions := state.auctions.set auction.id auction, auctionNonce := state.auctionNonce + 1 }

def deleteAllAuctions (state : State) : Go State := do
  check (state.params.enabled = true) "cannot delete auctions while the module is disabled"
  check (∀ period ∈ state.period, period.endBlockHeight.val ≤ state.height)
    "attempted to delete all auctions during active auction period"
  pure { state with auctions := .empty }

/-- What becomes of a winning bid. -/
def takeBid (highestBidCoin : Coin) (state : State) : Go State :=
  if state.params.burnWinningBids then do
    let vault ← state.vault.burnCoins accounts.auction highestBidCoin
    pure { state with vault := vault }
  else state.sendFromModuleAccountToCommunityPool ext accounts.auction highestBidCoin

def closeAuctionWithWinner (auctionId : Nat) (state : State) : Go State := do
  state.requireEnabled
  let auction ← fromOption ⟨.auctionNotFound, "Auction not found"⟩ (state.auctions.get auctionId)
  let highestBid ← unwrap "unexpected unsuccessful auction" auction.highestBid
  let highestBidder ← orPanic "invalid address" (accAddressFromBech32 ext highestBid.bidderAddress)
  let taken ← state.takeBid accounts ⟨accounts.mintDenom, highestBid.bidAmount.val⟩
  taken.awardAuction accounts highestBidder auction.amount

def closeAuctionNoWinner (auctionId : Nat) (state : State) : Go State := do
  state.requireEnabled
  let auction ← fromOption ⟨.auctionNotFound, "Auction not found"⟩ (state.auctions.get auctionId)
  check (auction.highestBid = none) "unexpected successful auction"
  state.sendToAuctionPool accounts auction.amount

/-! ## Periods -/

def updateAuctionPeriodUnsafe (auctionPeriod : AuctionPeriod) (state : State) : Go State := do
  check (auctionPeriod.startBlockHeight.val ≤ state.height + 1)
    "cannot update auction end to start after the next block"
  check (state.height ≤ auctionPeriod.endBlockHeight.val)
    "cannot update auction end to be in the past"
  pure { state with period := some auctionPeriod }

def updateAuctionPeriod (auctionPeriod : AuctionPeriod) (state : State) : Go State := do
  state.requireEnabled
  require (∀ lastPeriod ∈ state.period, lastPeriod.endBlockHeight.val ≤ state.height)
    ⟨.invalidAuctionPeriod, "cannot update auction period during the current auction period"⟩
  require (∀ lastPeriod ∈ state.period, lastPeriod.endBlockHeight ≤ auctionPeriod.startBlockHeight ∧
      lastPeriod.endBlockHeight < auctionPeriod.endBlockHeight)
    ⟨.invalidAuctionPeriod, "new auction period conflicts with the last one"⟩
  state.updateAuctionPeriodUnsafe auctionPeriod

/-- The end height is a sum of unsigned 64-bit integers, which may wrap around. -/
def initializeAuctionPeriodFromParams (startBlock : U64) (params : Params) : AuctionPeriod :=
  ⟨startBlock, startBlock + params.auctionLength⟩

def createNewAuctionPeriod (state : State) : Go State :=
  state.updateAuctionPeriod
    (initializeAuctionPeriodFromParams (Fin.ofNat _ (state.height + 1)) state.params)

/-- What becomes of one coin of the pool in a new period. -/
def placePoolCoin (state : State) (poolCoin : Coin) : Go State :=
  if poolCoin.denom ∈ state.params.nonAuctionableTokens then
    state.sendFromModuleAccountToCommunityPool ext ext.auctionPool poolCoin
  else do
    let removed ← state.removeFromAuctionPool accounts poolCoin
    removed.storeAuction accounts ⟨state.auctionNonce + 1, poolCoin, none⟩

def createAuctionsForAuctionPeriod (state : State) : Go State := do
  state.requireEnabled
  require (state.auctions.values = [])
    ⟨.invalidAuction, "attempted to create auctions without removing old auctions from store"⟩
  let period ← unwrap "invalid memory address or nil pointer dereference" state.period
  require (period.startBlockHeight.val = state.height + 1 ∧
    state.height + 1 < period.endBlockHeight.val)
    ⟨.invalidAuction, "attempted to create auctions in the middle of an active period"⟩
  (state.vault.getAllBalances ext.auctionPool).foldlM (placePoolCoin accounts) state

end State

/-! ## Invariants that run on a new state, and genesis -/

def tallyAward (awardAmounts : List Coin) (auction : Auction) : Go (List Coin) := do
  check (amountOf awardAmounts auction.amount.denom = 0)
    "tallied awards already contain auction token"
  pure (awardAmounts ++ [auction.amount])

/-- The awards of the auctions, in the order of their ids. -/
def tallyAwards (auctions : List Auction) : Go (List Coin) := auctions.foldlM tallyAward []

def highestBids (auctions : List Auction) : Nat :=
  (auctions.map (fun auction => auction.highestBid.elim 0 (fun bid => bid.bidAmount.val))).sum

/-- `Coins.Add` wants coins in order and then adds up those of one denom. -/
def expectedAuctionModuleBalances (auctions : List Auction) : Go (Denom → Nat) := do
  let awardAmounts ← tallyAwards auctions
  check (awardAmounts.Pairwise (fun first second => first.denom ≤ second.denom))
    "Coins (self) must be sorted"
  pure (fun denom => ((awardAmounts ++ [Coin.mk accounts.mintDenom (highestBids auctions)]).map
    (fun coin => coin.amountOf denom)).sum)

namespace State

def moduleBalanceInvariant (state : State) : Go Unit := do
  let expectedBalances ← expectedAuctionModuleBalances accounts state.auctions.values
  check (∀ denom ∈ state.vault.denoms ++ accounts.mintDenom :: state.auctions.values.map
    (·.amount.denom), state.vault.bank.balances accounts.auction denom =
      expectedBalances denom) "invalid auction module balances"

def validAuctionsInvariant (state : State) : Go Unit :=
  check (∀ auction ∈ state.auctions.values, auction.amount.denom ≠ accounts.mintDenom)
    "discovered auction for the native token"

end State

structure GenesisState where
  params : Params
  activePeriod : Option AuctionPeriod
  activeAuctions : List Auction
  deriving DecidableEq, Repr

/-- The auctions of the document, or those of a first period. -/
def loadGenesis (fresh : State) (genState : GenesisState) : Go State :=
  match genState.activePeriod with
  | some period => do
      let started ← fresh.updateAuctionPeriodUnsafe period
      genState.activeAuctions.foldlM (fun current auction =>
        orPanic "Unable to store auction" (current.storeAuction accounts auction)) started
  | none => do
      let started ← orPanic "Unable to create a new auction period" fresh.createNewAuctionPeriod
      if genState.params.enabled then
        orPanic "unable to create auctions for genesis auction period"
          (started.createAuctionsForAuctionPeriod accounts)
      else pure started

/-- The module starts on a chain whose bank is already set up. -/
def initGenesis (vault : Vault) (height : Nat) (genState : GenesisState) : Go State := do
  orPanic "failed to set params" genState.params.validateBasic
  let state ← loadGenesis accounts ⟨vault, genState.params, none, .empty, 0, height⟩ genState
  state.moduleBalanceInvariant accounts
  state.validAuctionsInvariant accounts
  pure state

end GravityBridge.Auctions
