import GravityBridge.Keeper.Batch
import GravityBridge.Keeper.Forward
import GravityBridge.Keeper.Governance

/-!
# The attestation handler

The effect of each kind of observed event on the ledger. A returned error is
dropped by the caller together with the changes; a panic stops the block.
-/

namespace GravityBridge.Keeper

open Lib.Fallible Lib.ByteString Lib.Store
open GravityBridge.Types

variable (ext : External)

/-! ## Deposits -/

/-- Mint vouchers to the module account. `sdk.NewCoins` makes minting nothing a no-op. -/
def Ledger.mintEthereumOriginatedVouchers (ledger : Ledger) (coin : Coin) : Go Ledger := do
  require (ledger.bank.supply coin.denom + coin.amount < 2 ^ 256)
    ⟨.plain, "invalid supply after SendToCosmos attestation"⟩
  let bank ← ledger.bank.mintCoins ext.gravityModule coin
  check (bank.balances ext.gravityModule coin.denom =
      ledger.bank.balances ext.gravityModule coin.denom + coin.amount)
    "Somehow minted incorrect amount!"
  pure { ledger with bank := bank }

def Ledger.sendCoinToLocalAddress (ledger : Ledger) (receiver : AccAddress) (coin : Coin) :
    Go Ledger := do
  let bank ← ledger.bank.sendCoinsFromModuleToAccount ext ext.gravityModule receiver coin
  pure { ledger with bank := bank }

def Ledger.addToIbcAutoForwardQueue (context : Context) (ledger : Ledger) (accountPrefix : Bytes)
    (coin : Coin) (channel : Bytes) (claim : MsgSendToCosmosClaim) : Go Ledger := do
  check (isBlank accountPrefix = false)
    "invalid call to addToIbcAutoForwardQueue: provided accountPrefix is empty!"
  check (getPrefixFromBech32 claim.cosmosReceiver = .ok accountPrefix)
    "invalid call to addToIbcAutoForwardQueue: invalid or inaccurate accountPrefix"
  ledger.addPendingIbcAutoForward ext context ⟨claim.cosmosReceiver, coin, channel,
    claim.eventNonce.val⟩

/-- Queue a forward, or send to the local account when the queue refuses it. -/
def Ledger.forwardOrSend (context : Context) (ledger : Ledger) (claim : MsgSendToCosmosClaim)
    (accountPrefix channel : Bytes) (receiver : AccAddress) (coin : Coin) : Go (Bool × Ledger) :=
  match ledger.addToIbcAutoForwardQueue ext context accountPrefix coin channel claim with
  | .ok next => pure (true, next)
  | .error (.panic message) => panicking message
  | .error (.error _) => do
      let next ← ledger.sendCoinToLocalAddress ext receiver coin
      pure (false, next)

/-- The flag tells whether a forward was queued. -/
def Ledger.sendCoinToCosmosAccount (context : Context) (ledger : Ledger)
    (claim : MsgSendToCosmosClaim) (receiver : AccAddress) (coin : Coin) : Go (Bool × Ledger) := do
  let accountPrefix ← getPrefixFromBech32 claim.cosmosReceiver
  let nativePrefix ← unwrap "SendToCosmos failure: bech32ibc NativeHrp has not been set!"
    context.nativeHrp
  if accountPrefix = nativePrefix then do
    let next ← ledger.sendCoinToLocalAddress ext receiver coin
    pure (false, next)
  else
    match context.hrpIbcRecords.get accountPrefix with
    | none => do
        let next ← ledger.sendCoinToLocalAddress ext receiver coin
        pure (false, next)
    | some sourceChannel =>
      ledger.forwardOrSend ext context claim accountPrefix sourceChannel receiver coin

/-- `assertNothingSent` and `assertSentAmount`: the module's balance after an attempt to send. -/
def assertBalance (queued : Bool) (coin : Coin) (before after : Bank) : Go Unit :=
  if queued then
    check (after.balances ext.gravityModule coin.denom = before.balances ext.gravityModule coin.denom)
      "SendToCosmos somehow sent tokens in an error case!"
  else
    check (after.balances ext.gravityModule coin.denom + coin.amount =
        before.balances ext.gravityModule coin.denom)
      "SendToCosmos somehow sent incorrect amount!"

/-- Give a deposit to the community pool, around `sdk.Coins` of the one coin. -/
def Ledger.depositToCommunityPool (ledger : Ledger) (coin : Coin) : Go Ledger := do
  let coins ← singleCoins coin
  rewrap ⟨.plain, "failed to send to Community pool"⟩ (ledger.sendToCommunityPool ext coins)

/-- Deliver a deposit: to the receiver if there is a valid one, else to the community pool. -/
def Ledger.deliverDeposit (context : Context) (ledger : Ledger) (claim : MsgSendToCosmosClaim)
    (receiver : Option AccAddress) (coin : Coin) : Go Ledger :=
  match receiver with
  | none => ledger.depositToCommunityPool ext coin
  | some address =>
      match ledger.sendCoinToCosmosAccount ext context claim address coin with
      | .ok (queued, next) => do
          assertBalance ext queued coin ledger.bank next.bank
          pure next
      | .error (.panic message) => panicking message
      | .error (.error _) => do
          assertBalance ext true coin ledger.bank ledger.bank
          ledger.depositToCommunityPool ext coin

/-- The checks on an asset that every handler makes first. -/
def Ledger.classifyAccepted (ledger : Ledger) (token : EthAddress) (notListed : String) :
    Go AssetOrigin := do
  let origin ← rewrap ⟨.plain, "failed to classify ERC20 token"⟩ (ledger.classifyERC20 ext token)
  validateStrictDenom origin.denom
  match origin.origin with
  | .cosmos => do
      let _ ← rewrap ⟨.plain, notListed⟩ (ledger.assertMetadataWhitelisted origin.denom)
      pure origin
  | .ethereum => pure origin

/-- Ethereum-originated coins are minted before they are delivered. -/
def Ledger.mintIfEthereum (ledger : Ledger) (origin : AssetOrigin) (coin : Coin) : Go Ledger :=
  match origin.origin with
  | .ethereum => ledger.mintEthereumOriginatedVouchers ext coin
  | .cosmos => pure ledger

/-- An invalid sender returns a wrapped nil error, so nothing happens and nothing is reported. -/
def Ledger.handleSendToCosmos (context : Context) (ledger : Ledger) (claim : MsgSendToCosmosClaim) :
    Go Ledger := do
  let tokenAddress ← rewrap ⟨.plain, "invalid token contract on claim"⟩
    (newEthAddress claim.tokenContract)
  match newEthAddress claim.ethereumSender with
  | .error _ => pure ledger
  | .ok ethereumSender => do
      let origin ← ledger.classifyAccepted ext tokenAddress "token not whitelisted for SendToCosmos"
      let coin ← newCoin origin.denom claim.amount
      let minted ← ledger.mintIfEthereum ext origin coin
      let receiver := if context.params.isOnBlacklist ethereumSender then none
        else (ibcAddressFromBech32 ext claim.cosmosReceiver).toOption
      minted.deliverDeposit ext context claim receiver coin

/-! ## Withdrawals -/

def Ledger.handleBatchSendToEth (params : Params) (ledger : Ledger) (claim : MsgBatchSendToEthClaim) :
    Go Ledger := do
  let contract ← rewrap ⟨.plain, "invalid token contract on batch"⟩
    (newEthAddress claim.tokenContract)
  let _ ← ledger.classifyAccepted ext contract "token not whitelisted for BatchSendToEth"
  ledger.outgoingTxBatchExecuted ext params contract claim

/-! ## Deployed tokens -/

/-- The exponent of the first unit whose denom is the displayed one, and zero without one. -/
def Metadata.displayDecimals (metadata : Metadata) : Nat :=
  ((metadata.denomUnits.find? (fun unit => unit.denom == metadata.display)).map
    DenomUnit.exponent).getD 0

def Ledger.handleErc20Deployed (ledger : Ledger) (claim : MsgERC20DeployedClaim) : Go Ledger := do
  validateStrictDenom claim.cosmosDenom
  let tokenAddress ← rewrap ⟨.plain, "invalid token contract on claim"⟩
    (newEthAddress claim.tokenContract)
  ledger.registry.validateCosmosOriginatedMapping claim.cosmosDenom tokenAddress
  require (ledger.registry.denomToERC20.get claim.cosmosDenom = none)
    ⟨.invalid, "ERC20 already exists for denom"⟩
  require (ledger.registry.erc20ToDenom.get tokenAddress = none) ⟨.invalid,
    "ERC20 already mapped to denom"⟩
  let metadata ← rewrap ⟨.plain, "ERC20 deployment blocked because of invalid metadata"⟩
    (ledger.assertMetadataWhitelisted claim.cosmosDenom)
  require (claim.name = metadata.name) ⟨.invalid, "ERC20 name does not match denom name"⟩
  require (claim.symbol = metadata.symbol) ⟨.invalid, "ERC20 symbol does not match denom symbol"⟩
  require (metadata.displayDecimals = claim.decimals.val % 2 ^ 32)
    ⟨.invalid, "ERC20 decimals does not match denom decimals"⟩
  let registry ← rewrap ⟨.plain, "failed to register cosmos-originated ERC20 mapping"⟩
    (ledger.registry.setCosmosOriginatedMapping claim.cosmosDenom tokenAddress)
  pure { ledger with registry := registry }

/-! ## Validator set updates -/

/-- The observed set as the claim describes it; the height is not part of the claim. -/
def claimSet (claim : MsgValsetUpdatedClaim) (height : Nat) : Valset :=
  ⟨claim.valsetNonce.val, claim.members, height, claim.rewardAmount, claim.rewardToken⟩

def Ledger.setLastObservedValset (ledger : Ledger) (valset : Valset) : Ledger :=
  { ledger with valsets := { ledger.valsets with lastObservedValset := some valset } }

/-- Compare the observed set with the stored request. The set with nonce zero has none. -/
def Ledger.observeValset (ledger : Ledger) (claim : MsgValsetUpdatedClaim) : Go Ledger :=
  if claim.valsetNonce = 0 then pure (ledger.setLastObservedValset (claimSet claim 0))
  else do
    let trustedValset ← fromOption ⟨.invalidValset, "attested valset does not exist in store"⟩
      (ledger.valsets.requests.get claim.valsetNonce.val)
    check (trustedValset = claimSet claim trustedValset.height)
      "Potential bridge highjacking: observed valset does not match stored valset!"
    pure (ledger.setLastObservedValset (claimSet claim trustedValset.height))

/-- Mint what a relayer was paid in a cosmos-originated token. -/
def Ledger.mintReward (ledger : Ledger) (claim : MsgValsetUpdatedClaim) (rewardAddress : EthAddress) :
    Go Ledger := do
  let amount ← unwrap "nil reward amount" claim.rewardAmount
  if 0 < amount ∧ claim.rewardToken ≠ zeroAddressString then do
    let rewardOrigin ← rewrap ⟨.plain, "failed to classify reward ERC20 token"⟩
      (ledger.classifyERC20 ext rewardAddress)
    validateStrictDenom rewardOrigin.denom
    match rewardOrigin.origin with
    | .cosmos => do
        let coin ← newCoin rewardOrigin.denom (some amount)
        let bank ← ledger.bank.mintCoins ext.gravityModule coin
        pure { ledger with bank := bank }
    | .ethereum => panicking "Can not use Ethereum originated token as reward!"
  else pure ledger

def Ledger.handleValsetUpdated (ledger : Ledger) (claim : MsgValsetUpdatedClaim) : Go Ledger := do
  let rewardAddress ← rewrap ⟨.plain, "invalid reward token on claim"⟩
    (newEthAddress claim.rewardToken)
  let observed ← ledger.observeValset claim
  observed.mintReward ext claim rewardAddress

/-! ## All claims -/

/-- `AttestationHandler.Handle`. -/
def Ledger.handle (context : Context) (ledger : Ledger) (claim : EthereumClaim) : Go Ledger := do
  validateClaimFieldLengths claim
  match claim with
  | .sendToCosmos msg => ledger.handleSendToCosmos ext context msg
  | .batchSendToEth msg => ledger.handleBatchSendToEth ext context.params msg
  | .erc20Deployed msg => ledger.handleErc20Deployed msg
  | .valsetUpdated msg => ledger.handleValsetUpdated ext msg
  | .logicCallExecuted _ => panicking "Invalid event type for attestations"

end GravityBridge.Keeper
