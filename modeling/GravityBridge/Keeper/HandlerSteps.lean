import GravityBridge.Keeper.Handler
import GravityBridge.Keeper.LedgerSteps

/-!
# What the handler of each event does

As for the operations on transfers: one statement for each kind of event lists what
its handler changes when it succeeds.
-/

namespace GravityBridge.Keeper

open Lib.Fallible Lib.ByteString Lib.Store
open GravityBridge.Types

open Outgoing (WellFormed)

variable {ext : External} {context : Context} {ledger next : Ledger} {coin : Coin}

/-! ## Deposits -/

/-- Where a deposit ends up. -/
inductive Destination where
  | account (receiver : AccAddress)
  | forward (channel : Bytes)
  | communityPool
  deriving DecidableEq

/-- A coin of the module account reached its destination, and nothing else happened. -/
inductive Landed (ext : External) (claim : MsgSendToCosmosClaim) (ledger : Ledger) (coin : Coin) :
    Destination → Ledger → Prop
  | account {receiver : AccAddress} (held : coin.amount ≤
      ledger.bank.balances ext.gravityModule coin.denom) :
      ext.blockedAddr receiver = false →
      Landed ext claim ledger coin (.account receiver)
        { ledger with bank := ledger.bank.move ext.gravityModule receiver coin held }
  | forward {channel : Bytes} : ledger.pendingIbcAutoForwards.get claim.eventNonce.val = none →
      Landed ext claim ledger coin (.forward channel)
        { ledger with
          pendingIbcAutoForwards := ledger.pendingIbcAutoForwards.set claim.eventNonce.val
            ⟨claim.cosmosReceiver, coin, channel, claim.eventNonce.val⟩ }
  | communityPool (held : coin.amount ≤ ledger.bank.balances ext.gravityModule coin.denom) :
      Landed ext claim ledger coin .communityPool
        { ledger with
          bank := ledger.bank.move ext.gravityModule ext.distributionModule coin held
          communityPool := fun denom => ledger.communityPool denom + coin.amountOf denom }

variable {claim : MsgSendToCosmosClaim} {receiver : AccAddress} {accountPrefix channel : Bytes}

theorem depositToCommunityPool_landed (claim : MsgSendToCosmosClaim)
    (sent : ledger.depositToCommunityPool ext coin = .ok next) :
    Landed ext claim ledger coin .communityPool next := by
  simp only [Ledger.depositToCommunityPool, Ledger.sendToCommunityPool, bind_eq_ok,
    singleCoins_eq_ok, rewrap_eq_ok, Bank.sendCoins_eq_ok, pure_eq_ok] at sent
  obtain ⟨_, ⟨_, rfl⟩, _, ⟨held, rfl⟩, rfl⟩ := sent
  exact .communityPool held

/-- A coin was queued when the flag says so, and sent to the local receiver otherwise. -/
def SentOrQueued (ext : External) (claim : MsgSendToCosmosClaim) (ledger : Ledger) (coin : Coin)
    (receiver : AccAddress) (queued : Bool) (next : Ledger) : Prop :=
  (queued = false ∧ Landed ext claim ledger coin (.account receiver) next) ∨
    (queued = true ∧ ∃ channel, Landed ext claim ledger coin (.forward channel) next)

variable {queued : Bool}

theorem sentLocally_landed (ran : (do
      let result ← ledger.sendCoinToLocalAddress ext receiver coin
      pure (false, result)) = (.ok (queued, next) : Go (Bool × Ledger))) :
    SentOrQueued ext claim ledger coin receiver queued next := by
  simp only [Ledger.sendCoinToLocalAddress, bind_eq_ok, Bank.sendCoinsFromModuleToAccount_eq_ok,
    pure_eq_ok, Prod.mk.injEq] at ran
  obtain ⟨_, ⟨_, ⟨notBlocked, held, rfl⟩, rfl⟩, rfl, rfl⟩ := ran
  exact .inl ⟨rfl, .account held notBlocked⟩

theorem forwardOrSend_landed
    (sent : ledger.forwardOrSend ext context claim accountPrefix channel receiver coin =
      .ok (queued, next)) :
    SentOrQueued ext claim ledger coin receiver queued next := by
  unfold Ledger.forwardOrSend at sent
  split at sent
  · rename_i added
    obtain ⟨rfl, rfl⟩ := Prod.mk.inj (pure_eq_ok.mp sent)
    simp only [Ledger.addToIbcAutoForwardQueue, Ledger.addPendingIbcAutoForward, bind_eq_ok,
      check_eq_ok, require_eq_ok, pure_eq_ok] at added
    obtain ⟨_, _, _, _, _, _, _, fresh, rfl⟩ := added
    exact .inr ⟨rfl, channel, .forward fresh⟩
  · simp at sent
  · exact sentLocally_landed sent

theorem sendCoinToCosmosAccount_landed
    (sent : ledger.sendCoinToCosmosAccount ext context claim receiver coin = .ok (queued, next)) :
    SentOrQueued ext claim ledger coin receiver queued next := by
  simp only [Ledger.sendCoinToCosmosAccount, bind_eq_ok] at sent
  obtain ⟨accountPrefix, _, nativePrefix, _, sent⟩ := sent
  split_ifs at sent with native
  · exact sentLocally_landed sent
  · split at sent
    · exact sentLocally_landed sent
    · exact forwardOrSend_landed sent

/-- A delivered deposit landed, with its receiver if it has one. -/
theorem deliverDeposit_landed {receiver : Option AccAddress}
    (sent : ledger.deliverDeposit ext context claim receiver coin = .ok next) :
    ∃ destination, Landed ext claim ledger coin destination next ∧
      ∀ account, destination = .account account → receiver = some account := by
  unfold Ledger.deliverDeposit at sent
  split at sent
  · exact ⟨.communityPool, depositToCommunityPool_landed claim sent, by simp⟩
  · rename_i address
    split at sent
    · rename_i queued result sentTo
      simp only [bind_eq_ok, pure_eq_ok] at sent
      obtain ⟨_, _, rfl⟩ := sent
      rcases sendCoinToCosmosAccount_landed sentTo with ⟨_, landed⟩ | ⟨_, channel, landed⟩
      · exact ⟨_, landed, by simp⟩
      · exact ⟨_, landed, by simp⟩
    · simp at sent
    · simp only [bind_eq_ok] at sent
      obtain ⟨_, _, sent⟩ := sent
      exact ⟨.communityPool, depositToCommunityPool_landed claim sent, by simp⟩

/-- A coin in the module account was paid out, or reserved for a forward. -/
inductive Delivered (ext : External) (ledger : Ledger) (coin : Coin) (next : Ledger) : Prop
  | paid : PaidOut ext ledger.bank coin next.bank →
      next = { ledger with bank := next.bank, communityPool := next.communityPool } →
      Delivered ext ledger coin next
  | queued (forward : PendingIbcAutoForward) : forward.token = coin →
      ledger.pendingIbcAutoForwards.get forward.eventNonce = none →
      next = { ledger with
        pendingIbcAutoForwards := ledger.pendingIbcAutoForwards.set forward.eventNonce forward } →
      Delivered ext ledger coin next

theorem Landed.delivered {destination : Destination}
    (landed : Landed ext claim ledger coin destination next) : Delivered ext ledger coin next := by
  cases landed with
  | account held notBlocked =>
    exact .paid (PaidOut.of_move held (ne_gravityModule_of_notBlocked notBlocked)) rfl
  | @forward channel fresh =>
    exact .queued ⟨claim.cosmosReceiver, coin, channel, claim.eventNonce.val⟩ rfl fresh rfl
  | communityPool held => exact .paid (PaidOut.of_move held ext.distribution_ne.symm) rfl

/-- A deposit of a token was accepted: vouchers were minted for an Ethereum-originated one, and the
coin was delivered. -/
structure Deposited (ext : External) (ledger : Ledger) (token : EthAddress) (amount : Nat)
    (next : Ledger) : Prop where
  delivered : ∃ minted : Ledger,
    Delivered ext minted ⟨ledger.registry.denomOf ext token, amount⟩ next ∧
    ((∃ denom, ledger.registry.erc20ToDenom.get token = some denom) → minted = ledger) ∧
    (ledger.registry.erc20ToDenom.get token = none → minted = { ledger with
      bank := ledger.bank.mint ext.gravityModule ⟨ledger.registry.denomOf ext token, amount⟩ })

variable {token : EthAddress} {origin : AssetOrigin}

theorem strict_of_classifyERC20
    (classified : ledger.classifyERC20 ext token = .ok origin) :
    validateStrictDenom origin.denom = .ok () := by
  cases found : ledger.registry.erc20ToDenom.get token with
  | some denom =>
    obtain ⟨strict, rfl⟩ := (classifyERC20_mapped found).mp classified
    exact strict
  | none =>
    simp only [Ledger.classifyERC20, found, classifyEthOriginated_eq_ok] at classified
    obtain ⟨_, _, strict, rfl⟩ := classified
    exact strict

theorem classifyAccepted_eq_ok {notListed : String} :
    ledger.classifyAccepted ext token notListed = .ok origin ↔
      ledger.classifyERC20 ext token = .ok origin ∧ validateStrictDenom origin.denom = .ok () ∧
        (origin.origin = .cosmos → ∃ metadata, ledger.assertMetadataWhitelisted origin.denom =
          .ok metadata) := by
  simp only [Ledger.classifyAccepted, bind_eq_ok, rewrap_eq_ok, Unique.exists_iff]
  constructor
  · rintro ⟨found, classified, strict, listed⟩
    split at listed
    · rename_i cosmos
      simp only [bind_eq_ok, rewrap_eq_ok, pure_eq_ok] at listed
      obtain ⟨metadata, listed, rfl⟩ := listed
      exact ⟨classified, strict, fun _ => ⟨metadata, listed⟩⟩
    · rename_i ethereum
      obtain rfl := pure_eq_ok.mp listed
      exact ⟨classified, strict, fun cosmos => absurd (cosmos.symm.trans ethereum) (by decide)⟩
  · rintro ⟨classified, strict, listed⟩
    refine ⟨origin, classified, strict, ?_⟩
    split
    · rename_i cosmos
      obtain ⟨metadata, found⟩ := listed cosmos
      simp [found]
    · simp

theorem mintEthereumOriginatedVouchers_eq_ok :
    ledger.mintEthereumOriginatedVouchers ext coin = .ok next ↔
      ledger.bank.supply coin.denom + coin.amount < 2 ^ 256 ∧
      { ledger with bank := ledger.bank.mint ext.gravityModule coin } = next := by
  have credited : (ledger.bank.mint ext.gravityModule coin).balances ext.gravityModule coin.denom =
      ledger.bank.balances ext.gravityModule coin.denom + coin.amount := by
    simp [Bank.mint_balances, Coin.amountOf]
  simp only [Ledger.mintEthereumOriginatedVouchers, bind_eq_ok, require_eq_ok, check_eq_ok,
    Bank.mintCoins_eq_ok, pure_eq_ok, Unique.exists_iff]
  constructor
  · rintro ⟨bounded, _, ⟨_, rfl⟩, _, rfl⟩
    exact ⟨bounded, rfl⟩
  · rintro ⟨bounded, rfl⟩
    exact ⟨bounded, _, ⟨bounded, rfl⟩, credited, rfl⟩

/-- A deposit is accepted, or dropped without a word because its sender is not an address. -/
theorem handleSendToCosmos_cases (ran : ledger.handleSendToCosmos ext context claim = .ok next) :
    ∃ token, newEthAddress claim.tokenContract = .ok token ∧
      ((next = ledger ∧ ∀ sender, newEthAddress claim.ethereumSender ≠ .ok sender) ∨
        ∃ amount : Nat, claim.amount = some ↑amount ∧ Deposited ext ledger token amount next) := by
  simp only [Ledger.handleSendToCosmos, bind_eq_ok, rewrap_eq_ok] at ran
  obtain ⟨token, parsed, ran⟩ := ran
  refine ⟨token, parsed, ?_⟩
  split at ran
  · rename_i unparsed
    exact .inl ⟨(pure_eq_ok.mp ran).symm, by simp [unparsed]⟩
  · simp only [bind_eq_ok, classifyAccepted_eq_ok, newCoin_eq_ok] at ran
    obtain ⟨origin, ⟨classified, _, _⟩, _, ⟨_, amount, read, rfl⟩, minted, mints, ran⟩ := ran
    obtain ⟨denom, _, chain⟩ := denom_of_classifyERC20 classified
    rw [denom] at ran mints
    obtain ⟨_, landed, _⟩ := deliverDeposit_landed ran
    refine .inr ⟨amount, read, minted, landed.delivered, fun mapped => ?_, fun unmapped => ?_⟩
    · rw [Ledger.mintIfEthereum, chain.mpr mapped] at mints
      exact (pure_eq_ok.mp mints).symm
    · cases origin' : origin.origin with
      | cosmos =>
        obtain ⟨_, mapped⟩ := chain.mp origin'
        rw [unmapped] at mapped
        contradiction
      | ethereum =>
        rw [Ledger.mintIfEthereum, origin'] at mints
        exact (mintEthereumOriginatedVouchers_eq_ok.mp mints).2.symm

/-! ## Deployed tokens and validator sets -/

/-- A listed denom was registered for a new token. -/
structure Registered (ledger : Ledger) (denom : Denom) (token : EthAddress)
    (next : Ledger) : Prop where
  strict : validateStrictDenom denom = .ok ()
  listed : ∃ metadata, ledger.assertMetadataWhitelisted denom = .ok metadata
  result : ∃ registrable, next =
    { ledger with registry := ledger.registry.register denom token registrable }

theorem handleErc20Deployed_registered {claim : MsgERC20DeployedClaim}
    (ran : ledger.handleErc20Deployed claim = .ok next) :
    ∃ token, newEthAddress claim.tokenContract = .ok token ∧
      Registered ledger claim.cosmosDenom token next := by
  simp only [Ledger.handleErc20Deployed, bind_eq_ok, rewrap_eq_ok, setCosmosOriginatedMapping_eq_ok,
    pure_eq_ok] at ran
  obtain ⟨_, strict, token, parsed, _, _, _, _, _, _, metadata, listed, _, _, _, _, _, _, _,
    ⟨_, registrable, rfl⟩, rfl⟩ := ran
  exact ⟨token, parsed, strict, ⟨metadata, listed⟩, registrable, rfl⟩

/-- The reward of a validator set in a cosmos-originated token was minted. -/
structure Rewarded (ext : External) (ledger : Ledger) (token : EthAddress) (amount : Nat)
    (next : Ledger) : Prop where
  mapped : ∃ denom, ledger.registry.erc20ToDenom.get token = some denom
  result : next = { ledger with
    bank := ledger.bank.mint ext.gravityModule ⟨ledger.registry.denomOf ext token, amount⟩ }

/-- An observed set was requested as it is claimed to be, except for the one the contract started
with. -/
def Requested (ledger : Ledger) (claim : MsgValsetUpdatedClaim) (height : Nat) : Prop :=
  claim.valsetNonce ≠ 0 → ledger.valsets.requests.get claim.valsetNonce.val =
    some (claimSet claim height)

theorem observeValset_eq_ok {claim : MsgValsetUpdatedClaim}
    (ran : ledger.observeValset claim = .ok next) :
    ∃ height, Requested ledger claim height ∧
      next = ledger.setLastObservedValset (claimSet claim height) := by
  unfold Ledger.observeValset at ran
  split_ifs at ran with initial
  · exact ⟨0, fun requested => absurd initial requested, (pure_eq_ok.mp ran).symm⟩
  · simp only [bind_eq_ok, fromOption_eq_ok, check_eq_ok, pure_eq_ok] at ran
    obtain ⟨trusted, stored, _, matching, rfl⟩ := ran
    exact ⟨trusted.height, fun _ => matching ▸ stored, rfl⟩

theorem mintReward_cases {claim : MsgValsetUpdatedClaim}
    (ran : ledger.mintReward ext claim token = .ok next) :
    ∃ amount : Int, claim.rewardAmount = some amount ∧
      ((next = ledger ∧ ¬ (0 < amount ∧ claim.rewardToken ≠ zeroAddressString)) ∨
        Rewarded ext ledger token amount.toNat next) := by
  simp only [Ledger.mintReward, bind_eq_ok, unwrap_eq_ok] at ran
  obtain ⟨amount, read, ran⟩ := ran
  refine ⟨amount, read, ?_⟩
  split_ifs at ran with paid
  · simp only [bind_eq_ok, rewrap_eq_ok] at ran
    obtain ⟨origin, classified, _, _, ran⟩ := ran
    obtain ⟨denom, _, chain⟩ := denom_of_classifyERC20 classified
    split at ran
    · rename_i cosmos
      simp only [bind_eq_ok, newCoin_eq_ok, Bank.mintCoins_eq_ok, pure_eq_ok] at ran
      obtain ⟨_, ⟨_, value, same, rfl⟩, _, ⟨_, rfl⟩, rfl⟩ := ran
      obtain rfl : amount = ↑value := by simpa using same
      refine .inr ⟨chain.mp cosmos, ?_⟩
      rw [Int.toNat_natCast, ← denom]
    · simp at ran
  · exact .inl ⟨(pure_eq_ok.mp ran).symm, paid⟩

/-! ## All claims -/

/-- What handling a claim did, by its kind. -/
inductive Handled (ext : External) (ledger : Ledger) : EthereumClaim → Ledger → Prop
  | ignored {msg : MsgSendToCosmosClaim} : (∀ sender, newEthAddress msg.ethereumSender ≠ .ok sender) →
      Handled ext ledger (.sendToCosmos msg) ledger
  | deposited {msg : MsgSendToCosmosClaim} {token : EthAddress} {amount : Nat} {next : Ledger} :
      newEthAddress msg.tokenContract = .ok token → msg.amount = some ↑amount →
      Deposited ext ledger token amount next → Handled ext ledger (.sendToCosmos msg) next
  | executed {msg : MsgBatchSendToEthClaim} {token : EthAddress} {batch : OutgoingTxBatch}
      {next : Ledger} : newEthAddress msg.tokenContract = .ok token →
      ledger.outgoing.batches.get (getOutgoingTxBatchKey token msg.batchNonce.val) = some batch →
      msg.ethBlockHeight.val < batch.batchTimeout → Executed ext ledger batch next →
      Handled ext ledger (.batchSendToEth msg) next
  | registered {msg : MsgERC20DeployedClaim} {token : EthAddress} {next : Ledger} :
      newEthAddress msg.tokenContract = .ok token → Registered ledger msg.cosmosDenom token next →
      Handled ext ledger (.erc20Deployed msg) next
  | observed {msg : MsgValsetUpdatedClaim} {amount : Int} {height : Nat} :
      Requested ledger msg height →
      msg.rewardAmount = some amount → ¬ (0 < amount ∧ msg.rewardToken ≠ zeroAddressString) →
      Handled ext ledger (.valsetUpdated msg) (ledger.setLastObservedValset (claimSet msg height))
  | rewarded {msg : MsgValsetUpdatedClaim} {token : EthAddress} {amount : Int} {height : Nat}
      {next : Ledger} :
      Requested ledger msg height → newEthAddress msg.rewardToken = .ok token →
      msg.rewardAmount = some amount →
      Rewarded ext (ledger.setLastObservedValset (claimSet msg height)) token amount.toNat next →
      Handled ext ledger (.valsetUpdated msg) next

theorem handle_handled (wellFormed : WellFormed ext ledger.outgoing) {claim : EthereumClaim}
    (ran : ledger.handle ext context claim = .ok next) : Handled ext ledger claim next := by
  simp only [Ledger.handle, bind_eq_ok] at ran
  obtain ⟨_, _, ran⟩ := ran
  cases claim with
  | sendToCosmos msg =>
    obtain ⟨token, parsed, ⟨rfl, unparsed⟩ | ⟨amount, read, deposited⟩⟩ :=
      handleSendToCosmos_cases ran
    · exact .ignored unparsed
    · exact .deposited parsed read deposited
  | batchSendToEth msg =>
    simp only [Ledger.handleBatchSendToEth, bind_eq_ok, rewrap_eq_ok] at ran
    obtain ⟨token, parsed, _, _, ran⟩ := ran
    obtain ⟨batch, stored, inTime, executed⟩ := wellFormed.outgoingTxBatchExecuted ran
    exact .executed parsed stored inTime executed
  | erc20Deployed msg =>
    obtain ⟨token, parsed, registered⟩ := handleErc20Deployed_registered ran
    exact .registered parsed registered
  | valsetUpdated msg =>
    simp only [Ledger.handleValsetUpdated, bind_eq_ok, rewrap_eq_ok] at ran
    obtain ⟨token, parsed, observed, ranObserve, ran⟩ := ran
    obtain ⟨height, requested, rfl⟩ := observeValset_eq_ok ranObserve
    obtain ⟨amount, read, ⟨rfl, unpaid⟩ | rewarded⟩ := mintReward_cases ran
    · exact .observed requested read unpaid
    · exact .rewarded requested parsed read rewarded
  | logicCallExecuted msg => simp at ran

end GravityBridge.Keeper
