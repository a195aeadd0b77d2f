import GravityBridge.Keeper.Custody

/-!
# A deposit is credited once

The handler of a deposit has fall-backs for every way in which a receiver can be
unusable. Whichever it takes, the deposited amount reaches exactly one
destination, or the handler fails and the ledger stays as it was. Its assertions
about balances cannot fail.
-/

namespace GravityBridge.Keeper

open Lib.Fallible Lib.ByteString Lib.Store
open GravityBridge.Types List

/-- The account whose balance grows, unless the coin waits in the module account. -/
def Destination.holder (ext : External) : Destination → Option AccAddress
  | .account receiver => some receiver
  | .forward _ => none
  | .communityPool => some ext.distributionModule

def Destination.reserves : Destination → Bool
  | .forward _ => true
  | _ => false

def Destination.feeds : Destination → Bool
  | .communityPool => true
  | _ => false

/-- The coin if a condition holds, and nothing otherwise. -/
def Coin.when (coin : Coin) (condition : Bool) (denom : Denom) : Nat :=
  if condition then coin.amountOf denom else 0

/-- A coin reached one destination. Nothing else in the ledger has changed, except that the coin was
minted if it had to be. -/
structure Credited (ext : External) (claim : MsgSendToCosmosClaim) (ledger : Ledger) (coin : Coin)
    (minted : Bool) (destination : Destination) (next : Ledger) : Prop where
  accounts : ∀ account denom, account ≠ ext.gravityModule →
    next.bank.balances account denom =
      ledger.bank.balances account denom + coin.when (destination.holder ext == some account) denom
  moduleAccount : ∀ denom,
    next.bank.balances ext.gravityModule denom + coin.amountOf denom =
      ledger.bank.balances ext.gravityModule denom + coin.when minted denom + coin.when
        destination.reserves denom
  supply : ∀ denom, next.bank.supply denom = ledger.bank.supply denom + coin.when minted denom
  communityPool : ∀ denom, next.communityPool denom =
    ledger.communityPool denom + coin.when destination.feeds denom
  queue : next.pendingIbcAutoForwards = ledger.pendingIbcAutoForwards ∧ destination.reserves = false ∨
    ∃ channel, destination = .forward channel ∧
      ledger.pendingIbcAutoForwards.get claim.eventNonce.val = none ∧
      next.pendingIbcAutoForwards = ledger.pendingIbcAutoForwards.set claim.eventNonce.val
        ⟨claim.cosmosReceiver, coin, channel, claim.eventNonce.val⟩
  frame : next = { ledger with
    bank := next.bank
    communityPool := next.communityPool
    pendingIbcAutoForwards := next.pendingIbcAutoForwards }
  receiver : ∀ account, destination = .account account →
    ibcAddressFromBech32 ext claim.cosmosReceiver = .ok account

variable {ext : External} {context : Context} {ledger middle next : Ledger} {coin : Coin}
  {claim : MsgSendToCosmosClaim} {destination : Destination} {messages : List String}

/-! ## Balances after a delivery -/

variable {receiver : AccAddress}

theorem move_balances_other {bank : Bank} {account : AccAddress} {denom : Denom}
    (held : coin.amount ≤ bank.balances ext.gravityModule coin.denom)
    (other : account ≠ ext.gravityModule) (leaves : ext.gravityModule ≠ receiver) :
    (bank.move ext.gravityModule receiver coin held).balances account denom =
      bank.balances account denom + coin.when (some receiver == some account) denom := by
  by_cases same : account = receiver
  · subst same
    rw [Bank.move_balances_receiver leaves]
    simp [Coin.when]
  · rw [Bank.move_balances_bystander other same]
    simp [Coin.when, Ne.symm same]

/-- What was minted before the delivery, and where the coin landed, is what the deposit did. -/
theorem Landed.credited {minted : Bool} (landed : Landed ext claim middle coin destination next)
    (minting : middle = { ledger with
      bank := if minted then ledger.bank.mint ext.gravityModule coin else ledger.bank })
    (receiver : ∀ account, destination = .account account →
      ibcAddressFromBech32 ext claim.cosmosReceiver = .ok account) :
    Credited ext claim ledger coin minted destination next := by
  obtain ⟨bank, rfl, module, others, supply⟩ : ∃ bank, middle = { ledger with bank := bank } ∧
      (∀ denom, bank.balances ext.gravityModule denom =
        ledger.bank.balances ext.gravityModule denom + coin.when minted denom) ∧
      (∀ account denom, account ≠ ext.gravityModule →
        bank.balances account denom = ledger.bank.balances account denom) ∧
      ∀ denom, bank.supply denom = ledger.bank.supply denom + coin.when minted denom := by
    refine ⟨_, minting, fun denom => ?_, fun account denom other => ?_, fun denom => ?_⟩
    · cases minted <;> simp [Bank.mint_balances, Coin.when]
    · cases minted <;> simp [Bank.mint_balances_of_ne other]
    · cases minted <;> simp [Coin.when]
  cases landed with
  | @account address held notBlocked =>
    have leaves := ne_gravityModule_of_notBlocked notBlocked
    refine ⟨fun account denom other => ?_, fun denom => ?_, supply, fun denom => ?_,
      .inl ⟨rfl, rfl⟩, rfl, receiver⟩
    · rw [move_balances_other held other leaves, others account denom other]
      rfl
    · rw [Bank.move_balances_sender leaves, module]
      simp [Destination.reserves, Coin.when]
    · simp [Destination.feeds, Coin.when]
  | @forward channel fresh =>
    refine ⟨fun account denom other => ?_, fun denom => ?_, supply, fun denom => ?_,
      .inr ⟨channel, rfl, fresh, rfl⟩, rfl, receiver⟩
    · rw [others account denom other]
      simp [Destination.holder, Coin.when]
    · rw [module]
      simp [Destination.reserves, Coin.when]
    · simp [Destination.feeds, Coin.when]
  | communityPool held =>
    refine ⟨fun account denom other => ?_, fun denom => ?_, supply, fun denom => ?_,
      .inl ⟨rfl, rfl⟩, rfl, receiver⟩
    · rw [move_balances_other held other ext.distribution_ne.symm, others account denom other]
      rfl
    · rw [Bank.move_balances_sender ext.distribution_ne.symm, module]
      simp [Destination.reserves, Coin.when]
    · simp [Destination.feeds, Coin.when]

/-! ## Panics of a delivery -/

/-- The assertions about what was minted and sent. -/
def depositAssertions : List String :=
  ["SendToCosmos somehow sent tokens in an error case!",
    "SendToCosmos somehow sent incorrect amount!", "Somehow minted incorrect amount!"]

def nativeHrpUnset : String := "SendToCosmos failure: bech32ibc NativeHrp has not been set!"

/-- Bech32 strings have no blanks or control characters. -/
def PrintableBech32 (ext : External) : Prop :=
  ∀ text, (ext.decodeBech32 text).isSome = true → ∀ byte ∈ text, 33 ≤ byte

variable {text : Bytes}

theorem isBlank_of_printable (nonempty : text ≠ []) (printable : ∀ byte ∈ text, 33 ≤ byte) :
    isBlank text = false := by
  obtain ⟨byte, rest, rfl⟩ := exists_cons_of_ne_nil nonempty
  have high := printable byte mem_cons_self
  simp only [isBlank, all_cons, Bool.and_eq_false_iff, Bool.or_eq_false_iff, decide_eq_false_iff_not,
    beq_eq_false_iff_ne, ne_eq]
  refine .inl ⟨.inr fun low => absurd (high.trans low) (by decide), ?_⟩
  rintro rfl
  exact absurd high (by decide)

theorem beforeLast_subset {byte : UInt8} {front : Bytes} (found : beforeLast byte text = some front) :
    ∀ other ∈ front, other ∈ text := by
  unfold beforeLast at found
  split at found
  · contradiction
  · rename_i head rest dropped
    obtain rfl := Option.some.inj found
    intro other member
    have inDropped : other ∈ text.reverse.dropWhile (· != byte) := by
      rw [dropped]
      exact mem_cons_of_mem _ (mem_reverse.mp member)
    exact mem_reverse.mp ((dropWhile_sublist _).subset inDropped)

/-- The prefix of a receiver that decodes is not blank. -/
theorem accountPrefix_not_blank (printable : PrintableBech32 ext) {account accountPrefix : Bytes}
    (decoded : ibcAddressFromBech32 ext text = .ok account)
    (read : getPrefixFromBech32 text = .ok accountPrefix) : isBlank accountPrefix = false := by
  simp only [ibcAddressFromBech32, bind_eq_ok, fromOption_eq_ok] at decoded
  obtain ⟨_, _, _, found, _⟩ := decoded
  simp only [getPrefixFromBech32, bind_eq_ok, require_eq_ok, fromOption_eq_ok, pure_eq_ok] at read
  obtain ⟨_, _, _, split, _, ⟨long, _⟩, rfl⟩ := read
  refine isBlank_of_printable (ne_nil_of_length_pos long) fun byte member => ?_
  exact printable text (by simp [found]) byte (beforeLast_subset split byte member)

theorem sendCoinToCosmosAccount_avoids (printable : PrintableBech32 ext)
    (decoded : ibcAddressFromBech32 ext claim.cosmosReceiver = .ok receiver)
    (native : context.nativeHrp ≠ none ∨ nativeHrpUnset ∉ messages) :
    Avoids messages (ledger.sendCoinToCosmosAccount ext context claim receiver coin) := by
  have sends : Avoids messages (do
      let next ← ledger.sendCoinToLocalAddress ext receiver coin
      pure (false, next) : Go (Bool × Ledger)) := by
    simp [Ledger.sendCoinToLocalAddress]
  simp only [Ledger.sendCoinToCosmosAccount, avoids_bind, avoids_getPrefixFromBech32,
    avoids_unwrap, true_and, avoids_ite]
  refine fun accountPrefix read => ⟨native, fun nativePrefix _ =>
    ⟨fun _ => avoids_bind.mp sends, fun _ => ?_⟩⟩
  split
  · exact sends
  · have queue : ∀ channel, Avoids messages
        (ledger.addToIbcAutoForwardQueue ext context accountPrefix coin channel claim) := by
      intro channel
      simp [Ledger.addToIbcAutoForwardQueue, accountPrefix_not_blank printable decoded read, read]
    unfold Ledger.forwardOrSend
    split
    · simp
    · rename_i message panics
      exact avoids_panicking.mpr (queue _ message panics)
    · exact sends

/-- The assertions hold after every attempt to send. -/
theorem SentOrQueued.assertBalance {queued : Bool}
    (sent : SentOrQueued ext claim ledger coin receiver queued next) :
    assertBalance ext queued coin ledger.bank next.bank = .ok () := by
  rcases sent with ⟨rfl, landed⟩ | ⟨rfl, channel, landed⟩
  · cases landed with
    | account held notBlocked =>
      have balance :=
        (PaidOut.of_move held (ne_gravityModule_of_notBlocked notBlocked)).balance coin.denom
      simp only [Coin.amountOf, if_true] at balance
      simp [Keeper.assertBalance, check, balance]
  · cases landed with
    | forward fresh => simp [Keeper.assertBalance, check]

theorem deliverDeposit_avoids (printable : PrintableBech32 ext) {receiver : Option AccAddress}
    (decoded : ∀ account, receiver = some account →
      ibcAddressFromBech32 ext claim.cosmosReceiver = .ok account)
    (native : context.nativeHrp ≠ none ∨ nativeHrpUnset ∉ messages) :
    Avoids messages (ledger.deliverDeposit ext context claim receiver coin) := by
  unfold Ledger.deliverDeposit
  split
  · simp [Ledger.depositToCommunityPool]
  · rename_i account
    split
    · rename_i queued next sent
      rw [(sendCoinToCosmosAccount_landed sent).assertBalance]
      simp
    · rename_i message panics
      exact avoids_panicking.mpr
        (sendCoinToCosmosAccount_avoids printable (decoded account rfl) native message panics)
    · simp [assertBalance, Ledger.depositToCommunityPool]

/-- A delivery fails only when the module account holds less than the coin. -/
theorem deliverDeposit_error {receiver : Option AccAddress} {cause : Err} (positive : 0 < coin.amount)
    (failed : ledger.deliverDeposit ext context claim receiver coin = .error (.error cause)) :
    ledger.bank.balances ext.gravityModule coin.denom < coin.amount := by
  have pools : ∀ {cause}, ledger.depositToCommunityPool ext coin = .error (.error cause) →
      ledger.bank.balances ext.gravityModule coin.denom < coin.amount := by
    intro cause failed
    by_contra held
    rw [not_lt] at held
    simp [Ledger.depositToCommunityPool, singleCoins, require, positive, Ledger.sendToCommunityPool,
      Bank.sendCoins, held, rewrap] at failed
  unfold Ledger.deliverDeposit at failed
  split at failed
  · exact pools failed
  · split at failed
    · rename_i sent
      rw [(sendCoinToCosmosAccount_landed sent).assertBalance] at failed
      simp at failed
    · simp [panicking] at failed
    · simp only [Keeper.assertBalance, check, if_true, ok_bind] at failed
      exact pools failed

/-! ## The handler -/

/-- The receiver that the handler tries. -/
def triedReceiver (ext : External) (params : Params) (claim : MsgSendToCosmosClaim)
    (sender : EthAddress) : Option AccAddress :=
  if params.isOnBlacklist sender then none
    else (ibcAddressFromBech32 ext claim.cosmosReceiver).toOption

theorem triedReceiver_eq_some {params : Params} {sender : EthAddress} {account : AccAddress}
    (tried : triedReceiver ext params claim sender = some account) :
    ibcAddressFromBech32 ext claim.cosmosReceiver = .ok account := by
  unfold triedReceiver at tried
  split_ifs at tried
  cases decoded : ibcAddressFromBech32 ext claim.cosmosReceiver with
  | ok address =>
    rw [decoded] at tried
    exact congrArg Except.ok (Option.some.inj tried)
  | error fault =>
    rw [decoded] at tried
    contradiction

theorem newEthAddress_of_validate (valid : validateEthAddress text = .ok ()) :
    ∃ address, newEthAddress text = .ok address := by
  simp only [newEthAddress, valid]
  exact ⟨_, rfl⟩

variable {token sender : EthAddress} {amount : Nat}

section

variable (lengths : validateClaimFieldLengths (.sendToCosmos claim) = .ok ())

include lengths

/-- The handler on a claim that passed its checks. -/
theorem handle_deposit_eq
    (parsedToken : newEthAddress claim.tokenContract = .ok token)
    (parsedSender : newEthAddress claim.ethereumSender = .ok sender) :
    ledger.handle ext context (.sendToCosmos claim) = (do
      let origin ← ledger.classifyAccepted ext token "token not whitelisted for SendToCosmos"
      let coin ← newCoin origin.denom claim.amount
      let minted ← ledger.mintIfEthereum ext origin coin
      minted.deliverDeposit ext context claim (triedReceiver ext context.params claim sender)
        coin) := by
  simp only [Ledger.handle, lengths, ok_bind, Ledger.handleSendToCosmos, parsedToken, rewrap,
    parsedSender]
  rfl

/-- An accepted deposit was minted if its token is Ethereum-originated, and credited once. -/
theorem deposit_credited
    (parsedToken : newEthAddress claim.tokenContract = .ok token)
    (parsedSender : newEthAddress claim.ethereumSender = .ok sender)
    (read : claim.amount = some ↑amount)
    (handled : ledger.handle ext context (.sendToCosmos claim) = .ok next) :
    ∃ origin destination, ledger.classifyERC20 ext token = .ok origin ∧
      Credited ext claim ledger ⟨origin.denom, amount⟩ (origin.origin == .ethereum) destination
        next := by
  rw [handle_deposit_eq lengths parsedToken parsedSender] at handled
  simp only [bind_eq_ok, classifyAccepted_eq_ok, newCoin_eq_ok] at handled
  obtain ⟨origin, ⟨classified, _, _⟩, _, ⟨_, value, readAgain, rfl⟩, minted, mints, delivered⟩ :=
    handled
  obtain rfl : value = amount := by simpa [readAgain] using read
  obtain ⟨destination, landed, tried⟩ := deliverDeposit_landed delivered
  refine ⟨origin, destination, classified, landed.credited ?_ fun account here =>
    triedReceiver_eq_some (tried account here)⟩
  unfold Ledger.mintIfEthereum at mints
  split at mints
  · rename_i ethereum
    rw [← (mintEthereumOriginatedVouchers_eq_ok.mp mints).2]
    simp [ethereum]
  · rename_i cosmos
    rw [← pure_eq_ok.mp mints]
    simp [cosmos]

/-- For an unregistered token the handler fails only without a classification or above 256 bits. -/
theorem deposit_error
    (parsedToken : newEthAddress claim.tokenContract = .ok token)
    (parsedSender : newEthAddress claim.ethereumSender = .ok sender)
    (read : claim.amount = some ↑amount) (positive : 0 < amount) {cause : Err}
    (failed : ledger.handle ext context (.sendToCosmos claim) = .error (.error cause))
    (unmapped : ledger.registry.erc20ToDenom.get token = none) :
    (∀ origin, ledger.classifyERC20 ext token ≠ .ok origin) ∨
      2 ^ 256 ≤ ledger.bank.supply (ledger.registry.voucherDenom ext token) + amount := by
  by_contra neither
  simp only [ne_eq, not_or, not_forall, not_not, not_le] at neither
  obtain ⟨⟨origin, classified⟩, bounded⟩ := neither
  obtain ⟨_, rfl⟩ := (classifyERC20_unmapped unmapped).mp classified
  have accepted : ledger.classifyAccepted ext token "token not whitelisted for SendToCosmos" =
      .ok _ :=
    classifyAccepted_eq_ok.mpr ⟨classified, strict_of_classifyERC20 classified, by simp⟩
  have coined : newCoin (ledger.registry.voucherDenom ext token) claim.amount =
      .ok ⟨ledger.registry.voucherDenom ext token, amount⟩ :=
    newCoin_eq_ok.mpr ⟨sdkValidateDenom_voucherDenom, amount, read, rfl⟩
  have minted : ledger.mintEthereumOriginatedVouchers ext ⟨ledger.registry.voucherDenom ext token,
      amount⟩ = .ok _ :=
    mintEthereumOriginatedVouchers_eq_ok.mpr ⟨bounded, rfl⟩
  rw [handle_deposit_eq lengths parsedToken parsedSender, accepted, ok_bind, coined,
    ok_bind] at failed
  simp only [Ledger.mintIfEthereum] at failed
  rw [minted, ok_bind] at failed
  have lacking := deliverDeposit_error positive failed
  simp [Bank.mint_balances, Coin.amountOf] at lacking

end

/-- The handler panics only without a native prefix, or on a registered denom that is not one of
the bank's. -/
theorem deposit_avoids (printable : PrintableBech32 ext)
    (lengths : validateClaimFieldLengths (.sendToCosmos claim) = .ok ())
    (parsedToken : newEthAddress claim.tokenContract = .ok token)
    (parsedSender : newEthAddress claim.ethereumSender = .ok sender)
    (read : claim.amount = some ↑amount)
    (native : context.nativeHrp ≠ none ∨ nativeHrpUnset ∉ messages)
    (valid : sdkValidateDenom (ledger.registry.denomOf ext token) = true ∨
      "invalid denom" ∉ messages) :
    Avoids messages (ledger.handle ext context (.sendToCosmos claim)) := by
  rw [handle_deposit_eq lengths parsedToken parsedSender]
  simp only [avoids_bind, avoids_classifyAccepted, true_and, classifyAccepted_eq_ok]
  rintro origin ⟨classified, _, _⟩
  have denom := (denom_of_classifyERC20 classified).1
  refine ⟨?_, fun coin _ => ⟨?_, fun minted _ => ?_⟩⟩
  · simp [newCoin, denom, read, valid, avoids_check]
  · unfold Ledger.mintIfEthereum
    split
    · by_cases bounded : ledger.bank.supply coin.denom + coin.amount < 2 ^ 256
      · rw [mintEthereumOriginatedVouchers_eq_ok.mpr ⟨bounded, rfl⟩]
        exact avoids_ok _
      · rw [Ledger.mintEthereumOriginatedVouchers, require, if_neg bounded]
        exact avoids_fail _
    · exact avoids_pure _
  · exact deliverDeposit_avoids printable (fun account tried => triedReceiver_eq_some tried) native

/-- A deposit of a positive amount that passed its checks is credited to one destination, or the
handler returns an error and the ledger stays as it was. For an Ethereum-originated token the error
means that the token has no classification or that its vouchers would need more than 256 bits. None
of the handler's assertions about balances panics; it panics only while the chain has no native
prefix, or over a registered denom that the bank does not accept. -/
theorem deposit_credited_once (printable : PrintableBech32 ext)
    (basic : claim.validateBasic ext = .ok ())
    (lengths : validateClaimFieldLengths (.sendToCosmos claim) = .ok ())
    (read : claim.amount = some ↑amount)
    (positive : 0 < amount) (context : Context) (ledger : Ledger) :
    ∃ token, newEthAddress claim.tokenContract = .ok token ∧
      ((∃ origin destination next, ledger.handle ext context (.sendToCosmos claim) = .ok next ∧
          ledger.classifyERC20 ext token = .ok origin ∧
          Credited ext claim ledger ⟨origin.denom, amount⟩ (origin.origin == .ethereum)
            destination next) ∨
        (∃ cause, ledger.handle ext context (.sendToCosmos claim) = .error (.error cause) ∧
          cached ledger (ledger.handle ext context (.sendToCosmos claim)) = .ok ledger ∧
          (ledger.registry.erc20ToDenom.get token = none →
            (∀ origin, ledger.classifyERC20 ext token ≠ .ok origin) ∨
              2 ^ 256 ≤ ledger.bank.supply (ledger.registry.voucherDenom ext token) + amount)) ∨
        (∃ message, ledger.handle ext context (.sendToCosmos claim) = .error (.panic message) ∧
          message ∉ depositAssertions ∧
          (context.nativeHrp = none ∨
            (∃ denom, ledger.registry.erc20ToDenom.get token = some denom ∧
              sdkValidateDenom denom = false)))) := by
  simp only [MsgSendToCosmosClaim.validateBasic, bind_eq_ok, rewrap_eq_ok, Unique.exists_iff] at basic
  obtain ⟨validSender, validToken, _⟩ := basic
  obtain ⟨token, parsedToken⟩ := newEthAddress_of_validate validToken
  obtain ⟨sender, parsedSender⟩ := newEthAddress_of_validate validSender
  refine ⟨token, parsedToken, ?_⟩
  cases handled : ledger.handle ext context (.sendToCosmos claim) with
  | ok next =>
      obtain ⟨origin, destination, classified, credited⟩ :=
        deposit_credited lengths parsedToken parsedSender read handled
      exact .inl ⟨origin, destination, next, rfl, classified, credited⟩
  | error fault =>
      cases fault with
      | error cause =>
          exact .inr (.inl ⟨cause, rfl, rfl,
            deposit_error lengths parsedToken parsedSender read positive handled⟩)
      | panic message =>
          refine .inr (.inr ⟨message, rfl, ?_, ?_⟩)
          · exact deposit_avoids printable lengths parsedToken parsedSender read
              (.inr (by simp [nativeHrpUnset, depositAssertions]))
                (.inr (by simp [depositAssertions])) message handled
          · by_contra neither
            simp only [not_or, not_exists, not_and, Bool.not_eq_false] at neither
            obtain ⟨native, valid⟩ := neither
            have accepted : sdkValidateDenom (ledger.registry.denomOf ext token) = true := by
              cases found : ledger.registry.erc20ToDenom.get token with
              | some denom => exact denomOf_mapped ext found ▸ valid denom found
              | none => exact denomOf_unmapped ext found ▸ sdkValidateDenom_voucherDenom
            have avoids : Avoids [message] (ledger.handle ext context (.sendToCosmos claim)) :=
              deposit_avoids printable lengths parsedToken parsedSender read (.inl native)
                (.inl accepted)
            exact avoids message handled List.mem_cons_self

/-- The local chain with a decoder that refuses blanks and control characters. -/
def printnet : External := { localnet with
  decodeBech32 := fun text => if text.all (33 ≤ ·) then localnet.decodeBech32 text else none }

theorem printnet_printable : PrintableBech32 printnet := by
  intro text decodes byte member
  simp only [printnet] at decodes
  split_ifs at decodes with printable
  · simpa using all_eq_true.mp printable byte member
  · contradiction

/-- A deposit to another chain, whose prefix has a channel. -/
def exampleForeignDeposit : MsgSendToCosmosClaim :=
  ⟨1, 100, hex localnet 5, some 30, hex localnet 9, ascii "cosmos1recipient",
    ascii "gravity1orchestrator"⟩

def exampleChannels : Context := { exampleGenesis.context with
  lastObservedEventNonce := 1
  hrpIbcRecords := KVStore.empty.set (ascii "cosmos") (ascii "channel-0") }

theorem exampleForeignDeposit_queued :
    ∃ (origin : AssetOrigin) (destination : Destination) (next : Ledger),
      exampleGenesis.ledger.handle printnet exampleChannels (.sendToCosmos exampleForeignDeposit) =
        .ok next ∧
      next.pendingIbcAutoForwards.values.map PendingIbcAutoForward.ibcChannel = [ascii "channel-0"] ∧
      Credited printnet exampleForeignDeposit exampleGenesis.ledger ⟨origin.denom, 30⟩
        (origin.origin == .ethereum) destination next := by
  have basic : exampleForeignDeposit.validateBasic printnet = .ok () := by decide +kernel
  have lengths : validateClaimFieldLengths (.sendToCosmos exampleForeignDeposit) = .ok () := by
    decide +kernel
  have read : exampleForeignDeposit.amount = some ↑(30 : Nat) := rfl
  have queued : (exampleGenesis.ledger.handle printnet exampleChannels
      (.sendToCosmos exampleForeignDeposit)).toOption.map
      (fun next => next.pendingIbcAutoForwards.values.map PendingIbcAutoForward.ibcChannel) =
        some [ascii "channel-0"] := by decide +kernel
  obtain ⟨_, _, ⟨origin, destination, next, handled, _, credited⟩ | ⟨_, failed, _⟩ |
      ⟨_, failed, _⟩⟩ :=
    deposit_credited_once printnet_printable basic lengths read (by decide) exampleChannels
      exampleGenesis.ledger
  · rw [handled] at queued
    exact ⟨origin, destination, next, handled, Option.some.inj queued, credited⟩
  · rw [failed] at queued
    contradiction
  · rw [failed] at queued
    contradiction

end GravityBridge.Keeper
