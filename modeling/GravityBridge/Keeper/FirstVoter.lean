import GravityBridge.Keeper.EventOrder
import GravityBridge.Keeper.HandlerSteps
import GravityBridge.Types.ClaimHash

/-!
# Who votes first

An attestation keeps the message of its first voter, and later voters only have to
agree with its components. The components sort and reprint the members of a
validator set, but the handler compares and stores them as the first voter wrote
them. Every other claim has the same effect whoever voted first.
-/

namespace GravityBridge.Keeper

open Lib.Fallible Lib.ByteString Lib.Store
open GravityBridge.Types

/-- The state with an attestation stored in it. -/
def State.storing (state : State) (key : AttestationKey) (att : Attestation) : State :=
  { state with oracle := { state.oracle with attestations := state.oracle.attestations.set key att } }

/-- Write another message into a stored attestation. -/
def State.withMessage (state : State) (key : AttestationKey) (claim : EthereumClaim) : State :=
  match state.oracle.attestations.get key with
  | some att => state.storing key { att with claim := claim }
  | none => state

/-- Two outcomes that differ at most in the message kept in the attestation. -/
def Agree (key : AttestationKey) (claim : EthereumClaim) (first second : Go State) : Prop :=
  Alike ((fun state => State.withMessage state key claim) <$> first)
    ((fun state => State.withMessage state key claim) <$> second)

/-- What processing an attestation comes to when its first voter sent the given message. -/
def State.processedAs (ext : External) (powers : PowerTable) (state : State) (key : AttestationKey)
    (att : Attestation) (claim : EthereumClaim) : Go State :=
  ((state.storing key { att with claim := claim }).tryAttestation ext powers
    { att with claim := claim }).2

/-- The two messages are hashed to one key and have the same components. -/
structure SameVote (ext : External) (first second : EthereumClaim) (hash : Bytes) : Prop where
  firstValid : first.validateBasic ext = .ok ()
  secondValid : second.validateBasic ext = .ok ()
  firstHash : first.claimHash ext = .ok hash
  secondHash : second.claimHash ext = .ok hash
  components : extractClaimHashComponents ext first = extractClaimHashComponents ext second

/-- The reward token is registered for a denom, and its supply has room for the reward. -/
def Mintable (ledger : Ledger) (token : EthAddress) (amount : Int) : Prop :=
  ∃ denom, ledger.registry.erc20ToDenom.get token = some denom ∧ validateStrictDenom denom = .ok () ∧
    sdkValidateDenom denom = true ∧ ledger.bank.supply denom + amount.toNat < 2 ^ 256

/-- The token has no origin: its registered denom breaks the naming rules, or its voucher has bank
metadata. -/
def Unclassified (ext : External) (ledger : Ledger) (token : EthAddress) : Prop :=
  match ledger.registry.erc20ToDenom.get token with
  | some denom => validateStrictDenom denom ≠ .ok ()
  | none => ledger.bank.denomMetaData (ledger.registry.voucherDenom ext token) ≠ none

/-- The claim gives no reward, or one that can be minted. -/
def Payable (ledger : Ledger) (claim : MsgValsetUpdatedClaim) : Prop :=
  ∃ amount, claim.rewardAmount = some amount ∧ (amount ≤ 0 ∨ claim.rewardToken = zeroAddressString ∨
    Mintable ledger (hexToAddress claim.rewardToken) amount)

/-- The reward stops the handler with an error, whose changes are dropped. -/
def RewardDropped (ext : External) (ledger : Ledger) (claim : MsgValsetUpdatedClaim) : Prop :=
  claim.rewardAmount ≠ none ∧ Unclassified ext ledger (hexToAddress claim.rewardToken)

/-- The handler tells two validator set messages apart: the members are written differently, and
it either stores them, or finds one of the two equal to the requested set and does not panic on
the reward. -/
def ToldApart (ext : External) (ledger : Ledger) (first second : MsgValsetUpdatedClaim) : Prop :=
  first.members ≠ second.members ∧
    ((first.valsetNonce = 0 ∧ Payable ledger first) ∨
      (first.valsetNonce ≠ 0 ∧ ∃ trusted, ledger.valsets.requests.get first.valsetNonce.val =
        some trusted ∧
        (trusted = claimSet first trusted.height ∨ trusted = claimSet second trusted.height) ∧
        (Payable ledger first ∨ RewardDropped ext ledger first)))

variable {ext : External} {ledger : Ledger} {context : Context} {first second : EthereumClaim}
  {hash : Bytes} {claim : EthereumClaim} {components : ClaimHashComponents}

/-! ## Equal components leave the signer and the members free -/

/-- The kind of claim that components were taken from. -/
def componentsType : ClaimHashComponents → ClaimType
  | .sendToCosmos .. => .sendToCosmos
  | .batchSendToEth .. => .batchSendToEth
  | .erc20Deployed .. => .erc20Deployed
  | .logicCallExecuted .. => .logicCallExecuted
  | .valsetUpdated .. => .valsetUpdated

theorem componentsType_eq (extracted : extractClaimHashComponents ext claim = .ok components) :
    componentsType components = claim.getType := by
  cases claim with
  | valsetUpdated msg =>
    simp only [extractClaimHashComponents, bind_eq_ok, pure_eq_ok] at extracted
    obtain ⟨_, _, rfl⟩ := extracted
    rfl
  | sendToCosmos msg => exact (pure_eq_ok.mp extracted) ▸ rfl
  | batchSendToEth msg => exact (pure_eq_ok.mp extracted) ▸ rfl
  | erc20Deployed msg => exact (pure_eq_ok.mp extracted) ▸ rfl
  | logicCallExecuted msg => exact (pure_eq_ok.mp extracted) ▸ rfl

theorem components_of_claimHash (hashed : claim.claimHash ext = .ok hash) :
    ∃ components, extractClaimHashComponents ext claim = .ok components := by
  cases claim with
  | valsetUpdated msg =>
    simp only [EthereumClaim.claimHash, EthereumClaim.path, MsgValsetUpdatedClaim.path, bind_eq_ok,
      rewrap_eq_ok, pure_eq_ok] at hashed
    obtain ⟨_, ⟨members, canonical, _⟩, _⟩ := hashed
    exact ⟨_, by simp [extractClaimHashComponents, canonical, rewrap]; rfl⟩
  | sendToCosmos msg => exact ⟨_, rfl⟩
  | batchSendToEth msg => exact ⟨_, rfl⟩
  | erc20Deployed msg => exact ⟨_, rfl⟩
  | logicCallExecuted msg => exact ⟨_, rfl⟩


/-- Messages that differ only in how members are written. -/
def Rewritten (left right : MsgValsetUpdatedClaim) : Prop :=
  right = { left with members := right.members, orchestrator := right.orchestrator }

/-- The handler does the same with either message, neither of which is a validator set. -/
structure Interchangeable (ext : External) (first second : EthereumClaim) : Prop where
  notValset : ∀ msg, first ≠ .valsetUpdated msg
  handled : ∀ context ledger, Ledger.handle ext context ledger first =
    Ledger.handle ext context ledger second
  eventNonce : first.getEventNonce = second.getEventNonce
  height : first.getEthBlockHeight = second.getEthBlockHeight

/-- Messages of the same vote have the same kind, and differ only in the signer and, for validator
sets, in how the members are written. -/
theorem SameVote.shape (same : SameVote ext first second hash) :
    (∃ left right, first = .valsetUpdated left ∧ second = .valsetUpdated right ∧
      Rewritten left right) ∨ Interchangeable ext first second := by
  obtain ⟨components, extracted⟩ := components_of_claimHash same.firstHash
  have extractedToo := same.components.symm.trans extracted
  have types := (componentsType_eq extracted).symm.trans (componentsType_eq extractedToo)
  cases first <;> cases second <;> simp only [EthereumClaim.getType, reduceCtorEq] at types
  case valsetUpdated.valsetUpdated left right =>
    refine .inl ⟨left, right, rfl, rfl, ?_⟩
    simp only [extractClaimHashComponents, bind_eq_ok, pure_eq_ok] at extracted extractedToo
    obtain ⟨members, _, rfl⟩ := extracted
    obtain ⟨others, _, matching⟩ := extractedToo
    simp only [ClaimHashComponents.valsetUpdated.injEq] at matching
    obtain ⟨events, nonces, heights, _, amounts, tokens⟩ := matching
    have amountsSame := amountString_injective amounts
    cases left
    cases right
    simp_all [Rewritten]
  -- The components are the fields that the handler reads.
  all_goals
    rename_i left right
    refine .inr ?_
    have matching := (pure_eq_ok.mp extractedToo).trans (pure_eq_ok.mp extracted).symm
    cases left
    cases right
    injection matching
  case sendToCosmos.sendToCosmos amounts _ _ =>
    obtain rfl := amountString_injective amounts
    subst_vars
    exact ⟨by simp, fun _ _ => rfl, rfl, rfl⟩
  case logicCallExecuted.logicCallExecuted events heights _ _ =>
    exact ⟨by simp, fun _ _ => rfl, events.symm, heights.symm⟩
  all_goals
    subst_vars
    exact ⟨by simp, fun _ _ => rfl, rfl, rfl⟩

/-! ## The handler on the two messages of a validator set -/

variable {left right : MsgValsetUpdatedClaim} {amount : Int}

/-- The reward does not look at the observed set. -/
theorem mintReward_setLastObservedValset (ledger : Ledger) (valset : Valset) (token : EthAddress) :
    (ledger.setLastObservedValset valset).mintReward ext left token =
      (fun next : Ledger => next.setLastObservedValset valset) <$>
        ledger.mintReward ext left token := by
  have classified : (ledger.setLastObservedValset valset).classifyERC20 ext token =
      ledger.classifyERC20 ext token := rfl
  have bank : (ledger.setLastObservedValset valset).bank = ledger.bank := rfl
  unfold Ledger.mintReward
  rw [classified, bank]
  rcases left.rewardAmount with _ | amount
  · rfl
  · simp only [unwrap, ok_bind]
    split_ifs with paid
    · rcases ledger.classifyERC20 ext token with ⟨_ | _⟩ | origin
      · rfl
      · rfl
      · simp only [rewrap, ok_bind]
        rcases validateStrictDenom origin.denom with _ | _
        · rfl
        · rcases origin.origin with _ | _
          · rcases newCoin origin.denom (some amount) with _ | coin
            · rfl
            · simp only [ok_bind]
              rcases ledger.bank.mintCoins ext.gravityModule coin with _ | _
              · rfl
              · rfl
          · rfl
    · rfl

theorem unclassified_iff {token : EthAddress} :
    Unclassified ext ledger token ↔ ∃ cause, ledger.classifyERC20 ext token =
      .error (.error cause) := by
  have classified : Unclassified ext ledger token ↔
      ∀ origin, ledger.classifyERC20 ext token ≠ .ok origin := by
    unfold Unclassified
    cases found : ledger.registry.erc20ToDenom.get token with
    | some denom => simp [classifyERC20_mapped found]
    | none => simp [classifyERC20_unmapped found]
  rw [classified]
  cases result : ledger.classifyERC20 ext token with
  | ok origin => simp
  | error fault =>
    cases fault with
    | error cause => simp
    | panic message =>
      exact absurd (List.mem_singleton_self message) (avoids_classifyERC20 message result)

/-- A reward that is due is minted, or an error, or a panic. -/
theorem mintReward_due (read : left.rewardAmount = some amount)
    (due : 0 < amount ∧ left.rewardToken ≠ zeroAddressString) (token : EthAddress) :
    (Mintable ledger token amount ∧ ∃ next, ledger.mintReward ext left token = .ok next) ∨
      (Unclassified ext ledger token ∧ ∃ cause, ledger.mintReward ext left token =
        .error (.error cause)) ∨
      (¬ Mintable ledger token amount ∧ ¬ Unclassified ext ledger token ∧
        ∃ message, ledger.mintReward ext left token = .error (.panic message)) := by
  unfold Ledger.mintReward
  rw [read, unwrap, ok_bind, if_pos due]
  by_cases unclassified : Unclassified ext ledger token
  · obtain ⟨cause, failed⟩ := unclassified_iff.mp unclassified
    rw [failed]
    exact .inr (.inl ⟨unclassified, _, rfl⟩)
  · cases found : ledger.registry.erc20ToDenom.get token with
    | none =>
      have fresh : ledger.bank.denomMetaData (ledger.registry.voucherDenom ext token) = none := by
        simpa [Unclassified, found] using unclassified
      have classified := (classifyERC20_unmapped found).mpr ⟨fresh, rfl⟩
      simp only [classified, rewrap, ok_bind, strict_of_classifyERC20 classified]
      exact .inr (.inr ⟨by simp [Mintable, found], unclassified, _, rfl⟩)
    | some denom =>
      have strict : validateStrictDenom denom = .ok () := by
        simpa [Unclassified, found] using unclassified
      simp only [(classifyERC20_mapped found).mpr ⟨strict, rfl⟩, rewrap, ok_bind, strict]
      by_cases fits : sdkValidateDenom denom = true ∧
        ledger.bank.supply denom + amount.toNat < 2 ^ 256
      · refine .inl ⟨⟨denom, found, strict, fits⟩,
          { ledger with bank := ledger.bank.mint ext.gravityModule ⟨denom, amount.toNat⟩ }, ?_⟩
        simp only [bind_eq_ok, newCoin_eq_ok, Bank.mintCoins_eq_ok, pure_eq_ok]
        exact ⟨_, ⟨fits.1, amount.toNat, by rw [Int.toNat_of_nonneg due.1.le], rfl⟩, _,
          ⟨fits.2, rfl⟩, rfl⟩
      · refine .inr (.inr ⟨by simpa [Mintable, found, strict] using fits, unclassified, ?_⟩)
        simp only [newCoin, unwrap, Bank.mintCoins, check]
        by_cases valid : sdkValidateDenom denom = true
        · rw [if_pos valid, ok_bind, ok_bind, if_pos due.1.le, ok_bind, pure_bind]
          rw [if_neg fun room => fits ⟨valid, room⟩]
          exact ⟨_, rfl⟩
        · rw [if_neg valid]
          exact ⟨_, rfl⟩

/-- The outcome of the reward, from the claim and the state before the handler. -/
theorem mintReward_cases_of_claim (ext : External) (ledger : Ledger) (left : MsgValsetUpdatedClaim) :
    (Payable ledger left ∧ ∃ next, ledger.mintReward ext left (hexToAddress left.rewardToken) =
      .ok next) ∨ (¬ Payable ledger left ∧ RewardDropped ext ledger left ∧
        ∃ cause, ledger.mintReward ext left (hexToAddress left.rewardToken) = .error (.error cause)) ∨
      (¬ Payable ledger left ∧ ¬ RewardDropped ext ledger left ∧
        ∃ message, ledger.mintReward ext left (hexToAddress left.rewardToken) =
          .error (.panic message)) := by
  cases read : left.rewardAmount with
  | none =>
    refine .inr (.inr ⟨by simp [Payable, read], by simp [RewardDropped, read],
      "nil reward amount", ?_⟩)
    rw [Ledger.mintReward, read]
    rfl
  | some amount =>
    have due_iff : 0 < amount ∧ left.rewardToken ≠ zeroAddressString ↔
        ¬ (amount ≤ 0 ∨ left.rewardToken = zeroAddressString) := by
      rw [not_or, not_le]
    by_cases undue : amount ≤ 0 ∨ left.rewardToken = zeroAddressString
    · refine .inl ⟨⟨amount, read, or_assoc.mp (.inl undue)⟩, ledger, ?_⟩
      simp only [Ledger.mintReward, read, unwrap, ok_bind, if_neg fun due => due_iff.mp due undue]
      rfl
    · have payable : Payable ledger left ↔
          Mintable ledger (hexToAddress left.rewardToken) amount := by
        simp only [Payable, read, Option.some.injEq, exists_eq_left', ← or_assoc, undue, false_or]
      have dropped : RewardDropped ext ledger left ↔
          Unclassified ext ledger (hexToAddress left.rewardToken) := by
        simp [RewardDropped, read]
      rw [payable, dropped]
      rcases mintReward_due read (due_iff.mpr undue) (hexToAddress left.rewardToken) with
        paid | failed | panics
      · exact .inl paid
      · refine .inr (.inl ⟨?_, failed⟩)
        rintro ⟨denom, found, strict, _⟩
        have broken := failed.1
        simp only [Unclassified, found] at broken
        exact broken strict
      · exact .inr (.inr panics)

/-- What is left of the handler on a validator set whose reward token reads as an address. -/
theorem handle_valset (valid : (EthereumClaim.valsetUpdated left).validateBasic ext = .ok ()) :
    ledger.handle ext context (.valsetUpdated left) =
      ledger.observeValset left >>= fun observed =>
        observed.mintReward ext left (hexToAddress left.rewardToken) := by
  simp only [EthereumClaim.validateBasic, MsgValsetUpdatedClaim.validateBasic, bind_eq_ok] at valid
  obtain ⟨_, _, _, _, _, token, _⟩ := valid
  have parsed : newEthAddress left.rewardToken = .ok (hexToAddress left.rewardToken) :=
    newEthAddress_eq_ok.mpr ⟨token, rfl⟩
  have short : left.rewardToken.length ≤ ethContractAddressLen :=
    (length_of_validateEthAddress token).2
  simp only [Ledger.handle, validateClaimFieldLengths, validateERC20AddressField, token,
    Ledger.handleValsetUpdated, parsed, rewrap, ok_bind, require, if_pos short]

/-- The sets that the two messages describe differ exactly in their members. -/
theorem Rewritten.claimSet_eq_iff (rewritten : Rewritten left right) (height : Nat) :
    claimSet left height = claimSet right height ↔ left.members = right.members := by
  rw [rewritten]
  simp [claimSet]

/-- The handler's outcome once the observed set is stored, before the reward. -/
def observedThenPaid (ext : External) (ledger : Ledger) (msg : MsgValsetUpdatedClaim)
    (height : Nat) : Go Ledger :=
  (fun next : Ledger => next.setLastObservedValset (claimSet msg height)) <$>
    ledger.mintReward ext msg (hexToAddress msg.rewardToken)

theorem handle_valset_zero (valid : (EthereumClaim.valsetUpdated left).validateBasic ext = .ok ())
    (zero : left.valsetNonce = 0) :
    ledger.handle ext context (.valsetUpdated left) = observedThenPaid ext ledger left 0 := by
  rw [handle_valset valid, Ledger.observeValset, if_pos zero]
  exact mintReward_setLastObservedValset ledger _ _

theorem handle_valset_trusted (valid : (EthereumClaim.valsetUpdated left).validateBasic ext = .ok ())
    (nonzero : left.valsetNonce ≠ 0) {trusted : Valset}
    (known : ledger.valsets.requests.get left.valsetNonce.val = some trusted) :
    ledger.handle ext context (.valsetUpdated left) =
      if trusted = claimSet left trusted.height then observedThenPaid ext ledger left trusted.height
      else
        panicking "Potential bridge highjacking: observed valset does not match stored valset!" := by
  rw [handle_valset valid, Ledger.observeValset, if_neg nonzero, known]
  simp only [fromOption, ok_bind, check]
  split_ifs with same
  · exact mintReward_setLastObservedValset ledger _ _
  · rfl

/-- Storing two sets and paying the same reward gives the same ledger exactly when the sets are
equal or the reward stops both. -/
theorem alike_observedThenPaid (rewritten : Rewritten left right) (height : Nat) :
    Alike (cached ledger (observedThenPaid ext ledger left height))
        (cached ledger (observedThenPaid ext ledger right height)) ↔
      (left.members = right.members ∨ ¬ Payable ledger left) := by
  have tokens : right.rewardToken = left.rewardToken := by rw [rewritten]
  have rewards : ledger.mintReward ext right = ledger.mintReward ext left := by
    rw [rewritten]
    rfl
  unfold observedThenPaid
  rw [tokens, rewards]
  rcases mintReward_cases_of_claim ext ledger left with ⟨payable, next, ran⟩ | ⟨unpaid, _, _, ran⟩ |
    ⟨unpaid, _, _, ran⟩
  · simp only [ran, cached, Functor.map, Except.map, alike_ok, payable, not_true_eq_false, or_false]
    rw [← rewritten.claimSet_eq_iff height]
    constructor
    · intro same
      have valsets := congrArg (fun ledger : Ledger => ledger.valsets.lastObservedValset) same
      exact Option.some.inj valsets
    · intro same
      rw [same]
  · simp [ran, cached, Functor.map, Except.map, unpaid]
  · simp [ran, cached, Functor.map, Except.map, unpaid]

/-- A set that is stored is told from a panic unless the reward panics too. -/
theorem alike_panicking (ext : External) (ledger : Ledger) (msg : MsgValsetUpdatedClaim)
    (height : Nat) (message : String) :
    (Alike (cached ledger (observedThenPaid ext ledger msg height))
      (cached ledger (panicking message)) ↔ ¬ (Payable ledger msg ∨ RewardDropped ext ledger msg)) ∧
    (Alike (cached ledger (panicking message))
      (cached ledger (observedThenPaid ext ledger msg height)) ↔
      ¬ (Payable ledger msg ∨ RewardDropped ext ledger msg)) := by
  unfold observedThenPaid
  rcases mintReward_cases_of_claim ext ledger msg with ⟨paid, _, ran⟩ | ⟨_, dropped, _, ran⟩ |
    ⟨unpaid, kept, _, ran⟩
  · simp [ran, cached, Functor.map, Except.map, panicking, paid]
  · simp [ran, cached, Functor.map, Except.map, panicking, dropped]
  · simp [ran, cached, Functor.map, Except.map, panicking, unpaid, kept]

/-- Of two messages at most one matches the requested set, unless they write the same members. -/
theorem alike_trusted (rewritten : Rewritten left right) (trusted : Valset) (message : String) : Alike
        (cached ledger (if trusted = claimSet left trusted.height then
          observedThenPaid ext ledger left trusted.height else panicking message))
        (cached ledger (if trusted = claimSet right trusted.height then
          observedThenPaid ext ledger right trusted.height else panicking message)) ↔
      ¬ (left.members ≠ right.members ∧
        (trusted = claimSet left trusted.height ∨ trusted = claimSet right trusted.height) ∧
        (Payable ledger left ∨ RewardDropped ext ledger left)) := by
  have sets := rewritten.claimSet_eq_iff trusted.height
  by_cases members : left.members = right.members
  · rw [← sets.mpr members]
    simp only [members, ne_eq, not_true_eq_false, false_and, not_false_eq_true, iff_true]
    split_ifs with same
    · exact (alike_observedThenPaid rewritten _).mpr (.inl members)
    · exact Alike.refl _
  · by_cases first : trusted = claimSet left trusted.height
    · have second : trusted ≠ claimSet right trusted.height := fun same =>
        members (sets.mp (first.symm.trans same))
      rw [if_pos first, if_neg second, (alike_panicking ext ledger left _ _).1]
      simp only [ne_eq, members, not_false_eq_true, true_and, or_iff_left second, ← first]
    · have reward : Payable ledger right ∨ RewardDropped ext ledger right ↔
          Payable ledger left ∨ RewardDropped ext ledger left := by
        rw [rewritten]
        rfl
      rw [if_neg first]
      split_ifs with second
      · rw [(alike_panicking ext ledger right _ _).2, reward]
        simp only [ne_eq, members, not_false_eq_true, true_and, or_iff_right first, ← second]
      · simp [first, second, cached, panicking]

theorem alike_handle_iff (rewritten : Rewritten left right)
    (leftValid : (EthereumClaim.valsetUpdated left).validateBasic ext = .ok ())
    (rightValid : (EthereumClaim.valsetUpdated right).validateBasic ext = .ok ()) :
    Alike (cached ledger (ledger.handle ext context (.valsetUpdated left)))
        (cached ledger (ledger.handle ext context (.valsetUpdated right))) ↔
          ¬ ToldApart ext ledger left right := by
  have nonces : right.valsetNonce = left.valsetNonce := by rw [rewritten]
  unfold ToldApart
  by_cases zero : left.valsetNonce = 0
  · rw [handle_valset_zero leftValid zero, handle_valset_zero rightValid (nonces.trans zero),
      alike_observedThenPaid rewritten]
    simp only [zero, ne_eq, not_true_eq_false, false_and, or_false, true_and, not_and]
    exact or_iff_not_imp_left
  · cases known : ledger.valsets.requests.get left.valsetNonce.val with
    | none =>
      simp [handle_valset leftValid, handle_valset rightValid, Ledger.observeValset, nonces, zero,
        known, fromOption, fail, cached]
    | some trusted =>
      rw [handle_valset_trusted leftValid zero known,
        handle_valset_trusted rightValid (nonces ▸ zero) (nonces ▸ known), alike_trusted rewritten]
      simp [zero]

/-! ## Processing the attestation -/

variable {powers : PowerTable} {state : State} {att : Attestation} {key : AttestationKey}

/-- The state in which the handler's result is kept. -/
def State.processed (state : State) (key : AttestationKey) (att : Attestation)
    (ledger : Ledger) : State :=
  { (state.storing key att).observe key att with ledger := ledger }

/-- At quorum the handler runs once on the message of the first voter, unless the message would
lower the Ethereum height, and the event that names the bridge contract is emitted. -/
theorem tryAttestation_stored (att : Attestation) (hashed : att.claim.claimHash ext = .ok hash)
    (keyed : key = getAttestationKey att.claim.getEventNonce hash)
    (unobserved : att.observed = false) (quorum : powers.passes 0 att.votes = true)
    (following : att.claim.getEventNonce.val = state.oracle.lastObservedEventNonce + 1) :
    ((state.storing key att).tryAttestation ext powers att).2 = if Forward state att then
        (state.processed key att <$> cached state.ledger (state.ledger.handle ext
          (state.processed key att state.ledger).context att.claim)) >>= State.emitObservedEvent
      else panicking "Attempt to roll back Ethereum block height!" := by
  have stored : (state.storing key att).tryAttestation ext powers att = if Forward state att then
      ([att.claim],
        ((state.storing key att).observe key att).processAttestation ext att.claim >>=
          State.emitObservedEvent)
      else ([], panicking "Attempt to roll back Ethereum block height!") :=
    keyed ▸ tryAttestation_eq hashed unobserved following quorum
  rw [stored]
  split_ifs with forward
  · change (cached state.ledger
      (state.ledger.handle ext (state.processed key att state.ledger).context att.claim) >>=
      _) >>= State.emitObservedEvent = _
    rcases cached state.ledger
      (state.ledger.handle ext (state.processed key att state.ledger).context att.claim) with _ | _
    · rfl
    · rfl
  · rfl

/-- The event is emitted for every state that processing can end in, or for none. -/
theorem emitObservedEvent_processed (state : State) (key : AttestationKey) (att : Attestation)
    (result : Go Ledger) : (state.processed key att <$> result) >>= State.emitObservedEvent =
      if state.params.NamesBridge then state.processed key att <$> result
      else result >>= fun _ => panicking "failed to parse bridge ethereum address" := by
  cases result with
  | error fault => split_ifs <;> rfl
  | ok ledger =>
    split_ifs with named
    · exact State.emitObservedEvent_eq_ok.mpr ⟨named, rfl⟩
    · exact (state.processed key att ledger).emitObservedEvent_of_not_namesBridge named

/-- After processing, only the kept message tells the two states apart, besides the ledgers. -/
theorem processed_withMessage_eq_iff
    {other : Ledger} (nonces : first.getEventNonce = second.getEventNonce)
    (heights : first.getEthBlockHeight = second.getEthBlockHeight) :
    (state.processed key { att with claim := first } ledger).withMessage key claim =
        (state.processed key { att with claim := second } other).withMessage key claim ↔
          ledger = other := by
  have spelled : ∀ (message : EthereumClaim) (result : Ledger),
      (state.processed key { att with claim := message } result).withMessage key claim = { state with
          ledger := result
          oracle := ⟨state.oracle.attestations.set key { att with claim := claim, observed := true },
            state.oracle.lastEventNonceByValidator, message.getEventNonce.val,
            ⟨state.blockHeight, message.getEthBlockHeight.val⟩⟩ } := by
    intro message result
    simp [State.processed, State.withMessage, State.observe, State.storing]
  rw [spelled, spelled, nonces, heights]
  constructor
  · intro same
    exact congrArg State.ledger same
  · intro same
    rw [same]

/-- Comparing the processed states comes down to comparing what the handler does. -/
theorem agree_iff (same : SameVote ext first second hash)
    (nonces : first.getEventNonce = second.getEventNonce)
    (heights : first.getEthBlockHeight = second.getEthBlockHeight) (unobserved : att.observed = false)
    (quorum : powers.passes 0 att.votes = true)
    (following : first.getEventNonce.val = state.oracle.lastObservedEventNonce + 1) :
    Agree (getAttestationKey first.getEventNonce hash) first
        (state.processedAs ext powers (getAttestationKey first.getEventNonce hash) att first)
        (state.processedAs ext powers (getAttestationKey first.getEventNonce hash) att second) ↔
      (state.params.NamesBridge →
        state.oracle.lastObservedEthereumBlockHeight.ethereumBlockHeight ≤
          first.getEthBlockHeight.val → Alike (cached state.ledger (state.ledger.handle ext
            (state.processed (getAttestationKey first.getEventNonce hash) { att with claim := first }
              state.ledger).context first))
          (cached state.ledger (state.ledger.handle ext
            (state.processed (getAttestationKey first.getEventNonce hash) { att with claim := first }
              state.ledger).context second))) := by
  set key := getAttestationKey first.getEventNonce hash with keyed
  have contexts : (state.processed key { att with claim := second } state.ledger).context =
      (state.processed key { att with claim := first } state.ledger).context := by
    simp [State.context, State.processed, State.observe, State.storing, nonces, heights]
  have firstRun :=
    tryAttestation_stored { att with claim := first } same.firstHash keyed unobserved quorum
    following
  have secondRun :=
    tryAttestation_stored { att with claim := second } same.secondHash (nonces ▸ keyed)
    unobserved quorum (nonces ▸ following)
  unfold Agree State.processedAs
  rw [firstRun, secondRun, contexts, emitObservedEvent_processed, emitObservedEvent_processed]
  unfold Forward
  simp only [← heights]
  generalize cached state.ledger (state.ledger.handle ext _ first) = left
  generalize cached state.ledger (state.ledger.handle ext _ second) = right
  split_ifs with forward named
  · simp only [forward, named, true_imp_iff]
    rcases left with _ | ledger <;> rcases right with _ | other
    · exact Iff.rfl
    · exact Iff.rfl
    · exact Iff.rfl
    · exact processed_withMessage_eq_iff nonces heights
  · -- Without the address of the bridge both runs panic at the latest on the event.
    simp only [named, false_imp_iff, iff_true]
    cases left <;> cases right <;> exact trivial
  · simp only [forward, false_imp_iff, implies_true, iff_true]
    exact Alike.refl _

/-- At quorum, and whatever the state: who voted first makes no difference, except when the two
wrote the members of a validator set differently and the handler tells them apart, in a chain that
knows the address of its bridge. -/
theorem firstVoter_irrelevant_iff (same : SameVote ext first second hash)
    (unobserved : att.observed = false) (quorum : powers.passes 0 att.votes = true)
    (following : first.getEventNonce.val = state.oracle.lastObservedEventNonce + 1) :
    Agree (getAttestationKey first.getEventNonce hash) first
        (state.processedAs ext powers (getAttestationKey first.getEventNonce hash) att first)
        (state.processedAs ext powers (getAttestationKey first.getEventNonce hash) att second) ↔
      ¬ (state.params.NamesBridge ∧
        state.oracle.lastObservedEthereumBlockHeight.ethereumBlockHeight ≤
          first.getEthBlockHeight.val ∧
        ∃ left right, first = .valsetUpdated left ∧ second = .valsetUpdated right ∧
          ToldApart ext state.ledger left right) := by
  rcases same.shape with ⟨left, right, rfl, rfl, rewritten⟩ | alike
  · have nonces : left.eventNonce = right.eventNonce := by rw [rewritten]
    have heights : left.ethBlockHeight = right.ethBlockHeight := by rw [rewritten]
    rw [agree_iff same nonces heights unobserved quorum following,
      alike_handle_iff rewritten same.firstValid same.secondValid, not_and, not_and]
    refine imp_congr_right fun _ => imp_congr_right fun _ =>
      not_congr ⟨fun apart => ⟨left, right, rfl, rfl, apart⟩, ?_⟩
    rintro ⟨_, _, sameLeft, sameRight, apart⟩
    cases sameLeft
    cases sameRight
    exact apart
  · rw [agree_iff same alike.eventNonce alike.height unobserved quorum following, alike.handled,
      not_and, not_and]
    refine imp_congr_right fun _ => imp_congr_right fun _ => iff_of_true (Alike.refl _) ?_
    rintro ⟨left, _, valset, _⟩
    exact alike.notValset left valset

/-! ## A message that stops the chain -/

/-- The claim that the first requested set, of one validator with the given address, was accepted. -/
def relayedValset (address : Bytes) : EthereumClaim :=
  .valsetUpdated ⟨1, 1, 100, [⟨4294967296, address⟩], some 0, hex localnet 0,
    ascii "gravity1orchestrator"⟩

def requestLabels : List Label :=
  [.endBlock (soleValidator (ascii "validator") 10) (soleBonded 10 mixedCaseAddress)]

theorem requestLabels_ran : (execute localnet requestLabels exampleGenesis).isSome = true := by
  decide +kernel

/-- The chain after its first block, which requested a validator set. -/
def requested : State := ((execute localnet requestLabels exampleGenesis).get requestLabels_ran).2

/-- The claim with the address as the chain prints it. -/
def relayedAsRequested : EthereumClaim := relayedValset (hex localnet mixedCaseAddress)

def relayedInCapitals : EthereumClaim := relayedValset upperCaseAddress

def relayedPath : Bytes := (relayedAsRequested.path localnet).toOption.getD []

def relayedAttestation : Attestation where
  observed := false
  votes := [ascii "validator"]
  height := 2
  claim := relayedAsRequested
  claimType := .valsetUpdated
  claimComponents :=
    .valsetUpdated 1 1 100 [⟨4294967296, hex localnet mixedCaseAddress⟩] (ascii "0") (hex localnet 0)

theorem relayed_sameVote :
    SameVote localnet relayedAsRequested relayedInCapitals relayedPath :=
  ⟨by decide +kernel, by decide +kernel, by decide +kernel, by decide +kernel, by decide +kernel⟩

/-- What processing comes to when the first voter sent the given message. -/
def relayedAs (claim : EthereumClaim) : Go State :=
  requested.processedAs localnet (soleValidator (ascii "validator") 10)
    (getAttestationKey 1 relayedPath) relayedAttestation claim

theorem relayed_irrelevant_iff :
    Agree (getAttestationKey 1 relayedPath) relayedAsRequested (relayedAs relayedAsRequested)
        (relayedAs relayedInCapitals) ↔
      ¬ (requested.params.NamesBridge ∧
        requested.oracle.lastObservedEthereumBlockHeight.ethereumBlockHeight ≤
          relayedAsRequested.getEthBlockHeight.val ∧
        ∃ left right, relayedAsRequested = .valsetUpdated left ∧
          relayedInCapitals = .valsetUpdated right ∧
            ToldApart localnet requested.ledger left right) :=
  firstVoter_irrelevant_iff relayed_sameVote rfl (by decide +kernel) (by decide +kernel)

/-- When the first voter writes the address in capitals, the vote of everyone ends in a panic; when
the first voter does not, the event is applied. -/
theorem capitalAddress_stops :
    SameVote localnet relayedAsRequested relayedInCapitals relayedPath ∧
      succeeds (relayedAs relayedAsRequested) = true ∧
      succeeds (relayedAs relayedInCapitals) = false ∧
      ¬ Agree (getAttestationKey 1 relayedPath) relayedAsRequested (relayedAs relayedAsRequested)
        (relayedAs relayedInCapitals) := by
  have applied : succeeds (relayedAs relayedAsRequested) = true := by decide +kernel
  have stopped : succeeds (relayedAs relayedInCapitals) = false := by decide +kernel
  refine ⟨relayed_sameVote, applied, stopped, fun agree => ?_⟩
  have outcomes := Alike.succeeds_eq agree
  rw [succeeds_map, succeeds_map, applied, stopped] at outcomes
  contradiction

end GravityBridge.Keeper
