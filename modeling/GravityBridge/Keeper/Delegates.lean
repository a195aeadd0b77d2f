import GravityBridge.Keeper.MsgServer
import GravityBridge.Types.EthereumSigner

/-!
# Delegate keys

A validator registers once, with the account that votes for it and the Ethereum
address that signs for it. The confirms of checkpoints are verified against these
keys and against the state of the validator in the staking module.
-/

namespace GravityBridge.Keeper

open Lib.Fallible Lib.ByteString Lib.Store
open GravityBridge.Types KVStore

/-! ## Validators -/

inductive BondStatus where
  | unbonded | unbonding | bonded
  deriving DecidableEq, Repr

/-- A validator of the staking module, with the start height of its signing info. -/
structure Validator where
  operator : ValAddress
  status : BondStatus
  jailed : Bool
  startHeight : Int
  deriving DecidableEq, Repr

/-- The validators under their operator addresses, and the bonded ones by power. -/
structure Staking where
  validators : KVStore ValAddress Validator
  bondedByPower : List ValAddress
  keyed : ∀ operator validator, validators.get operator = some validator →
    validator.operator = operator
  bonded : ∀ operator ∈ bondedByPower, ∃ validator, validators.get operator = some validator ∧
    validator.status = .bonded
  distinct : bondedByPower.Nodup

/-- One bonded validator. -/
def soleStaking (operator : ValAddress) (startHeight : Int) : Staking where
  validators := KVStore.empty.set operator ⟨operator, .bonded, false, startHeight⟩
  bondedByPower := [operator]
  keyed other validator found := by
    rw [KVStore.get_set] at found
    split_ifs at found with same
    · rw [← Option.some.inj found, same]
    · simp at found
  bonded := by simp
  distinct := by simp

/-! ## The three indexes -/

structure Delegates where
  validatorByOrchestrator : KVStore AccAddress ValAddress
  ethAddressByValidator : KVStore ValAddress EthAddress
  validatorByEthAddress : KVStore EthAddress ValAddress

namespace Delegates

def getOrchestratorValidatorAddr (delegates : Delegates) (orchestrator : AccAddress) :
    Option ValAddress :=
  if succeeds (verifyAddressFormat orchestrator) then
    delegates.validatorByOrchestrator.get orchestrator else none

def getOrchestratorValidator (delegates : Delegates) (staking : Staking) (orchestrator : AccAddress) :
    Option Validator :=
  (delegates.getOrchestratorValidatorAddr orchestrator).bind staking.validators.get

def getEthAddressByValidator (delegates : Delegates) (validator : ValAddress) :
    Go (Option EthAddress) := do
  orPanic "invalid validator address" (verifyAddressFormat validator)
  pure (delegates.ethAddressByValidator.get validator)

def getValidatorByEthAddress (delegates : Delegates) (staking : Staking) (ethAddress : EthAddress) :
    Option Validator :=
  (delegates.validatorByEthAddress.get ethAddress).bind staking.validators.get

def setOrchestratorValidator (delegates : Delegates) (validator : ValAddress)
    (orchestrator : AccAddress) : Go Delegates := do
  orPanic "invalid val address" (verifyAddressFormat validator)
  orPanic "invalid orch address" (verifyAddressFormat orchestrator)
  pure { delegates with
    validatorByOrchestrator := delegates.validatorByOrchestrator.set orchestrator validator }

def setEthAddressForValidator (delegates : Delegates) (validator : ValAddress)
    (ethAddress : EthAddress) : Go Delegates := do
  orPanic "invalid validator address" (verifyAddressFormat validator)
  pure { delegates with
    ethAddressByValidator := delegates.ethAddressByValidator.set validator ethAddress
    validatorByEthAddress := delegates.validatorByEthAddress.set ethAddress validator }

end Delegates

/-! ## Registration -/

structure MsgSetOrchestratorAddress where
  validator : Bytes
  orchestrator : Bytes
  ethAddress : Bytes
  deriving DecidableEq, Repr

variable (ext : External)

def MsgSetOrchestratorAddress.validateBasic (msg : MsgSetOrchestratorAddress) : Go Unit := do
  let _ ← rewrap ⟨.invalidAddress, "validator"⟩ (accAddressFromBech32 ext msg.validator)
  let _ ← rewrap ⟨.invalidAddress, "orchestrator"⟩ (accAddressFromBech32 ext msg.orchestrator)
  rewrap ⟨.plain, "ethereum address"⟩ (validateEthAddress msg.ethAddress)

/-- The orchestrator that `GetDelegateKeys` finds for a validator: the last one under its name. -/
def Delegates.orchestratorOf (delegates : Delegates) (validator : ValAddress) : Option AccAddress :=
  ((delegates.validatorByOrchestrator.filter (fun _ value =>
    value == validator)).entries.getLast?).map Prod.fst

/-- `GetDelegateKeys`, with the validator printed as an operator address. -/
def Delegates.getDelegateKeys (delegates : Delegates) : Go (List MsgSetOrchestratorAddress) := do
  delegates.ethAddressByValidator.entries.forM (fun entry =>
    orPanic "invalid valAddress in key" (verifyAddressFormat entry.1))
  delegates.validatorByOrchestrator.entries.forM (fun entry => do
    orPanic "invalid orchAddress in key" (verifyAddressFormat entry.1)
    orPanic "invalid val address stored for orchestrator" (verifyAddressFormat entry.2))
  let keys ← delegates.ethAddressByValidator.entries.mapM (fun entry => do
    let orchestrator ← unwrap "Can't find address" (delegates.orchestratorOf entry.1)
    pure (⟨valAddressString ext entry.1, accAddressString ext orchestrator, hex ext entry.2⟩ :
      MsgSetOrchestratorAddress))
  pure (keys.insertionSort (fun first second => first.ethAddress ≤ second.ethAddress))

def Delegates.setOrchestratorAddress (delegates : Delegates) (staking : Staking)
    (msg : MsgSetOrchestratorAddress) : Go Delegates := do
  rewrap ⟨.plain, "Key not valid"⟩ (msg.validateBasic ext)
  let validator ← rewrap ⟨.plain, "Key not valid"⟩ (accAddressFromBech32 ext msg.validator)
  let orchestrator ← rewrap ⟨.plain, "Key not valid"⟩ (accAddressFromBech32 ext msg.orchestrator)
  let ethAddress ← rewrap ⟨.plain, "Key not valid"⟩ (newEthAddress msg.ethAddress)
  require ((staking.validators.get validator).isSome = true) ⟨.plain, "validator does not exist"⟩
  let existing ← delegates.getEthAddressByValidator validator
  require (delegates.getOrchestratorValidator staking orchestrator = none ∧ existing = none)
    ⟨.resetDelegateKeys, "can not set orchestrator addresses more than once"⟩
  let keys ← delegates.getDelegateKeys ext
  keys.forM (fun key => do
    require (key.ethAddress ≠ hex ext ethAddress) ⟨.duplicateEthereumKey, "duplicate ethereum key"⟩
    require (key.orchestrator ≠ accAddressString ext orchestrator)
      ⟨.duplicateOrchestratorKey, "duplicate orchestrator key"⟩)
  let voting ← delegates.setOrchestratorValidator validator orchestrator
  voting.setEthAddressForValidator validator ethAddress

/-! ## Confirming a checkpoint -/

/-- `confirmHandlerCommon`. -/
def Delegates.confirmHandlerCommon (delegates : Delegates) (staking : Staking) (ethAddress : Bytes)
    (orchestrator : AccAddress) (signature checkpoint : Bytes) : Go Unit := do
  let sigBytes ← fromOption ⟨.invalid, "signature decoding"⟩ (hexDecode signature)
  let submittedEthAddress ← rewrap ⟨.invalid, "invalid eth address"⟩ (newEthAddress ethAddress)
  let validator ← fromOption ⟨.unknown, "validator"⟩
    (delegates.getOrchestratorValidator staking orchestrator)
  require (validator.status = .bonded ∨ validator.status = .unbonding)
    ⟨.invalid, "validator is unbonded"⟩
  rewrap ⟨.plain, "discovered invalid validator address for orchestrator"⟩
    (verifyAddressFormat validator.operator)
  let stored ← delegates.getEthAddressByValidator validator.operator
  let ethAddressFromStore ← fromOption ⟨.empty, "no eth address set for validator"⟩ stored
  require (ethAddressFromStore = submittedEthAddress)
    ⟨.invalid, "submitted eth address does not match delegate eth address"⟩
  rewrap ⟨.invalid, "signature verification failed"⟩
    (validateEthereumSignature ext checkpoint sigBytes ethAddressFromStore)

variable {ext} {delegates : Delegates} {staking : Staking}

variable {orchestrator : AccAddress}

/-- Who signed an accepted confirm: a validator of the staking module that is not unbonded, with
its registered Ethereum address. -/
theorem Delegates.confirmHandlerCommon_eq_ok {ethAddress signature checkpoint : Bytes}
    {result : Unit} :
    delegates.confirmHandlerCommon ext staking ethAddress orchestrator signature checkpoint =
      .ok result ↔
      ∃ sigBytes address validator, hexDecode signature = some sigBytes ∧
        newEthAddress ethAddress = .ok address ∧
        delegates.getOrchestratorValidator staking orchestrator = some validator ∧
        (validator.status = .bonded ∨ validator.status = .unbonding) ∧
        verifyAddressFormat validator.operator = .ok () ∧
        delegates.ethAddressByValidator.get validator.operator = some address ∧
        validateEthereumSignature ext checkpoint sigBytes address = .ok () := by
  simp only [Delegates.confirmHandlerCommon, Delegates.getEthAddressByValidator, bind_eq_ok,
    rewrap_eq_ok, orPanic_eq_ok, fromOption_eq_ok, require_eq_ok, pure_eq_ok]
  constructor
  · rintro ⟨sigBytes, decoded, _, read, validator, found, _, status, _, format, _, ⟨_, _, rfl⟩,
      address, stored, _, rfl, valid⟩
    exact ⟨sigBytes, address, validator, decoded, read, found, status, format, stored, valid⟩
  · rintro ⟨sigBytes, address, validator, decoded, read, found, status, format, stored, valid⟩
    exact ⟨sigBytes, decoded, address, read, validator, found, (), status, (), format, _,
      ⟨(), format, rfl⟩, address, stored, (), rfl, valid⟩

/-! ## What registration writes -/

/-- Orchestrators and Ethereum addresses belong to validators one to one. -/
structure Delegates.Consistent (delegates : Delegates) : Prop where
  formats : ∀ orchestrator validator, delegates.validatorByOrchestrator.get orchestrator =
    some validator →
    verifyAddressFormat orchestrator = .ok () ∧ verifyAddressFormat validator = .ok ()
  signs : ∀ orchestrator validator, delegates.validatorByOrchestrator.get orchestrator =
    some validator → ∃ address, delegates.ethAddressByValidator.get validator = some address
  votes : ∀ validator address, delegates.ethAddressByValidator.get validator = some address →
    ∃ orchestrator, delegates.validatorByOrchestrator.get orchestrator = some validator
  unique : ∀ first second validator, delegates.validatorByOrchestrator.get first = some validator →
    delegates.validatorByOrchestrator.get second = some validator → first = second

variable {validator : ValAddress}

theorem Delegates.Consistent.orchestratorOf (consistent : delegates.Consistent)
    (found : delegates.validatorByOrchestrator.get orchestrator = some validator) :
    delegates.orchestratorOf validator = some orchestrator := by
  have inside : ∀ entry ∈ (delegates.validatorByOrchestrator.filter
      (fun _ value => value == validator)).entries, entry.1 = orchestrator := by
    rintro ⟨other, value⟩ member
    have kept := mem_entries.mp member
    rw [get_filter, Option.filter_eq_some_iff] at kept
    obtain ⟨stored, same⟩ := kept
    obtain rfl : value = validator := by simpa using same
    exact consistent.unique other orchestrator value stored found
  have present : (orchestrator, validator) ∈
      (delegates.validatorByOrchestrator.filter (fun _ value => value == validator)).entries := by
    refine mem_entries.mpr ?_
    rw [get_filter, found]
    simp [Option.filter]
  obtain ⟨entry, last⟩ :=
    List.getLast?_isSome.mpr (List.ne_nil_of_mem present) |> Option.isSome_iff_exists.mp
  rw [Delegates.orchestratorOf, last, Option.map_some, inside entry (List.mem_of_getLast? last)]

/-- A validator without keys was given an orchestrator that nobody else uses. -/
structure Delegated (delegates : Delegates) (validator : ValAddress) (orchestrator : AccAddress)
    (address : EthAddress) (next : Delegates) : Prop where
  unregistered : delegates.ethAddressByValidator.get validator = none
  unused : delegates.validatorByOrchestrator.get orchestrator = none
  validatorFormat : verifyAddressFormat validator = .ok ()
  orchestratorFormat : verifyAddressFormat orchestrator = .ok ()
  result : next = ⟨delegates.validatorByOrchestrator.set orchestrator validator,
    delegates.ethAddressByValidator.set validator address,
    delegates.validatorByEthAddress.set address validator⟩

variable {address : EthAddress}

/-- Every pair of keys of a validator is among the listed ones. -/
theorem Delegates.Consistent.listed (consistent : delegates.Consistent)
    {keys : List MsgSetOrchestratorAddress}
    (listing : delegates.getDelegateKeys ext = .ok keys)
    (votes : delegates.validatorByOrchestrator.get orchestrator = some validator)
    (signs : delegates.ethAddressByValidator.get validator = some address) :
    ⟨valAddressString ext validator, accAddressString ext orchestrator, hex ext address⟩ ∈ keys := by
  simp only [Delegates.getDelegateKeys, bind_eq_ok, pure_eq_ok] at listing
  obtain ⟨_, _, _, _, unsorted, made, rfl⟩ := listing
  obtain ⟨entry, member, made⟩ := mem_of_mapM made (mem_entries.mpr signs)
  simp only [consistent.orchestratorOf votes, unwrap, ok_bind, pure_eq_ok] at made
  rw [List.mem_insertionSort, made]
  exact member

variable {next : Delegates}

/-- Registration compares the new keys with all listed ones. -/
theorem Delegates.setOrchestratorAddress_cases {msg : MsgSetOrchestratorAddress}
    (registered : delegates.setOrchestratorAddress ext staking msg = .ok next) :
    ∃ validator orchestrator address keys, delegates.ethAddressByValidator.get validator = none ∧
      verifyAddressFormat validator = .ok () ∧ verifyAddressFormat orchestrator = .ok () ∧
      delegates.getDelegateKeys ext = .ok keys ∧
      (∀ key ∈ keys, key.ethAddress ≠ hex ext address ∧
        key.orchestrator ≠ accAddressString ext orchestrator) ∧
      next = ⟨delegates.validatorByOrchestrator.set orchestrator validator,
        delegates.ethAddressByValidator.set validator address,
          delegates.validatorByEthAddress.set address validator⟩ := by
  simp only [Delegates.setOrchestratorAddress, Delegates.getEthAddressByValidator,
    Delegates.setOrchestratorValidator, Delegates.setEthAddressForValidator, bind_eq_ok,
    rewrap_eq_ok, orPanic_eq_ok, require_eq_ok, forM_eq_ok, pure_eq_ok] at registered
  obtain ⟨_, _, validator, _, orchestrator, _, address, _, _, _, _, ⟨_, _, rfl⟩, _,
    ⟨_, unregistered⟩, keys, listing, _, distinct, _,
    ⟨_, validatorFormat, _, orchestratorFormat, rfl⟩, _, _, rfl⟩ := registered
  refine ⟨validator, orchestrator, address, keys, unregistered, validatorFormat,
    orchestratorFormat, listing, fun key member => ?_, rfl⟩
  obtain ⟨_, otherAddress, otherOrchestrator⟩ := distinct key member
  exact ⟨otherAddress, otherOrchestrator⟩

/-- No validator has the orchestrator or the address of an accepted registration, removed validators
included. -/
theorem Delegates.Consistent.setOrchestratorAddress (consistent : delegates.Consistent)
    {msg : MsgSetOrchestratorAddress}
    (registered : delegates.setOrchestratorAddress ext staking msg = .ok next) :
    ∃ validator orchestrator address, Delegated delegates validator orchestrator address next ∧
      ∀ other, delegates.ethAddressByValidator.get other ≠ some address := by
  obtain ⟨validator, orchestrator, address, keys, unregistered, validatorFormat, orchestratorFormat,
    listing, distinct, result⟩ := Delegates.setOrchestratorAddress_cases registered
  refine ⟨validator, orchestrator, address,
    ⟨unregistered, ?_, validatorFormat, orchestratorFormat, result⟩, fun other signs => ?_⟩
  · by_contra used
    obtain ⟨other, votes⟩ := Option.ne_none_iff_exists'.mp used
    obtain ⟨key, signs⟩ := consistent.signs orchestrator other votes
    exact (distinct _ (consistent.listed listing votes signs)).2 rfl
  · obtain ⟨voter, votes⟩ := consistent.votes other address signs
    exact (distinct _ (consistent.listed listing votes signs)).1 rfl

theorem Delegated.consistent (delegated : Delegated delegates validator orchestrator address next)
    (consistent : delegates.Consistent) : next.Consistent := by
  have unowned : ∀ other, delegates.validatorByOrchestrator.get other ≠ some validator := by
    intro other found
    obtain ⟨key, signed⟩ := consistent.signs other validator found
    rw [delegated.unregistered] at signed
    contradiction
  rw [delegated.result]
  refine ⟨fun other found stored => ?_, fun other found stored => ?_, fun found key stored => ?_,
    fun first second found left right => ?_⟩
  · rw [get_set] at stored
    split_ifs at stored with same
    · exact ⟨same ▸ delegated.orchestratorFormat, Option.some.inj stored ▸ delegated.validatorFormat⟩
    · exact consistent.formats other found stored
  · rw [get_set] at stored
    split_ifs at stored with same
    · exact ⟨address, by rw [← Option.some.inj stored, get_set, if_pos rfl]⟩
    · obtain ⟨key, signed⟩ := consistent.signs other found stored
      refine ⟨key, ?_⟩
      rw [get_set, if_neg, signed]
      rintro rfl
      exact unowned other stored
  · rw [get_set] at stored
    split_ifs at stored with same
    · exact ⟨orchestrator, by rw [same, get_set, if_pos rfl]⟩
    · obtain ⟨other, voted⟩ := consistent.votes found key stored
      refine ⟨other, ?_⟩
      rw [get_set, if_neg, voted]
      rintro rfl
      rw [delegated.unused] at voted
      contradiction
  · rw [get_set] at left right
    split_ifs at left right with firstSame secondSame secondSame
    · exact firstSame.trans secondSame.symm
    · exact absurd (Option.some.inj left ▸ right) (unowned second)
    · exact absurd (Option.some.inj right ▸ left) (unowned first)
    · exact consistent.unique first second found left right

/-- Keys may have been added, none was changed. -/
structure Delegates.Extended (delegates next : Delegates) : Prop where
  consistent : next.Consistent
  orchestrators : ∀ orchestrator validator, delegates.validatorByOrchestrator.get orchestrator =
    some validator →
    next.validatorByOrchestrator.get orchestrator = some validator
  addresses : ∀ validator address, delegates.ethAddressByValidator.get validator = some address →
    next.ethAddressByValidator.get validator = some address

theorem Delegates.Extended.refl (consistent : delegates.Consistent) : Extended delegates delegates :=
  ⟨consistent, fun _ _ found => found, fun _ _ found => found⟩

theorem Delegates.Extended.trans {middle : Delegates} (left : Extended delegates middle)
    (right : Extended middle next) : Extended delegates next where
  consistent := right.consistent
  orchestrators orchestrator validator found :=
    right.orchestrators orchestrator validator (left.orchestrators orchestrator validator found)
  addresses validator address found :=
    right.addresses validator address (left.addresses validator address found)

theorem Delegated.extended (delegated : Delegated delegates validator orchestrator address next)
    (consistent : delegates.Consistent) : Delegates.Extended delegates next := by
  refine ⟨delegated.consistent consistent, fun other found stored => ?_, fun found key stored => ?_⟩
  · rw [delegated.result, get_set, if_neg, stored]
    rintro rfl
    rw [delegated.unused] at stored
    contradiction
  · rw [delegated.result, get_set, if_neg, stored]
    rintro rfl
    rw [delegated.unregistered] at stored
    contradiction

end GravityBridge.Keeper
