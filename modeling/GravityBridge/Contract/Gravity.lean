import GravityBridge.Contract.Signatures

/-!
# The bridge contract

The contract pays out batches and validator set rewards that enough validators
signed, makes logic calls that they signed, takes deposits and deploys ERC20s for
denoms of the Cosmos side. Each of these calls ends with an event that carries the
next event nonce.

Tokens and logic contracts are other people's code. What this code does when the
bridge contract calls it is an argument of the call: any change of the chain, also
one that comes from calling the bridge contract again. Next to the storage of the
contract the chain keeps a record of the changes that needed signatures.
-/

namespace GravityBridge.Contract

open Lib Lib.Fallible Lib.ByteString Lib.Abi
open GravityBridge.Types List

/-! ## Arguments -/

/-- The type `bytes32`. -/
abbrev Bytes32 := { content : Bytes // content.length = 32 }

structure ValsetArgs where
  validators : List EthAddress
  powers : List U256
  valsetNonce : U256
  rewardAmount : U256
  rewardToken : EthAddress
  deriving DecidableEq, Repr

/-- The batch, as it is passed in a call. -/
structure BatchArgs where
  amounts : List U256
  destinations : List EthAddress
  fees : List U256
  batchNonce : U256
  tokenContract : EthAddress
  batchTimeout : U256
  deriving DecidableEq, Repr

structure LogicCallArgs where
  transferAmounts : List U256
  transferTokenContracts : List EthAddress
  feeAmounts : List U256
  feeTokenContracts : List EthAddress
  logicContractAddress : EthAddress
  payload : Bytes
  timeOut : U256
  invalidationId : Bytes32
  invalidationNonce : U256
  deriving DecidableEq, Repr

/-- What validators sign. -/
inductive Content where
  | valset (newValset : ValsetArgs)
  | batch (batch : BatchArgs)
  | logicCall (args : LogicCallArgs)
  deriving DecidableEq, Repr

/-- Content that was put in force, the signatures passed for it and the set they were counted in. -/
structure Change where
  currentValset : ValsetArgs
  sigs : List Signature
  content : Content
  deriving DecidableEq, Repr

def Content.valset? : Content → Option ValsetArgs
  | .valset newValset => some newValset
  | _ => none

/-- The validator sets among the changes. -/
def valsetsOf (changes : List Change) : List ValsetArgs :=
  changes.filterMap (fun change => change.content.valset?)

/-! ## State -/

/-- What the bridge contract holds of each token. -/
abbrev Holdings := EthAddress → Nat

inductive BridgeEvent where
  | transactionBatchExecuted (batchNonce : Nat) (token : EthAddress)
  | sendToCosmos (tokenContract sender : EthAddress) (destination : Bytes) (amount : Nat)
  | erc20Deployed (cosmosDenom : Bytes) (tokenContract : EthAddress) (name symbol : Bytes)
      (decimals : UInt8)
  | valsetUpdated (valset : ValsetArgs)
  | logicCall (invalidationId : Bytes32) (invalidationNonce : Nat) (returnData : Bytes)
  deriving DecidableEq, Repr

/-- An event with its nonce and the number of the block it is in. -/
structure Logged where
  eventNonce : Nat
  blockNumber : Nat
  event : BridgeEvent
  deriving DecidableEq, Repr

/-- The Ethereum chain, as far as the bridge contract sees it. -/
structure Ethereum where
  blockNumber : Nat
  /-- The addresses with code. -/
  contracts : List EthAddress
  holdings : Holdings
  /-- The status of the re-entrancy guard. -/
  entered : Bool
  gravityId : Bytes32
  lastValsetCheckpoint : Bytes
  lastBatchNonces : EthAddress → Nat
  invalidationMapping : Bytes32 → Nat
  lastValsetNonce : Nat
  lastEventNonce : Nat
  log : List Logged
  /-- Not stored by the contract: the changes so far, in the order of their storage writes. -/
  changes : List Change
  /-- Not stored by the contract: some update of the validator set wrote its event when another
  update had been made since its own storage write. -/
  overtaken : Bool

def powerThreshold : Nat := 2863311530

/-- How far ahead of the last nonce the next one may be. -/
def nonceWindow : Nat := 1000000

/-! ## Other contracts -/

/-- A call that the bridge contract makes. -/
inductive Outcall where
  | transfer (token recipient : EthAddress) (amount : Nat)
  | transferFrom (token sender : EthAddress) (amount : Nat)
  | logic (logicContract : EthAddress) (payload : Bytes)

def Outcall.target : Outcall → EthAddress
  | .transfer token _ _ | .transferFrom token _ _ => token
  | .logic logicContract _ => logicContract

/-- What other contracts do in the first, second, … call that the bridge contract makes of them
while it is called once, and the data they return. -/
abbrev Code := Nat → Outcall → Ethereum → Evm (Ethereum × Bytes)

/-- `Address.functionCall`. -/
def functionCall (code : Code) (index : Nat) (outcall : Outcall) (ethereum : Ethereum) :
    Evm (Ethereum × Bytes) := do
  require (outcall.target ∈ ethereum.contracts) (.library "Address: call to non-contract")
  code index outcall ethereum

/-- `SafeERC20`: a token may return nothing, or the word for true. -/
def callOptionalReturn (code : Code) (index : Nat) (outcall : Outcall) (ethereum : Ethereum) :
    Evm Ethereum := do
  let (called, returnData) ← functionCall code index outcall ethereum
  require (returnData = [] ∨ returnData.take 32 = word 1)
    (.library "SafeERC20: ERC20 operation did not succeed")
  pure called

/-- A loop of transfers of which the first is the given one among the calls made. -/
def safeTransfers (code : Code) : Nat → List Outcall → Ethereum → Evm Ethereum
  | _, [], ethereum => pure ethereum
  | index, outcall :: rest, ethereum => do
      let transferred ← callOptionalReturn code index outcall ethereum
      safeTransfers code (index + 1) rest transferred

/-! ## Checks -/

/-- The loop that adds up power and stops once it exceeds the threshold. -/
def cumulatePower : Nat → List U256 → Evm Nat
  | cumulativePower, [] => pure cumulativePower
  | cumulativePower, power :: rest => do
      let next ← checkedAdd cumulativePower power.val
      if powerThreshold < next then pure next else cumulatePower next rest

def requirePower (powers : List U256) : Evm Unit := do
  let cumulativePower ← cumulatePower 0 powers
  require (powerThreshold < cumulativePower) (.insufficientPower cumulativePower powerThreshold)

def sumFees (fees : List U256) : Evm Nat :=
  fees.foldlM (fun totalFee fee => checkedAdd totalFee fee.val) 0

def validateValset (valset : ValsetArgs) (sigs : List Signature) : Evm Unit :=
  require (valset.validators.length = valset.powers.length ∧ valset.validators.length = sigs.length)
    .malformedCurrentValidatorSet

/-- The members of a well-formed set, each with its signature. -/
def ValsetArgs.signedBy (valset : ValsetArgs) (sigs : List Signature) : List Signed :=
  ((valset.validators.zip valset.powers).zip sigs).map
    (fun member => ⟨member.1.1, member.1.2.val, member.2⟩)

/-! ## What is hashed -/

def words (numbers : List U256) : Argument := .array (numbers.map (fun number => (number.val : Int)))

def addresses (accounts : List EthAddress) : Argument :=
  .array (accounts.map (fun account => (account.val : Int)))

def ValsetArgs.arguments (gravityId : Bytes) (valset : ValsetArgs) : List Argument :=
  [.fixed gravityId, .fixed (ascii "checkpoint"), .number valset.valsetNonce.val,
    addresses valset.validators, words valset.powers, .number valset.rewardAmount.val,
    .number valset.rewardToken.val]

def BatchArgs.arguments (gravityId : Bytes) (batch : BatchArgs) : List Argument :=
  [.fixed gravityId, .fixed (ascii "transactionBatch"), words batch.amounts,
    addresses batch.destinations, words batch.fees, .number batch.batchNonce.val,
    .number batch.tokenContract.val, .number batch.batchTimeout.val]

def LogicCallArgs.arguments (gravityId : Bytes) (args : LogicCallArgs) : List Argument :=
  [.fixed gravityId, .fixed (ascii "logicCall"), words args.transferAmounts,
    addresses args.transferTokenContracts, words args.feeAmounts, addresses args.feeTokenContracts,
    .number args.logicContractAddress.val, .bytes args.payload, .number args.timeOut.val,
    .fixed args.invalidationId.val, .number args.invalidationNonce.val]

/-! ## Calls -/

section

variable (ext : External)

def makeCheckpoint (valset : ValsetArgs) (gravityId : Bytes32) : Bytes :=
  ext.keccak256 (encode (valset.arguments gravityId.val))

def batchHash (batch : BatchArgs) (gravityId : Bytes32) : Bytes :=
  ext.keccak256 (encode (batch.arguments gravityId.val))

def argsHash (args : LogicCallArgs) (gravityId : Bytes32) : Bytes :=
  ext.keccak256 (encode (args.arguments gravityId.val))

namespace Ethereum

/-- `state_lastEventNonce = state_lastEventNonce + 1`, and the event. -/
def emit (ethereum : Ethereum) (event : BridgeEvent) : Ethereum :=
  { ethereum with
    lastEventNonce := ethereum.lastEventNonce + 1
    log := ethereum.log ++ [⟨ethereum.lastEventNonce + 1, ethereum.blockNumber, event⟩] }

/-- The supplied validator set is the one whose checkpoint is saved. -/
def requireCheckpoint (ethereum : Ethereum) (currentValset : ValsetArgs) : Evm Unit :=
  require (makeCheckpoint ext currentValset ethereum.gravityId = ethereum.lastValsetCheckpoint)
    .incorrectCheckpoint

/-- The modifier of a function that cannot be entered while it, or another one of its kind, runs. -/
def nonReentrant (body : Ethereum → Evm Ethereum) (ethereum : Ethereum) : Evm Ethereum := do
  require (ethereum.entered = false) (.library "ReentrancyGuard: reentrant call")
  let done ← body { ethereum with entered := true }
  pure { done with entered := false }

/-- The checkpoint and the nonce of a new set. -/
def storeValset (newValset currentValset : ValsetArgs) (sigs : List Signature)
    (ethereum : Ethereum) : Ethereum :=
  { ethereum with
    lastValsetCheckpoint := makeCheckpoint ext newValset ethereum.gravityId
    lastValsetNonce := newValset.valsetNonce.val
    changes := ethereum.changes ++ [⟨currentValset, sigs, .valset newValset⟩] }

/-- The event of a new set, and whether another set was stored since that one was. -/
def logValset (stored rewarded : Ethereum) (newValset : ValsetArgs) : Ethereum :=
  { rewarded with
    overtaken := rewarded.overtaken || decide (valsetsOf rewarded.changes ≠
      valsetsOf stored.changes) }.emit (.valsetUpdated newValset)

/-- The reward goes to the caller between the write of the storage and the event. -/
def updateValset (code : Code) (msgSender : EthAddress) (newValset currentValset : ValsetArgs)
    (sigs : List Signature) (ethereum : Ethereum) : Evm Ethereum := do
  require (currentValset.valsetNonce < newValset.valsetNonce)
    (.invalidValsetNonce newValset.valsetNonce.val currentValset.valsetNonce.val)
  let furthest ← checkedAdd currentValset.valsetNonce.val nonceWindow
  require (newValset.valsetNonce.val ≤ furthest)
    (.invalidValsetNonce newValset.valsetNonce.val currentValset.valsetNonce.val)
  require (newValset.validators.length = newValset.powers.length ∧ newValset.validators ≠ [])
    .malformedNewValidatorSet
  validateValset currentValset sigs
  requirePower newValset.powers
  ethereum.requireCheckpoint ext currentValset
  checkValidatorSignatures ext (currentValset.signedBy sigs)
    (makeCheckpoint ext newValset ethereum.gravityId) powerThreshold
  let stored := ethereum.storeValset ext newValset currentValset sigs
  let rewarded ←
    if newValset.rewardToken ≠ zeroAddress ∧ newValset.rewardAmount ≠ 0 then
      safeTransfers code 0 [.transfer newValset.rewardToken msgSender newValset.rewardAmount.val]
        stored
    else pure stored
  pure (stored.logValset rewarded newValset)

def submitBatch (code : Code) (msgSender : EthAddress) (currentValset : ValsetArgs)
    (sigs : List Signature) (batch : BatchArgs) : Ethereum → Evm Ethereum :=
  nonReentrant fun ethereum => do
    require (ethereum.lastBatchNonces batch.tokenContract < batch.batchNonce.val)
      (.invalidBatchNonce batch.batchNonce.val (ethereum.lastBatchNonces batch.tokenContract))
    let furthest ← checkedAdd (ethereum.lastBatchNonces batch.tokenContract) nonceWindow
    require (batch.batchNonce.val ≤ furthest)
      (.invalidBatchNonce batch.batchNonce.val (ethereum.lastBatchNonces batch.tokenContract))
    require (ethereum.blockNumber < batch.batchTimeout.val) .batchTimedOut
    validateValset currentValset sigs
    ethereum.requireCheckpoint ext currentValset
    require (batch.amounts.length = batch.destinations.length ∧
      batch.amounts.length = batch.fees.length) .malformedBatch
    checkValidatorSignatures ext (currentValset.signedBy sigs)
      (batchHash ext batch ethereum.gravityId) powerThreshold
    let stored := { ethereum with
      lastBatchNonces :=
        Function.update ethereum.lastBatchNonces batch.tokenContract batch.batchNonce.val
      changes := ethereum.changes ++ [⟨currentValset, sigs, .batch batch⟩] }
    let paid ← safeTransfers code 0 ((batch.destinations.zip batch.amounts).map
      (fun payment => .transfer batch.tokenContract payment.1 payment.2.val)) stored
    let totalFee ← sumFees batch.fees
    let relayed ← safeTransfers code batch.amounts.length
      [.transfer batch.tokenContract msgSender totalFee] paid
    pure (relayed.emit (.transactionBatchExecuted batch.batchNonce.val batch.tokenContract))

def submitLogicCall (code : Code) (msgSender : EthAddress) (currentValset : ValsetArgs)
    (sigs : List Signature) (args : LogicCallArgs) : Ethereum → Evm Ethereum :=
  nonReentrant fun ethereum => do
    require (ethereum.blockNumber < args.timeOut.val) .logicCallTimedOut
    require (ethereum.invalidationMapping args.invalidationId < args.invalidationNonce.val)
      (.invalidLogicCallNonce args.invalidationNonce.val
        (ethereum.invalidationMapping args.invalidationId))
    validateValset currentValset sigs
    ethereum.requireCheckpoint ext currentValset
    require (args.transferAmounts.length = args.transferTokenContracts.length)
      .invalidLogicCallTransfers
    require (args.feeAmounts.length = args.feeTokenContracts.length) .invalidLogicCallFees
    checkValidatorSignatures ext (currentValset.signedBy sigs)
      (argsHash ext args ethereum.gravityId) powerThreshold
    let stored := { ethereum with
      invalidationMapping :=
        Function.update ethereum.invalidationMapping args.invalidationId args.invalidationNonce.val
      changes := ethereum.changes ++ [⟨currentValset, sigs, .logicCall args⟩] }
    let funded ← safeTransfers code 0 ((args.transferTokenContracts.zip args.transferAmounts).map
      (fun transfer => .transfer transfer.1 args.logicContractAddress transfer.2.val)) stored
    let (called, returnData) ←
      functionCall code args.transferAmounts.length
        (.logic args.logicContractAddress args.payload) funded
    let relayed ← safeTransfers code (args.transferAmounts.length + 1)
      ((args.feeTokenContracts.zip args.feeAmounts).map
        (fun fee => .transfer fee.1 msgSender fee.2.val)) called
    pure (relayed.emit (.logicCall args.invalidationId args.invalidationNonce.val returnData))

/-- The event carries what the balance rose by, whatever the caller asked for. -/
def sendToCosmos (code : Code) (msgSender tokenContract : EthAddress) (destination : Bytes)
    (amount : U256) : Ethereum → Evm Ethereum :=
  nonReentrant fun ethereum => do
    require (tokenContract ∈ ethereum.contracts) (.library "call to non-contract")
    let received ← callOptionalReturn code 0
      (.transferFrom tokenContract msgSender amount.val) ethereum
    require (ethereum.holdings tokenContract < received.holdings tokenContract) .invalidSendToCosmos
    pure (received.emit (.sendToCosmos tokenContract msgSender destination
      (received.holdings tokenContract - ethereum.holdings tokenContract)))

/-- `new CosmosERC20` at an address without code mints everything to the bridge contract. -/
def deployERC20 (erc20 : EthAddress) (cosmosDenom name symbol : Bytes) (decimals : UInt8)
    (ethereum : Ethereum) : Evm Ethereum := do
  require (erc20 ∉ ethereum.contracts) (.library "contract creation failed")
  pure ({ ethereum with
    contracts := erc20 :: ethereum.contracts
    holdings := Function.update ethereum.holdings erc20 (2 ^ 256 - 1) }.emit
      (.erc20Deployed cosmosDenom erc20 name symbol decimals))

end Ethereum

/-- The set that the constructor puts in force. -/
def firstValset (validators : List EthAddress) (powers : List U256) : ValsetArgs :=
  ⟨validators, powers, 0, 0, zeroAddress⟩

/-- The constructor, called in a block of a chain with some contracts and balances. -/
def construct (gravityId : Bytes32) (validators : List EthAddress) (powers : List U256)
    (blockNumber : Nat) (contracts : List EthAddress) (holdings : Holdings) : Evm Ethereum := do
  require (validators.length = powers.length ∧ validators ≠ []) .malformedCurrentValidatorSet
  requirePower powers
  let valset := firstValset validators powers
  pure {
    blockNumber := blockNumber
    contracts := contracts
    holdings := holdings
    entered := false
    gravityId := gravityId
    lastValsetCheckpoint := makeCheckpoint ext valset gravityId
    lastBatchNonces := fun _ => 0
    invalidationMapping := fun _ => 0
    lastValsetNonce := 0
    lastEventNonce := 1
    log := [⟨1, blockNumber, .valsetUpdated valset⟩]
    changes := []
    overtaken := false }

/-- A call of the bridge contract, by a user or by another contract. -/
inductive Call where
  | updateValset (msgSender : EthAddress) (newValset currentValset : ValsetArgs)
      (sigs : List Signature)
  | submitBatch (msgSender : EthAddress) (currentValset : ValsetArgs) (sigs : List Signature)
      (batch : BatchArgs)
  | submitLogicCall (msgSender : EthAddress) (currentValset : ValsetArgs) (sigs : List Signature)
      (args : LogicCallArgs)
  | sendToCosmos (msgSender tokenContract : EthAddress) (destination : Bytes) (amount : U256)
  | deployERC20 (erc20 : EthAddress) (cosmosDenom name symbol : Bytes) (decimals : UInt8)
  deriving DecidableEq, Repr

def Call.run (code : Code) : Call → Ethereum → Evm Ethereum
  | .updateValset msgSender newValset currentValset sigs =>
      Ethereum.updateValset ext code msgSender newValset currentValset sigs
  | .submitBatch msgSender currentValset sigs batch =>
    Ethereum.submitBatch ext code msgSender currentValset sigs batch
  | .submitLogicCall msgSender currentValset sigs args =>
      Ethereum.submitLogicCall ext code msgSender currentValset sigs args
  | .sendToCosmos msgSender tokenContract destination amount =>
      Ethereum.sendToCosmos code msgSender tokenContract destination amount
  | .deployERC20 erc20 cosmosDenom name symbol decimals =>
      Ethereum.deployERC20 erc20 cosmosDenom name symbol decimals

end

/-! ## What is hashed determines the arguments -/

theorem inWord_val {bound : Nat} (small : bound ≤ 2 ^ 256) (value : Fin bound) :
    InWord (value.val : Int) := by
  have below := value.isLt
  exact ⟨by omega, by omega⟩

@[simp] theorem fits_number {bound : Nat} (small : bound ≤ 2 ^ 256) (value : Fin bound) :
    (Argument.number (value.val : Int)).Fits := inWord_val small value

@[simp] theorem fits_words (numbers : List U256) : (words numbers).Fits := by
  intro value member
  obtain ⟨number, _, rfl⟩ := mem_map.mp member
  exact inWord_val le_rfl number

@[simp] theorem fits_addresses (accounts : List EthAddress) : (addresses accounts).Fits := by
  intro value member
  obtain ⟨account, _, rfl⟩ := mem_map.mp member
  exact inWord_val (by decide) account

theorem alike_words {first second : List U256} (lengths : first.length = second.length) :
    Argument.Alike (words first) (words second) := .array (by simpa using lengths)

theorem alike_addresses {first second : List EthAddress} (lengths : first.length = second.length) :
    Argument.Alike (addresses first) (addresses second) := .array (by simpa using lengths)

theorem map_val_injective {bound : Nat} :
    Function.Injective (List.map (fun value : Fin bound => (value.val : Int))) :=
  map_injective_iff.mpr (fun _ _ same => Fin.val_injective (Int.ofNat.inj same))

@[simp] theorem words_inj {first second : List U256} : words first = words second ↔ first = second :=
  ⟨fun same => map_val_injective (Argument.array.inj same), congrArg words⟩

@[simp] theorem addresses_inj {first second : List EthAddress} :
    addresses first = addresses second ↔ first = second :=
  ⟨fun same => map_val_injective (Argument.array.inj same), congrArg addresses⟩

@[simp] theorem length_data_words (numbers : List U256) :
    (words numbers).data.length = 32 + 32 * numbers.length := by
  simp [words]

@[simp] theorem length_data_addresses (accounts : List EthAddress) :
    (addresses accounts).data.length = 32 + 32 * accounts.length := by
  simp [addresses]

section

variable {gravityId otherId : Bytes} (short : gravityId.length ≤ 32)
  (otherShort : otherId.length ≤ 32)

include short

theorem ValsetArgs.fits (valset : ValsetArgs) :
    ∀ argument ∈ valset.arguments gravityId, argument.Fits := by
  simp only [ValsetArgs.arguments, forall_mem_cons]
  exact ⟨short, (by decide : (ascii "checkpoint").length ≤ 32), fits_number le_rfl _,
    fits_addresses _, fits_words _, fits_number le_rfl _, fits_number (by decide) _, by simp⟩

theorem BatchArgs.fits (batch : BatchArgs) :
    ∀ argument ∈ batch.arguments gravityId, argument.Fits := by
  simp only [BatchArgs.arguments, forall_mem_cons]
  exact ⟨short, (by decide : (ascii "transactionBatch").length ≤ 32), fits_words _,
    fits_addresses _, fits_words _, fits_number le_rfl _, fits_number (by decide) _,
    fits_number le_rfl _, by simp⟩

include otherShort

/-- Sets with a power for each validator are told apart, and so are the instances of the bridge. -/
theorem ValsetArgs.encode_injective (ids : Argument.Alike (.fixed gravityId) (.fixed otherId))
    {first second : ValsetArgs} (firstMatched : first.validators.length = first.powers.length)
    (secondMatched : second.validators.length = second.powers.length)
    (same : encode (first.arguments gravityId) = encode (second.arguments otherId)) :
    gravityId = otherId ∧ first = second := by
  -- the whole length gives the number of members, before any array is read
  have total := congrArg List.length same
  rw [length_encode (first.fits short), length_encode (second.fits otherShort)] at total
  simp only [ValsetArgs.arguments, length_cons, map_cons, sum_cons, length_data_addresses,
    length_data_words] at total
  have members : first.validators.length = second.validators.length := by
    simp only [Argument.data, length_nil] at total
    omega
  have alike : List.Forall₂ Argument.Alike (first.arguments gravityId) (second.arguments otherId) :=
    .cons ids (.cons (.same _) (.cons (.number _ _) (.cons (alike_addresses members)
      (.cons (alike_words (by omega)) (.cons (.number _ _) (.cons (.number _ _) .nil))))))
  have arguments := Abi.encode_injective alike (first.fits short) (second.fits otherShort) same
  obtain ⟨firstValidators, firstPowers, firstNonce, firstAmount, firstToken⟩ := first
  obtain ⟨secondValidators, secondPowers, secondNonce, secondAmount, secondToken⟩ := second
  simp only [ValsetArgs.arguments, List.cons.injEq, Argument.fixed.injEq, Argument.number.injEq,
    Nat.cast_inj, Fin.val_inj, addresses_inj, words_inj] at arguments
  obtain ⟨rfl, _, rfl, rfl, rfl, rfl, rfl, _⟩ := arguments
  exact ⟨rfl, rfl⟩

theorem BatchArgs.encode_injective (ids : Argument.Alike (.fixed gravityId) (.fixed otherId))
    {first second : BatchArgs}
    (firstMatched : first.amounts.length = first.destinations.length ∧
      first.amounts.length = first.fees.length)
    (secondMatched : second.amounts.length = second.destinations.length ∧
      second.amounts.length = second.fees.length)
    (same : encode (first.arguments gravityId) = encode (second.arguments otherId)) :
    gravityId = otherId ∧ first = second := by
  have total := congrArg List.length same
  rw [length_encode (first.fits short), length_encode (second.fits otherShort)] at total
  simp only [BatchArgs.arguments, length_cons, map_cons, sum_cons, length_data_addresses,
    length_data_words] at total
  have payments : first.amounts.length = second.amounts.length := by
    simp only [Argument.data, length_nil] at total
    omega
  have alike : List.Forall₂ Argument.Alike (first.arguments gravityId) (second.arguments otherId) :=
    .cons ids (.cons (.same _) (.cons (alike_words payments) (.cons (alike_addresses (by omega))
      (.cons (alike_words (by omega))
        (.cons (.number _ _) (.cons (.number _ _) (.cons (.number _ _) .nil)))))))
  have arguments := Abi.encode_injective alike (first.fits short) (second.fits otherShort) same
  obtain ⟨firstAmounts, firstDestinations, firstFees, firstNonce, firstToken, firstTimeout⟩ := first
  obtain ⟨secondAmounts, secondDestinations, secondFees, secondNonce, secondToken, secondTimeout⟩ :=
    second
  simp only [BatchArgs.arguments, List.cons.injEq, Argument.fixed.injEq, Argument.number.injEq,
    Nat.cast_inj, Fin.val_inj, addresses_inj, words_inj] at arguments
  obtain ⟨rfl, _, rfl, rfl, rfl, rfl, rfl, rfl, _⟩ := arguments
  exact ⟨rfl, rfl⟩

/-- A set is not taken for a batch. -/
theorem ValsetArgs.encode_ne_batch (valset : ValsetArgs) (batch : BatchArgs) :
    encode (valset.arguments gravityId) ≠ encode (batch.arguments otherId) := by
  intro same
  have names := encode_fixed_injective short otherShort (by decide) (by decide) (by decide)
    (by decide) same
  exact absurd names (by decide)

end

end GravityBridge.Contract
