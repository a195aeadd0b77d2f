import GravityBridge.Types.Denom

/-!
# Ethereum claims

The five claim messages, their stateless checks, the string that each of them
hashes and the components stored beside the claim in an attestation. Amounts
are optional because an absent field decodes to a nil integer.
-/

namespace GravityBridge.Types

open Lib.Fallible Lib.ByteString

/-! ## Messages -/

structure BridgeValidator where
  power : U64
  ethereumAddress : Bytes
  deriving DecidableEq, Repr

structure MsgSendToCosmosClaim where
  eventNonce : U64
  ethBlockHeight : U64
  tokenContract : Bytes
  amount : Option Int
  ethereumSender : Bytes
  cosmosReceiver : Bytes
  orchestrator : Bytes
  deriving DecidableEq, Repr

structure MsgBatchSendToEthClaim where
  eventNonce : U64
  ethBlockHeight : U64
  batchNonce : U64
  tokenContract : Bytes
  orchestrator : Bytes
  deriving DecidableEq, Repr

structure MsgERC20DeployedClaim where
  eventNonce : U64
  ethBlockHeight : U64
  cosmosDenom : Denom
  tokenContract : Bytes
  name : Bytes
  symbol : Bytes
  decimals : U64
  orchestrator : Bytes
  deriving DecidableEq, Repr

structure MsgLogicCallExecutedClaim where
  eventNonce : U64
  ethBlockHeight : U64
  invalidationId : Bytes
  invalidationNonce : U64
  orchestrator : Bytes
  deriving DecidableEq, Repr

structure MsgValsetUpdatedClaim where
  eventNonce : U64
  valsetNonce : U64
  ethBlockHeight : U64
  members : List BridgeValidator
  rewardAmount : Option Int
  rewardToken : Bytes
  orchestrator : Bytes
  deriving DecidableEq, Repr

inductive EthereumClaim where
  | sendToCosmos (msg : MsgSendToCosmosClaim)
  | batchSendToEth (msg : MsgBatchSendToEthClaim)
  | erc20Deployed (msg : MsgERC20DeployedClaim)
  | logicCallExecuted (msg : MsgLogicCallExecutedClaim)
  | valsetUpdated (msg : MsgValsetUpdatedClaim)
  deriving DecidableEq, Repr

inductive ClaimType where
  | sendToCosmos | batchSendToEth | erc20Deployed | logicCallExecuted | valsetUpdated
  deriving DecidableEq, Repr

namespace EthereumClaim

def getType : EthereumClaim → ClaimType
  | sendToCosmos _ => .sendToCosmos
  | batchSendToEth _ => .batchSendToEth
  | erc20Deployed _ => .erc20Deployed
  | logicCallExecuted _ => .logicCallExecuted
  | valsetUpdated _ => .valsetUpdated

def getEventNonce : EthereumClaim → U64
  | sendToCosmos msg => msg.eventNonce
  | batchSendToEth msg => msg.eventNonce
  | erc20Deployed msg => msg.eventNonce
  | logicCallExecuted msg => msg.eventNonce
  | valsetUpdated msg => msg.eventNonce

def getEthBlockHeight : EthereumClaim → U64
  | sendToCosmos msg => msg.ethBlockHeight
  | batchSendToEth msg => msg.ethBlockHeight
  | erc20Deployed msg => msg.ethBlockHeight
  | logicCallExecuted msg => msg.ethBlockHeight
  | valsetUpdated msg => msg.ethBlockHeight

def orchestrator : EthereumClaim → Bytes
  | sendToCosmos msg => msg.orchestrator
  | batchSendToEth msg => msg.orchestrator
  | erc20Deployed msg => msg.orchestrator
  | logicCallExecuted msg => msg.orchestrator
  | valsetUpdated msg => msg.orchestrator

end EthereumClaim

/-! ## Stateless checks -/

section

variable (ext : External)

def validateOrchestrator (orchestrator : Bytes) : Go Unit := do
  let _ ← rewrap ⟨.invalidAddress, "orchestrator"⟩ (accAddressFromBech32 ext orchestrator)
  pure ()

def MsgSendToCosmosClaim.validateBasic (msg : MsgSendToCosmosClaim) : Go Unit := do
  rewrap ⟨.plain, "eth sender"⟩ (validateEthAddress msg.ethereumSender)
  rewrap ⟨.plain, "erc20 token"⟩ (validateEthAddress msg.tokenContract)
  validateOrchestrator ext msg.orchestrator
  require (msg.eventNonce ≠ 0) ⟨.plain, "nonce == 0"⟩

def MsgBatchSendToEthClaim.validateBasic (msg : MsgBatchSendToEthClaim) : Go Unit := do
  require (msg.eventNonce ≠ 0) ⟨.plain, "event_nonce == 0"⟩
  require (msg.batchNonce ≠ 0) ⟨.plain, "batch_nonce == 0"⟩
  rewrap ⟨.plain, "erc20 token"⟩ (validateEthAddress msg.tokenContract)
  validateOrchestrator ext msg.orchestrator

def MsgERC20DeployedClaim.validateBasic (msg : MsgERC20DeployedClaim) : Go Unit := do
  rewrap ⟨.invalidDenom, "cosmos denom"⟩ (validateStrictDenom msg.cosmosDenom)
  rewrap ⟨.plain, "erc20 token"⟩ (validateEthAddress msg.tokenContract)
  validateOrchestrator ext msg.orchestrator
  require (msg.eventNonce ≠ 0) ⟨.plain, "nonce == 0"⟩

def MsgLogicCallExecutedClaim.validateBasic (msg : MsgLogicCallExecutedClaim) : Go Unit := do
  validateOrchestrator ext msg.orchestrator
  require (msg.eventNonce ≠ 0) ⟨.plain, "nonce == 0"⟩

def MsgValsetUpdatedClaim.validateBasic (msg : MsgValsetUpdatedClaim) : Go Unit := do
  validateOrchestrator ext msg.orchestrator
  require (msg.eventNonce ≠ 0) ⟨.plain, "nonce == 0"⟩
  validateEthAddress msg.rewardToken
  msg.members.forM (fun member => validateEthAddress member.ethereumAddress)

def EthereumClaim.validateBasic : EthereumClaim → Go Unit
  | sendToCosmos msg => msg.validateBasic ext
  | batchSendToEth msg => msg.validateBasic ext
  | erc20Deployed msg => msg.validateBasic ext
  | logicCallExecuted msg => msg.validateBasic ext
  | valsetUpdated msg => msg.validateBasic ext

/-- The account that signed a claim; a claim that fails its checks panics here. -/
def EthereumClaim.getClaimer (claim : EthereumClaim) : Go AccAddress := do
  orPanic "claim failed ValidateBasic! Should have been handled earlier" (claim.validateBasic ext)
  orPanic "invalid orchestrator" (accAddressFromBech32 ext claim.orchestrator)

def ethContractAddressLen : Nat := 42

def maxTokenNameLength : Nat := 256

def maxTokenSymbolLength : Nat := 64

def validateERC20AddressField (address : Bytes) (fieldName : String) : Go Unit := do
  require (address.length ≤ ethContractAddressLen) ⟨.invalidClaim, fieldName ++ " too long"⟩
  rewrap ⟨.invalidClaim, "invalid " ++ fieldName⟩ (validateEthAddress address)

/-- An address that reads as one is never too long. -/
theorem validateERC20AddressField_eq_ok {address : Bytes} {fieldName : String} {result : Unit} :
    validateERC20AddressField address fieldName = .ok result ↔
      validateEthAddress address = .ok () := by
  simp only [validateERC20AddressField, bind_eq_ok, require_eq_ok, rewrap_eq_ok, Unique.exists_iff]
  exact ⟨fun both => both.2, fun valid => ⟨(length_of_validateEthAddress valid).2, valid⟩⟩

def validateClaimFieldLengths : EthereumClaim → Go Unit
  | .sendToCosmos msg => do
      validateERC20AddressField msg.tokenContract "token contract"
      validateERC20AddressField msg.ethereumSender "ethereum sender"
  | .erc20Deployed msg => do
      validateERC20AddressField msg.tokenContract "token contract"
      rewrap ⟨.invalidClaim, "invalid cosmos denom"⟩ (validateStrictDenom msg.cosmosDenom)
      require (msg.name.length ≤ maxTokenNameLength) ⟨.invalidClaim, "token name too long"⟩
      require (msg.symbol.length ≤ maxTokenSymbolLength) ⟨.invalidClaim, "token symbol too long"⟩
  | .batchSendToEth msg => validateERC20AddressField msg.tokenContract "token contract"
  | .valsetUpdated msg => validateERC20AddressField msg.rewardToken "reward token"
  | .logicCallExecuted _ => pure ()

/-! ## Members of a validator set -/

structure InternalBridgeValidator where
  power : U64
  ethereumAddress : EthAddress
  deriving DecidableEq, Repr

def newInternalBridgeValidator (validator : BridgeValidator) : Go InternalBridgeValidator := do
  let ethAddr ← rewrap ⟨.plain, "invalid bridge validator eth address"⟩
    (newEthAddress validator.ethereumAddress)
  pure ⟨validator.power, ethAddr⟩

def membersToInternal (members : List BridgeValidator) : Go (List InternalBridgeValidator) :=
  members.mapM (fun member => rewrap ⟨.plain, "member"⟩ (newInternalBridgeValidator member))

def InternalBridgeValidator.toExternal (validator : InternalBridgeValidator) : BridgeValidator :=
  ⟨validator.power, hex ext validator.ethereumAddress⟩

/-- The order of `Sort`: higher powers first, equal powers by printed address. -/
def sortsBefore (first second : InternalBridgeValidator) : Prop :=
  second.power < first.power ∨ (first.power = second.power ∧
    hex ext first.ethereumAddress ≤ hex ext second.ethereumAddress)

instance : DecidableRel (sortsBefore ext) := fun _ _ => inferInstanceAs (Decidable (_ ∨ _))

def sortMembers (members : List InternalBridgeValidator) : List InternalBridgeValidator :=
  members.insertionSort (sortsBefore ext)

/-- The members in the canonical form that both the hash and the components use. -/
def canonicalMembers (members : List BridgeValidator) : Go (List BridgeValidator) := do
  let internalMembers ← membersToInternal members
  pure ((sortMembers ext internalMembers).map (InternalBridgeValidator.toExternal ext))

/-! ## Hashing -/

/-- `Int.String`, with the text that a nil integer prints. -/
def amountString : Option Int → Bytes
  | none => ascii "<nil>"
  | some (.ofNat number) => numeral 10 number
  | some (.negSucc number) => ascii "-" ++ numeral 10 (number + 1)

def decimal (number : U64) : Bytes := numeral 10 number.val

/-- The `%x` form of one member: the power and the bytes of the address in hexadecimal. -/
def printMember (member : BridgeValidator) : Bytes :=
  ascii "\x7b" ++ numeral 16 member.power.val ++ ascii " " ++ hexEncode member.ethereumAddress ++
    ascii "\x7d"

/-- The `%x` form of a slice of members. -/
def printMembers (members : List BridgeValidator) : Bytes :=
  ascii "[" ++ (ascii " ").intercalate (members.map printMember) ++ ascii "]"

def joinFields (fields : List Bytes) : Bytes := attestationSeparator.intercalate fields

def MsgSendToCosmosClaim.path (msg : MsgSendToCosmosClaim) : Bytes :=
  joinFields [decimal msg.eventNonce, decimal msg.ethBlockHeight, msg.tokenContract,
    amountString msg.amount, msg.ethereumSender, msg.cosmosReceiver]

def MsgBatchSendToEthClaim.path (msg : MsgBatchSendToEthClaim) : Bytes :=
  joinFields [decimal msg.eventNonce, decimal msg.ethBlockHeight, decimal msg.batchNonce,
    msg.tokenContract]

def MsgERC20DeployedClaim.path (msg : MsgERC20DeployedClaim) : Bytes :=
  joinFields [decimal msg.eventNonce, decimal msg.ethBlockHeight, msg.cosmosDenom,
    msg.tokenContract, msg.name, msg.symbol, decimal msg.decimals]

def MsgLogicCallExecutedClaim.path (msg : MsgLogicCallExecutedClaim) : Bytes :=
  joinFields [decimal msg.eventNonce, decimal msg.ethBlockHeight, msg.invalidationId,
    decimal msg.invalidationNonce]

def MsgValsetUpdatedClaim.path (msg : MsgValsetUpdatedClaim) : Go Bytes := do
  let members ← rewrap ⟨.plain, "invalid members"⟩ (canonicalMembers ext msg.members)
  pure (joinFields [decimal msg.eventNonce, decimal msg.valsetNonce, decimal msg.ethBlockHeight,
    printMembers members, amountString msg.rewardAmount, msg.rewardToken])

/-- The byte string that `ClaimHash` passes to the hash function. -/
def EthereumClaim.path : EthereumClaim → Go Bytes
  | sendToCosmos msg => pure msg.path
  | batchSendToEth msg => pure msg.path
  | erc20Deployed msg => pure msg.path
  | logicCallExecuted msg => pure msg.path
  | valsetUpdated msg => msg.path ext

def EthereumClaim.claimHash (claim : EthereumClaim) : Go Bytes := do
  let path ← claim.path ext
  pure (ext.tmhash path)

/-! ## Components -/

inductive ClaimHashComponents where
  | sendToCosmos (eventNonce ethBlockHeight : U64)
      (tokenContract amount ethereumSender cosmosReceiver : Bytes)
  | batchSendToEth (eventNonce ethBlockHeight batchNonce : U64) (tokenContract : Bytes)
  | erc20Deployed (eventNonce ethBlockHeight : U64)
      (cosmosDenom tokenContract name symbol : Bytes) (decimals : U64)
  | logicCallExecuted (eventNonce ethBlockHeight : U64) (invalidationId : Bytes)
      (invalidationNonce : U64)
  | valsetUpdated (eventNonce valsetNonce ethBlockHeight : U64) (members : List BridgeValidator)
      (rewardAmount rewardToken : Bytes)
  deriving DecidableEq, Repr

def extractClaimHashComponents : EthereumClaim → Go ClaimHashComponents
  | .sendToCosmos msg => pure (.sendToCosmos msg.eventNonce msg.ethBlockHeight msg.tokenContract
      (amountString msg.amount) msg.ethereumSender msg.cosmosReceiver)
  | .batchSendToEth msg => pure (.batchSendToEth msg.eventNonce msg.ethBlockHeight msg.batchNonce
      msg.tokenContract)
  | .erc20Deployed msg => pure (.erc20Deployed msg.eventNonce msg.ethBlockHeight msg.cosmosDenom
      msg.tokenContract msg.name msg.symbol msg.decimals)
  | .logicCallExecuted msg => pure (.logicCallExecuted msg.eventNonce msg.ethBlockHeight
      msg.invalidationId msg.invalidationNonce)
  | .valsetUpdated msg => do
      let members ← rewrap ⟨.plain, "invalid valset members"⟩ (canonicalMembers ext msg.members)
      pure (.valsetUpdated msg.eventNonce msg.valsetNonce msg.ethBlockHeight members
        (amountString msg.rewardAmount) msg.rewardToken)

/-- Read the digits of a decimal numeral. -/
def readDigits (text : Bytes) : Option Nat :=
  if text ≠ [] ∧ text.all (fun byte => 48 ≤ byte && byte ≤ 57) then
    some (text.foldl (fun total byte => total * 10 + (byte.toNat - 48)) 0)
  else none

/-- `NewIntFromString` on the decimal strings that `Int.String` prints. -/
def newIntFromString : Bytes → Option Int
  | 45 :: digits => (readDigits digits).bind (fun number =>
      if number < 2 ^ 256 then some (-(number : Int)) else none)
  | digits => (readDigits digits).bind (fun number =>
      if number < 2 ^ 256 then some (number : Int) else none)

def reconstructClaim : ClaimHashComponents → Go EthereumClaim
  | .sendToCosmos eventNonce ethBlockHeight tokenContract amount ethereumSender cosmosReceiver => do
      let amount ← fromOption ⟨.invalidAttestation, "invalid amount"⟩ (newIntFromString amount)
      pure (.sendToCosmos ⟨eventNonce, ethBlockHeight, tokenContract, some amount, ethereumSender,
        cosmosReceiver, []⟩)
  | .batchSendToEth eventNonce ethBlockHeight batchNonce tokenContract =>
      pure (.batchSendToEth ⟨eventNonce, ethBlockHeight, batchNonce, tokenContract, []⟩)
  | .erc20Deployed eventNonce ethBlockHeight cosmosDenom tokenContract name symbol decimals =>
      pure (.erc20Deployed ⟨eventNonce, ethBlockHeight, cosmosDenom, tokenContract, name, symbol,
        decimals, []⟩)
  | .logicCallExecuted eventNonce ethBlockHeight invalidationId invalidationNonce =>
      pure (.logicCallExecuted ⟨eventNonce, ethBlockHeight, invalidationId, invalidationNonce, []⟩)
  | .valsetUpdated eventNonce valsetNonce ethBlockHeight members rewardAmount rewardToken => do
      let amount ← fromOption ⟨.invalidAttestation, "invalid reward_amount"⟩
        (newIntFromString rewardAmount)
      pure (.valsetUpdated ⟨eventNonce, valsetNonce, ethBlockHeight, members, some amount,
        rewardToken, []⟩)

def ClaimHashComponents.computeClaimHash (components : ClaimHashComponents) : Go Bytes := do
  let claim ← rewrap ⟨.plain, "reconstruct claim"⟩ (reconstructClaim components)
  claim.claimHash ext

end

end GravityBridge.Types
