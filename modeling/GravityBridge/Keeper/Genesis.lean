import GravityBridge.Keeper.Chain
import GravityBridge.Keeper.Params

/-!
# Genesis

A chain is exported into one document and a new chain starts from such a document.
Addresses are printed in it, and everything printed is validated again when it is
read. The import stops the new chain at the first thing that it does not accept.
-/

namespace GravityBridge.Keeper

open Lib.Fallible Lib.ByteString Lib.Store
open GravityBridge.Types

/-! ## Transfers and batches with printed addresses -/

/-- The type `ERC20Token` of the source, whose fields are not validated yet. -/
structure ExternalERC20Token where
  contract : Bytes
  amount : Int
  deriving DecidableEq, Repr

structure ExternalTransferTx where
  id : Nat
  sender : Bytes
  destAddress : Bytes
  erc20Token : ExternalERC20Token
  erc20Fee : ExternalERC20Token
  deriving DecidableEq, Repr

structure ExternalTxBatch where
  batchNonce : Nat
  batchTimeout : Nat
  transactions : List ExternalTransferTx
  tokenContract : Bytes
  cosmosBlockCreated : Nat
  deriving DecidableEq, Repr

def ExternalERC20Token.toInternal (token : ExternalERC20Token) : Go ERC20Token := do
  let contract ← rewrap ⟨.plain, "invalid contract"⟩ (newEthAddress token.contract)
  require (0 ≤ token.amount) ⟨.invalidCoins, "coins must not be negative"⟩
  pure ⟨contract, token.amount.toNat⟩

section

variable (ext : External)

def ExternalTransferTx.toInternal (tx : ExternalTransferTx) : Go OutgoingTransferTx := do
  let sender ← rewrap ⟨.plain, "invalid sender"⟩ (accAddressFromBech32 ext tx.sender)
  let destAddress ← rewrap ⟨.plain, "invalid eth destination"⟩ (newEthAddress tx.destAddress)
  let erc20Token ← rewrap ⟨.plain, "invalid Erc20Token"⟩ tx.erc20Token.toInternal
  let erc20Fee ← rewrap ⟨.plain, "invalid Erc20Fee"⟩ tx.erc20Fee.toInternal
  pure ⟨tx.id, sender, destAddress, erc20Token, erc20Fee⟩

def ExternalTxBatch.toInternal (batch : ExternalTxBatch) : Go OutgoingTxBatch := do
  let tokenContract ← rewrap ⟨.plain, "invalid eth address"⟩ (newEthAddress batch.tokenContract)
  let transactions ← batch.transactions.mapM (fun tx =>
    rewrap ⟨.plain, "invalid transaction in batch"⟩ (tx.toInternal ext))
  pure ⟨batch.batchNonce, batch.batchTimeout, transactions, tokenContract, batch.cosmosBlockCreated⟩

def ERC20Token.toExternal (token : ERC20Token) : ExternalERC20Token :=
  ⟨hex ext token.contract, token.amount⟩

def OutgoingTransferTx.toExternal (tx : OutgoingTransferTx) : ExternalTransferTx :=
  ⟨tx.id, accAddressString ext tx.sender, hex ext tx.destAddress, tx.erc20Token.toExternal ext,
    tx.erc20Fee.toExternal ext⟩

def OutgoingTxBatch.toExternal (batch : OutgoingTxBatch) : ExternalTxBatch :=
  ⟨batch.batchNonce, batch.batchTimeout, batch.transactions.map (OutgoingTransferTx.toExternal ext),
    hex ext batch.tokenContract, batch.cosmosBlockCreated⟩

end

/-! ## The document -/

/-- An attestation with printed votes. Old documents lack the type and the components of the claim. -/
structure ExternalAttestation where
  observed : Bool
  votes : List Bytes
  height : Nat
  claim : EthereumClaim
  claimType : Option ClaimType
  claimComponents : Option ClaimHashComponents
  deriving DecidableEq, Repr

structure GravityNonces where
  latestValsetNonce : Nat
  lastObservedNonce : Nat
  lastSlashedValsetNonce : Nat
  lastSlashedBatchBlock : Nat
  lastSlashedLogicCallBlock : Nat
  lastTxPoolId : Nat
  lastBatchId : Nat
  deriving DecidableEq, Repr

structure ERC20ToDenom where
  erc20 : Bytes
  denom : Denom
  deriving DecidableEq, Repr

structure GenesisState where
  params : Params
  gravityNonces : GravityNonces
  valsets : List Valset
  valsetConfirms : List MsgValsetConfirm
  batches : List ExternalTxBatch
  batchConfirms : List MsgConfirmBatch
  logicCalls : List OutgoingLogicCall
  logicCallConfirms : List MsgConfirmLogicCall
  attestations : List ExternalAttestation
  delegateKeys : List MsgSetOrchestratorAddress
  erc20ToDenoms : List ERC20ToDenom
  unbatchedTransfers : List ExternalTransferTx
  pendingIbcAutoForwards : List PendingIbcAutoForward
  remappedErc20S : List Bytes
  cosmosBridgeableTokens : List Metadata
  deriving DecidableEq, Repr

/-! ## Import -/

/-- Neither an Ethereum address nor an orchestrator may occur twice. -/
def hasDuplicates (keys : List MsgSetOrchestratorAddress) : Bool :=
  !(decide (keys.map MsgSetOrchestratorAddress.ethAddress).Nodup &&
    decide (keys.map MsgSetOrchestratorAddress.orchestrator).Nodup)

def highestNonce (valsets : List Valset) : Nat :=
  valsets.foldl (fun highest valset => if highest < valset.nonce then valset.nonce else highest) 0

/-- A registry without mappings. -/
def Registry.unmapped (remappedERC20s : List EthAddress) : Registry :=
  (Ledger.unused remappedERC20s .empty).registry

/-- The store of the module is empty, the other modules have their state. -/
def Chain.blank (chain : Chain) : Chain where
  state := { chain.state with
    oracle := ⟨.empty, .empty, 0, ⟨0, 0⟩⟩
    ledger := { Ledger.unused [] chain.state.ledger.bank with
      communityPool := chain.state.ledger.communityPool } }
  delegates := ⟨.empty, .empty, .empty⟩
  staking := chain.staking
  valsetConfirms := .empty
  logicCalls := .empty
  logicCallConfirms := .empty
  lastSlashedValsetNonce := 0
  lastSlashedBatchBlock := 0
  lastSlashedLogicCallBlock := 0

variable (ext : External)

def Outgoing.setBatchConfirm (outgoing : Outgoing) (msg : MsgConfirmBatch) : Go Outgoing := do
  let orchestrator ← orPanic "invalid Orchestrator address"
    (accAddressFromBech32 ext msg.orchestrator)
  let contract ← orPanic "invalid TokenContract" (newEthAddress msg.tokenContract)
  pure { outgoing with
    batchConfirms :=
      outgoing.batchConfirms.set (getBatchConfirmKey contract msg.nonce.val orchestrator) msg }

/-- A logic call is archived before it is stored. -/
def Chain.setOutgoingLogicCall (chain : Chain) (call : OutgoingLogicCall) : Go Chain := do
  let checkpoint ← call.getCheckpoint ext chain.gravityID
  check (chain.logicCalls.get (getOutgoingLogicCallKey call.invalidationId call.invalidationNonce) =
    none) "Can not overwrite logic call"
  pure { chain with
    state := { chain.state with
      ledger := chain.state.ledger.setPastEthSignatureCheckpoint checkpoint }
    logicCalls := chain.logicCalls.set
      (getOutgoingLogicCallKey call.invalidationId call.invalidationNonce) call }

def Outgoing.importBatch (outgoing : Outgoing) (batch : ExternalTxBatch) : Go Outgoing := do
  let internal ← orPanic "unable to make batch internal" (batch.toInternal ext)
  outgoing.storeBatch internal

/-- Only logic calls have their checkpoints archived here. -/
def Chain.initBridgeDataFromGenesis (data : GenesisState) (chain : Chain) : Go Chain := do
  let stored ← data.valsets.foldlM Ledger.storeValset chain.state.ledger
  let latest ← stored.setLatestValsetNonce (highestNonce data.valsets)
  let valsetConfirms ← data.valsetConfirms.foldlM (Chain.setValsetConfirm ext) chain.valsetConfirms
  let batched ← data.batches.foldlM (Outgoing.importBatch ext) latest.outgoing
  let outgoing ← data.batchConfirms.foldlM (Outgoing.setBatchConfirm ext) batched
  let called ← data.logicCalls.foldlM (Chain.setOutgoingLogicCall ext) { chain with
    state := { chain.state with ledger := { latest with outgoing := outgoing } }
    valsetConfirms := valsetConfirms }
  let logicCallConfirms ← data.logicCallConfirms.foldlM (Chain.setLogicCallConfirm ext)
    called.logicCallConfirms
  pure { called with logicCallConfirms := logicCallConfirms }

def Outgoing.importTransfer (outgoing : Outgoing) (tx : ExternalTransferTx) : Go Outgoing := do
  let internal ← orPanic "invalid unbatched tx" (tx.toInternal ext)
  orPanic "transaction already in pool" (outgoing.addUnbatchedTX internal)

/-- The stored form of an attestation, with what an old document lacks filled in. -/
def ExternalAttestation.toInternal (att : ExternalAttestation) : Go Attestation := do
  let votes ← att.votes.mapM (fun vote =>
    orPanic "decoding bech32 failed" (valAddressFromBech32 ext vote))
  match att.claimType, att.claimComponents with
  | some claimType, some components =>
    pure ⟨att.observed, votes, att.height, att.claim, claimType, components⟩
  | _, _ => do
      let components ← orPanic "error when extracting ClaimHashComponents"
        (extractClaimHashComponents ext att.claim)
      pure ⟨att.observed, votes, att.height, att.claim, att.claim.getType, components⟩

def Oracle.importAttestation (oracle : Oracle) (att : Attestation) : Go Oracle := do
  let hash ← orPanic "error when computing ClaimHash" (att.claim.claimHash ext)
  pure (oracle.setAttestation att.claim.getEventNonce hash att)

/-- The nonces of the voters are rebuilt from the votes. -/
def Oracle.importVotes (oracle : Oracle) (att : Attestation) : Oracle :=
  att.votes.foldl (fun current validator =>
    if current.getLastEventNonceByValidator validator < att.claim.getEventNonce.val then
      current.setLastEventNonceByValidator validator att.claim.getEventNonce.val
    else current) oracle

/-- The validator is read as an account first and as an operator afterwards. -/
def Delegates.importKeys (delegates : Delegates) (keys : MsgSetOrchestratorAddress) :
    Go Delegates := do
  orPanic "Invalid delegate key in Genesis!" (keys.validateBasic ext)
  let validator ← orPanic "decoding bech32 failed" (valAddressFromBech32 ext keys.validator)
  let ethAddress ← orPanic "invalid input address" (newEthAddress keys.ethAddress)
  let orchestrator ← orPanic "decoding bech32 failed" (accAddressFromBech32 ext keys.orchestrator)
  let voting ← delegates.setOrchestratorValidator validator orchestrator
  voting.setEthAddressForValidator validator ethAddress

def Registry.importMapping (registry : Registry) (item : ERC20ToDenom) : Go Registry := do
  let erc20 ← orPanic "invalid erc20 address in Erc20ToDenoms" (newEthAddress item.erc20)
  orPanic "invalid denom in genesis state" (validateStrictDenom item.denom)
  orPanic "invalid cosmos-originated mapping in genesis state"
    (registry.setCosmosOriginatedMapping item.denom erc20)

def Ledger.importBridgeable (ledger : Ledger) (metadata : Metadata) : Go Ledger := do
  orPanic "invalid CosmosBridgeableTokens metadata in genesis state" metadata.validate
  pure ({ ledger with bank := ledger.bank.setDenomMetaData metadata }.setCosmosBridgeableToken
    metadata)

/-- A reward has to be a mapped denom. -/
def Registry.checkValsetReward (registry : Registry) (reward : Coin) : Go Unit :=
  if reward.isValid = true ∧ reward.amount ≠ 0 then do
    orPanic "invalid valset reward denom in genesis state" (validateStrictDenom reward.denom)
    check ((registry.denomToERC20.get reward.denom).isSome = true)
      "Invalid Cosmos originated denom for valset reward"
  else pure ()

/-- The nonces of the document, before any collection is read. -/
def Chain.importNonces (nonces : GravityNonces) (params : Params) (chain : Chain) : Go Chain := do
  let ledger ← chain.state.ledger.setLatestValsetNonce nonces.latestValsetNonce
  let oracle ← chain.state.oracle.setLastObservedEventNonce nonces.lastObservedNonce
  pure { chain with
    state := { chain.state with
      params := params
      oracle := oracle
      ledger := { ledger with
        outgoing := { ledger.outgoing with
          lastTXPoolID := nonces.lastTxPoolId, lastOutgoingBatchID := nonces.lastBatchId } } }
    lastSlashedValsetNonce := nonces.lastSlashedValsetNonce
    lastSlashedBatchBlock := nonces.lastSlashedBatchBlock
    lastSlashedLogicCallBlock := nonces.lastSlashedLogicCallBlock }

/-- `InitGenesis` on an empty store. The remapped tokens are read before the mappings. -/
def Chain.initGenesis (chain : Chain) (data : GenesisState) : Go Chain := do
  orPanic "failed to set params" data.params.validateBasic
  let counted ← chain.blank.importNonces data.gravityNonces data.params
  let bridged ← counted.initBridgeDataFromGenesis ext data
  let outgoing ← data.unbatchedTransfers.foldlM (Outgoing.importTransfer ext)
    bridged.state.ledger.outgoing
  let attestations ← data.attestations.mapM (ExternalAttestation.toInternal ext)
  let attested ← attestations.foldlM (Oracle.importAttestation ext) bridged.state.oracle
  let oracle := attestations.foldl Oracle.importVotes attested
  check (hasDuplicates data.delegateKeys = false) "Duplicate delegate key found in Genesis!"
  let delegates ← data.delegateKeys.foldlM (Delegates.importKeys ext) bridged.delegates
  let remapped ← data.remappedErc20S.mapM (fun address =>
    orPanic "invalid remapped ERC20 address in genesis" (newEthAddress address))
  let registry ← data.erc20ToDenoms.foldlM Registry.importMapping (Registry.unmapped remapped)
  let listed ← data.cosmosBridgeableTokens.foldlM Ledger.importBridgeable
    { bridged.state.ledger with outgoing := outgoing, registry := registry }
  orPanic "CosmosBridgeableTokens post-genesis consistency check failed"
    listed.assertCosmosBridgeableTokensConsistent
  listed.registry.checkValsetReward data.params.valsetReward
  let state : State := { bridged.state with oracle := oracle, ledger := listed }
  let ledger ← data.pendingIbcAutoForwards.foldlM (fun current forward =>
    orPanic "unable to restore pending ibc auto forward"
      (current.addPendingIbcAutoForward ext state.context forward))
    listed
  pure { bridged with state := { state with ledger := ledger }, delegates := delegates }

/-! ## Export -/

def Attestation.toExternal (att : Attestation) : ExternalAttestation :=
  ⟨att.observed, att.votes.map (valAddressString ext), att.height, att.claim, some att.claimType,
    some att.claimComponents⟩

/-- `GetValsets`: the latest comes first. -/
def Valsets.getValsets (valsets : Valsets) : List Valset := valsets.requests.values.reverse

def Chain.getValsetConfirms (chain : Chain) (nonce : Nat) : List MsgValsetConfirm :=
  (chain.valsetConfirms.filter (fun key _ => (ofLex key).1 == nonce)).values

/-- The identifier is only the beginning of the key, so that other calls' confirms may be found
too. -/
def Chain.getLogicConfirmsByInvalidationIdAndNonce (chain : Chain) (invalidationId : Bytes)
    (invalidationNonce : U64) : List MsgConfirmLogicCall :=
  (chain.logicCallConfirms.filter (fun key _ =>
    (getOutgoingLogicCallKey invalidationId invalidationNonce).isPrefixOf key)).values

/-- `IterateRemappedERC20s`: every address once, in increasing order. -/
def Registry.sortedRemapped (registry : Registry) : List EthAddress :=
  registry.remappedERC20s.dedup.insertionSort (· ≤ ·)

def Chain.exportGenesis (chain : Chain) : Go GenesisState := do
  let delegateKeys ← chain.delegates.getDelegateKeys ext
  pure {
    params := chain.state.params
    gravityNonces := {
      latestValsetNonce := chain.state.ledger.valsets.latestValsetNonce
      lastObservedNonce := chain.state.oracle.lastObservedEventNonce
      lastSlashedValsetNonce := chain.lastSlashedValsetNonce
      lastSlashedBatchBlock := chain.lastSlashedBatchBlock
      lastSlashedLogicCallBlock := chain.lastSlashedLogicCallBlock
      lastTxPoolId := chain.state.ledger.outgoing.lastTXPoolID
      lastBatchId := chain.state.ledger.outgoing.lastOutgoingBatchID }
    valsets := chain.state.ledger.valsets.getValsets
    valsetConfirms :=
      chain.state.ledger.valsets.getValsets.flatMap
        (fun valset => chain.getValsetConfirms valset.nonce)
    batches := chain.state.ledger.outgoing.getOutgoingTxBatches.map (OutgoingTxBatch.toExternal ext)
    batchConfirms := chain.state.ledger.outgoing.getOutgoingTxBatches.flatMap (fun batch =>
      chain.state.ledger.outgoing.getBatchConfirmByNonceAndTokenContract batch.batchNonce
        batch.tokenContract)
    logicCalls := chain.logicCalls.values
    logicCallConfirms := chain.logicCalls.values.flatMap (fun call =>
      chain.getLogicConfirmsByInvalidationIdAndNonce call.invalidationId call.invalidationNonce)
    attestations := chain.state.oracle.getAttestations.map (Attestation.toExternal ext)
    delegateKeys := delegateKeys
    erc20ToDenoms := chain.state.ledger.registry.denomToERC20.entries.map
      (fun entry => ⟨hex ext entry.2, entry.1⟩)
    unbatchedTransfers :=
      chain.state.ledger.outgoing.getUnbatchedTransactions.map (OutgoingTransferTx.toExternal ext)
    pendingIbcAutoForwards := chain.state.ledger.pendingIbcAutoForwards.values
    remappedErc20S := chain.state.ledger.registry.sortedRemapped.map (hex ext)
    cosmosBridgeableTokens := chain.state.ledger.registry.cosmosBridgeableTokens.values }

end GravityBridge.Keeper
