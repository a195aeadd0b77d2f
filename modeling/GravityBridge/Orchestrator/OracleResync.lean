import GravityBridge.Lib.Merging
import GravityBridge.Orchestrator.EventLogs

/-!
# Resuming the oracle

A restarted orchestrator looks for the block of the last event that it claimed, in windows that go
backwards from the last safe block. From there on it reads the events of five kinds, keeps those with
a greater nonce, puts them into a map by nonce and sends the first thousand claims in order.
-/

namespace GravityBridge.Orchestrator

open Lib.Abi Lib.Fallible Lib.ByteString Lib.Merging List
open Lib.Store GravityBridge.Types
open EthereumEvent

/-! ## Source -/

/-- The events of the contract, by their signature. -/
inductive EventSignature where
  | transactionBatchExecuted | sentToCosmos | erc20Deployed | logicCall | valsetUpdated
  deriving DecidableEq, Repr

/-- What the Ethereum node answers about the logs of the contract in a range of blocks. -/
structure Web3 where
  checkForEvents : (startBlock endBlock : Nat) → EventSignature → Except String (List Log)

/-- `GravityError`, as far as the oracle returns it. -/
inductive OracleError where
  | invalidEventLogError (cause : InvalidEventLogError)
  | ethereumRestError (message : String)
  | cosmosGrpcError (message : String)
  | invalidBridgeStateError (lastEventNonce : U64)
  deriving DecidableEq, Repr

abbrev Watched (α : Type) := Outcome OracleError α

def Decoded.watched {α : Type} : Decoded α → Watched α
  | .ok value => .ok value
  | .error (.error cause) => .error (.error (.invalidEventLogError cause))
  | .error (.panic message) => .error (.panic message)

def blocksToSearch : Nat := 5000

/-- The logs of a range, by signature. -/
structure EventLogs where
  batchEvents : List Log
  sendToCosmosEvents : List Log
  erc20DeployedEvents : List Log
  logicCallExecutedEvents : List Log
  valsetEvents : List Log

/-- Five queries, of which none may fail. -/
def Web3.queryEvents (web3 : Web3) (startBlock endBlock : Nat) : Option EventLogs :=
  match web3.checkForEvents startBlock endBlock .transactionBatchExecuted,
    web3.checkForEvents startBlock endBlock .sentToCosmos,
    web3.checkForEvents startBlock endBlock .erc20Deployed,
    web3.checkForEvents startBlock endBlock .logicCall,
    web3.checkForEvents startBlock endBlock .valsetUpdated with
  | .ok batches, .ok sends, .ok deploys, .ok calls, .ok valsets =>
    some ⟨batches, sends, deploys, calls, valsets⟩
  | _, _, _, _, _ => none

section

variable (ext : External)

/-- The loop over the events of one kind. An event that cannot be parsed is logged. -/
def findLastEvent (ε : Type) [EthereumEvent ε] (lastEventNonce : U64) :
    List Log → Watched (Option Nat)
  | [] => pure none
  | event :: rest =>
      match (fromLog ext event : Decoded ε) with
      | .ok parsed =>
          if eventNonce parsed = lastEventNonce then
            match event.blockNumber with
            | some blockNumber => pure (some blockNumber)
            | none => findLastEvent ε lastEventNonce rest
          else findLastEvent ε lastEventNonce rest
      | .error (.error _) => findLastEvent ε lastEventNonce rest
      | .error (.panic message) => panicking message

/-- The loop over the updates of the validator set, which also meets the deployment of the
contract. -/
def findLastValset (lastEventNonce : U64) : List Log → Watched (Option Nat)
  | [] => pure none
  | event :: rest =>
      match ValsetUpdatedEvent.fromLog event with
      | .ok valset =>
          if (valset.eventNonce = lastEventNonce ∧ event.blockNumber.isSome) ∨
              (valset.valsetNonce = 0 ∧ lastEventNonce = 1) then do
            let blockNumber ← unwrap "called `Option::unwrap()` on a `None` value" event.blockNumber
            pure (some blockNumber)
          else if valset.valsetNonce = 0 ∧ 1 < lastEventNonce then
            panicking "Could not find the last event relayed by"
          else findLastValset lastEventNonce rest
      | .error (.error _) => findLastValset lastEventNonce rest
      | .error (.panic message) => panicking message

/-- The first of two searches that finds a block. -/
def orElseSearch (first second : Watched (Option Nat)) : Watched (Option Nat) := do
  match ← first with
  | some blockNumber => pure (some blockNumber)
  | none => second

/-- One window. -/
def searchEvents (lastEventNonce : U64) (logs : EventLogs) : Watched (Option Nat) :=
  orElseSearch (findLastEvent ext TransactionBatchExecutedEvent lastEventNonce logs.batchEvents)
    (orElseSearch (findLastEvent ext SendToCosmosEvent lastEventNonce logs.sendToCosmosEvents)
      (orElseSearch (findLastEvent ext Erc20DeployedEvent lastEventNonce logs.erc20DeployedEvents)
        (orElseSearch (findLastEvent ext LogicCallExecutedEvent lastEventNonce
          logs.logicCallExecutedEvents) (findLastValset lastEventNonce logs.valsetEvents.reverse))))

/-- The panic of `get_last_checked_block`. -/
def endOfHistory : String :=
  "You have reached the end of block history without finding the Gravity contract deploy event! " ++
    "You must have the wrong contract address!"

/-- The loop of `get_last_checked_block`, for a number of passes. A pass whose queries fail is made
again. -/
def resync (web3 : Web3) (lastEventNonce : U64) : (passes : Nat) → (currentBlock : Nat) →
    Option (Watched Nat)
  | 0, _ => none
  | passes + 1, currentBlock =>
      if 0 < currentBlock then
        let endSearch := if currentBlock < blocksToSearch then 0 else currentBlock - blocksToSearch
        match web3.queryEvents endSearch currentBlock with
        | none => resync web3 lastEventNonce passes currentBlock
        | some logs =>
            match searchEvents ext lastEventNonce logs with
            | .ok (some blockNumber) => some (pure blockNumber)
            | .ok none => resync web3 lastEventNonce passes endSearch
            | .error fault => some (.error fault)
      else some (panicking endOfHistory)

/-- `get_last_checked_block`, with the latest safe block and the nonce that the chain answers. -/
def getLastCheckedBlock (web3 : Web3) (latestBlock : Nat) (lastEventNonce : U64) (passes : Nat) :
    Option (Watched Nat) :=
  resync ext web3 (if lastEventNonce = 0 then 1 else lastEventNonce) passes latestBlock

/-! ### Claims -/

/-- The events of a range, parsed. -/
structure ParsedEvents where
  deposits : List SendToCosmosEvent
  withdraws : List TransactionBatchExecutedEvent
  erc20Deploys : List Erc20DeployedEvent
  logicCalls : List LogicCallExecutedEvent
  valsets : List ValsetUpdatedEvent

def EventLogs.parse (logs : EventLogs) : Watched ParsedEvents := do
  let valsets ← Decoded.watched (fromLogs ext logs.valsetEvents)
  let withdraws ← Decoded.watched (fromLogs ext logs.batchEvents)
  let deposits ← Decoded.watched (fromLogs ext logs.sendToCosmosEvents)
  let erc20Deploys ← Decoded.watched (fromLogs ext logs.erc20DeployedEvents)
  let logicCalls ← Decoded.watched (fromLogs ext logs.logicCallExecutedEvents)
  pure ⟨deposits, withdraws, erc20Deploys, logicCalls, valsets⟩

def ParsedEvents.after (nonce : U64) (events : ParsedEvents) : ParsedEvents :=
  ⟨filterByEventNonce nonce events.deposits, filterByEventNonce nonce events.withdraws,
    filterByEventNonce nonce events.erc20Deploys, filterByEventNonce nonce events.logicCalls,
    filterByEventNonce nonce events.valsets⟩

def ParsedEvents.isEmpty (events : ParsedEvents) : Bool :=
  events.deposits.isEmpty && events.withdraws.isEmpty && events.erc20Deploys.isEmpty &&
    events.logicCalls.isEmpty && events.valsets.isEmpty

def ParsedEvents.getBlockForNonce (nonce : U64) (events : ParsedEvents) : Option Nat :=
  (EthereumEvent.getBlockForNonce nonce events.valsets).or
    ((EthereumEvent.getBlockForNonce nonce events.deposits).or
      ((EthereumEvent.getBlockForNonce nonce events.withdraws).or
        ((EthereumEvent.getBlockForNonce nonce events.erc20Deploys).or
          (EthereumEvent.getBlockForNonce nonce events.logicCalls))))

/-- An order in which the keys of a hash map are visited. -/
structure HashOrder where
  visit : List U64 → List U64
  visit_perm : ∀ keys, (visit keys).Perm keys

def createClaimMsgs {ε : Type} [EthereumEvent ε] (orchestrator : Bytes) (events : List ε) :
    Watched (List (U64 × EthereumClaim)) :=
  events.mapM (fun event => do pure (eventNonce event,
    ← Decoded.watched (toClaimMsg ext orchestrator event)))

def insertMsg (unorderedMsgs : KVStore U64 EthereumClaim) (msg : U64 × EthereumClaim) :
    Watched (KVStore U64 EthereumClaim) := do
  check (unorderedMsgs.get msg.1 = none)
    "assertion failed: unordered_msgs.insert(nonce, msg).is_none()"
  pure (unorderedMsgs.set msg.1 msg.2)

def removeMsg (state : KVStore U64 EthereumClaim × List EthereumClaim) (key : U64) :
    Watched (KVStore U64 EthereumClaim × List EthereumClaim) := do
  let msg ← unwrap "called `Option::unwrap()` on a `None` value" (state.1.get key)
  pure (state.1.delete key, state.2 ++ [msg])

def maxOracleMessages : Nat := 1000

/-- The messages that `send_ethereum_claims` sends. Those over the limit are popped off the end. -/
def claimMessages (order : HashOrder) (orchestrator : Bytes) (events : ParsedEvents) :
    Watched (List EthereumClaim) := do
  let deposits ← createClaimMsgs ext orchestrator events.deposits
  let withdraws ← createClaimMsgs ext orchestrator events.withdraws
  let deploys ← createClaimMsgs ext orchestrator events.erc20Deploys
  let logicCalls ← createClaimMsgs ext orchestrator events.logicCalls
  let valsets ← createClaimMsgs ext orchestrator events.valsets
  let unorderedMsgs ← (deposits ++ withdraws ++ deploys ++ logicCalls ++ valsets).foldlM
    insertMsg .empty
  let keys := (order.visit (unorderedMsgs.entries.map Prod.fst)).insertionSort (· ≤ ·)
  let (_, msgs) ← keys.foldlM removeMsg (unorderedMsgs, [])
  pure (msgs.take maxOracleMessages)

structure CheckedNonces where
  blockNumber : Nat
  eventNonce : U64
  deriving DecidableEq, Repr

/-- What the Cosmos chain answers: the nonce of the validator before and after the messages, and how
they went. -/
structure CosmosAnswers where
  lastEventNonce : Watched U64
  sendMessage : List EthereumClaim → Watched Unit
  newEventNonce : List EthereumClaim → Watched U64

/-- The last block of the search. -/
def lastSearched (startingBlock latestBlock : Nat) : Nat :=
  if startingBlock < latestBlock ∧ blocksToSearch < latestBlock - startingBlock then
    startingBlock + blocksToSearch
  else latestBlock

/-- `check_for_events` up to the question whether there is something new. -/
def newEvents (web3 : Web3) (cosmos : CosmosAnswers) (startingBlock endBlock : Nat) :
    Watched (U64 × ParsedEvents) := do
  let logs ← fromOption (.ethereumRestError "Failed to get logs!")
    (web3.queryEvents startingBlock endBlock)
  let events ← logs.parse ext
  let lastEventNonce ← cosmos.lastEventNonce
  pure (lastEventNonce, events.after lastEventNonce)

/-- `check_for_events`, with the messages that it sends, if it sends any. -/
def checkForEvents (web3 : Web3) (cosmos : CosmosAnswers) (order : HashOrder) (orchestrator : Bytes)
    (startingBlock latestBlock : Nat) : Option (List EthereumClaim) × Watched CheckedNonces :=
  let endBlock := lastSearched startingBlock latestBlock
  match newEvents ext web3 cosmos startingBlock endBlock with
  | .error fault => (none, .error fault)
  | .ok (lastEventNonce, events) =>
      if events.isEmpty then (none, .ok ⟨endBlock, lastEventNonce⟩)
      else
        match claimMessages ext order orchestrator events with
        | .error fault => (none, .error fault)
        | .ok msgs =>
            (some msgs, do
              cosmos.sendMessage msgs
              let newEventNonce ← cosmos.newEventNonce msgs
              require (newEventNonce ≠ lastEventNonce) (.invalidBridgeStateError lastEventNonce)
              let blockNumber ← unwrap "It's impossible for an event to be in more than one list!"
                (events.getBlockForNonce newEventNonce)
              pure ⟨blockNumber, newEventNonce⟩)

end

/-! ## Histories -/

/-- A log that the contract emitted, with its signature, block and event nonce. -/
structure Emitted where
  signature : EventSignature
  log : Log
  block : Nat
  nonce : U64

/-- The log is decoded to an event of its kind with its nonce. -/
def Emitted.DecodesAs (ext : External) (ε : Type) [EthereumEvent ε] (emitted : Emitted) : Prop :=
  ∃ event : ε, fromLog ext emitted.log = .ok event ∧ eventNonce event = emitted.nonce

/-- The log decodes as its signature says, and the first event alone has the validator set with
nonce zero. -/
def Emitted.DecodesFor (ext : External) (signature : EventSignature) (emitted : Emitted) : Prop :=
  match signature with
  | .transactionBatchExecuted => emitted.DecodesAs ext TransactionBatchExecutedEvent
  | .sentToCosmos => emitted.DecodesAs ext SendToCosmosEvent
  | .erc20Deployed => emitted.DecodesAs ext Erc20DeployedEvent
  | .logicCall => False
  | .valsetUpdated => ∃ event, ValsetUpdatedEvent.fromLog emitted.log = .ok event ∧
      event.eventNonce = emitted.nonce ∧ (event.valsetNonce = 0 ↔ emitted.nonce = 1)

/-- The events of the contract from its deployment on. -/
structure History (ext : External) (events : List Emitted) : Prop where
  nonces : events.map (fun emitted => emitted.nonce.val) = range' 1 events.length
  ordered : events.Pairwise (fun first second => first.block ≤ second.block)
  positive : ∀ emitted ∈ events, 0 < emitted.block
  blocks : ∀ emitted ∈ events, emitted.log.blockNumber = some emitted.block
  decodes : ∀ emitted ∈ events, emitted.DecodesFor ext emitted.signature
  deployed : ∃ first ∈ events, first.nonce = 1 ∧ first.signature = .valsetUpdated

/-- The events of a kind in a range of blocks. -/
def windowOf (events : List Emitted) (startBlock endBlock : Nat) (signature : EventSignature) :
    List Emitted :=
  events.filter (fun emitted => emitted.signature = signature ∧ startBlock ≤ emitted.block ∧
    emitted.block ≤ endBlock)

/-- The node returns all logs of a range, in their order. -/
def Web3.Complete (web3 : Web3) (events : List Emitted) : Prop :=
  ∀ startBlock endBlock signature, web3.checkForEvents startBlock endBlock signature =
    .ok ((windowOf events startBlock endBlock signature).map Emitted.log)

/-- The logs of a range. -/
def windowLogs (events : List Emitted) (startBlock endBlock : Nat) : EventLogs :=
  ⟨(windowOf events startBlock endBlock .transactionBatchExecuted).map Emitted.log,
    (windowOf events startBlock endBlock .sentToCosmos).map Emitted.log,
    (windowOf events startBlock endBlock .erc20Deployed).map Emitted.log,
    (windowOf events startBlock endBlock .logicCall).map Emitted.log,
    (windowOf events startBlock endBlock .valsetUpdated).map Emitted.log⟩

section

variable {ext : External} {web3 : Web3} {events : List Emitted} {startBlock endBlock : Nat}
  {signature : EventSignature} {nonce : U64} {sought : Emitted}

variable {emitted : Emitted}

theorem mem_windowOf : emitted ∈ windowOf events startBlock endBlock signature ↔
    emitted ∈ events ∧ emitted.signature = signature ∧ startBlock ≤ emitted.block ∧
      emitted.block ≤ endBlock := by
  simp [windowOf]

theorem windowOf_sublist : (windowOf events startBlock endBlock signature).Sublist events :=
  filter_sublist

theorem Web3.Complete.queryEvents (complete : web3.Complete events) (startBlock endBlock : Nat) :
    web3.queryEvents startBlock endBlock = some (windowLogs events startBlock endBlock) := by
  simp only [Web3.queryEvents, complete _ _ _, windowLogs]

/-! ## Windows -/

variable {ε : Type}

/-- The block of the event with a nonce. -/
def blockOf (nonce : U64) (emitteds : List Emitted) : Option Nat :=
  (emitteds.find? (fun emitted => emitted.nonce = nonce)).map Emitted.block

theorem blockOf_of_forall_ne {emitteds : List Emitted}
    (others : ∀ emitted ∈ emitteds, emitted.nonce ≠ nonce) : blockOf nonce emitteds = none := by
  rw [blockOf, Option.map_eq_none_iff, find?_eq_none]
  exact fun emitted member same => others emitted member (of_decide_eq_true same)

/-- The search among events of one kind. -/
theorem findLastEvent_eq [EthereumEvent ε] {emitteds : List Emitted}
    (blocks : ∀ emitted ∈ emitteds, emitted.log.blockNumber = some emitted.block)
    (decodes : ∀ emitted ∈ emitteds, emitted.DecodesAs ext ε) :
    findLastEvent ext ε nonce (emitteds.map Emitted.log) = .ok (blockOf nonce emitteds) := by
  induction emitteds with
  | nil => rfl
  | cons emitted rest ih =>
    obtain ⟨block, blocksRest⟩ := forall_mem_cons.mp blocks
    obtain ⟨⟨event, read, own⟩, decodesRest⟩ := forall_mem_cons.mp decodes
    rw [map_cons, findLastEvent, read]
    by_cases hit : emitted.nonce = nonce
    · simp [own, hit, block, blockOf]
    · simp [own, hit, ih blocksRest decodesRest, blockOf]

/-- The search among validator sets passes over events that are neither sought nor the first. -/
theorem findLastValset_skips {before : List Emitted} {rest : List Log}
    (decodes : ∀ emitted ∈ before, ∃ event, ValsetUpdatedEvent.fromLog emitted.log = .ok event ∧
      event.eventNonce = emitted.nonce ∧ (event.valsetNonce = 0 ↔ emitted.nonce = 1))
    (others : ∀ emitted ∈ before, emitted.nonce ≠ nonce ∧ emitted.nonce ≠ 1) :
    findLastValset nonce (before.map Emitted.log ++ rest) = findLastValset nonce rest := by
  induction before with
  | nil => rfl
  | cons emitted later ih =>
    obtain ⟨⟨event, read, own, first⟩, decodesLater⟩ := forall_mem_cons.mp decodes
    obtain ⟨⟨notSought, notFirst⟩, othersLater⟩ := forall_mem_cons.mp others
    have notDeployed : ¬ event.valsetNonce = 0 := fun zero => notFirst (first.mp zero)
    rw [map_cons, cons_append, findLastValset, read]
    simp only [own, notSought, notDeployed, false_and, or_self, if_false]
    exact ih decodesLater othersLater

/-! ### Histories in windows -/

section

variable (history : History ext events)

include history

theorem History.increasing :
    events.Pairwise (fun first second => first.nonce < second.nonce) := by
  have numbers : (events.map (fun emitted => emitted.nonce.val)).Pairwise (· < ·) := by
    rw [history.nonces]
    exact pairwise_lt_range'
  exact (pairwise_map.mp numbers).imp fun less => less

theorem History.one_le (member : emitted ∈ events) : 1 ≤ emitted.nonce := by
  have number : emitted.nonce.val ∈ events.map (fun emitted => emitted.nonce.val) :=
    mem_map.mpr ⟨emitted, member, rfl⟩
  rw [history.nonces, mem_range'_1] at number
  exact number.1

/-- No two events have the same nonce. -/
theorem History.unique {first second : Emitted} (firstIn : first ∈ events)
    (secondIn : second ∈ events) (same : first.nonce = second.nonce) : first = second := by
  have distinct : (events.map Emitted.nonce).Nodup :=
    pairwise_map.mpr (history.increasing.imp fun less => less.ne)
  exact inj_on_of_nodup_map distinct firstIn secondIn same

/-- Later events are in later blocks. -/
theorem History.block_le {first second : Emitted} (firstIn : first ∈ events)
    (secondIn : second ∈ events) (before : first.nonce ≤ second.nonce) :
    first.block ≤ second.block := by
  rcases before.lt_or_eq with less | same
  · exact related_of_lt (history.increasing.and history.ordered) firstIn secondIn less
  · rw [history.unique firstIn secondIn same]

theorem History.blockOf_of_mem (inside : sought ∈ windowOf events startBlock endBlock signature) :
    blockOf sought.nonce (windowOf events startBlock endBlock signature) = some sought.block := by
  unfold blockOf
  cases found : (windowOf events startBlock endBlock signature).find?
    (fun emitted => emitted.nonce = sought.nonce) with
  | none => exact absurd (find?_eq_none.mp found sought inside) (by simp)
  | some other =>
    have same : other.nonce = sought.nonce := by simpa using find?_some found
    rw [history.unique (mem_windowOf.mp (mem_of_find?_eq_some found)).1
      (mem_windowOf.mp inside).1 same]
    rfl

theorem History.decodesFor
    (member : emitted ∈ windowOf events startBlock endBlock signature) :
    emitted.DecodesFor ext signature := by
  obtain ⟨there, rfl, _⟩ := mem_windowOf.mp member
  exact history.decodes emitted there

theorem History.no_logicCalls : windowOf events startBlock endBlock .logicCall = [] :=
  eq_nil_iff_forall_not_mem.mpr fun _ member => history.decodesFor member

theorem History.blocks_window :
    ∀ emitted ∈ windowOf events startBlock endBlock signature, emitted.log.blockNumber =
      some emitted.block :=
  fun emitted member => history.blocks emitted (mem_windowOf.mp member).1

/-- The search among the validator sets of a window that holds the sought event. -/
theorem History.findLastValset_of_mem
    (inside : sought ∈ windowOf events startBlock endBlock .valsetUpdated) :
    findLastValset sought.nonce
      ((windowOf events startBlock endBlock .valsetUpdated).map Emitted.log).reverse =
      .ok (some sought.block) := by
  obtain ⟨earlier, later, split⟩ := append_of_mem inside
  have increasing : (windowOf events startBlock endBlock .valsetUpdated).Pairwise
      (fun first second => first.nonce < second.nonce) := history.increasing.sublist windowOf_sublist
  have decodes : ∀ emitted ∈ windowOf events startBlock endBlock .valsetUpdated,
  emitted.DecodesFor ext .valsetUpdated :=
    fun _ member => history.decodesFor member
  obtain ⟨event, read, own, _⟩ := decodes sought inside
  have block := history.blocks_window sought inside
  have first := history.one_le (mem_windowOf.mp inside).1
  rw [split] at increasing decodes ⊢
  have after : ∀ emitted ∈ later, sought.nonce < emitted.nonce :=
    (pairwise_cons.mp (pairwise_append.mp increasing).2.1).1
  have reversed : ((earlier ++ sought :: later).map Emitted.log).reverse =
      later.reverse.map Emitted.log ++ sought.log :: (earlier.map Emitted.log).reverse := by
    simp
  rw [reversed, findLastValset_skips]
  · simp [findLastValset, read, own, block]
  · intro emitted member
    exact decodes emitted (mem_append_right _ (mem_cons_of_mem _ (mem_reverse.mp member)))
  · intro emitted member
    have less := after emitted (mem_reverse.mp member)
    exact ⟨less.ne', fun one => absurd less (by rw [one]; exact first.not_gt)⟩

/-- The search among the validator sets of a window without the sought event and without the
deployment. -/
theorem History.findLastValset_of_not_mem
    (others : ∀ emitted ∈ windowOf events startBlock endBlock .valsetUpdated,
      emitted.nonce ≠ nonce ∧ emitted.nonce ≠ 1) :
    findLastValset nonce ((windowOf events startBlock endBlock .valsetUpdated).map
      Emitted.log).reverse = .ok none := by
  have skipped : findLastValset nonce
      ((windowOf events startBlock endBlock .valsetUpdated).reverse.map Emitted.log ++ []) = _ :=
    findLastValset_skips (fun emitted member => history.decodesFor (mem_reverse.mp member))
      (fun emitted member => others emitted (mem_reverse.mp member))
  rw [append_nil, map_reverse] at skipped
  exact skipped

/-- The search in the logs of a window, with the results of its first four loops. -/
theorem History.searchEvents_eq (nonce : U64) (startBlock endBlock : Nat) :
    searchEvents ext nonce (windowLogs events startBlock endBlock) =
    orElseSearch (.ok (blockOf nonce (windowOf events startBlock endBlock .transactionBatchExecuted)))
      (orElseSearch (.ok (blockOf nonce (windowOf events startBlock endBlock .sentToCosmos)))
        (orElseSearch (.ok (blockOf nonce (windowOf events startBlock endBlock .erc20Deployed)))
          (findLastValset nonce ((windowOf events startBlock endBlock .valsetUpdated).map
            Emitted.log).reverse))) := by
  have found : ∀ signature (ε : Type) [EthereumEvent ε],
      (∀ emitted, Emitted.DecodesFor ext signature emitted → emitted.DecodesAs ext ε) →
      findLastEvent ext ε nonce ((windowOf events startBlock endBlock signature).map Emitted.log) =
        .ok (blockOf nonce (windowOf events startBlock endBlock signature)) :=
          fun signature ε _ decodes =>
    findLastEvent_eq history.blocks_window fun emitted member =>
      decodes emitted (history.decodesFor member)
  rw [searchEvents, windowLogs,
    found .transactionBatchExecuted TransactionBatchExecutedEvent fun _ decodes =>
      decodes, found .sentToCosmos SendToCosmosEvent fun _ decodes => decodes,
    found .erc20Deployed Erc20DeployedEvent fun _ decodes => decodes, history.no_logicCalls]
  rfl

/-- A window that holds the sought event shows its block. -/
theorem History.searchEvents_of_mem (there : sought ∈ events)
    (after : startBlock ≤ sought.block) (before : sought.block ≤ endBlock) :
    searchEvents ext sought.nonce (windowLogs events startBlock endBlock) =
      .ok (some sought.block) := by
  have inside : sought ∈ windowOf events startBlock endBlock sought.signature :=
    mem_windowOf.mpr ⟨there, rfl, after, before⟩
  have absent : ∀ signature, sought.signature ≠ signature →
      blockOf sought.nonce (windowOf events startBlock endBlock signature) = none := by
    intro signature other
    refine blockOf_of_forall_ne fun emitted member same => other ?_
    obtain ⟨emittedIn, kind, _⟩ := mem_windowOf.mp member
    rw [← kind, history.unique emittedIn there same]
  rw [history.searchEvents_eq]
  -- The loops over the kinds before that of the sought event find nothing.
  cases kind : sought.signature with
  | transactionBatchExecuted =>
    rw [history.blockOf_of_mem (kind ▸ inside)]
    rfl
  | sentToCosmos =>
    rw [absent .transactionBatchExecuted (by simp [kind]), history.blockOf_of_mem (kind ▸ inside)]
    rfl
  | erc20Deployed =>
    rw [absent .transactionBatchExecuted (by simp [kind]), absent .sentToCosmos (by simp [kind]),
      history.blockOf_of_mem (kind ▸ inside)]
    rfl
  | logicCall =>
    rw [kind, history.no_logicCalls] at inside
    contradiction
  | valsetUpdated =>
    rw [absent .transactionBatchExecuted (by simp [kind]), absent .sentToCosmos (by simp [kind]),
      absent .erc20Deployed (by simp [kind]), history.findLastValset_of_mem (kind ▸ inside)]
    rfl

/-- A window without the sought event and without the deployment shows nothing. -/
theorem History.searchEvents_of_not_mem (nonce : U64) (startBlock endBlock : Nat)
    (others : ∀ emitted ∈ events, startBlock ≤ emitted.block → emitted.block ≤ endBlock →
      emitted.nonce ≠ nonce ∧ emitted.nonce ≠ 1) :
    searchEvents ext nonce (windowLogs events startBlock endBlock) = .ok none := by
  have outside : ∀ signature, ∀ emitted ∈ windowOf events startBlock endBlock signature,
      emitted.nonce ≠ nonce ∧ emitted.nonce ≠ 1 := by
    intro signature emitted member
    obtain ⟨there, _, after, before⟩ := mem_windowOf.mp member
    exact others emitted there after before
  have absent : ∀ signature, blockOf nonce (windowOf events startBlock endBlock signature) = none :=
    fun signature => blockOf_of_forall_ne fun emitted member => (outside signature emitted member).1
  rw [history.searchEvents_eq, absent, absent, absent,
    history.findLastValset_of_not_mem (outside .valsetUpdated)]
  rfl

end

/-! ## Resuming -/

variable {currentBlock : Nat}

/-- A window that ends at the current block. -/
theorem resync_succ (complete : web3.Complete events) (nonce : U64) (passes : Nat)
    (positive : 0 < currentBlock) : resync ext web3 nonce (passes + 1) currentBlock =
      match searchEvents ext nonce
        (windowLogs events (currentBlock - blocksToSearch) currentBlock) with
      | .ok (some blockNumber) => some (pure blockNumber)
      | .ok none => resync ext web3 nonce passes (currentBlock - blocksToSearch)
      | .error fault => some (.error fault) := by
  have next : (if currentBlock < blocksToSearch then 0 else currentBlock - blocksToSearch) =
      currentBlock - blocksToSearch := by
    split_ifs <;> omega
  rw [resync, if_pos positive]
  simp only [next, complete.queryEvents]

/-- The windows go back to the one with the sought event. -/
theorem History.resync_succeeds (history : History ext events) (complete : web3.Complete events)
    (there : sought ∈ events)
    {passes : Nat} (safe : sought.block ≤ currentBlock) (enough : currentBlock < passes) :
    resync ext web3 sought.nonce passes currentBlock = some (.ok sought.block) := by
  have positive := history.positive sought there
  obtain ⟨first, firstIn, firstNonce, _⟩ := history.deployed
  have firstBefore : first.block ≤ sought.block :=
    history.block_le firstIn there (firstNonce ▸ history.one_le there)
  induction passes generalizing currentBlock with
  | zero => omega
  | succ passes ih =>
    rw [resync_succ complete sought.nonce passes (by omega)]
    by_cases inside : currentBlock - blocksToSearch ≤ sought.block
    · rw [history.searchEvents_of_mem there inside safe]
      rfl
    · rw [history.searchEvents_of_not_mem]
      · exact ih (by omega) (by unfold blocksToSearch at *; omega)
      · intro emitted member after _
        refine ⟨fun same => ?_, fun one => ?_⟩
        · rw [history.unique member there same] at after
          exact inside after
        · rw [history.unique member firstIn (one.trans firstNonce.symm)] at after
          exact inside (after.trans firstBefore)

/-- Below the deployment the windows show nothing, down to block zero. -/
theorem History.resync_panics (history : History ext events) (complete : web3.Complete events)
    {passes : Nat}
    (below : ∀ emitted ∈ events, currentBlock < emitted.block) (enough : currentBlock < passes) :
    resync ext web3 nonce passes currentBlock = some (panicking endOfHistory) := by
  induction passes generalizing currentBlock with
  | zero => omega
  | succ passes ih =>
    by_cases positive : 0 < currentBlock
    · rw [resync_succ complete nonce passes positive, history.searchEvents_of_not_mem]
      · exact ih (fun emitted member => lt_of_le_of_lt (Nat.sub_le _ _) (below emitted member))
          (by unfold blocksToSearch; omega)
      · exact fun emitted member _ before => absurd (below emitted member) before.not_gt
    · rw [resync, if_neg positive]

/-! ## Claims -/

/-- Parsed events with these nonces, from which messages can be made. -/
structure Readable {ε : Type} [EthereumEvent ε] (nonces : List U64) (parsed : List ε) : Prop where
  own : parsed.map eventNonce = nonces
  heights : ∀ event ∈ parsed, blockHeight event < 2 ^ 64

/-- Messages with these nonces, each under its own. -/
structure Claiming (nonces : List U64) (msgs : List (U64 × EthereumClaim)) : Prop where
  keys : msgs.map Prod.fst = nonces
  own : ∀ msg ∈ msgs, msg.2.getEventNonce = msg.1

theorem fromLogs_readable [EthereumEvent ε] {emitteds : List Emitted}
    (decodes : ∀ emitted ∈ emitteds, emitted.DecodesAs ext ε) :
    ∃ parsed : List ε, fromLogs ext (emitteds.map Emitted.log) = .ok parsed ∧
      Readable (emitteds.map Emitted.nonce) parsed := by
  induction emitteds with
  | nil => exact ⟨[], rfl, rfl, by simp⟩
  | cons emitted rest ih =>
    obtain ⟨⟨event, read, own⟩, decodesRest⟩ := forall_mem_cons.mp decodes
    obtain ⟨parsed, readRest, readable⟩ := ih decodesRest
    refine ⟨event :: parsed, ?_, by rw [map_cons, own, readable.own, map_cons],
      forall_mem_cons.mpr ⟨(fromLog_height ext emitted.log event read).2, readable.heights⟩⟩
    rw [fromLogs] at readRest ⊢
    rw [map_cons, mapM_cons, read, ok_bind, readRest]
    rfl

variable {nonces : List U64}

theorem Readable.after [EthereumEvent ε] {parsed : List ε} (readable : Readable nonces parsed)
    (last : U64) :
    Readable (nonces.filter (fun nonce => last < nonce)) (filterByEventNonce last parsed) where
  own := by
    rw [← readable.own, filter_map]
    rfl
  heights event member := readable.heights event (mem_filter.mp member).1

theorem Readable.createClaimMsgs [EthereumEvent ε] {parsed : List ε}
    (readable : Readable nonces parsed) (ext : External) (orchestrator : Bytes) :
    ∃ msgs, createClaimMsgs ext orchestrator parsed = .ok msgs ∧ Claiming nonces msgs := by
  obtain ⟨rfl, heights⟩ := readable
  induction parsed with
  | nil => exact ⟨[], rfl, rfl, by simp⟩
  | cons event rest ih =>
    obtain ⟨fits, heightsRest⟩ := forall_mem_cons.mp heights
    obtain ⟨msgs, madeRest, claiming⟩ := ih heightsRest
    refine ⟨(eventNonce event, claim ext orchestrator ⟨blockHeight event, fits⟩ event) :: msgs, ?_,
      by rw [map_cons, claiming.keys, map_cons],
      forall_mem_cons.mpr ⟨claim_nonce ext orchestrator _ event, claiming.own⟩⟩
    rw [Orchestrator.createClaimMsgs] at madeRest ⊢
    rw [mapM_cons, madeRest, toClaimMsg, getBlockHeight, dif_pos fits]
    rfl

theorem Claiming.append {otherNonces : List U64} {msgs others : List (U64 × EthereumClaim)}
    (claiming : Claiming nonces msgs) (claimingOthers : Claiming otherNonces others) :
    Claiming (nonces ++ otherNonces) (msgs ++ others) where
  keys := by rw [map_append, claiming.keys, claimingOthers.keys]
  own msg member := (mem_append.mp member).elim (claiming.own msg) (claimingOthers.own msg)

/-- No assertion fails while messages with distinct nonces are put into the map. -/
theorem foldlM_insertMsg {msgs : List (U64 × EthereumClaim)}
    {unorderedMsgs : KVStore U64 EthereumClaim}
    (distinct : (msgs.map Prod.fst).Nodup) (fresh : ∀ msg ∈ msgs, unorderedMsgs.get msg.1 = none) :
    msgs.foldlM insertMsg unorderedMsgs =
      .ok (msgs.foldl (fun store msg => store.set msg.1 msg.2) unorderedMsgs) := by
  induction msgs generalizing unorderedMsgs with
  | nil => rfl
  | cons msg rest ih =>
    obtain ⟨notAgain, distinctRest⟩ := nodup_cons.mp distinct
    obtain ⟨freshMsg, freshRest⟩ := forall_mem_cons.mp fresh
    have inserted : insertMsg unorderedMsgs msg = .ok (unorderedMsgs.set msg.1 msg.2) := by
      rw [insertMsg, check, if_pos freshMsg]
      rfl
    rw [foldlM_cons, inserted, ok_bind, foldl_cons]
    refine ih distinctRest fun other member => ?_
    rw [KVStore.get_set, if_neg, freshRest other member]
    exact fun same => notAgain (mem_map.mpr ⟨other, member, same⟩)

/-- The messages come out of the map in the order of the keys. -/
theorem foldlM_removeMsg {keys : List U64} {unorderedMsgs : KVStore U64 EthereumClaim}
    {sent : List EthereumClaim} (distinct : keys.Nodup)
    (present : ∀ key ∈ keys, ∃ msg, unorderedMsgs.get key = some msg ∧ msg.getEventNonce = key) :
    ∃ left msgs, keys.foldlM removeMsg (unorderedMsgs, sent) = .ok (left, sent ++ msgs) ∧
      msgs.map EthereumClaim.getEventNonce = keys := by
  induction keys generalizing unorderedMsgs sent with
  | nil => exact ⟨unorderedMsgs, [], by rw [append_nil]; rfl, rfl⟩
  | cons key rest ih =>
    obtain ⟨notAgain, distinctRest⟩ := nodup_cons.mp distinct
    obtain ⟨⟨msg, found, own⟩, presentRest⟩ := forall_mem_cons.mp present
    have removed : removeMsg (unorderedMsgs, sent) key =
        .ok (unorderedMsgs.delete key, sent ++ [msg]) := by
      rw [removeMsg, found]
      rfl
    have stillPresent : ∀ other ∈ rest, ∃ msg, (unorderedMsgs.delete key).get other = some msg ∧
        msg.getEventNonce = other := by
      intro other member
      obtain ⟨message, there, named⟩ := presentRest other member
      refine ⟨message, ?_, named⟩
      rw [KVStore.get_delete, if_neg, there]
      exact fun same => notAgain (same ▸ member)
    obtain ⟨left, msgs, ran, nonces⟩ :=
      @ih (unorderedMsgs.delete key) (sent ++ [msg]) distinctRest stillPresent
    refine ⟨left, msg :: msgs, ?_, by rw [map_cons, own, nonces]⟩
    rw [foldlM_cons, removed, ok_bind, ran, append_assoc]
    rfl

/-- The order of the five lists in `send_ethereum_claims`. -/
def claimOrder : List EventSignature :=
  [.sentToCosmos, .transactionBatchExecuted, .erc20Deployed, .logicCall, .valsetUpdated]

/-- Parsed events of the five kinds with these nonces. -/
structure ParsedEvents.Reads (parsed : ParsedEvents) (nonces : EventSignature → List U64) : Prop where
  deposits : Readable (nonces .sentToCosmos) parsed.deposits
  withdraws : Readable (nonces .transactionBatchExecuted) parsed.withdraws
  erc20Deploys : Readable (nonces .erc20Deployed) parsed.erc20Deploys
  logicCalls : Readable (nonces .logicCall) parsed.logicCalls
  valsets : Readable (nonces .valsetUpdated) parsed.valsets

variable {parsed : ParsedEvents}

theorem ParsedEvents.Reads.after {nonces : EventSignature → List U64} (reads : parsed.Reads nonces)
    (last : U64) :
    (parsed.after last).Reads
    (fun signature => (nonces signature).filter (fun nonce => last < nonce)) :=
  ⟨reads.deposits.after last, reads.withdraws.after last, reads.erc20Deploys.after last,
    reads.logicCalls.after last, reads.valsets.after last⟩

theorem Readable.isEmpty_iff [EthereumEvent ε] {parsed : List ε}
    (readable : Readable nonces parsed) : parsed.isEmpty = true ↔ nonces = [] := by
  rw [← readable.own, map_eq_nil_iff, List.isEmpty_iff]

theorem ParsedEvents.Reads.isEmpty_iff {nonces : EventSignature → List U64}
    (reads : parsed.Reads nonces) : parsed.isEmpty = true ↔ claimOrder.flatMap nonces = [] := by
  simp only [ParsedEvents.isEmpty, Bool.and_eq_true, reads.deposits.isEmpty_iff,
    reads.withdraws.isEmpty_iff, reads.erc20Deploys.isEmpty_iff, reads.logicCalls.isEmpty_iff,
    reads.valsets.isEmpty_iff, claimOrder, flatMap_cons, flatMap_nil, append_nil, append_eq_nil_iff,
    and_assoc]

/-- Messages whose nonces are an increasing list in some order leave the map in that list's order. -/
theorem Claiming.sorted {merged : List U64} {all : List (U64 × EthereumClaim)}
    (claiming : Claiming nonces all)
    (same : nonces.Perm merged) (increasing : merged.Pairwise (· < ·)) (order : HashOrder) :
    ∃ unorderedMsgs left msgs, all.foldlM insertMsg .empty = .ok unorderedMsgs ∧
      ((order.visit (unorderedMsgs.entries.map Prod.fst)).insertionSort (· ≤ ·)).foldlM removeMsg
      (unorderedMsgs, []) = .ok (left, msgs) ∧ msgs.map EthereumClaim.getEventNonce = merged := by
  have distinct : (all.map Prod.fst).Nodup := by
    rw [claiming.keys]
    exact same.nodup_iff.mpr (increasing.imp fun less => less.ne)
  have inserted : all.foldlM insertMsg .empty = .ok _ := foldlM_insertMsg distinct fun _ _ => rfl
  have keys : ((order.visit _).insertionSort (· ≤ ·)) = merged := insertionSort_eq_of_perm increasing
    ((order.visit_perm _).trans
      ((keys_foldl_set_perm distinct).trans (by rw [claiming.keys]; exact same)))
  have present : ∀ key ∈ merged, ∃ msg,
  (all.foldl (fun store msg => store.set msg.1 msg.2) KVStore.empty).get key = some msg ∧
      msg.getEventNonce = key := by
    intro key member
    have listed : key ∈ all.map Prod.fst := by
      rw [claiming.keys]
      exact same.mem_iff.mpr member
    obtain ⟨msg, there, rfl⟩ := mem_map.mp listed
    exact ⟨msg.2, KVStore.get_foldl_set_of_mem distinct there .empty, claiming.own msg there⟩
  obtain ⟨left, msgs, removed, nonces⟩ :=
    @foldlM_removeMsg merged _ [] (increasing.imp fun less => less.ne) present
  exact ⟨_, left, msgs, inserted, by rw [keys]; exact removed, nonces⟩

/-- Five lists whose nonces together are an increasing list are sent in its order, up to the limit. -/
theorem ParsedEvents.Reads.claimMessages {nonces : EventSignature → List U64} {merged : List U64}
    (reads : parsed.Reads nonces) (same : (claimOrder.flatMap nonces).Perm merged)
    (increasing : merged.Pairwise (· < ·))
    (ext : External) (order : HashOrder) (orchestrator : Bytes) :
    ∃ msgs, claimMessages ext order orchestrator parsed = .ok msgs ∧
      msgs.map EthereumClaim.getEventNonce = merged.take maxOracleMessages := by
  obtain ⟨deposits, madeDeposits, claimDeposits⟩ := reads.deposits.createClaimMsgs ext orchestrator
  obtain ⟨withdraws, madeWithdraws, claimWithdraws⟩ :=
    reads.withdraws.createClaimMsgs ext orchestrator
  obtain ⟨deploys, madeDeploys, claimDeploys⟩ := reads.erc20Deploys.createClaimMsgs ext orchestrator
  obtain ⟨logicCalls, madeCalls, claimCalls⟩ := reads.logicCalls.createClaimMsgs ext orchestrator
  obtain ⟨valsets, madeValsets, claimValsets⟩ := reads.valsets.createClaimMsgs ext orchestrator
  have claiming :=
    (((claimDeposits.append claimWithdraws).append claimDeploys).append claimCalls).append
      claimValsets
  have together : claimOrder.flatMap nonces =
      nonces .sentToCosmos ++ nonces .transactionBatchExecuted ++
      nonces .erc20Deployed ++ nonces .logicCall ++ nonces .valsetUpdated := by
    simp [claimOrder]
  rw [together] at same
  obtain ⟨unorderedMsgs, left, msgs, inserted, removed, own⟩ := claiming.sorted same increasing order
  refine ⟨msgs.take maxOracleMessages, ?_, by rw [map_take, own]⟩
  simp only [Orchestrator.claimMessages, madeDeposits, madeWithdraws, madeDeploys, madeCalls,
    madeValsets, inserted, removed, ok_bind]
  rfl

/-! ## Whole searches -/

/-- The events after a nonce in a range of blocks. -/
def eventsAfter (events : List Emitted) (last : U64) (startBlock endBlock : Nat) : List Emitted :=
  events.filter (fun emitted => last < emitted.nonce ∧ startBlock ≤ emitted.block ∧
    emitted.block ≤ endBlock)

/-- The logs of a range are parsed to events with their nonces. -/
theorem History.parse_windowLogs (history : History ext events) (startBlock endBlock : Nat) :
    ∃ parsed, (windowLogs events startBlock endBlock).parse ext = .ok parsed ∧
      parsed.Reads (fun signature =>
        (windowOf events startBlock endBlock signature).map Emitted.nonce) := by
  have parsed : ∀ signature (ε : Type) [EthereumEvent ε],
      (∀ emitted, Emitted.DecodesFor ext signature emitted → emitted.DecodesAs ext ε) →
      ∃ parsed : List ε, fromLogs ext
        ((windowOf events startBlock endBlock signature).map Emitted.log) = .ok parsed ∧
        Readable ((windowOf events startBlock endBlock signature).map Emitted.nonce) parsed :=
    fun signature ε _ decodes => fromLogs_readable fun emitted member =>
      decodes emitted (history.decodesFor member)
  obtain ⟨valsets, readValsets, valsetsOk⟩ := parsed .valsetUpdated ValsetUpdatedEvent
    fun _ ⟨event, read, own, _⟩ => ⟨event, read, own⟩
  obtain ⟨withdraws, readWithdraws, withdrawsOk⟩ :=
    parsed .transactionBatchExecuted _ fun _ decodes => decodes
  obtain ⟨deposits, readDeposits, depositsOk⟩ := parsed .sentToCosmos _ fun _ decodes => decodes
  obtain ⟨deploys, readDeploys, deploysOk⟩ := parsed .erc20Deployed _ fun _ decodes => decodes
  refine ⟨⟨deposits, withdraws, deploys, [], valsets⟩, ?_, depositsOk, withdrawsOk, deploysOk, ?_,
    valsetsOk⟩
  · rw [EventLogs.parse, windowLogs, readValsets, readWithdraws, readDeposits, readDeploys,
      history.no_logicCalls]
    rfl
  · rw [history.no_logicCalls]
    exact ⟨rfl, by simp⟩

/-- The nonces of the five filtered lists are those of the events after the last one. -/
theorem flatMap_windowOf_perm (events : List Emitted) (last : U64) (startBlock endBlock : Nat) :
    (claimOrder.flatMap (fun signature =>
      ((windowOf events startBlock endBlock signature).map Emitted.nonce).filter
      (fun nonce => last < nonce))).Perm
      ((eventsAfter events last startBlock endBlock).map Emitted.nonce) := by
  have part : ∀ signature,
  ((windowOf events startBlock endBlock signature).map Emitted.nonce).filter
    (fun nonce => last < nonce) =
      ((eventsAfter events last startBlock endBlock).filter
        (fun emitted => emitted.signature = signature)).map Emitted.nonce := by
    intro signature
    rw [filter_map, windowOf, eventsAfter, filter_filter, filter_filter]
    refine congrArg (List.map Emitted.nonce) (filter_congr fun emitted _ => ?_)
    simp only [Function.comp_apply, ← Bool.decide_and]
    exact decide_eq_decide.mpr (by tauto)
  have all : (eventsAfter events last startBlock endBlock).filter
      (fun emitted => emitted.signature ∈ claimOrder) =
      eventsAfter events last startBlock endBlock := by
    refine filter_eq_self.mpr fun emitted _ => decide_eq_true ?_
    cases emitted.signature <;> decide
  have distinct : claimOrder.Nodup := by decide
  have split := flatMap_filter_perm Emitted.signature distinct
    (eventsAfter events last startBlock endBlock)
  rw [all] at split
  simp only [part, ← map_flatMap]
  exact split.map Emitted.nonce

/-- From a block at or before that of the next event on, the events after the last one have the next
nonces. -/
theorem History.eventsAfter_nonces (history : History ext events) {last : U64}
    (early : ∀ next ∈ events, next.nonce.val = last.val + 1 → startBlock ≤ next.block) :
    (eventsAfter events last startBlock endBlock).map (fun emitted => emitted.nonce.val) =
      range' (last.val + 1) (eventsAfter events last startBlock endBlock).length := by
  have whole := history.nonces
  have inside : ∀ number, 1 ≤ number → number ≤ events.length →
      ∃ emitted ∈ events, emitted.nonce.val = number := by
    intro number positive small
    have member : number ∈ events.map (fun emitted => emitted.nonce.val) := by
      rw [whole, mem_range'_1]
      omega
    exact mem_map.mp member
  rw [← length_map (fun emitted : Emitted => emitted.nonce.val)]
  refine eq_range'_of_closed ?_ ?_ ?_
  · exact pairwise_map.mpr (history.increasing.sublist filter_sublist)
  · intro number member
    obtain ⟨emitted, there, rfl⟩ := mem_map.mp member
    exact (of_decide_eq_true (mem_filter.mp there).2).1
  · intro number member smaller greater less
    obtain ⟨emitted, there, rfl⟩ := mem_map.mp member
    obtain ⟨emittedIn, bounds⟩ := mem_filter.mp there
    obtain ⟨_, _, before⟩ := of_decide_eq_true bounds
    have listed : emitted.nonce.val ∈ events.map (fun emitted => emitted.nonce.val) :=
      mem_map.mpr ⟨emitted, emittedIn, rfl⟩
    rw [whole, mem_range'_1] at listed
    obtain ⟨next, nextIn, nextNonce⟩ := inside (last.val + 1) (by omega) (by omega)
    obtain ⟨other, otherIn, rfl⟩ := inside smaller (by omega) (by omega)
    have notBefore : next.block ≤ other.block :=
      history.block_le nextIn otherIn (Fin.le_def.mpr (by omega))
    have notAfter : other.block ≤ emitted.block :=
      history.block_le otherIn emittedIn (Fin.le_def.mpr less.le)
    exact mem_map.mpr ⟨other, mem_filter.mpr ⟨otherIn, decide_eq_true ⟨greater,
      (early next nextIn nextNonce).trans notBefore, notAfter.trans before⟩⟩, rfl⟩

/-- What is sent: nothing without an event after the last nonce, and otherwise the next nonces. -/
theorem History.checkForEvents_nonces (history : History ext events)
    (complete : web3.Complete events) {cosmos : CosmosAnswers}
    {last : U64} (answered : cosmos.lastEventNonce = .ok last) {startingBlock latestBlock : Nat}
    (early : ∀ next ∈ events, next.nonce.val = last.val + 1 → startingBlock ≤ next.block)
    (order : HashOrder) (orchestrator : Bytes) :
    (checkForEvents ext web3 cosmos order orchestrator startingBlock latestBlock).1.map
        (List.map (fun msg => msg.getEventNonce.val)) =
      if eventsAfter events last startingBlock (lastSearched startingBlock latestBlock) = [] then none
      else some (range' (last.val + 1) (min maxOracleMessages
        (eventsAfter events last startingBlock
          (lastSearched startingBlock latestBlock)).length)) := by
  generalize range :
    eventsAfter events last startingBlock (lastSearched startingBlock latestBlock) = searched
  obtain ⟨parsed, read, reads⟩ :=
    history.parse_windowLogs startingBlock (lastSearched startingBlock latestBlock)
  have fresh : newEvents ext web3 cosmos startingBlock (lastSearched startingBlock latestBlock) =
      .ok (last, parsed.after last) := by
    simp only [newEvents, complete.queryEvents, fromOption, ok_bind, read, answered]
    rfl
  have readsAfter := reads.after last
  have same := flatMap_windowOf_perm events last startingBlock
    (lastSearched startingBlock latestBlock)
  have nonces : (eventsAfter events last startingBlock (lastSearched startingBlock latestBlock)).map
      (fun emitted => emitted.nonce.val) = _ := history.eventsAfter_nonces early
  rw [range] at same nonces
  have increasing : (searched.map Emitted.nonce).Pairwise (· < ·) := by
    rw [← range]
    exact pairwise_map.mpr (history.increasing.sublist filter_sublist)
  obtain ⟨msgs, made, own⟩ := readsAfter.claimMessages same increasing ext order orchestrator
  have empty : (parsed.after last).isEmpty = true ↔ searched = [] := by
    rw [readsAfter.isEmpty_iff]
    constructor
    · intro none
      rw [none] at same
      exact map_eq_nil_iff.mp same.nil_eq.symm
    · rintro rfl
      exact same.eq_nil
  simp only [checkForEvents, fresh, made]
  by_cases none : searched = []
  · rw [if_pos (empty.mpr none), if_pos none]
    rfl
  · rw [if_neg (fun isEmpty => none (empty.mp isEmpty)), if_neg none]
    have values := congrArg (List.map Fin.val) own
    rw [map_take, map_map, map_map] at values
    have ranged : searched.map (Fin.val ∘ Emitted.nonce) = range' (last.val + 1) searched.length :=
      nonces
    rw [ranged, take_range'] at values
    exact congrArg some values

/-- The search goes back to the event after which the oracle resumes, and what is then sent are the
next events. -/
theorem restart_without_gaps (history : History ext events) (complete : web3.Complete events)
    {last : U64} {latestBlock : Nat}
    (there : sought ∈ events) (resumed : sought.nonce = max last 1)
    (safe : sought.block ≤ latestBlock) : (∀ passes, latestBlock < passes →
      getLastCheckedBlock ext web3 latestBlock last passes = some (.ok sought.block)) ∧
    ∀ (cosmos : CosmosAnswers) (order : HashOrder) (orchestrator : Bytes)
      (startingBlock safeBlock : Nat), cosmos.lastEventNonce = .ok last →
      (∀ next ∈ events, next.nonce.val = last.val + 1 → startingBlock ≤ next.block) →
      (checkForEvents ext web3 cosmos order orchestrator startingBlock safeBlock).1.map
          (List.map (fun msg => msg.getEventNonce.val)) =
        if eventsAfter events last startingBlock (lastSearched startingBlock safeBlock) = [] then none
        else some (range' (last.val + 1) (min 1000
          (eventsAfter events last startingBlock
            (lastSearched startingBlock safeBlock)).length)) := by
  refine ⟨fun passes enough => ?_,
    fun cosmos order orchestrator startingBlock safeBlock answered early =>
    history.checkForEvents_nonces complete answered early order orchestrator⟩
  have first : (if last = 0 then 1 else last) = max last 1 := by
    split_ifs with zero
    · rw [zero]
      rfl
    · exact (max_eq_left (Fin.pos_iff_ne_zero.mpr zero)).symm
  rw [getLastCheckedBlock, first, ← resumed]
  exact history.resync_succeeds complete there safe enough

end

/-- The deployment of a contract for one validator, in block ten. -/
def deployment : Emitted :=
  ⟨.valsetUpdated, ⟨[[], word 0], ⟨valsetUpdatedData 1 0 0 [11] [100], by decide +kernel⟩, some 10⟩,
    10, 1⟩

def executedBatch : Emitted :=
  ⟨.transactionBatchExecuted, ⟨[[], word 1, word 5], ⟨word 2, by decide +kernel⟩, some 16000⟩,
    16000, 2⟩

/-- A batch, a deposit in the same block and an update of the validator set, more than three windows
after the deployment. -/
def busyEvents : List Emitted :=
  [deployment, executedBatch,
    ⟨.sentToCosmos,
      ⟨[[], word 5, word 6], ⟨sendToCosmosData (ascii "gravity1") 5 3, by decide +kernel⟩,
        some 16000⟩, 16000, 3⟩,
    ⟨.valsetUpdated, ⟨[[], word 1], ⟨valsetUpdatedData 4 0 0 [12] [100], by decide +kernel⟩,
      some 16001⟩, 16001, 4⟩]

/-- A node that has exactly these events. -/
def nodeWith (events : List Emitted) : Web3 :=
  ⟨fun startBlock endBlock signature =>
    .ok ((windowOf events startBlock endBlock signature).map Emitted.log)⟩

theorem deployment_decodes : deployment.DecodesFor localnet .valsetUpdated :=
  ⟨⟨0, 1, 10, 0, none, [⟨100, 11⟩]⟩, by decide +kernel, rfl, by decide⟩

theorem busyEvents_history : History localnet busyEvents where
  nonces := by decide
  ordered := by decide
  positive := by decide
  blocks := by decide
  decodes := by
    refine forall_mem_cons.mpr ⟨deployment_decodes, ?_⟩
    simp only [forall_mem_cons]
    exact ⟨⟨⟨1, 16000, 5, 2⟩, by decide +kernel, rfl⟩,
      ⟨⟨5, 6, ascii "gravity1", 5, 3, 16000⟩, by decide +kernel, rfl⟩,
      ⟨⟨1, 4, 16001, 0, none, [⟨100, 12⟩]⟩, by decide +kernel, rfl, by decide⟩, by simp⟩
  deployed := ⟨deployment, mem_cons_self, rfl, rfl⟩

/-- A new oracle finds the deployment four windows back. One that claimed the batch sends the
deposit of the same block and the update. -/
theorem busyEvents_restarted :
    (∀ passes, 17000 < passes → getLastCheckedBlock localnet (nodeWith busyEvents) 17000 0 passes =
      some (.ok 10)) ∧
    ∀ (order : HashOrder) (orchestrator : Bytes),
      (checkForEvents localnet (nodeWith busyEvents) ⟨.ok 2, fun _ => .ok (), fun _ => .ok 4⟩ order
        orchestrator 16000 17000).1.map
        (List.map (fun msg => msg.getEventNonce.val)) = some [3, 4] := by
  have complete : (nodeWith busyEvents).Complete busyEvents := fun _ _ _ => rfl
  refine ⟨(restart_without_gaps busyEvents_history complete (mem_cons_self) (by decide)
    (by decide)).1, ?_⟩
  intro order orchestrator
  have batch : executedBatch ∈ busyEvents := mem_cons_of_mem _ mem_cons_self
  have sent := (restart_without_gaps busyEvents_history complete batch (by decide)
    (le_refl executedBatch.block)).2
    ⟨.ok 2, fun _ => .ok (), fun _ => .ok 4⟩ order orchestrator 16000 17000 rfl (by decide)
  rw [sent]
  decide

/-- The safe block is below the deployment: a new oracle panics although its contract address is
right. -/
theorem restart_panics_before_deployment :
    History localnet [deployment] ∧ (nodeWith [deployment]).Complete [deployment] ∧
      ∀ passes, 9 < passes → getLastCheckedBlock localnet (nodeWith [deployment]) 9 0 passes =
        some (.error (.panic endOfHistory)) := by
  have history : History localnet [deployment] := {
    nonces := by decide
    ordered := by decide
    positive := by decide
    blocks := by decide
    decodes := forall_mem_singleton.mpr deployment_decodes
    deployed := ⟨deployment, mem_cons_self, rfl, rfl⟩ }
  have complete : (nodeWith [deployment]).Complete [deployment] := fun _ _ _ => rfl
  exact ⟨history, complete, fun passes enough => history.resync_panics complete (by decide) enough⟩

end GravityBridge.Orchestrator
