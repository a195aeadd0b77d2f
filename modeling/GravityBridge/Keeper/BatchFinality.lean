import GravityBridge.Keeper.Vouchers

/-!
# Executed batches are final

When the vote on an executed batch passes in time, processing it finishes the
batch exactly if the handler accepts the token of the batch at that moment and the
event of the observation can name the bridge contract. A cosmos-originated token
that governance took off the allowlist is not accepted: the error is dropped, the
event counts as seen, and the batch can still time out. Without the address of the
contract the end of the block panics.
-/

namespace GravityBridge.Keeper

open Lib.Fallible Lib.ByteString Lib.Store Lib.Runs
open GravityBridge.Types Oracle List

open Outgoing (WellFormed)

/-- The batch and its confirms are gone, its transfers are not in the pool, and every earlier
batch of its token is cancelled. -/
structure Finalised (outgoing : Outgoing) (batch : OutgoingTxBatch) (next : Outgoing) : Prop where
  gone : next.batches.get (getOutgoingTxBatchKey batch.tokenContract batch.batchNonce) = none
  confirms : ∀ key, Outgoing.confirmsOf batch.tokenContract batch.batchNonce key →
    next.batchConfirms.get key = none
  unpooled : ∀ tx ∈ batch.transactions, ∀ other ∈ next.pool.values, other.id ≠ tx.id
  cancelled : ∀ other ∈ outgoing.batches.values, other.tokenContract = batch.tokenContract →
    other.batchNonce < batch.batchNonce →
    other ∉ next.batches.values ∧ ∀ tx ∈ other.transactions, tx ∈ next.pool.values

variable {ext : External} {powers : PowerTable} {state middle : State} {ledger : Ledger}
  {outgoing next : Outgoing} {batch : OutgoingTxBatch} {trace handled : List EthereumClaim}

theorem Finished.finalised (finished : Finished ext outgoing batch next)
    (wellFormed : WellFormed ext outgoing) : Finalised outgoing batch next := by
  have distinct :
      (batch :: (outgoing.earlier batch.tokenContract batch.batchNonce ++
        next.batches.values)).Nodup :=
    finished.stored.nodup_iff.mp wellFormed.values_nodup
  obtain ⟨notLater, distinctRest⟩ := nodup_cons.mp distinct
  have ids := (finished.carried.map OutgoingTransferTx.id).nodup_iff.mp wellFormed.ids
  rw [map_append] at ids
  refine ⟨?_, finished.confirms, ?_, ?_⟩
  · cases found : next.batches.get (getOutgoingTxBatchKey batch.tokenContract batch.batchNonce) with
    | none => rfl
    | some other =>
      have stillStored : other ∈ next.batches.values := KVStore.mem_values.mpr ⟨_, found⟩
      have before := finished.stored.mem_iff.mpr (mem_cons_of_mem _ (mem_append_right _ stillStored))
      have sameKey := finished.wellFormed.batchKeys _ other found
      have lookup := wellFormed.mem_batches.mp before
      rw [← sameKey, wellFormed.mem_batches.mp finished.stored_batch] at lookup
      obtain rfl := Option.some.inj lookup
      exact absurd (mem_append_right _ stillStored) notLater
  · intro tx member other pooled same
    refine (nodup_append.mp ids).2.2 tx.id (mem_map_of_mem member) other.id ?_ same.symm
    exact mem_map_of_mem (mem_append_left _ pooled)
  · intro other stored sameToken below
    have early : other ∈ outgoing.earlier batch.tokenContract batch.batchNonce :=
      Outgoing.mem_earlier.mpr ⟨stored, below, sameToken⟩
    refine ⟨fun later => (nodup_append.mp distinctRest).2.2 other early other later rfl,
      fun tx member => ?_⟩
    exact finished.pool.mem_iff.mpr (mem_append_left _ (mem_flatMap.mpr ⟨other, early, member⟩))

/-- The handler accepts the token: it is classified and, if it stands for a denom, that denom is
listed with the metadata that the bank has. -/
def Accepts (ext : External) (ledger : Ledger) (token : EthAddress) : Prop :=
  ∃ origin, ledger.classifyERC20 ext token = .ok origin ∧
    (origin.origin = .cosmos → ∃ metadata, ledger.assertMetadataWhitelisted origin.denom =
      .ok metadata)

theorem accepts_iff {token : EthAddress} (notListed : String) :
    Accepts ext ledger token ↔ ∃ origin, ledger.classifyAccepted ext token notListed =
      .ok origin := by
  simp only [classifyAccepted_eq_ok]
  constructor
  · rintro ⟨origin, classified, listed⟩
    exact ⟨origin, classified, strict_of_classifyERC20 classified, listed⟩
  · rintro ⟨origin, classified, _, listed⟩
    exact ⟨origin, classified, listed⟩

/-- The handler of an executed batch, on a claim whose token reads as an address. -/
theorem handle_batch_eq_ok {context : Context} {msg : MsgBatchSendToEthClaim} {token : EthAddress}
    {result : Ledger} (parsed : newEthAddress msg.tokenContract = .ok token) :
    ledger.handle ext context (.batchSendToEth msg) = .ok result ↔
      Accepts ext ledger token ∧ ledger.outgoingTxBatchExecuted ext context.params token msg =
        .ok result := by
  obtain ⟨valid, _⟩ := newEthAddress_eq_ok.mp parsed
  rw [accepts_iff "token not whitelisted for BatchSendToEth"]
  simp only [Ledger.handle, validateClaimFieldLengths, bind_eq_ok,
    validateERC20AddressField_eq_ok, valid, Ledger.handleBatchSendToEth, rewrap_eq_ok, parsed,
    Except.ok.injEq, exists_eq_left', true_and, exists_const, exists_and_right]

/-- An Ethereum-originated batch is covered by what the module account holds. -/
theorem Balanced.covers (balanced : Balanced ext ledger) (tidy : Tidy ext ledger)
    (stored : batch ∈ ledger.outgoing.batches.values)
    (unmapped : ledger.registry.erc20ToDenom.get batch.tokenContract = none) :
    batch.total ≤ ledger.bank.balances ext.gravityModule
      (ledger.registry.denomOf ext batch.tokenContract) := by
  obtain ⟨_, zero⟩ := balanced batch.tokenContract unmapped
  have own : batch.totalIn batch.tokenContract = batch.total := by simp [OutgoingTxBatch.totalIn]
  have part : batch.totalIn batch.tokenContract ≤
      ledger.outgoing.batches.sumOf (fun other => other.totalIn batch.tokenContract) :=
    single_le_sum (fun _ _ => Nat.zero_le _) _ (mem_map_of_mem stored)
  rw [Ledger.slack, Ledger.held, tidy.outgoing.owed_eq] at zero
  omega

/-- A vote on a stored batch passes in time: the batch is finished exactly if the Ethereum height
does not go back, the handler accepts the token and the bridge contract is named. -/
theorem batch_finalised_iff (reach : Reachable ext (EmptyBridge ext) trace state)
    (tallied : Tallied ext powers state handled middle) {key : AttestationKey} {att : Attestation}
    (elected : Elected powers middle key att) {msg : MsgBatchSendToEthClaim}
    (claimed : att.claim = .batchSendToEth msg)
    (stored : batch ∈ middle.ledger.outgoing.batches.values)
    (token : newEthAddress msg.tokenContract = .ok batch.tokenContract)
    (nonce : msg.batchNonce.val = batch.batchNonce)
    (inTime : msg.ethBlockHeight.val < batch.batchTimeout) :
    (∃ final, middle.tryAttestation ext powers att = ([att.claim], .ok final) ∧
        Finalised middle.ledger.outgoing batch final.ledger.outgoing) ↔
      middle.oracle.lastObservedEthereumBlockHeight.ethereumBlockHeight ≤ msg.ethBlockHeight.val ∧
        Accepts ext middle.ledger batch.tokenContract ∧ middle.params.NamesBridge := by
  have books := books_of_reachable reach
  obtain ⟨tidy, balanced⟩ := tallied.invariant Move.balanced books.tidy books.balanced
  have height : Forward middle att ↔
      middle.oracle.lastObservedEthereumBlockHeight.ethereumBlockHeight ≤ msg.ethBlockHeight.val := by
    rw [Forward, claimed]
    rfl
  rw [tryAttestation_elected (tallied.sound books.ordered.sound) elected, ← height, claimed]
  constructor
  · rintro ⟨final, ran, finalised⟩
    split_ifs at ran with forward
    · have processed := (Prod.mk.inj ran).2
      simp only [State.processAttestation, State.emitObservedEvent_eq_ok, bind_eq_ok,
        pure_eq_ok] at processed
      obtain ⟨_, ⟨ledger, caching, rfl⟩, named, rfl⟩ := processed
      refine ⟨forward, ?_, named⟩
      rcases cached_eq_ok.mp caching with handled | ⟨_, rfl⟩
      · exact ((handle_batch_eq_ok token).mp handled).1
      · have stays : middle.ledger.outgoing.batches.get _ = some batch :=
          tidy.outgoing.mem_batches.mp stored
        have gone : middle.ledger.outgoing.batches.get _ = none := finalised.gone
        rw [stays] at gone
        contradiction
    · simp at ran
  · rintro ⟨forward, ⟨origin, classified, listed⟩, named⟩
    have covered : origin.origin = .ethereum →
        batch.total ≤ middle.ledger.bank.balances ext.gravityModule origin.denom := by
      intro ethereum
      obtain ⟨denom, _, chain⟩ := denom_of_classifyERC20 classified
      rw [denom]
      refine balanced.covers tidy stored (isMapped_eq_false.mp ?_)
      by_contra mapped
      have cosmos := chain.mpr (isMapped_eq_true.mp (by simpa using mapped))
      rw [ethereum] at cosmos
      contradiction
    obtain ⟨result, executed⟩ :=
      tidy.outgoing.outgoingTxBatchExecuted_succeeds named stored nonce inTime classified covered
    obtain ⟨same, found, _, done⟩ := tidy.outgoing.outgoingTxBatchExecuted executed
    obtain rfl : batch = same := by
      rw [nonce, tidy.outgoing.mem_batches.mp stored] at found
      exact Option.some.inj found
    refine ⟨{ middle.observe key att with ledger := result }, ?_,
      done.finished.finalised tidy.outgoing⟩
    have handled : (middle.observe key att).ledger.handle ext (middle.observe key att).context
        (.batchSendToEth msg) = .ok result :=
      (handle_batch_eq_ok token).mpr ⟨⟨origin, classified, listed⟩, executed⟩
    have emitted : State.emitObservedEvent { middle.observe key att with ledger := result } = .ok _ :=
      State.emitObservedEvent_eq_ok.mpr ⟨named, rfl⟩
    rw [if_pos forward, State.processAttestation, handled]
    exact congrArg _ emitted

/-! ## A token is taken off the list -/

def exampleMetadata : Metadata where
  description := []
  denomUnits := [⟨ascii "ustake", 0, []⟩, ⟨ascii "stake", 6, []⟩]
  base := ascii "ustake"
  display := ascii "stake"
  name := ascii "Stake"
  symbol := ascii "STK"
  uri := []
  uriHash := []

def exampleDeployed : EthereumClaim :=
  .erc20Deployed ⟨1, 100, ascii "ustake", hex localnet 8, ascii "Stake", ascii "STK", 6,
    ascii "gravity1orchestrator"⟩

def exampleExecuted : MsgBatchSendToEthClaim :=
  ⟨2, 101, 1, hex localnet 8, ascii "gravity1orchestrator"⟩

/-- The one validator votes for a claim. -/
def exampleVote (claim : EthereumClaim) : Label := .attest (some (ascii "validator")) claim

def exampleEndBlock : Label := .endBlock (soleValidator (ascii "validator") 10) (soleBonded 10 1)

/-- A listed denom is registered, a transfer of it is batched and the batch voted executed. -/
def exampleListed : List Label :=
  [.ledger (.setCosmosBridgeableTokens [exampleMetadata]), exampleVote exampleDeployed,
    exampleEndBlock,
    .ledger (.sendToEth false ⟨ascii "gravity1recipient", hex localnet 7, ⟨ascii "ustake", 10⟩,
      ⟨ascii "ustake", 1⟩, ⟨ascii "ustake", 0⟩⟩),
    .ledger (.requestBatch ⟨ascii "gravity1recipient", ascii "ustake"⟩),
    exampleVote (.batchSendToEth exampleExecuted)]

/-- The denom leaves the allowlist before the block with the vote ends. -/
def exampleDelisted : List Label :=
  exampleListed ++ [.ledger (.deleteCosmosBridgeableTokens [exampleMetadata])]

/-- Then Ethereum passes the timeout, and the sender takes the transfer back. -/
def exampleRefunded : List Label :=
  exampleDelisted ++ [exampleEndBlock,
    exampleVote (exampleDeposit 3 100000 5 (ascii "gravity1recipient")), exampleEndBlock,
    .ledger (.cancelSendToEth ⟨1, ascii "gravity1recipient"⟩)]

def stakeGenesis : State := genesis (ascii "recipient") ⟨ascii "ustake", 100⟩

theorem exampleListed_ran : (execute localnet exampleListed stakeGenesis).isSome = true := by
  decide +kernel

theorem exampleDelisted_ran : (execute localnet exampleDelisted stakeGenesis).isSome = true := by
  decide +kernel

theorem exampleRefunded_ran : (execute localnet exampleRefunded stakeGenesis).isSome = true := by
  decide +kernel

/-- The stored vote on the executed batch. -/
def exampleElection (state : State) : Option (AttestationKey × Attestation) :=
  state.oracle.attestations.entries.find? (fun entry => entry.2.claim =
    .batchSendToEth exampleExecuted)

theorem exampleElection_elected (state : State) (following : state.oracle.lastObservedEventNonce = 1)
    (votes : (exampleElection state).map (fun entry => entry.2.votes) = some [ascii "validator"]) :
    ∃ key att, exampleElection state = some (key, att) ∧
      Elected (soleValidator (ascii "validator") 10) state key att ∧
        att.claim = .batchSendToEth exampleExecuted := by
  obtain ⟨⟨key, att⟩, found, voters⟩ := Option.map_eq_some_iff.mp votes
  have claimed : att.claim = .batchSendToEth exampleExecuted := by simpa using find?_some found
  refine ⟨key, att, found, ⟨KVStore.mem_entries.mp (mem_of_find?_eq_some found), ?_, ?_⟩, claimed⟩
  · rw [claimed, following]
    rfl
  · rw [show att.votes = _ from voters]
    decide

def exampleBatch : OutgoingTxBatch := ⟨1, 2980, [⟨1, ascii "recipient", 7, ⟨8, 10⟩, ⟨8, 1⟩⟩], 8, 2⟩

theorem stakeGenesis_empty : EmptyBridge localnet stakeGenesis :=
  genesis_empty (by decide) (by decide)

def exampleListedState : State :=
  ((execute localnet exampleListed stakeGenesis).get exampleListed_ran).2

def exampleDelistedState : State :=
  ((execute localnet exampleDelisted stakeGenesis).get exampleDelisted_ran).2

/-- While the denom is listed the vote finishes the batch. -/
theorem listed_batch_finalised :
    ∃ trace state key att final, Reachable localnet (EmptyBridge localnet) trace state ∧
      Elected (soleValidator (ascii "validator") 10) state key att ∧
      att.claim = .batchSendToEth exampleExecuted ∧
      exampleBatch ∈ state.ledger.outgoing.batches.values ∧
      state.tryAttestation localnet (soleValidator (ascii "validator") 10) att =
        ([att.claim], .ok final) ∧
      Finalised state.ledger.outgoing exampleBatch final.ledger.outgoing := by
  have reach : Reachable localnet (EmptyBridge localnet) _ exampleListedState :=
    reachable_of_execute stakeGenesis_empty exampleListed_ran
  have stored : exampleBatch ∈ exampleListedState.ledger.outgoing.batches.values := by decide +kernel
  have accepted : exampleListedState.ledger.classifyAccepted localnet 8 "" =
      .ok ⟨.cosmos, false, ascii "ustake", 8⟩ := by decide +kernel
  obtain ⟨key, att, _, elected, claimed⟩ :=
    exampleElection_elected exampleListedState (by decide +kernel) (by decide +kernel)
  obtain ⟨final, ran, finalised⟩ :=
    (batch_finalised_iff reach .done elected claimed stored (by decide +kernel) rfl
      (by decide)).mpr ⟨by decide +kernel, (accepts_iff "").mpr ⟨_, accepted⟩, by decide +kernel⟩
  exact ⟨_, _, key, att, final, reach, elected, claimed, stored, ran, finalised⟩

/-- Once the denom is off the list the vote does not finish the batch. The batch then times out
and its transfer is paid back, although the batch was executed on Ethereum. -/
theorem delisted_batch_refunded :
    (∃ trace state key att, Reachable localnet (EmptyBridge localnet) trace state ∧
      Elected (soleValidator (ascii "validator") 10) state key att ∧
      att.claim = .batchSendToEth exampleExecuted ∧
      exampleBatch ∈ state.ledger.outgoing.batches.values ∧
      newEthAddress exampleExecuted.tokenContract = .ok exampleBatch.tokenContract ∧
      exampleExecuted.batchNonce.val = exampleBatch.batchNonce ∧
      exampleExecuted.ethBlockHeight.val < exampleBatch.batchTimeout ∧
      ¬ ∃ final, state.tryAttestation localnet (soleValidator (ascii "validator") 10) att =
        ([att.claim], .ok final) ∧
        Finalised state.ledger.outgoing exampleBatch final.ledger.outgoing) ∧
    ∃ trace state, Reachable localnet (EmptyBridge localnet) trace state ∧
      EthereumClaim.batchSendToEth exampleExecuted ∈ trace ∧
      state.ledger.bank.balances (ascii "recipient") (ascii "ustake") = 100 := by
  have reach : Reachable localnet (EmptyBridge localnet) _ exampleDelistedState :=
    reachable_of_execute stakeGenesis_empty exampleDelisted_ran
  have stored : exampleBatch ∈ exampleDelistedState.ledger.outgoing.batches.values := by
    decide +kernel
  have stays : (exampleElection exampleDelistedState).map (fun entry =>
      (exampleDelistedState.tryAttestation localnet (soleValidator (ascii "validator") 10)
        entry.2).2.toOption.map
        (fun final => final.ledger.outgoing.batches.get (getOutgoingTxBatchKey 8 1))) =
      some (some (some exampleBatch)) := by decide +kernel
  obtain ⟨key, att, found, elected, claimed⟩ :=
    exampleElection_elected exampleDelistedState (by decide +kernel) (by decide +kernel)
  have refunded := reachable_of_execute stakeGenesis_empty exampleRefunded_ran
  have executed : EthereumClaim.batchSendToEth exampleExecuted ∈
      ((execute localnet exampleRefunded stakeGenesis).get exampleRefunded_ran).1 := by decide +kernel
  have paidBack :
      ((execute localnet exampleRefunded stakeGenesis).get exampleRefunded_ran).2.ledger.bank.balances
      (ascii "recipient") (ascii "ustake") = 100 := by decide +kernel
  refine ⟨⟨_, exampleDelistedState, key, att, reach, elected, claimed, stored, by decide +kernel,
    rfl, by decide, ?_⟩, _, _, refunded, executed, paidBack⟩
  rintro ⟨final, ran, finalised⟩
  rw [found, Option.map_some, ran] at stays
  have kept : final.ledger.outgoing.batches.get (getOutgoingTxBatchKey 8 1) = some exampleBatch := by
    simpa [Except.toOption] using stays
  exact Option.some_ne_none exampleBatch (kept.symm.trans finalised.gone)

end GravityBridge.Keeper
