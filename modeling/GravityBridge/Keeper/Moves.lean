import GravityBridge.Keeper.HandlerSteps
import GravityBridge.Keeper.Machine
import GravityBridge.Keeper.Tally

/-!
# The moves of the ledger

Whatever happens to the ledger (a message, a proposal, a handled claim, the end of
a block) is a sequence of a few kinds of moves. Each move is labelled by what a
bookkeeper would enter for it, so that statements about money and about transfers
are proved once for each kind of move.
-/

namespace GravityBridge.Keeper

open Lib.Fallible Lib.ByteString Lib.Store
open GravityBridge.Types

open Outgoing (WellFormed Cancelled)

/-- What a bookkeeper enters for a move. -/
inductive Entry where
  | internal
  | issued (tx : OutgoingTransferTx)
  | refunded (tx : OutgoingTransferTx)
  | built (batch : OutgoingTxBatch)
  /-- Batches cancelled because Ethereum was seen at this height. -/
  | cancelled (ethereumHeight : Nat) (batches : List OutgoingTxBatch)
  | executed (batch : OutgoingTxBatch)
  | registered (denom : Denom) (token : EthAddress)
  | deposited (token : EthAddress) (amount : Nat)
  | rewarded (token : EthAddress) (amount : Nat)

/-- Whether a message of a user can cause the entry. -/
def Entry.byUser : Entry → Bool
  | .internal | .issued _ | .refunded _ | .built _ => true
  | _ => false

/-- Nothing that the module account holds or owes has changed. -/
structure Settled (ext : External) (ledger next : Ledger) : Prop where
  balances : ∀ denom, next.bank.balances ext.gravityModule denom =
    ledger.bank.balances ext.gravityModule denom
  supply : next.bank.supply = ledger.bank.supply
  outgoing : next.outgoing = { ledger.outgoing with batchConfirms := next.outgoing.batchConfirms }
  wellFormed : WellFormed ext ledger.outgoing → WellFormed ext next.outgoing
  forwards : next.pendingIbcAutoForwards = ledger.pendingIbcAutoForwards
  denomToERC20 : next.registry.denomToERC20 = ledger.registry.denomToERC20
  erc20ToDenom : next.registry.erc20ToDenom = ledger.registry.erc20ToDenom
  remapped : next.registry.remappedERC20s = ledger.registry.remappedERC20s

variable {ext : External} {context : Context} {ledger middle next : Ledger} {entry : Entry}
  {bank : Bank} {token : EthAddress} {amount : Nat} {entries : List Entry}

theorem Settled.refl (ext : External) (ledger : Ledger) : Settled ext ledger ledger :=
  ⟨fun _ => rfl, rfl, rfl, id, rfl, rfl, rfl, rfl⟩

theorem Settled.trans (left : Settled ext ledger middle) (right : Settled ext middle next) :
    Settled ext ledger next where
  balances denom := (right.balances denom).trans (left.balances denom)
  supply := right.supply.trans left.supply
  outgoing := by rw [right.outgoing, left.outgoing]
  wellFormed := right.wellFormed ∘ left.wellFormed
  forwards := right.forwards.trans left.forwards
  denomToERC20 := right.denomToERC20.trans left.denomToERC20
  erc20ToDenom := right.erc20ToDenom.trans left.erc20ToDenom
  remapped := right.remapped.trans left.remapped

theorem Relisted.settled (ext : External) (relisted : Relisted ledger next) :
    Settled ext ledger next where
  balances denom := by rw [relisted.balances]
  supply := relisted.supply
  outgoing := by rw [relisted.frame]
  wellFormed wellFormed := by rw [relisted.frame]; exact wellFormed
  forwards := by rw [relisted.frame]
  denomToERC20 := relisted.denomToERC20
  erc20ToDenom := relisted.erc20ToDenom
  remapped := relisted.remapped

/-- Other accounts moved coins among themselves. -/
theorem Settled.of_bank
    (balances : ∀ denom, bank.balances ext.gravityModule denom =
      ledger.bank.balances ext.gravityModule denom)
    (supply : bank.supply = ledger.bank.supply) : Settled ext ledger { ledger with bank := bank } :=
  ⟨balances, supply, rfl, id, rfl, rfl, rfl, rfl⟩

theorem Settled.of_valsets (ext : External) (ledger : Ledger) (valsets : Valsets)
    (checkpoints : KVStore Bytes Bytes) :
    Settled ext ledger { ledger with
      valsets := valsets, pastEthSignatureCheckpoints := checkpoints } :=
  ⟨fun _ => rfl, rfl, rfl, id, rfl, rfl, rfl, rfl⟩

/-- One move of the ledger. -/
inductive Move (ext : External) (ledger : Ledger) : Entry → Ledger → Prop
  | settled {next : Ledger} : Settled ext ledger next → Move ext ledger .internal next
  | forwarded {next : Ledger} {forward : PendingIbcAutoForward} :
      ledger.pendingIbcAutoForwards.get forward.eventNonce = some forward →
      PaidOut ext ledger.bank forward.token next.bank →
      next = { ledger with
        bank := next.bank
        communityPool := next.communityPool
        pendingIbcAutoForwards := ledger.pendingIbcAutoForwards.delete forward.eventNonce } →
      Move ext ledger .internal next
  | issued {next : Ledger} {denom : Denom} {tx : OutgoingTransferTx} : tx.sender ≠ ext.gravityModule →
      Issued ext ledger denom tx next → Move ext ledger (.issued tx) next
  | refunded {next : Ledger} {tx : OutgoingTransferTx} : Refunded ext ledger tx next →
      Move ext ledger (.refunded tx) next
  | built {next : Ledger} {batch : OutgoingTxBatch} : Built ext ledger batch next →
      Move ext ledger (.built batch) next
  | cancelled {outgoing : Outgoing} {ethereumHeight : Nat} {batches : List OutgoingTxBatch} :
      (∀ batch ∈ batches, batch.batchTimeout < ethereumHeight) →
      Cancelled ext ledger.outgoing batches outgoing →
      Move ext ledger (.cancelled ethereumHeight batches) { ledger with outgoing := outgoing }
  | executed {next : Ledger} {batch : OutgoingTxBatch} : Executed ext ledger batch next →
      Move ext ledger (.executed batch) next
  | registered {next : Ledger} {denom : Denom} {token : EthAddress} :
      Registered ledger denom token next → Move ext ledger (.registered denom token) next
  | deposited {next : Ledger} {token : EthAddress} {amount : Nat} :
      Deposited ext ledger token amount next → Move ext ledger (.deposited token amount) next
  | rewarded {next : Ledger} {token : EthAddress} {amount : Nat} :
      Rewarded ext ledger token amount next → Move ext ledger (.rewarded token amount) next

/-- Moves one after the other. -/
inductive Moves (ext : External) : Ledger → List Entry → Ledger → Prop
  | nil {ledger : Ledger} : Moves ext ledger [] ledger
  | cons {ledger middle next : Ledger} {entry : Entry} {rest : List Entry} :
      Move ext ledger entry middle →
      Moves ext middle rest next → Moves ext ledger (entry :: rest) next

theorem Moves.single (move : Move ext ledger entry next) : Moves ext ledger [entry] next :=
  .cons move .nil

/-- The stores of the ledger are keyed by what they hold. -/
structure Tidy (ext : External) (ledger : Ledger) : Prop where
  outgoing : WellFormed ext ledger.outgoing
  forwards : ∀ key forward, ledger.pendingIbcAutoForwards.get key = some forward →
    key = forward.eventNonce

theorem Ledger.tidy_unused (ext : External) (remappedERC20s : List EthAddress) (bank : Bank) :
    Tidy ext (.unused remappedERC20s bank) :=
  ⟨⟨by simp [Ledger.unused], by simp [Ledger.unused], by simp [Ledger.unused],
    by simp [Ledger.unused], by simp [Ledger.unused], by simp [Ledger.unused, Outgoing.carried],
    by simp [Ledger.unused, Outgoing.carried], by simp [Ledger.unused, Outgoing.carried]⟩,
    by simp [Ledger.unused]⟩

theorem Deposited.frame (deposited : Deposited ext ledger token amount next) :
    next = { ledger with
      bank := next.bank
      communityPool := next.communityPool
      pendingIbcAutoForwards := next.pendingIbcAutoForwards } := by
  obtain ⟨minted, delivered, mapped, unmapped⟩ := deposited.delivered
  have frame : minted = { ledger with bank := minted.bank } := by
    cases found : ledger.registry.erc20ToDenom.get token with
    | some denom => rw [mapped ⟨denom, found⟩]
    | none => rw [unmapped found]
  cases delivered with
  | paid _ same =>
    rw [same, frame]
  | queued _ _ _ same =>
    rw [same, frame]

theorem Deposited.forwards (deposited : Deposited ext ledger token amount next) :
    next.pendingIbcAutoForwards = ledger.pendingIbcAutoForwards ∨
      ∃ forward : PendingIbcAutoForward, next.pendingIbcAutoForwards =
        ledger.pendingIbcAutoForwards.set forward.eventNonce forward := by
  obtain ⟨minted, delivered, mapped, unmapped⟩ := deposited.delivered
  have same : minted.pendingIbcAutoForwards = ledger.pendingIbcAutoForwards := by
    cases found : ledger.registry.erc20ToDenom.get token with
    | some denom => rw [mapped ⟨denom, found⟩]
    | none => rw [unmapped found]
  cases delivered with
  | paid _ frame => exact .inl (by rw [frame, same])
  | queued forward _ _ frame => exact .inr ⟨forward, by rw [frame, same]⟩

theorem Move.tidy (move : Move ext ledger entry next) (tidy : Tidy ext ledger) : Tidy ext next := by
  cases move with
  | settled settled => exact ⟨settled.wellFormed tidy.outgoing, settled.forwards ▸ tidy.forwards⟩
  | forwarded _ _ frame =>
    rw [frame]
    refine ⟨tidy.outgoing, fun key forward found => tidy.forwards key forward ?_⟩
    simp only [KVStore.get_delete] at found
    split_ifs at found
    exact found
  | issued _ issued =>
    have wellFormed := (tidy.outgoing.issued issued).1
    obtain ⟨_, frame⟩ := issued.result
    exact ⟨wellFormed, by rw [frame]; exact tidy.forwards⟩
  | refunded refunded =>
    have wellFormed := (tidy.outgoing.refunded refunded).1
    obtain ⟨_, _, _, frame⟩ := refunded.result
    exact ⟨wellFormed, by rw [frame]; exact tidy.forwards⟩
  | built built => exact ⟨built.wellFormed, by rw [built.frame]; exact tidy.forwards⟩
  | cancelled _ cancelled => exact ⟨cancelled.wellFormed, tidy.forwards⟩
  | executed executed =>
    exact ⟨executed.finished.wellFormed, by rw [executed.frame]; exact tidy.forwards⟩
  | registered registered =>
    obtain ⟨_, frame⟩ := registered.result
    rw [frame]
    exact ⟨tidy.outgoing, tidy.forwards⟩
  | deposited deposited =>
    refine ⟨by rw [deposited.frame]; exact tidy.outgoing, ?_⟩
    rcases deposited.forwards with same | ⟨forward, set⟩
    · rw [same]
      exact tidy.forwards
    · intro key other found
      rw [set, KVStore.get_set] at found
      split_ifs at found with here
      · exact Option.some.inj found ▸ here
      · exact tidy.forwards key other found
  | rewarded rewarded =>
    rw [rewarded.result]
    exact ⟨tidy.outgoing, tidy.forwards⟩

theorem Moves.tidy (moves : Moves ext ledger entries next) (tidy : Tidy ext ledger) :
    Tidy ext next := by
  induction moves with
  | nil => exact tidy
  | cons move _ ih => exact ih (move.tidy tidy)

variable {holds : Ledger → Prop}

/-- What every move keeps, moves one after the other keep. -/
theorem Moves.invariant
    (kept : ∀ {ledger entry next}, Move ext ledger entry next → Tidy ext ledger → holds ledger →
      holds next) (moves : Moves ext ledger entries next) (tidy : Tidy ext ledger)
    (before : holds ledger) : Tidy ext next ∧ holds next := by
  induction moves with
  | nil => exact ⟨tidy, before⟩
  | cons move _ ih => exact ih (move.tidy tidy) (kept move tidy before)

/-! ## Messages and proposals -/

variable {sender : AccAddress} {auctionable : Bool} {env : ValsetEnv}

theorem sendCoins_settled {receiver : AccAddress} {coin : Coin}
    (sent : ledger.bank.sendCoins sender receiver coin = .ok bank)
    (notSender : sender ≠ ext.gravityModule)
    (notReceiver : receiver ≠ ext.gravityModule) :
    Settled ext ledger { ledger with bank := bank } := by
  obtain ⟨held, rfl⟩ := Bank.sendCoins_eq_ok.mp sent
  exact .of_bank (fun _ => Bank.move_balances_bystander notSender.symm notReceiver.symm) rfl

theorem payFee_settled {collector : AccAddress} {fee : Coin}
    (paid : ledger.payFee sender collector fee = .ok next) (notSender : sender ≠ ext.gravityModule)
    (notCollector : collector ≠ ext.gravityModule) : Settled ext ledger next := by
  simp only [Ledger.payFee, bind_eq_ok, pure_eq_ok] at paid
  obtain ⟨bank, sent, rfl⟩ := paid
  exact sendCoins_settled sent notSender notCollector

theorem checkAndDeductSendToEthFees_settled {params : Params} {sendAmount chainFee : Coin}
    (charged : ledger.checkAndDeductSendToEthFees ext params auctionable sender sendAmount
      chainFee = .ok next)
    (notSender : sender ≠ ext.gravityModule) : Settled ext ledger next := by
  simp only [Ledger.checkAndDeductSendToEthFees, bind_eq_ok] at charged
  obtain ⟨_, _, charged⟩ := charged
  split_ifs at charged with free auctioned
  · obtain rfl := pure_eq_ok.mp charged
    exact Settled.refl ext ledger
  · simp only [bind_eq_ok] at charged
    obtain ⟨pooled, toPool, _, _, toCollector⟩ := charged
    exact (payFee_settled toPool notSender ext.auctionPool_ne).trans
      (payFee_settled toCollector notSender ext.feeCollector_ne)
  · exact payFee_settled charged notSender ext.feeCollector_ne

theorem sendToEth_moves {msg : MsgSendToEth} (signed : requireSigner ext msg.sender = .ok ())
    (sent : ledger.sendToEth ext context auctionable msg = .ok next) :
    ∃ tx, Moves ext ledger [.internal, .issued tx] next := by
  simp only [requireSigner, bind_eq_ok, require_eq_ok] at signed
  obtain ⟨signer, decoded, notModule⟩ := signed
  simp only [Ledger.sendToEth, bind_eq_ok, rewrap_eq_ok, pure_eq_ok, Prod.exists] at sent
  obtain ⟨_, _, _, _, _, _, _, _, _, _, _, _, _, _, sender, decodedAgain, dest, _, _, _,
    charged, paid, id, _, added, rfl⟩ := sent
  obtain rfl : signer = sender := Except.ok.inj (decoded.symm.trans decodedAgain)
  obtain ⟨tx, _, rfl, _, _, _, issued⟩ := addToOutgoingPool_issued added
  exact ⟨tx, .cons (.settled (checkAndDeductSendToEthFees_settled paid notModule))
    (.single (.issued notModule issued))⟩

theorem confirmBatch_settled {msg : MsgConfirmBatch} {signatureOk : Bool}
    (confirmed : ledger.confirmBatch ext msg signatureOk = .ok next) : Settled ext ledger next := by
  simp only [Ledger.confirmBatch, bind_eq_ok, rewrap_eq_ok, pure_eq_ok] at confirmed
  obtain ⟨_, _, contract, _, _, _, orchestrator, decoded, _, _, _, _, rfl⟩ := confirmed
  refine ⟨fun _ => rfl, rfl, rfl, fun wellFormed => ?_, rfl, rfl, rfl, rfl⟩
  refine { wellFormed with confirmKeys := fun key confirm found => ?_ }
  simp only [KVStore.get_set] at found
  split_ifs at found with here
  · obtain rfl := Option.some.inj found
    exact ⟨contract, orchestrator, decoded, here⟩
  · exact wellFormed.confirmKeys key confirm found

theorem processPendingIbcAutoForwards_moves (tidy : Tidy ext ledger) {effects : List TransferEffect}
    (processed : ledger.processPendingIbcAutoForwards ext effects = .ok next) :
    ∃ entries, (∀ entry ∈ entries, entry.byUser = true) ∧ Moves ext ledger entries next := by
  induction effects generalizing ledger with
  | nil =>
    obtain rfl : ledger = next := by simpa [Ledger.processPendingIbcAutoForwards] using processed
    exact ⟨[], by simp, .nil⟩
  | cons effect rest ih =>
    unfold Ledger.processPendingIbcAutoForwards at processed
    split at processed
    · obtain rfl := pure_eq_ok.mp processed
      exact ⟨[], by simp, .nil⟩
    · rename_i forward head
      simp only [bind_eq_ok, Prod.exists] at processed
      obtain ⟨_, middle, ran, processed⟩ := processed
      obtain ⟨paid, _, frame⟩ := handleForward_paidOut ran
      obtain ⟨key, found⟩ := KVStore.mem_values.mp (List.mem_of_mem_head? head)
      obtain rfl := tidy.forwards key forward found
      have move := Move.forwarded found paid frame
      obtain ⟨entries, users, moves⟩ := ih (move.tidy tidy) processed
      exact ⟨.internal :: entries, by simpa [Entry.byUser] using users, .cons move moves⟩

/-- Messages and proposals move the ledger only in the ways open to users. -/
theorem deliver_moves (tidy : Tidy ext ledger) {msg : LedgerMsg}
    (delivered : ledger.deliver ext context msg = .ok next) :
    ∃ entries, (∀ entry ∈ entries, entry.byUser = true) ∧ Moves ext ledger entries next := by
  cases msg with
  | sendToEth auctionable msg =>
    simp only [Ledger.deliver, bind_eq_ok] at delivered
    obtain ⟨_, signed, _, _, sent⟩ := delivered
    obtain ⟨tx, moves⟩ := sendToEth_moves signed sent
    exact ⟨_, by simp [Entry.byUser], moves⟩
  | cancelSendToEth msg =>
    simp only [Ledger.deliver, Ledger.cancelSendToEth, bind_eq_ok] at delivered
    obtain ⟨_, _, sender, _, removed⟩ := delivered
    obtain ⟨tx, _, _, refunded⟩ := tidy.outgoing.removeFromOutgoingPoolAndRefund removed
    exact ⟨_, by simp [Entry.byUser], .single (.refunded refunded)⟩
  | requestBatch msg =>
    simp only [Ledger.deliver, Ledger.requestBatch, bind_eq_ok, rewrap_eq_ok, pure_eq_ok,
      Prod.exists] at delivered
    obtain ⟨_, _, _, _, _, _, _, _, _, _, batch, _, ran, rfl⟩ := delivered
    obtain ⟨_, built⟩ := tidy.outgoing.buildOutgoingTXBatch ran
    exact ⟨_, by simp [Entry.byUser], .single (.built built)⟩
  | confirmBatch msg signatureOk =>
    exact ⟨_, by simp [Entry.byUser], .single (.settled (confirmBatch_settled delivered))⟩
  | executeIbcAutoForwards effects => exact processPendingIbcAutoForwards_moves tidy delivered
  | setCosmosBridgeableTokens metadatas =>
    exact ⟨_, by simp [Entry.byUser],
      .single (.settled ((handleSetCosmosBridgeableTokensProposal_relisted delivered).settled ext))⟩
  | deleteCosmosBridgeableTokens metadatas =>
    exact ⟨_, by simp [Entry.byUser],
      .single (.settled
        ((handleDeleteCosmosBridgeableTokensProposal_relisted delivered).settled ext))⟩
  | setDenomMetaData metadata =>
    obtain rfl := pure_eq_ok.mp delivered
    exact ⟨_, by simp [Entry.byUser], .single (.settled (.of_bank (fun _ => rfl) rfl))⟩
  | bankSend sender receiver coin =>
    simp only [Ledger.deliver, bind_eq_ok, require_eq_ok, pure_eq_ok] at delivered
    obtain ⟨_, notSender, _, notBlocked, bank, sent, rfl⟩ := delivered
    exact ⟨_, by simp [Entry.byUser],
      .single (.settled
        (sendCoins_settled sent notSender (ne_gravityModule_of_notBlocked notBlocked).symm))⟩

/-! ## Handled claims and the end of a block -/

/-- What a handled claim moves. -/
theorem Handled.moves {claim : EthereumClaim} (handled : Handled ext ledger claim next) :
    ∃ entries, Moves ext ledger entries next := by
  cases handled with
  | ignored _ => exact ⟨[], .nil⟩
  | deposited _ _ deposited => exact ⟨_, .single (.deposited deposited)⟩
  | executed _ _ _ executed => exact ⟨_, .single (.executed executed)⟩
  | registered _ registered => exact ⟨_, .single (.registered registered)⟩
  | observed _ _ _ => exact ⟨_, .single (.settled (.of_valsets ext ledger _ _))⟩
  | rewarded _ _ _ rewarded =>
    exact ⟨_, .cons (.settled (.of_valsets ext ledger _ _)) (.single (.rewarded rewarded))⟩

/-- A new validator set takes the next nonce, is stored as the latest one, and its checkpoint is
archived. -/
theorem setValsetRequest_eq_ok {bonded : List BondedValidator}
    (requested : ledger.setValsetRequest ext context bonded = .ok next) :
    ∃ (valset : Valset) (checkpoint : Bytes),
      valset.nonce = ledger.valsets.latestValsetNonce + 1 ∧ valset.height = context.blockHeight ∧
      ledger.valsets.requests.get valset.nonce = none ∧
      valset.getCheckpoint ext context.params.gravityId = .ok checkpoint ∧
      next = { ledger with valsets := { ledger.valsets with
        requests := ledger.valsets.requests.set valset.nonce valset
        latestValsetNonce := valset.nonce } }.setPastEthSignatureCheckpoint checkpoint := by
  simp only [Ledger.setValsetRequest, Ledger.getCurrentValset, newValset, Ledger.storeValset,
    Ledger.setLatestValsetNonce, bind_eq_ok, orPanic_eq_ok, check_eq_ok, rewrap_eq_ok,
    pure_eq_ok] at requested
  obtain ⟨_, ⟨_, _, _, _, _, _, _, _, _, _, rfl⟩, _, ⟨_, fresh, rfl⟩, _, ⟨_, rising, rfl⟩,
    checkpoint, hashed, -, -, rfl⟩ :=
    requested
  exact ⟨_, checkpoint, succU64_of_le rising, rfl, fresh, hashed, rfl⟩

theorem createValsets_settled (created : ledger.createValsets ext context env = .ok next) :
    Settled ext ledger next := by
  rcases createValsets_cases created with requested | ⟨rfl, -⟩
  · obtain ⟨_, _, _, _, _, _, rfl⟩ := setValsetRequest_eq_ok requested
    exact .of_valsets ext ledger _ _
  · exact Settled.refl ext _

theorem pruneValsets_settled (ext : External) (context : Context) (ledger : Ledger) :
    Settled ext ledger (ledger.pruneValsets context) := by
  unfold Ledger.pruneValsets
  split
  · exact Settled.refl ext ledger
  · split_ifs
    · exact Settled.refl ext ledger
    · exact .of_valsets ext ledger _ _

/-- The batches whose timeout lies below a height, in the order in which they are visited. -/
def Outgoing.timedOut (outgoing : Outgoing) (ethereumHeight : Nat) : List OutgoingTxBatch :=
  outgoing.getOutgoingTxBatches.filter (fun batch => batch.batchTimeout < ethereumHeight)

theorem Outgoing.WellFormed.cleanupTimedOutBatches {outgoing : Outgoing}
    (wellFormed : WellFormed ext outgoing) (params : Params) (ethereumHeight : Nat) :
    ∃ result, outgoing.cleanupTimedOutBatches ext params ethereumHeight =
        Outgoing.announcing params (outgoing.timedOut ethereumHeight) result ∧
      Cancelled ext outgoing (outgoing.timedOut ethereumHeight) result := by
  obtain ⟨result, ran, cancelled⟩ := wellFormed.foldlM_cancel
    (fun batch _ current next cancelled =>
      (congrArg (orPanic "Failed to cancel outgoing txbatch!") cancelled).trans
        (Outgoing.wrap_announcing.1 _))
    (fun batch member => List.mem_reverse.mp (List.mem_of_mem_filter member))
    ((List.nodup_reverse.mpr wellFormed.values_nodup).filter
      (fun batch => batch.batchTimeout < ethereumHeight))
  refine ⟨result, ?_, cancelled⟩
  refine Eq.trans ?_ ran
  rw [List.foldlM_filter]
  unfold Outgoing.cleanupTimedOutBatches
  congr 1
  funext current batch
  by_cases late : batch.batchTimeout < ethereumHeight
  · simp [late]
  · simp [late]

/-- After the tally the end of a block cancels the batches that timed out, and settles. -/
theorem maintain_moves (tidy : Tidy ext ledger)
    (maintained : ledger.maintain ext context env = .ok next) :
    Moves ext ledger [.cancelled context.lastObservedEthereumBlockHeight.ethereumBlockHeight
      (ledger.outgoing.timedOut context.lastObservedEthereumBlockHeight.ethereumBlockHeight),
        .internal] next := by
  simp only [Ledger.maintain, bind_eq_ok, pure_eq_ok] at maintained
  obtain ⟨outgoing, cleaned, requested, created, rfl⟩ := maintained
  obtain ⟨result, ran, cancelled⟩ := tidy.outgoing.cleanupTimedOutBatches context.params
    context.lastObservedEthereumBlockHeight.ethereumBlockHeight
  rw [ran, Outgoing.announcing_eq_ok] at cleaned
  obtain ⟨-, rfl⟩ := cleaned
  refine .cons (.cancelled (fun batch member => ?_) cancelled)
    (.single (.settled
      ((createValsets_settled created).trans (pruneValsets_settled ext context requested))))
  simpa using List.of_mem_filter member

/-! ## Runs -/

variable {powers : PowerTable} {state final : State} {claim : EthereumClaim}
  {handled : List EthereumClaim}

/-- An applied event either changed nothing in the ledger or was handled. -/
theorem Applies.ledger_cases (applies : Applies ext powers state claim final)
    (wellFormed : WellFormed ext state.ledger.outgoing) :
    final.ledger = state.ledger ∨ Handled ext state.ledger claim final.ledger := by
  obtain ⟨_, _, cachedOk⟩ := applies
  rcases cached_eq_ok.mp cachedOk with ran | ⟨_, same⟩
  · exact .inr (handle_handled wellFormed ran)
  · exact .inl same

/-- What every move keeps, a tally keeps. -/
theorem Tallied.invariant
    (kept : ∀ {ledger entry next}, Move ext ledger entry next → Tidy ext ledger → holds ledger →
      holds next)
    (tallied : Tallied ext powers state handled final) (tidy : Tidy ext state.ledger)
    (before : holds state.ledger) : Tidy ext final.ledger ∧ holds final.ledger := by
  induction tallied with
  | done => exact ⟨tidy, before⟩
  | @next state middle final claim rest applies _ ih =>
    rcases applies.ledger_cases tidy.outgoing with same | handled
    · exact ih (same ▸ tidy) (same ▸ before)
    · obtain ⟨entries, moves⟩ := handled.moves
      obtain ⟨tidyNext, holdsNext⟩ := moves.invariant kept tidy before
      exact ih tidyNext holdsNext

/-- What every move keeps, a step keeps. -/
theorem LedgerStep.invariant
    (kept : ∀ {ledger entry next}, Move ext ledger entry next → Tidy ext ledger → holds ledger →
      holds next)
    (stepped : LedgerStep ext state handled final) (sound : Oracle.Sound ext state.oracle)
    (tidy : Tidy ext state.ledger) (before : holds state.ledger) :
    Tidy ext final.ledger ∧ holds final.ledger := by
  cases stepped with
  | unchanged same => exact ⟨same ▸ tidy, same ▸ before⟩
  | delivered delivered =>
    obtain ⟨_, _, moves⟩ := deliver_moves tidy delivered
    exact moves.invariant kept tidy before
  | ended tally maintained =>
    obtain ⟨tidyTallied, holdsTallied⟩ :=
      (tallied_of_attestationTally sound tally).invariant kept tidy before
    exact (maintain_moves tidyTallied maintained).invariant kept tidyTallied holdsTallied

end GravityBridge.Keeper
