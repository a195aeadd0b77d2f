import GravityBridge.Keeper.Chain
import GravityBridge.Keeper.ForwardFailure

/-!
# The queue of pending IBC auto-forwards

A call of `ProcessPendingIbcAutoForwards` takes forwards from the front of the
queue. The run is recorded: each forward it took, with the message that went to
the IBC module for it, if one did. What the IBC module does may be different at
every call.
-/

namespace GravityBridge.Keeper

open Lib.Fallible Lib.ByteString Lib.Store Lib.Digits
open GravityBridge.Types List KVStore

/-! ## The keys of the queue -/

/-- `GetPendingIbcAutoForwardKey`, after the hashed name of the queue. The nonce is a 64-bit
number. -/
def getPendingIbcAutoForwardKey (pendingIbcAutoForwards : Bytes) (eventNonce : Nat) : Bytes :=
  pendingIbcAutoForwards ++ uint64Bytes (Fin.ofNat _ eventNonce)

/-- An iterator over the bytes of the keys visits the nonces in their order. -/
theorem getPendingIbcAutoForwardKey_lt_iff (name : Bytes) {first second : Nat}
    (firstFits : first < 2 ^ 64) (secondFits : second < 2 ^ 64) :
    getPendingIbcAutoForwardKey name first < getPendingIbcAutoForwardKey name second ↔
      first < second := by
  have numbers : uint64Bytes (Fin.ofNat _ first) < uint64Bytes (Fin.ofNat _ second) ↔
      first < second := by
    simp only [uint64Bytes, Fin.val_ofNat, Nat.mod_eq_of_lt firstFits, Nat.mod_eq_of_lt secondFits]
    exact bigEndian_bytes_lt_iff (by omega) (by omega)
  rw [← numbers]
  unfold getPendingIbcAutoForwardKey
  induction name with
  | nil => rfl
  | cons byte rest ih => simpa [cons_lt_cons_iff] using ih

/-- Every forward is stored under its own nonce, a 64-bit number. -/
structure QueueKeyed (ledger : Ledger) : Prop where
  keyed : ∀ nonce forward, ledger.pendingIbcAutoForwards.get nonce = some forward →
    nonce = forward.eventNonce
  fits : ∀ forward ∈ ledger.pendingIbcAutoForwards.values, forward.eventNonce < 2 ^ 64

/-! ## A recorded run -/

variable (ext : External)

/-- `ProcessPendingIbcAutoForwards`. The transfers tell what the IBC module does at each turn. -/
def Ledger.clearForwards (ledger : Ledger) (transfers : Nat → IbcTransfer) :
    (forwardsToClear : Nat) → Go (List Dequeued × Ledger)
  | 0 => pure ([], ledger)
  | remaining + 1 =>
      match ledger.getNextPendingIbcAutoForward with
      | none => pure ([], ledger)
      | some forward => do
          let (taken, next) ← rewrap ⟨.plain, "unable to process Pending IBC Auto-Forward number"⟩
            (ledger.handleForward ext forward (transfers 0))
          let (rest, final) ← next.clearForwards (fun turn => transfers (turn + 1)) remaining
          pure (taken :: rest, final)

variable {ext} {ledger next : Ledger} {forward : PendingIbcAutoForward} {transfer : IbcTransfer}
  {taken : Dequeued} {number : Nat} {run : List Dequeued}

/-- The message of the machine makes a recorded run, with transfers that happen as a whole or not at
all. -/
theorem processPendingIbcAutoForwards_recorded {effects : List TransferEffect} :
    ledger.processPendingIbcAutoForwards ext effects = .ok next ↔ ∃ run,
      ledger.clearForwards ext (fun turn => (effects.getD turn .refused).transfer ext)
        effects.length = .ok (run, next) := by
  induction effects generalizing ledger with
  | nil => simp [Ledger.processPendingIbcAutoForwards, Ledger.clearForwards]
  | cons effect rest ih =>
    cases head : ledger.getNextPendingIbcAutoForward with
    | none => simp [Ledger.processPendingIbcAutoForwards, Ledger.clearForwards, head]
    | some forward =>
      simp only [Ledger.processPendingIbcAutoForwards, Ledger.clearForwards, length_cons, head,
        bind_eq_ok, rewrap_eq_ok, pure_eq_ok, Prod.exists, Prod.mk.injEq, ih, getD_cons_zero,
        getD_cons_succ]
      constructor
      · rintro ⟨taken, middle, one, run, later⟩
        exact ⟨taken :: run, taken, middle, one, run, next, later, rfl, rfl⟩
      · rintro ⟨_, taken, middle, one, run, _, later, rfl, rfl⟩
        exact ⟨taken, middle, one, run, later⟩

/-! ## What a run leaves -/

/-- The IBC module leaves the balance of the module account alone, as long as it is not the sender. -/
def Untouched (ext : External) (transfer : IbcTransfer) : Prop :=
  ∀ msgTransfer bank denom, ext.gravityModule ≠ msgTransfer.sender →
    (transfer msgTransfer bank).1.balances ext.gravityModule denom =
      bank.balances ext.gravityModule denom

theorem TransferEffect.untouched (effect : TransferEffect) : Untouched ext (effect.transfer ext) :=
  fun msgTransfer bank denom other =>
    (ibcTransfer_bystander bank effect msgTransfer.sourceChannel msgTransfer.token other denom).1

/-- The call that was made, if any, is about the forward itself. -/
def Dequeued.OwnCall (ext : External) (taken : Dequeued) : Prop :=
  ∀ msgTransfer, taken.call = some msgTransfer →
    msgTransfer.token = taken.forward.token ∧ msgTransfer.sourceChannel = taken.forward.ibcChannel ∧
      msgTransfer.receiver = taken.forward.foreignReceiver ∧
      ibcAddressFromBech32 ext taken.forward.foreignReceiver = .ok msgTransfer.sender

/-- One forward left the queue and its coins left the module account. -/
structure Handed (ext : External) (ledger : Ledger) (forward : PendingIbcAutoForward)
    (taken : Dequeued) (next : Ledger) : Prop where
  same : taken.forward = forward
  call : taken.OwnCall ext
  moved : ∀ denom, next.bank.balances ext.gravityModule denom + forward.token.amountOf denom =
    ledger.bank.balances ext.gravityModule denom
  queue : next.pendingIbcAutoForwards = ledger.pendingIbcAutoForwards.delete forward.eventNonce

theorem handleForward_handed (untouched : Untouched ext transfer)
    (ran : ledger.handleForward ext forward transfer = .ok (taken, next)) :
    Handed ext ledger forward taken next := by
  obtain ⟨_, ⟨fallback, held, leaves, decoded, rfl, rfl⟩ | ⟨rfl, left, frame⟩⟩ :=
    handleForward_cases ran
  · refine ⟨rfl, ?_, fun denom => ?_, rfl⟩
    · rintro msgTransfer ⟨⟩
      exact ⟨rfl, rfl, rfl, decoded⟩
    · rw [untouched _ _ _ leaves]
      exact Bank.move_balances_sender leaves
  · refine ⟨rfl, ?_, left.balance, by rw [frame]⟩
    rintro msgTransfer ⟨⟩

theorem Handed.queueKeyed (handed : Handed ext ledger forward taken next)
    (queueKeyed : QueueKeyed ledger) : QueueKeyed next := by
  have kept : ∀ nonce other, next.pendingIbcAutoForwards.get nonce = some other →
      ledger.pendingIbcAutoForwards.get nonce = some other := by
    intro nonce other found
    rw [handed.queue, get_delete] at found
    split_ifs at found
    exact found
  refine ⟨fun nonce other found => queueKeyed.keyed nonce other (kept nonce other found),
    fun other member => ?_⟩
  obtain ⟨nonce, found⟩ := mem_values.mp member
  exact queueKeyed.fits other (mem_values.mpr ⟨nonce, kept nonce other found⟩)

/-- The forwards of a run left the queue from its front, each with its own call, and the module
account paid their coins. -/
structure Cleared (ext : External) (ledger : Ledger) (number : Nat) (run : List Dequeued)
    (next : Ledger) : Prop where
  queueKeyed : QueueKeyed next
  front : run.map Dequeued.forward = ledger.pendingIbcAutoForwards.values.take number
  calls : ∀ taken ∈ run, taken.OwnCall ext
  moved : ∀ denom, next.bank.balances ext.gravityModule denom +
    (run.map fun taken => taken.forward.token.amountOf denom).sum =
      ledger.bank.balances ext.gravityModule denom
  back : next.pendingIbcAutoForwards.values = ledger.pendingIbcAutoForwards.values.drop number
  others : ∀ nonce, nonce ∉ run.map (fun taken => taken.forward.eventNonce) →
    next.pendingIbcAutoForwards.get nonce = ledger.pendingIbcAutoForwards.get nonce

theorem Cleared.stop (queueKeyed : QueueKeyed ledger)
    (nothing : ledger.pendingIbcAutoForwards.values.take number = [])
    (all : ledger.pendingIbcAutoForwards.values.drop number = ledger.pendingIbcAutoForwards.values) :
    Cleared ext ledger number [] ledger := by
  refine ⟨queueKeyed, nothing.symm, ?_, ?_, all.symm, fun _ _ => rfl⟩
  · simp
  · simp

theorem Cleared.cons {middle : Ledger} {rest : List PendingIbcAutoForward}
    (queueKeyed : QueueKeyed ledger) (listed : ledger.pendingIbcAutoForwards.values = forward :: rest)
    (handed : Handed ext ledger forward taken middle) (cleared : Cleared ext middle number run next) :
    Cleared ext ledger (number + 1) (taken :: run) next := by
  have remaining : middle.pendingIbcAutoForwards.values = rest := by
    rw [handed.queue]
    exact values_delete_head queueKeyed.keyed listed
  refine ⟨cleared.queueKeyed, ?_, ?_, fun denom => ?_, ?_, fun nonce absent => ?_⟩
  · rw [map_cons, handed.same, cleared.front, remaining, listed, take_succ_cons]
  · exact forall_mem_cons.mpr ⟨handed.call, cleared.calls⟩
  · have first := handed.moved denom
    have later := cleared.moved denom
    rw [map_cons, sum_cons, handed.same]
    omega
  · rw [cleared.back, remaining, listed, drop_succ_cons]
  · obtain ⟨notThis, notLater⟩ := not_or.mp (mem_cons.not.mp absent)
    rw [cleared.others nonce notLater, handed.queue, get_delete, if_neg (handed.same ▸ notThis)]

/-- By induction on the number of forwards to clear. -/
theorem clearForwards_cleared {transfers : Nat → IbcTransfer}
    (queueKeyed : QueueKeyed ledger) (untouched : ∀ turn, Untouched ext (transfers turn))
    (ran : ledger.clearForwards ext transfers number = .ok (run, next)) :
    Cleared ext ledger number run next := by
  induction number generalizing ledger transfers run with
  | zero =>
    obtain ⟨rfl, rfl⟩ := Prod.mk.inj (pure_eq_ok.mp ran)
    exact Cleared.stop queueKeyed rfl rfl
  | succ number ih =>
    simp only [Ledger.clearForwards, Ledger.getNextPendingIbcAutoForward] at ran
    cases listed : ledger.pendingIbcAutoForwards.values with
    | nil =>
      simp only [listed, head?_nil] at ran
      obtain ⟨rfl, rfl⟩ := Prod.mk.inj (pure_eq_ok.mp ran)
      exact Cleared.stop queueKeyed (by rw [listed]; rfl) (by rw [listed]; rfl)
    | cons forward rest =>
      simp only [listed, head?_cons, bind_eq_ok, rewrap_eq_ok, pure_eq_ok, Prod.exists,
        Prod.mk.injEq] at ran
      obtain ⟨taken, middle, one, others, _, later, rfl, rfl⟩ := ran
      have handed := handleForward_handed (untouched 0) one
      exact Cleared.cons queueKeyed listed handed
        (ih (handed.queueKeyed queueKeyed) (fun turn => untouched (turn + 1)) later)

/-- The run took as many forwards as it may, those with the smallest nonces and in the order of the
nonces, with at most one transfer for each. -/
structure ClearedInOrder (ext : External) (name : Bytes) (ledger : Ledger) (number : Nat)
    (run : List Dequeued) (next : Ledger) : Prop where
  count : run.length = min number ledger.pendingIbcAutoForwards.values.length
  iterated : (ledger.pendingIbcAutoForwards.values.map fun forward =>
    getPendingIbcAutoForwardKey name forward.eventNonce).Pairwise (· < ·)
  increasing : (run.map fun taken => taken.forward.eventNonce).Pairwise (· < ·)
  smallest : ∀ taken ∈ run, ∀ left ∈ next.pendingIbcAutoForwards.values,
    taken.forward.eventNonce < left.eventNonce
  dequeued : ∀ taken ∈ run, ledger.pendingIbcAutoForwards.get taken.forward.eventNonce =
    some taken.forward ∧
    next.pendingIbcAutoForwards.get taken.forward.eventNonce = none
  calls : ∀ taken ∈ run, taken.OwnCall ext
  moved : ∀ denom, next.bank.balances ext.gravityModule denom +
    (run.map fun taken => taken.forward.token.amountOf denom).sum =
      ledger.bank.balances ext.gravityModule denom
  others : ∀ nonce, nonce ∉ run.map (fun taken => taken.forward.eventNonce) →
    next.pendingIbcAutoForwards.get nonce = ledger.pendingIbcAutoForwards.get nonce

theorem QueueKeyed.iterated (name : Bytes) (queueKeyed : QueueKeyed ledger) :
    (ledger.pendingIbcAutoForwards.values.map fun forward =>
      getPendingIbcAutoForwardKey name forward.eventNonce).Pairwise (· < ·) := by
  have ordered := values_pairwise queueKeyed.keyed
  refine pairwise_map.mpr (ordered.imp_of_mem fun {first second} firstIn secondIn less => ?_)
  exact (getPendingIbcAutoForwardKey_lt_iff name (queueKeyed.fits first firstIn)
    (queueKeyed.fits second secondIn)).mpr less

/-- A call that returns without an error cleared the queue from its front. -/
theorem forwards_cleared_in_order (name : Bytes) {transfers : Nat → IbcTransfer} {number : Nat}
    {run : List Dequeued}
    (queueKeyed : QueueKeyed ledger) (untouched : ∀ turn, Untouched ext (transfers turn))
    (ran : ledger.clearForwards ext transfers number = .ok (run, next)) :
    ClearedInOrder ext name ledger number run next := by
  have cleared := clearForwards_cleared queueKeyed untouched ran
  have ordered := KVStore.values_pairwise queueKeyed.keyed
  rw [← List.take_append_drop number ledger.pendingIbcAutoForwards.values, ← cleared.front,
    ← cleared.back] at ordered
  obtain ⟨frontOrdered, -, apart⟩ := List.pairwise_append.mp ordered
  have smallest : ∀ taken ∈ run, ∀ left ∈ next.pendingIbcAutoForwards.values,
      taken.forward.eventNonce < left.eventNonce := fun taken member =>
    apart taken.forward (List.mem_map_of_mem member)
  refine ⟨?_, queueKeyed.iterated name, ?_, smallest, fun taken member => ⟨?_, ?_⟩, cleared.calls,
    cleared.moved, cleared.others⟩
  · rw [← List.length_map Dequeued.forward, cleared.front, List.length_take]
  · have recorded := List.pairwise_map.mp frontOrdered
    exact List.pairwise_map.mpr recorded
  · have inFront : taken.forward ∈ ledger.pendingIbcAutoForwards.values.take number :=
      cleared.front ▸ List.mem_map_of_mem member
    obtain ⟨nonce, found⟩ := KVStore.mem_values.mp (List.mem_of_mem_take inFront)
    exact queueKeyed.keyed nonce _ found ▸ found
  · -- a forward left under this nonce would have a larger one
    cases found : next.pendingIbcAutoForwards.get taken.forward.eventNonce with
    | none => rfl
    | some left =>
        have larger := smallest taken member left (KVStore.mem_values.mpr ⟨_, found⟩)
        rw [← cleared.queueKeyed.keyed _ _ found] at larger
        exact absurd larger (lt_irrefl _)

def queuedForward (receiver : String) (amount eventNonce : Nat) : PendingIbcAutoForward :=
  ⟨ascii receiver, ⟨gravityDenom localnet 5, amount⟩, ascii "channel-0", eventNonce⟩

/-- Three forwards wait; the second one goes to the module account itself, which may not receive. -/
def threeForwards : Ledger :=
  { Ledger.unused [] (Bank.empty.mint localnet.gravityModule ⟨gravityDenom localnet 5, 100⟩) with
    pendingIbcAutoForwards := ((KVStore.empty.set 9 (queuedForward "cosmos1other" 50 9)).set 5
      (queuedForward "cosmos1recipient" 30 5)).set 7 (queuedForward "cosmos1module/gravity" 20 7) }

theorem queueKeyed_threeForwards : QueueKeyed threeForwards := by
  refine ⟨fun nonce forward found => ?_, by decide⟩
  have member := mem_entries.mpr found
  have listed : ∀ entry ∈ threeForwards.pendingIbcAutoForwards.entries,
  entry.1 = entry.2.eventNonce := by decide
  exact listed _ member

/-- Two of the three are cleared: the first is transferred, the second goes to the community pool. -/
theorem two_forwards_cleared : ∃ run next,
    threeForwards.clearForwards localnet (fun _ => TransferEffect.escrowed.transfer localnet) 2 =
      .ok (run, next) ∧
      run.map (fun taken => (taken.forward.eventNonce, taken.call.isSome)) = [(5, true), (7, false)] ∧
      ClearedInOrder localnet (ascii "queue") threeForwards 2 run next := by
  have evaluated :
      (threeForwards.clearForwards localnet (fun _ => TransferEffect.escrowed.transfer localnet)
        2).toOption.map (fun result => result.1.map fun taken =>
          (taken.forward.eventNonce, taken.call.isSome)) =
      some [(5, true), (7, false)] := by decide +kernel
  cases ran : threeForwards.clearForwards localnet
    (fun _ => TransferEffect.escrowed.transfer localnet) 2 with
  | ok result =>
      obtain ⟨run, next⟩ := result
      rw [ran] at evaluated
      exact ⟨run, next, rfl, Option.some.inj evaluated,
        forwards_cleared_in_order _ queueKeyed_threeForwards
          (fun _ => TransferEffect.escrowed.untouched) ran⟩
  | error fault =>
      rw [ran] at evaluated
      contradiction

end GravityBridge.Keeper
