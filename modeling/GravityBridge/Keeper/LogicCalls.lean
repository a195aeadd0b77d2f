import GravityBridge.Keeper.ConfirmWindow
import GravityBridge.Keeper.Genesis
import GravityBridge.Lib.ByteOrder

/-!
# Logic calls and their confirms

A logic call is identified by an id of any length and a nonce. The key of a
confirm is the id, the eight bytes of the nonce and the orchestrator, one after
the other, and the confirms of a call are those whose keys begin with the first
two. A call that is not there is read as an empty one, and cancelling a call
leaves its confirms where they are.
-/

namespace GravityBridge.Keeper

open Lib.Fallible Lib.ByteString Lib.Store Lib.Runs
open GravityBridge.Types List KVStore

section

variable (ext : External)

/-- `CancelOutgoingLogicCall` deletes under the id and the nonce of the call it read. -/
def Chain.cancelOutgoingLogicCall (chain : Chain) (invalidationId : Bytes)
    (invalidationNonce : U64) : Chain :=
  let call := chain.getOutgoingLogicCall ext invalidationId invalidationNonce
  { chain with
    logicCalls := chain.logicCalls.delete
      (getOutgoingLogicCallKey call.invalidationId call.invalidationNonce) }

inductive CallLabel where
  | setOutgoingLogicCall (call : OutgoingLogicCall)
  | confirmLogicCall (msg : MsgConfirmLogicCall)
  | cancelOutgoingLogicCall (invalidationId : Bytes) (invalidationNonce : U64)
  /-- The rest of the chain becomes that of another one. -/
  | beside (other : Chain)

/-- A step keeps a record of the confirms that it accepts. -/
def Chain.callStep : CallLabel → Chain → List MsgConfirmLogicCall × Go Chain
  | .setOutgoingLogicCall call, chain => ([], chain.setOutgoingLogicCall ext call)
  | .confirmLogicCall msg, chain =>
      match chain.confirmLogicCall ext msg with
      | .ok next => ([msg], .ok next)
      | .error _ => ([], .ok chain)
  | .cancelOutgoingLogicCall invalidationId invalidationNonce, chain =>
      ([], .ok (chain.cancelOutgoingLogicCall ext invalidationId invalidationNonce))
  | .beside other, chain =>
      ([], .ok { other with
        logicCalls := chain.logicCalls, logicCallConfirms := chain.logicCallConfirms })

/-- No logic call and no confirm of one is stored. -/
def Chain.Callless (chain : Chain) : Prop := chain.logicCalls = .empty ∧
    chain.logicCallConfirms = .empty

/-- The chains that steps of logic calls lead to, with the confirms accepted on the way. -/
def Chain.CallRun (accepted : List MsgConfirmLogicCall) (chain : Chain) : Prop :=
  Reach (Chain.callStep ext) Chain.Callless (fun _ _ _ _ => True) accepted chain

end

/-- The call that a confirm names. -/
def MsgConfirmLogicCall.isFor (msg : MsgConfirmLogicCall) (invalidationId : Bytes)
    (invalidationNonce : U64) : Bool :=
  hexDecode msg.invalidationId == some invalidationId && msg.invalidationNonce == invalidationNonce

variable {ext : External} {chain next : Chain} {accepted : List MsgConfirmLogicCall}
  {msg : MsgConfirmLogicCall} {invalidationId : Bytes} {invalidationNonce : U64}

theorem isFor_iff : msg.isFor invalidationId invalidationNonce = true ↔
    hexDecode msg.invalidationId = some invalidationId ∧
      msg.invalidationNonce = invalidationNonce := by
  simp [MsgConfirmLogicCall.isFor]

/-! ## Keys -/

@[simp] theorem length_uint64Bytes (number : U64) : (uint64Bytes number).length = 8 := by
  simp [uint64Bytes]

theorem uint64Bytes_injective {first second : U64} (same : uint64Bytes first = uint64Bytes second) :
    first = second :=
  Fin.ext (bigEndian_bytes_injective (by exact first.isLt) (by exact second.isLt) same)

theorem exists_uint64Bytes {bytes : Bytes} (eight : bytes.length = 8) :
    ∃ number, uint64Bytes number = bytes := by
  have fits := Lib.ByteOrder.uint_lt bytes
  have written := Lib.ByteOrder.bigEndian_uint bytes
  rw [eight] at fits written
  exact ⟨⟨_, fits⟩, written⟩

/-- Where a confirm is stored. -/
def MsgConfirmLogicCall.StoredUnder (ext : External) (msg : MsgConfirmLogicCall)
    (key : Bytes) : Prop :=
  ∃ invalidationId orchestrator, hexDecode msg.invalidationId = some invalidationId ∧
    accAddressFromBech32 ext msg.orchestrator = .ok orchestrator ∧
    key = getLogicConfirmKey invalidationId msg.invalidationNonce orchestrator

theorem MsgConfirmLogicCall.StoredUnder.unique {key other : Bytes} (stored : msg.StoredUnder ext key)
    (again : msg.StoredUnder ext other) : key = other := by
  obtain ⟨_, _, read, decoded, rfl⟩ := stored
  obtain ⟨_, _, readAgain, decodedAgain, rfl⟩ := again
  obtain rfl := Option.some.inj (read.symm.trans readAgain)
  obtain rfl := Except.ok.inj (decoded.symm.trans decodedAgain)
  rfl

/-- A key that is found for the call that its confirm names is also found for an id one byte
longer. -/
theorem MsgConfirmLogicCall.StoredUnder.overlaps {key : Bytes} (stored : msg.StoredUnder ext key) :
    ∃ invalidationId invalidationNonce, getOutgoingLogicCallKey invalidationId invalidationNonce <+:
      key ∧ msg.isFor invalidationId invalidationNonce = false := by
  obtain ⟨itsId, orchestrator, read, decoded, rfl⟩ := stored
  obtain ⟨first, rest, rfl⟩ : ∃ first rest, orchestrator = first :: rest := by
    refine exists_cons_of_ne_nil ?_
    rintro rfl
    simpa [verifyAddressFormat, require] using verifyAddressFormat_of_bech32 decoded
  -- The longer id takes the first byte of the nonce, and the nonce the first byte of the
  -- orchestrator.
  let bytes := uint64Bytes msg.invalidationNonce ++ [first]
  have eight : (bytes.drop 1).length = 8 := by simp [bytes]
  obtain ⟨number, written⟩ := exists_uint64Bytes eight
  refine ⟨itsId ++ bytes.take 1, number, ⟨rest, ?_⟩, ?_⟩
  · rw [getOutgoingLogicCallKey, written, append_assoc itsId, take_append_drop]
    simp [bytes, getLogicConfirmKey, getOutgoingLogicCallKey]
  · rw [Bool.eq_false_iff]
    intro its
    have longer := congrArg List.length (Option.some.inj (read.symm.trans (isFor_iff.mp its).1))
    simp [bytes] at longer

/-! ## What is stored -/

theorem Chain.confirmLogicCall_stores (confirmed : chain.confirmLogicCall ext msg = .ok next) :
    ∃ key, msg.StoredUnder ext key ∧ chain.logicCallConfirms.get key = none ∧
      next = { chain with logicCallConfirms := chain.logicCallConfirms.set key msg } := by
  simp only [Chain.confirmLogicCall, Chain.setLogicCallConfirm, bind_eq_ok, rewrap_eq_ok,
    orPanic_eq_ok, fromOption_eq_ok, unwrap_eq_ok, require_eq_ok, pure_eq_ok] at confirmed
  obtain ⟨_, _, itsId, read, _, _, orchestrator, decoded, _, _, _, fresh, _,
    ⟨_, readAgain, _, decodedAgain, rfl⟩, rfl⟩ := confirmed
  obtain rfl := Option.some.inj (read.symm.trans readAgain)
  obtain rfl := Except.ok.inj (decoded.symm.trans decodedAgain)
  exact ⟨_, ⟨itsId, orchestrator, read, decoded, rfl⟩, fresh, rfl⟩

/-- The store holds the accepted confirms, each once and under its own key. -/
structure Chain.Holds (ext : External) (chain : Chain)
    (accepted : List MsgConfirmLogicCall) : Prop where
  stored : ∀ key msg, chain.logicCallConfirms.get key = some msg ↔
    msg ∈ accepted ∧ msg.StoredUnder ext key
  keyed : ∀ msg ∈ accepted, ∃ key, msg.StoredUnder ext key
  nodup : accepted.Nodup

theorem Chain.Holds.of_same (holds : chain.Holds ext accepted)
    (same : next.logicCallConfirms = chain.logicCallConfirms) :
    next.Holds ext accepted :=
  ⟨by rw [same]; exact holds.stored, holds.keyed, holds.nodup⟩

theorem Chain.Holds.confirmed (holds : chain.Holds ext accepted)
    (confirmed : chain.confirmLogicCall ext msg = .ok next) :
    next.Holds ext (accepted ++ [msg]) := by
  obtain ⟨key, under, fresh, rfl⟩ := Chain.confirmLogicCall_stores confirmed
  have new : msg ∉ accepted := by
    intro old
    have found := (holds.stored key msg).mpr ⟨old, under⟩
    rw [fresh] at found
    contradiction
  refine ⟨fun name other => ?_, fun other member => ?_, ?_⟩
  · rw [get_set, mem_append, mem_singleton]
    split_ifs with same
    · subst same
      constructor
      · rintro ⟨⟩
        exact ⟨.inr rfl, under⟩
      · rintro ⟨old | rfl, its⟩
        · rw [(holds.stored name other).mpr ⟨old, its⟩] at fresh
          contradiction
        · rfl
    · rw [holds.stored name other]
      refine and_congr_left fun its => ⟨.inl, fun either => either.resolve_right ?_⟩
      rintro rfl
      exact same (its.unique under)
  · rcases mem_append.mp member with old | last
    · exact holds.keyed other old
    · exact ⟨key, by rwa [mem_singleton.mp last]⟩
  · refine nodup_append.mpr ⟨holds.nodup, nodup_singleton msg,
      fun other old last member same => new ?_⟩
    rwa [← mem_singleton.mp member, ← same]

theorem Chain.CallRun.holds (run : Chain.CallRun ext accepted chain) : chain.Holds ext accepted := by
  refine Reach.invariant (motive := fun accepted chain => Chain.Holds ext chain accepted)
    (fun start callless => ?_) (fun before current label emitted after _ holds took _ => ?_) run
  · exact ⟨by simp [callless.2], by simp, nodup_nil⟩
  · cases label with
    | setOutgoingLogicCall call =>
      simp only [Chain.callStep, Chain.setOutgoingLogicCall, Prod.mk.injEq, bind_eq_ok,
        pure_eq_ok] at took
      obtain ⟨rfl, _, _, _, _, rfl⟩ := took
      rw [append_nil]
      exact holds.of_same rfl
    | confirmLogicCall msg =>
      simp only [Chain.callStep] at took
      split at took
      · rename_i confirmed
        obtain ⟨rfl, rfl⟩ : [msg] = emitted ∧ _ = after := by simpa using took
        exact holds.confirmed confirmed
      · obtain ⟨rfl, rfl⟩ : [] = emitted ∧ _ = after := by simpa using took
        rwa [append_nil]
    | cancelOutgoingLogicCall invalidationId invalidationNonce =>
      obtain ⟨rfl, rfl⟩ : [] = emitted ∧ _ = after := by simpa [Chain.callStep] using took
      rw [append_nil]
      exact holds.of_same rfl
    | beside other =>
      obtain ⟨rfl, rfl⟩ : [] = emitted ∧ _ = after := by simpa [Chain.callStep] using took
      rw [append_nil]
      exact holds.of_same rfl

/-! ## What a query finds -/

/-- A query finds every accepted confirm whose key begins with the id and the nonce that it asks
for. -/
theorem Chain.Holds.found_iff (holds : chain.Holds ext accepted) :
    msg ∈ chain.getLogicConfirmsByInvalidationIdAndNonce invalidationId invalidationNonce ↔
      msg ∈ accepted ∧
        ∃ key, msg.StoredUnder ext key ∧
          getOutgoingLogicCallKey invalidationId invalidationNonce <+: key := by
  simp only [Chain.getLogicConfirmsByInvalidationIdAndNonce, mem_values, get_filter,
    Option.filter_eq_some_iff, isPrefixOf_iff_prefix]
  constructor
  · rintro ⟨key, found, begins⟩
    obtain ⟨member, under⟩ := (holds.stored key msg).mp found
    exact ⟨member, key, under, begins⟩
  · rintro ⟨member, key, under, begins⟩
    exact ⟨key, (holds.stored key msg).mpr ⟨member, under⟩, begins⟩

theorem Chain.Holds.nodup_found (holds : chain.Holds ext accepted) :
    (chain.getLogicConfirmsByInvalidationIdAndNonce invalidationId invalidationNonce).Nodup := by
  classical
  let keyOf : MsgConfirmLogicCall → Bytes := fun msg =>
    if under : ∃ key, msg.StoredUnder ext key then under.choose else []
  refine List.Nodup.of_map keyOf (nodup_of_keyed fun key msg found => ?_)
  rw [get_filter, Option.filter_eq_some_iff] at found
  have under := ((holds.stored key msg).mp found.1).2
  have some : ∃ key, msg.StoredUnder ext key := ⟨key, under⟩
  simp only [keyOf, dif_pos some]
  exact under.unique some.choose_spec

/-- A confirm is found for the call that it names. -/
theorem MsgConfirmLogicCall.StoredUnder.begins {key : Bytes} (under : msg.StoredUnder ext key)
    (its : msg.isFor invalidationId invalidationNonce = true) :
    getOutgoingLogicCallKey invalidationId invalidationNonce <+: key := by
  obtain ⟨itsId, orchestrator, read, _, rfl⟩ := under
  obtain ⟨readAgain, rfl⟩ := isFor_iff.mp its
  obtain rfl := Option.some.inj (read.symm.trans readAgain)
  exact prefix_append _ _

/-- The confirms that were accepted for a call. -/
def acceptedFor (accepted : List MsgConfirmLogicCall) (invalidationId : Bytes)
    (invalidationNonce : U64) : List MsgConfirmLogicCall :=
  accepted.filter (fun msg => msg.isFor invalidationId invalidationNonce)

/-- No confirm of another call has a key that begins with the id and the nonce. -/
def SetApart (ext : External) (accepted : List MsgConfirmLogicCall) (invalidationId : Bytes)
    (invalidationNonce : U64) : Prop :=
  ∀ msg ∈ accepted, ∀ key, msg.StoredUnder ext key →
    getOutgoingLogicCallKey invalidationId invalidationNonce <+: key →
    msg.isFor invalidationId invalidationNonce = true

theorem Chain.Holds.found_perm_iff (holds : chain.Holds ext accepted) :
    (chain.getLogicConfirmsByInvalidationIdAndNonce invalidationId invalidationNonce).Perm
        (acceptedFor accepted invalidationId invalidationNonce) ↔
      SetApart ext accepted invalidationId invalidationNonce := by
  unfold acceptedFor
  rw [perm_ext_iff_of_nodup holds.nodup_found (holds.nodup.filter _)]
  simp only [holds.found_iff, mem_filter]
  constructor
  · intro exact msg member key under begins
    exact ((exact msg).mp ⟨member, key, under, begins⟩).2
  · refine fun apart msg => and_congr_right fun member => ⟨?_, fun its => ?_⟩
    · rintro ⟨key, under, begins⟩
      exact apart msg member key under begins
    · obtain ⟨key, under⟩ := holds.keyed msg member
      exact ⟨key, under, under.begins its⟩

/-- Among ids of one length every query is exact. -/
theorem setApart_of_length
    (same : ∀ msg ∈ accepted, ∀ itsId, hexDecode msg.invalidationId = some itsId →
      itsId.length = invalidationId.length) :
    SetApart ext accepted invalidationId invalidationNonce := by
  rintro msg member key ⟨itsId, orchestrator, read, _, rfl⟩ begins
  have front : getOutgoingLogicCallKey invalidationId invalidationNonce <+:
      getOutgoingLogicCallKey itsId msg.invalidationNonce := by
    refine prefix_of_prefix_length_le begins (prefix_append _ _) ?_
    simp [getOutgoingLogicCallKey, same msg member itsId read]
  have whole := front.eq_of_length (by simp [getOutgoingLogicCallKey, same msg member itsId read])
  obtain ⟨rfl, nonces⟩ := append_inj' whole (by simp)
  obtain rfl := uint64Bytes_injective nonces
  exact isFor_iff.mpr ⟨read, rfl⟩

/-- Some id and nonce find a confirm that was accepted for another call, as soon as there is any. -/
theorem Chain.Holds.setApart_iff (holds : chain.Holds ext accepted) :
    (∀ invalidationId invalidationNonce, SetApart ext accepted invalidationId invalidationNonce) ↔
      accepted = [] := by
  constructor
  · intro apart
    refine eq_nil_iff_forall_not_mem.mpr fun msg member => ?_
    obtain ⟨key, under⟩ := holds.keyed msg member
    obtain ⟨invalidationId, invalidationNonce, begins, other⟩ := under.overlaps
    rw [apart invalidationId invalidationNonce msg member key under begins] at other
    contradiction
  · rintro rfl invalidationId invalidationNonce msg member
    contradiction

/-! ## Confirms of calls that are not there -/

/-- The call that a confirm names is stored. -/
def Chain.Calls (chain : Chain) (msg : MsgConfirmLogicCall) : Prop :=
  ∃ invalidationId call, hexDecode msg.invalidationId = some invalidationId ∧
    chain.logicCalls.get (getOutgoingLogicCallKey invalidationId msg.invalidationNonce) = some call

/-- A first confirm from registered keys that signs the empty call. -/
def Chain.SignsBlank (ext : External) (chain : Chain) (msg : MsgConfirmLogicCall) : Prop :=
  chain.state.params.requireBridgeActive = .ok () ∧
  ∃ invalidationId orchestrator checkpoint, hexDecode msg.invalidationId = some invalidationId ∧
    accAddressFromBech32 ext msg.orchestrator = .ok orchestrator ∧
    (Chain.blankLogicCall ext invalidationId msg.invalidationNonce).getCheckpoint ext
      chain.gravityID = .ok checkpoint ∧
    chain.delegates.confirmHandlerCommon ext chain.staking msg.ethSigner orchestrator msg.signature
      checkpoint = .ok () ∧
    chain.logicCallConfirms.get
      (getLogicConfirmKey invalidationId msg.invalidationNonce orchestrator) = none

theorem Chain.confirmLogicCall_absent (absent : ¬ chain.Calls msg) :
    (∃ next, chain.confirmLogicCall ext msg = .ok next) ↔ chain.SignsBlank ext msg := by
  have blank : ∀ itsId, hexDecode msg.invalidationId = some itsId →
      chain.getOutgoingLogicCall ext itsId msg.invalidationNonce =
        Chain.blankLogicCall ext itsId msg.invalidationNonce := by
    intro itsId read
    have none : chain.logicCalls.get (getOutgoingLogicCallKey itsId msg.invalidationNonce) = none :=
      Option.eq_none_iff_forall_ne_some.mpr fun call stored => absent ⟨itsId, call, read, stored⟩
    simp [Chain.getOutgoingLogicCall, none]
  simp only [Chain.confirmLogicCall, Chain.setLogicCallConfirm, bind_eq_ok, rewrap_eq_ok,
    orPanic_eq_ok, fromOption_eq_ok, unwrap_eq_ok, require_eq_ok, pure_eq_ok]
  constructor
  · rintro ⟨_, _, active, itsId, read, checkpoint, hashed, orchestrator, decoded, _, signed,
      _, fresh, _⟩
    rw [blank itsId read] at hashed
    exact ⟨active, itsId, orchestrator, checkpoint, read, decoded, hashed, signed, fresh⟩
  · rintro ⟨active, itsId, orchestrator, checkpoint, read, decoded, hashed, signed, fresh⟩
    rw [← blank itsId read] at hashed
    exact ⟨_, (), active, itsId, read, checkpoint, hashed, orchestrator, decoded, (), signed,
      (), fresh, _, ⟨itsId, read, orchestrator, decoded, rfl⟩, rfl⟩

/-! ## Cancelled calls -/

/-- The stored confirms that name a call. -/
def Chain.confirmsNaming (chain : Chain) (invalidationId : Bytes) (invalidationNonce : U64) :
    List MsgConfirmLogicCall :=
  chain.logicCallConfirms.values.filter (fun msg => msg.isFor invalidationId invalidationNonce)

theorem Chain.Holds.confirmsNaming_eq_nil_iff (holds : chain.Holds ext accepted) :
    chain.confirmsNaming invalidationId invalidationNonce = [] ↔
      acceptedFor accepted invalidationId invalidationNonce = [] := by
  have same : ∀ msg, msg ∈ chain.logicCallConfirms.values ↔ msg ∈ accepted := by
    intro msg
    simp only [mem_values, holds.stored]
    exact ⟨fun ⟨_, member, _⟩ => member, fun member => (holds.keyed msg member).imp fun _ under =>
      ⟨member, under⟩⟩
  simp only [Chain.confirmsNaming, acceptedFor, filter_eq_nil_iff, same]

/-- In every reachable state: a query finds exactly the confirms accepted for its call as long as no
key of another call's confirm runs on from its own, which no store with a confirm in it rules out
for all ids; a confirm is accepted for an absent call exactly when it signs the empty one; and a
cancelled call has no confirms left exactly when it never had any. -/
theorem logic_call_confirms_iff (run : Chain.CallRun ext accepted chain) :
    (∀ invalidationId invalidationNonce,
      (chain.getLogicConfirmsByInvalidationIdAndNonce invalidationId invalidationNonce).Perm
          (acceptedFor accepted invalidationId invalidationNonce) ↔
        SetApart ext accepted invalidationId invalidationNonce) ∧
    ((∀ invalidationId invalidationNonce,
      (chain.getLogicConfirmsByInvalidationIdAndNonce invalidationId invalidationNonce).Perm
          (acceptedFor accepted invalidationId invalidationNonce)) ↔ accepted = []) ∧
    (∀ msg, ((∃ next, chain.confirmLogicCall ext msg = .ok next) → chain.Calls msg) ↔
      (chain.Calls msg ∨ ¬ chain.SignsBlank ext msg)) ∧
    ∀ invalidationId invalidationNonce,
      (chain.cancelOutgoingLogicCall ext invalidationId invalidationNonce).confirmsNaming
          invalidationId invalidationNonce = [] ↔
        acceptedFor accepted invalidationId invalidationNonce = [] := by
  have holds := run.holds
  refine ⟨fun invalidationId invalidationNonce => holds.found_perm_iff, ?_, fun msg => ?_,
    fun invalidationId invalidationNonce => (holds.of_same rfl).confirmsNaming_eq_nil_iff⟩
  · simp only [holds.found_perm_iff]
    exact holds.setApart_iff
  · by_cases stored : chain.Calls msg
    · simp [stored]
    · rw [Chain.confirmLogicCall_absent stored]
      simp [stored]

/-- A confirm of the call with the id from the validator of the example. -/
def exampleCallConfirm (invalidationId : Bytes) : MsgConfirmLogicCall :=
  ⟨hexEncode invalidationId, 1, hex localnet 7, ascii "gravity1orchestrator",
    hexEncode (Contract.exampleSignature 27)⟩

/-- A call is stored, confirmed and cancelled. -/
def cancelledCallRun : List CallLabel :=
  [.beside batchedChain, .setOutgoingLogicCall ⟨[], [], hex localnet 9, [], 100, [1], 1, 1⟩,
    .confirmLogicCall (exampleCallConfirm [1]), .cancelOutgoingLogicCall [1] 1]

def Chain.executeCalls (ext : External) (chain : Chain) (labels : List CallLabel) :
    Option (List MsgConfirmLogicCall × Chain) :=
  run (Chain.callStep ext) (fun _ _ _ _ => true) labels chain

theorem cancelledCallRun_ran : (Chain.executeCalls localnet stakeLaunch cancelledCallRun).isSome =
    true := by
  decide +kernel

def cancelledCallChain : Chain :=
  ((Chain.executeCalls localnet stakeLaunch cancelledCallRun).get cancelledCallRun_ran).2

theorem cancelledCallRun_accepted :
    ((Chain.executeCalls localnet stakeLaunch cancelledCallRun).get cancelledCallRun_ran).1 =
    [exampleCallConfirm [1]] := by
  decide +kernel

theorem cancelledCallChain_run :
    Chain.CallRun localnet [exampleCallConfirm [1]] cancelledCallChain := by
  rw [← cancelledCallRun_accepted]
  exact reach_of_isSome (fun _ _ _ _ _ => trivial) ⟨rfl, rfl⟩ cancelledCallRun_ran

/-- The confirm of the example is found for the call that it was accepted for. -/
theorem own_call_confirm_found :
    (cancelledCallChain.getLogicConfirmsByInvalidationIdAndNonce [1] 1).Perm
    [exampleCallConfirm [1]] := by
  have apart : SetApart localnet [exampleCallConfirm [1]] [1] 1 := by
    refine setApart_of_length fun msg member itsId read => ?_
    rw [List.mem_singleton.mp member, show hexDecode (exampleCallConfirm [1]).invalidationId =
      some [1] by decide] at read
    rw [← Option.some.inj read]
  exact ((logic_call_confirms_iff cancelledCallChain_run).1 [1] 1).mpr apart

/-- After the call is cancelled its confirm is still there; it is found for a call that nobody
confirmed; and a call that was never stored is confirmed. -/
theorem cancelled_call_keeps_confirm :
    Chain.CallRun localnet [exampleCallConfirm [1]] cancelledCallChain ∧
    cancelledCallChain.logicCalls.get (getOutgoingLogicCallKey [1] 1) = none ∧
    cancelledCallChain.confirmsNaming [1] 1 = [exampleCallConfirm [1]] ∧
    cancelledCallChain.getLogicConfirmsByInvalidationIdAndNonce [1, 0] 367 =
      [exampleCallConfirm [1]] ∧
    acceptedFor [exampleCallConfirm [1]] [1, 0] 367 = [] ∧
    cancelledCallChain.logicCalls.get (getOutgoingLogicCallKey [2] 1) = none ∧
    succeeds (cancelledCallChain.confirmLogicCall localnet (exampleCallConfirm [2])) = true :=
  ⟨cancelledCallChain_run, by decide +kernel, by decide +kernel, by decide +kernel,
    by decide +kernel, by decide +kernel, by decide +kernel⟩

end GravityBridge.Keeper
