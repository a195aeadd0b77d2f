import GravityBridge.Contract.Authority

/-!
# Calls from inside calls

When the bridge contract calls a token or a logic contract, that contract may call
the bridge contract again. A script says what other contracts do while they have
control, with the scripts of the contracts that are called meanwhile. Whatever the
scripts, the storage goes from one authority to another through authorised changes.
The events of validator sets come in the order of the sets exactly as long as no
set is updated while the reward for another update is paid.
-/

namespace GravityBridge.Contract

open Lib Lib.Fallible Lib.ByteString Lib.Abi
open GravityBridge.Types List

/-! ## What other contracts do -/

/-- One action of another contract, with an answer for each call that the bridge contract makes
meanwhile. -/
inductive Move (Answer : Type) where
  | touch (contracts : List EthAddress) (holdings : Holdings)
  | call (call : Call) (answers : List Answer)

/-- What a contract does while it has control, up to a depth of calls inside calls. The answer to a
call is the script of the contract that is called and the data it returns, or that it reverts. -/
def Script : Nat → Type
  | 0 => Unit
  | depth + 1 => List (Move (Option (Script depth × Bytes)))

/-- The code of contracts that do what the answers say. -/
def answering {α : Type} (play : α → Ethereum → Ethereum)
    (answers : List (Option (α × Bytes))) : Code :=
  fun index _ ethereum =>
    match answers[index]? with
    | some (some (script, returnData)) => pure (play script ethereum, returnData)
    | _ => fail (.library "call reverted")

/-- A call of the bridge contract that reverts changes nothing. -/
def Move.play (ext : External) {α : Type} (play : α → Ethereum → Ethereum) (ethereum : Ethereum) :
    Move (Option (α × Bytes)) → Ethereum
  | .touch contracts holdings => { ethereum with contracts := contracts, holdings := holdings }
  | .call called answers => transaction ethereum (called.run ext (answering play answers) ethereum)

def Script.play (ext : External) : (depth : Nat) → Script depth → Ethereum → Ethereum
  | 0, _, ethereum => ethereum
  | depth + 1, moves, ethereum => List.foldl (Move.play ext (Script.play ext depth)) ethereum moves

/-- What happens on Ethereum: transactions of users and of their contracts, and new blocks. -/
inductive Happening where
  | transact (depth : Nat) (script : Script depth)
  | block (number : Nat)

def Ethereum.step (ext : External) (ethereum : Ethereum) : Happening → Ethereum
  | .transact depth script => script.play ext depth ethereum
  | .block number => { ethereum with blockNumber := number }

def Ethereum.runAll (ext : External) (ethereum : Ethereum) (happenings : List Happening) : Ethereum :=
  happenings.foldl (Ethereum.step ext) ethereum

theorem Ethereum.runAll_append (ext : External) (ethereum : Ethereum)
    (happenings more : List Happening) :
    ethereum.runAll ext (happenings ++ more) = (ethereum.runAll ext happenings).runAll ext more :=
  foldl_append

/-! ## How the chain moves on -/

def BridgeEvent.valset? : BridgeEvent → Option ValsetArgs
  | .valsetUpdated valset => some valset
  | _ => none

/-- The validator sets of the events. -/
def valsetsIn (log : List Logged) : List ValsetArgs :=
  log.filterMap (fun logged => logged.event.valset?)

@[simp] theorem valsetsIn_append (first second : List Logged) :
    valsetsIn (first ++ second) = valsetsIn first ++ valsetsIn second := filterMap_append

@[simp] theorem valsetsOf_append (first second : List Change) :
    valsetsOf (first ++ second) = valsetsOf first ++ valsetsOf second := filterMap_append

/-- The nonces of the sets grow. -/
def Increasing (valsets : List ValsetArgs) : Prop :=
  (valsets.map ValsetArgs.valsetNonce).Pairwise (· < ·)

theorem Increasing.append {first second : List ValsetArgs}
    (increasing : Increasing (first ++ second)) : Increasing first ∧ Increasing second := by
  rw [Increasing, map_append, pairwise_append] at increasing
  exact ⟨increasing.1, increasing.2.1⟩

/-- From a chain whose storage obeys an authority, some changes and events lead to a chain whose
storage obeys another one. -/
structure Evolved (ext : External) (ethereum next : Ethereum) (authority : Authority)
    (changes : List Change) (events : List Logged) (later : Authority) : Prop where
  gravityId : next.gravityId = ethereum.gravityId
  recorded : next.changes = ethereum.changes ++ changes
  authorised : Authorised ext ethereum.gravityId authority changes later
  obeys : next.Obeys ext later
  log : next.log = ethereum.log ++ events
  nonces : events.map Logged.eventNonce = List.range' (ethereum.lastEventNonce + 1) events.length
  lastNonce : next.lastEventNonce = ethereum.lastEventNonce + events.length
  /-- Every update has its event. -/
  logged : valsetsOf changes ⊆ valsetsIn events
  inOrder : next.overtaken = false → ethereum.overtaken = false ∧ valsetsIn events = valsetsOf changes
  outOfOrder : next.overtaken = true → ethereum.overtaken = true ∨ ¬ Increasing (valsetsIn events)

/-- Whatever authority the storage obeys, the chain moves on as it should. -/
def Evolves (ext : External) (ethereum next : Ethereum) : Prop :=
  ∀ authority, ethereum.Obeys ext authority →
    ∃ changes events later, Evolved ext ethereum next authority changes events later

variable {ext : External} {ethereum middle next : Ethereum} {newValset : ValsetArgs} {α : Type}

/-- Nothing that the contract stores or logs changes. -/
theorem Evolves.of_same (gravityId : next.gravityId = ethereum.gravityId)
    (changes : next.changes = ethereum.changes)
    (checkpoint : next.lastValsetCheckpoint = ethereum.lastValsetCheckpoint)
    (nonce : next.lastValsetNonce = ethereum.lastValsetNonce)
    (batchNonces : next.lastBatchNonces = ethereum.lastBatchNonces)
    (invalidations : next.invalidationMapping = ethereum.invalidationMapping)
    (log : next.log = ethereum.log)
    (lastNonce : next.lastEventNonce = ethereum.lastEventNonce)
    (overtaken : next.overtaken = ethereum.overtaken) : Evolves ext ethereum next := by
  intro authority obeys
  refine ⟨[], [], authority, gravityId, by simp [changes], .nil authority, ?_, by simp [log], rfl,
    by simp [lastNonce], by simp [valsetsOf], ?_, ?_⟩
  · refine ⟨?_, obeys.wellFormed, nonce.trans obeys.nonce, batchNonces.trans obeys.batchNonces,
      invalidations.trans obeys.invalidations⟩
    rw [checkpoint, gravityId]
    exact obeys.checkpoint
  · exact fun inOrder => ⟨overtaken ▸ inOrder, rfl⟩
  · exact fun outOfOrder => .inl (overtaken ▸ outOfOrder)

theorem Evolves.refl (ethereum : Ethereum) : Evolves ext ethereum ethereum :=
  .of_same rfl rfl rfl rfl rfl rfl rfl rfl rfl

theorem Evolves.trans (before : Evolves ext ethereum middle) (after : Evolves ext middle next) :
    Evolves ext ethereum next := by
  intro authority obeys
  obtain ⟨changes, events, between, first⟩ := before authority obeys
  obtain ⟨more, others, later, second⟩ := after between first.obeys
  refine ⟨changes ++ more, events ++ others, later, second.gravityId.trans first.gravityId, ?_, ?_,
    second.obeys, ?_, ?_, ?_, ?_, ?_, ?_⟩
  · rw [second.recorded, first.recorded, append_assoc]
  · exact first.authorised.append (first.gravityId ▸ second.authorised)
  · rw [second.log, first.log, append_assoc]
  · rw [map_append, first.nonces, second.nonces, first.lastNonce, length_append, ← range'_append_1]
    congr 2
    omega
  · rw [second.lastNonce, first.lastNonce, length_append]
    omega
  · rw [valsetsOf_append, valsetsIn_append]
    exact append_subset.mpr ⟨subset_append_of_subset_left _ first.logged,
      subset_append_of_subset_right _ second.logged⟩
  · intro inOrder
    obtain ⟨middleOrder, others⟩ := second.inOrder inOrder
    obtain ⟨order, events⟩ := first.inOrder middleOrder
    exact ⟨order, by rw [valsetsIn_append, valsetsOf_append, events, others]⟩
  · intro outOfOrder
    rcases second.outOfOrder outOfOrder with middleOut | notIncreasing
    · rcases first.outOfOrder middleOut with out | notIncreasing
      · exact .inl out
      · exact .inr (fun increasing => notIncreasing (valsetsIn_append _ _ ▸ increasing).append.1)
    · exact .inr (fun increasing => notIncreasing (valsetsIn_append _ _ ▸ increasing).append.2)

/-- An event that is not about a validator set. -/
theorem Evolves.emit {event : BridgeEvent} (other : event.valset? = none) :
    Evolves ext ethereum (ethereum.emit event) := by
  intro authority obeys
  have none : valsetsIn [⟨ethereum.lastEventNonce + 1, ethereum.blockNumber, event⟩] = [] := by
    simp [valsetsIn, other]
  exact ⟨[], [⟨ethereum.lastEventNonce + 1, ethereum.blockNumber, event⟩], authority, rfl,
    (append_nil ethereum.changes).symm, .nil authority,
    ⟨obeys.checkpoint, obeys.wellFormed, obeys.nonce, obeys.batchNonces, obeys.invalidations⟩,
    rfl, rfl, rfl, by simp [valsetsOf], fun inOrder => ⟨inOrder, none⟩, .inl⟩

/-- A storage write for a batch or a logic call that enough validators signed. -/
theorem Evolves.store (change : Change) (other : change.content.valset? = none)
    (gravityId : next.gravityId = ethereum.gravityId)
    (changes : next.changes = ethereum.changes ++ [change])
    (log : next.log = ethereum.log) (lastNonce : next.lastEventNonce = ethereum.lastEventNonce)
    (overtaken : next.overtaken = ethereum.overtaken)
    (authorised : ∀ authority, ethereum.Obeys ext authority →
      change.currentValset = authority.valset ∧
      EnoughSigned ext (authority.valset.signedBy change.sigs)
        (change.content.hash ext ethereum.gravityId) powerThreshold ∧
      authority.Admits change.content ∧ next.Obeys ext (authority.apply change.content)) :
    Evolves ext ethereum next := by
  intro authority obeys
  obtain ⟨current, signed, admitted, obeysLater⟩ := authorised authority obeys
  have none : valsetsOf [change] = [] := by simp [valsetsOf, other]
  exact ⟨[change], [], _, gravityId, changes, .cons current signed admitted (.nil _), obeysLater,
    by simp [log], rfl, by simp [lastNonce], by simp [none], fun inOrder =>
      ⟨overtaken ▸ inOrder, none.symm⟩,
    fun outOfOrder => .inl (overtaken ▸ outOfOrder)⟩

/-! ## Calls of other contracts -/

/-- Code that leaves the chain as it should whenever it returns. -/
def Tame (ext : External) (code : Code) : Prop :=
  ∀ index outcall ethereum next returnData, code index outcall ethereum = .ok (next, returnData) →
    Evolves ext ethereum next

section

variable {code : Code} (tame : Tame ext code) {index : Nat} {outcall : Outcall}

include tame

theorem functionCall_evolves {returnData : Bytes}
    (called : functionCall code index outcall ethereum = .ok (next, returnData)) :
    Evolves ext ethereum next := by
  simp only [functionCall, bind_eq_ok] at called
  obtain ⟨_, _, ran⟩ := called
  exact tame _ _ _ _ _ ran

theorem callOptionalReturn_evolves
    (called : callOptionalReturn code index outcall ethereum = .ok next) :
    Evolves ext ethereum next := by
  simp only [callOptionalReturn, bind_eq_ok, pure_eq_ok] at called
  obtain ⟨⟨called, returnData⟩, ran, _, _, rfl⟩ := called
  exact functionCall_evolves tame ran

theorem safeTransfers_evolves {outcalls : List Outcall}
    (called : safeTransfers code index outcalls ethereum = .ok next) : Evolves ext ethereum next := by
  induction outcalls generalizing index ethereum with
  | nil =>
    obtain rfl := pure_eq_ok.mp called
    exact .refl ethereum
  | cons outcall rest ih =>
    simp only [safeTransfers, bind_eq_ok] at called
    obtain ⟨transferred, first, others⟩ := called
    exact (callOptionalReturn_evolves tame first).trans (ih others)

end

/-! ## Calls of the bridge contract -/

/-- The guard is not part of what evolves. -/
theorem Evolves.entered (ethereum : Ethereum) (entered : Bool) :
    Evolves ext ethereum { ethereum with entered := entered } :=
  .of_same rfl rfl rfl rfl rfl rfl rfl rfl rfl

/-- The new set is stored, the reward is paid, and only then comes the event. A set that is stored
meanwhile has its event first, and the greater nonce. -/
theorem Evolved.logValset {sigs : List Signature} {rewarded : Ethereum}
    {authority later : Authority} {changes : List Change} {events : List Logged}
    (paid : Evolved ext (ethereum.storeValset ext newValset authority.valset sigs) rewarded
      (authority.apply (.valset newValset)) changes events later)
    (signed : EnoughSigned ext (authority.valset.signedBy sigs)
      (makeCheckpoint ext newValset ethereum.gravityId)
      powerThreshold) (admitted : authority.Admits (.valset newValset)) :
    Evolved ext ethereum
      ((ethereum.storeValset ext newValset authority.valset sigs).logValset rewarded newValset)
      authority (⟨authority.valset, sigs, .valset newValset⟩ :: changes)
      (events ++ [⟨rewarded.lastEventNonce + 1, rewarded.blockNumber, .valsetUpdated newValset⟩])
        later := by
  have recorded : rewarded.changes = ethereum.changes ++ ⟨authority.valset, sigs,
      .valset newValset⟩ :: changes := by
    simpa [Ethereum.storeValset] using paid.recorded
  have lastNonce : rewarded.lastEventNonce = ethereum.lastEventNonce + events.length := paid.lastNonce
  have stored : valsetsOf (⟨authority.valset, sigs, .valset newValset⟩ :: changes) =
      newValset :: valsetsOf changes := rfl
  have overtakes : valsetsOf rewarded.changes =
      valsetsOf (ethereum.storeValset ext newValset authority.valset sigs).changes ↔
        valsetsOf changes = [] := by
    rw [paid.recorded, valsetsOf_append, append_right_eq_self]
  refine ⟨paid.gravityId, recorded, .cons rfl signed admitted paid.authorised,
    ⟨paid.obeys.checkpoint, paid.obeys.wellFormed, paid.obeys.nonce, paid.obeys.batchNonces,
      paid.obeys.invalidations⟩,
    ?_, ?_, ?_, ?_, ?_, ?_⟩
  · change rewarded.log ++ _ = _
    rw [paid.log, append_assoc]
    rfl
  · have last : rewarded.lastEventNonce + 1 = ethereum.lastEventNonce + 1 + events.length := by omega
    rw [map_append, paid.nonces, length_append, length_singleton, range'_1_concat, ← last]
    rfl
  · change rewarded.lastEventNonce + 1 = _
    rw [lastNonce, length_append, length_singleton]
    omega
  · rw [stored, valsetsIn_append]
    refine cons_subset.mpr ⟨mem_append_right _ (mem_singleton.mpr rfl), ?_⟩
    exact subset_append_of_subset_left _ paid.logged
  · intro inOrder
    obtain ⟨before, same⟩ := Bool.or_eq_false_iff.mp inOrder
    have none := overtakes.mp (by simpa using same)
    obtain ⟨order, events⟩ := paid.inOrder before
    exact ⟨order, by rw [valsetsIn_append, stored, events, none]; rfl⟩
  · intro outOfOrder
    rcases (Bool.or_eq_true _ _).mp outOfOrder with before | another
    · refine (paid.outOfOrder before).imp_right (fun notIncreasing increasing => notIncreasing ?_)
      exact (valsetsIn_append _ _ ▸ increasing).append.1
    · refine .inr (fun increasing => ?_)
      -- a set stored meanwhile has a greater nonce and an earlier event
      have some : valsetsOf changes ≠ [] := fun none =>
        (of_decide_eq_true another) (overtakes.mpr none)
      obtain ⟨meanwhile, inside⟩ := exists_mem_of_ne_nil _ some
      have greater : newValset.valsetNonce < meanwhile.valsetNonce :=
        (pairwise_cons.mp paid.authorised.valsets.1).1 _ (mem_map_of_mem inside)
      rw [Increasing, valsetsIn_append, map_append, pairwise_append] at increasing
      have less := increasing.2.2 _ (mem_map_of_mem (paid.logged inside)) newValset.valsetNonce
        (mem_singleton.mpr rfl)
      exact absurd less greater.asymm

section

variable {code : Code} (tame : Tame ext code) {msgSender : EthAddress} {currentValset : ValsetArgs}
  {sigs : List Signature}

include tame

theorem sendToCosmos_evolves {tokenContract : EthAddress} {destination : Bytes} {amount : U256}
    (sent : ethereum.sendToCosmos code msgSender tokenContract destination amount = .ok next) :
    Evolves ext ethereum next := by
  simp only [Ethereum.sendToCosmos, Ethereum.nonReentrant, bind_eq_ok, pure_eq_ok] at sent
  obtain ⟨_, _, _, ⟨_, _, received, called, _, _, rfl⟩, rfl⟩ := sent
  exact (Evolves.entered ethereum true).trans
    ((callOptionalReturn_evolves tame called).trans ((Evolves.emit rfl).trans (.entered _ false)))

variable (free : Function.Injective ext.keccak256)

include free

theorem submitBatch_evolves {batch : BatchArgs}
    (submitted : ethereum.submitBatch ext code msgSender currentValset sigs batch = .ok next) :
    Evolves ext ethereum next := by
  simp only [Ethereum.submitBatch, Ethereum.nonReentrant, bind_eq_ok, require_eq_ok,
    pure_eq_ok] at submitted
  obtain ⟨_, _, _, ⟨_, newer, _, _, _, _, _, _, _, validated, _, checked, _, _, _, signed, paid,
    pays, _, _, relayed, relays, rfl⟩, rfl⟩ := submitted
  refine (Evolves.entered ethereum true).trans
    (Evolves.trans ?stored ((safeTransfers_evolves tame pays).trans
      ((safeTransfers_evolves tame relays).trans ((Evolves.emit rfl).trans (.entered _ false)))))
  refine .store ⟨currentValset, sigs, .batch batch⟩ rfl rfl rfl rfl rfl rfl
    (fun authority obeys => ?_)
  obtain rfl := obeys.current free validated checked
  refine ⟨rfl, enoughSigned_of_check signed, ?_, obeys.checkpoint, obeys.wellFormed, obeys.nonce, ?_,
    obeys.invalidations⟩
  · change authority.batchNonces batch.tokenContract < batch.batchNonce.val
    rw [← obeys.batchNonces]
    exact newer
  · exact obeys.batchNonces ▸ rfl

theorem submitLogicCall_evolves {args : LogicCallArgs}
    (submitted : ethereum.submitLogicCall ext code msgSender currentValset sigs args = .ok next) :
    Evolves ext ethereum next := by
  simp only [Ethereum.submitLogicCall, Ethereum.nonReentrant, bind_eq_ok, require_eq_ok,
    pure_eq_ok] at submitted
  obtain ⟨_, _, _, ⟨_, _, _, newer, _, validated, _, checked, _, _, _, _, _, signed, funded, funds,
    ⟨called, returnData⟩, calls, relayed, relays, rfl⟩, rfl⟩ := submitted
  refine (Evolves.entered ethereum true).trans
    (Evolves.trans ?stored ((safeTransfers_evolves tame funds).trans
      ((functionCall_evolves tame calls).trans ((safeTransfers_evolves tame relays).trans
        ((Evolves.emit rfl).trans (.entered _ false))))))
  refine .store ⟨currentValset, sigs, .logicCall args⟩ rfl rfl rfl rfl rfl rfl
    (fun authority obeys => ?_)
  obtain rfl := obeys.current free validated checked
  refine ⟨rfl, enoughSigned_of_check signed, ?_, obeys.checkpoint, obeys.wellFormed, obeys.nonce,
    obeys.batchNonces, ?_⟩
  · change authority.invalidations args.invalidationId < args.invalidationNonce.val
    rw [← obeys.invalidations]
    exact newer
  · exact obeys.invalidations ▸ rfl

theorem updateValset_evolves
    (updated : ethereum.updateValset ext code msgSender newValset currentValset sigs = .ok next) :
    Evolves ext ethereum next := by
  intro authority obeys
  simp only [Ethereum.updateValset, bind_eq_ok, require_eq_ok] at updated
  obtain ⟨_, newer, _, _, _, _, _, shaped, _, validated, _, powerful, _, checked, _, signed,
    updated⟩ := updated
  obtain rfl := obeys.current free validated checked
  have wellFormed : newValset.WellFormed := ⟨shaped.1, shaped.2, power_of_requirePower powerful⟩
  obtain ⟨rewarded, pays, rfl⟩ :
      ∃ rewarded, Evolves ext (ethereum.storeValset ext newValset authority.valset sigs)
      rewarded ∧ (ethereum.storeValset ext newValset authority.valset sigs).logValset rewarded
        newValset = next := by
    split_ifs at updated with rewards
    · simp only [bind_eq_ok, pure_eq_ok] at updated
      obtain ⟨rewarded, pays, rfl⟩ := updated
      exact ⟨rewarded, safeTransfers_evolves tame pays, rfl⟩
    · simp only [bind_eq_ok, pure_eq_ok, exists_eq_left'] at updated
      exact ⟨_, .refl _, updated⟩
  obtain ⟨_, _, _, evolved⟩ := pays (authority.apply (.valset newValset))
    ⟨rfl, wellFormed, rfl, obeys.batchNonces, obeys.invalidations⟩
  exact ⟨_, _, _, evolved.logValset (enoughSigned_of_check signed) ⟨newer, wellFormed⟩⟩

theorem Call.evolves {call : Call} (ran : call.run ext code ethereum = .ok next) :
    Evolves ext ethereum next := by
  cases call with
  | updateValset => exact updateValset_evolves tame free ran
  | submitBatch => exact submitBatch_evolves tame free ran
  | submitLogicCall => exact submitLogicCall_evolves tame free ran
  | sendToCosmos => exact sendToCosmos_evolves tame ran
  | deployERC20 =>
    simp only [Call.run, Ethereum.deployERC20, bind_eq_ok, pure_eq_ok] at ran
    obtain ⟨_, _, rfl⟩ := ran
    refine Evolves.trans ?created (.emit rfl)
    exact .of_same rfl rfl rfl rfl rfl rfl rfl rfl rfl

end

/-! ## Whole runs -/

theorem answering_tame {play : α → Ethereum → Ethereum}
    (plays : ∀ script ethereum, Evolves ext ethereum (play script ethereum))
    (answers : List (Option (α × Bytes))) : Tame ext (answering play answers) := by
  intro index outcall ethereum next returnData answered
  unfold answering at answered
  split at answered
  · rename_i script _ _
    obtain ⟨rfl, _⟩ := Prod.mk.inj (pure_eq_ok.mp answered)
    exact plays script ethereum
  · simp at answered

section

variable (free : Function.Injective ext.keccak256)

include free

theorem Move.play_evolves {play : α → Ethereum → Ethereum}
    (plays : ∀ script ethereum, Evolves ext ethereum (play script ethereum))
    (move : Move (Option (α × Bytes)))
    (ethereum : Ethereum) : Evolves ext ethereum (move.play ext play ethereum) := by
  cases move with
  | touch contracts holdings => exact .of_same rfl rfl rfl rfl rfl rfl rfl rfl rfl
  | call called answers =>
    rcases transaction_cases ethereum (called.run ext (answering play answers) ethereum) with
      ran | reverted
    · exact Call.evolves (answering_tame plays answers) free ran
    · change Evolves ext ethereum (transaction ethereum _)
      rw [reverted]
      exact .refl ethereum

/-- By induction on the depth: the scripts of the contracts called meanwhile are less deep. -/
theorem Script.play_evolves (depth : Nat) (script : Script depth) (ethereum : Ethereum) :
    Evolves ext ethereum (script.play ext depth ethereum) := by
  induction depth generalizing ethereum with
  | zero => exact .refl ethereum
  | succ depth ih =>
    have moves : ∀ (moves : List (Move (Option (Script depth × Bytes)))) (ethereum : Ethereum),
        Evolves ext ethereum (moves.foldl (Move.play ext (Script.play ext depth)) ethereum) := by
      intro moves
      induction moves with
      | nil => exact .refl
      | cons move rest following =>
        exact fun ethereum => (Move.play_evolves free ih move ethereum).trans (following _)
    exact moves script ethereum

theorem Ethereum.runAll_evolves (happenings : List Happening) (ethereum : Ethereum) :
    Evolves ext ethereum (ethereum.runAll ext happenings) := by
  induction happenings generalizing ethereum with
  | nil => exact .refl ethereum
  | cons happening rest ih =>
    refine Evolves.trans ?_ (ih _)
    cases happening with
    | transact depth script => exact Script.play_evolves free depth script ethereum
    | block number => exact .of_same rfl rfl rfl rfl rfl rfl rfl rfl rfl

end

/-- What was decided when the contract is deployed. -/
def Authority.first (validators : List EthAddress) (powers : List U256) : Authority :=
  ⟨firstValset validators powers, fun _ => 0, fun _ => 0⟩

section

variable {gravityId : Bytes32} {validators : List EthAddress} {powers : List U256} {blockNumber : Nat}
  {contracts : List EthAddress} {holdings : Holdings} {start : Ethereum}
  (deployed : construct ext gravityId validators powers blockNumber contracts holdings = .ok start)

include deployed

theorem construct_obeys : start.Obeys ext (Authority.first validators powers) := by
  simp only [construct, bind_eq_ok, require_eq_ok, pure_eq_ok] at deployed
  obtain ⟨_, shaped, _, powerful, rfl⟩ := deployed
  exact ⟨rfl, ⟨shaped.1, shaped.2, power_of_requirePower powerful⟩, rfl, rfl, rfl⟩

theorem construct_eq_ok : start.gravityId = gravityId ∧ start.changes = [] ∧ start.overtaken = false ∧
    start.lastEventNonce = 1 ∧
      start.log = [⟨1, blockNumber, .valsetUpdated (firstValset validators powers)⟩] := by
  simp only [construct, bind_eq_ok, pure_eq_ok] at deployed
  obtain ⟨_, _, _, _, rfl⟩ := deployed
  exact ⟨rfl, rfl, rfl, rfl, rfl⟩

/-- Every run since the deployment, with any calls of the bridge contract from inside other calls,
made authorised changes only. -/
theorem construct_evolved (free : Function.Injective ext.keccak256) (happenings : List Happening) :
    ∃ events authority, Evolved ext start (start.runAll ext happenings)
      (Authority.first validators powers)
      (start.runAll ext happenings).changes events authority := by
  obtain ⟨changes, events, authority, evolved⟩ := Ethereum.runAll_evolves free happenings start _
    (construct_obeys deployed)
  have recorded := evolved.recorded
  rw [(construct_eq_ok deployed).2.1, nil_append] at recorded
  exact ⟨events, authority, recorded ▸ evolved⟩

/-- After any run since the deployment the saved checkpoint is that of one validator set, with a
power for each validator and enough power, and with the saved nonce. The sets, batches and logic
calls put in force so far were each signed by members of the set then in force, with more power
than the threshold, and the saved nonces are theirs. The same holds of what is put in force later,
and no saved nonce decreases. -/
theorem storage_authorised (free : Function.Injective ext.keccak256) (happenings : List Happening) :
    ∃ authority, (start.runAll ext happenings).Obeys ext authority ∧
      Authorised ext gravityId (Authority.first validators powers)
        (start.runAll ext happenings).changes authority ∧
      (∃! valset : ValsetArgs,
        (start.runAll ext happenings).lastValsetCheckpoint = makeCheckpoint ext valset gravityId ∧
        valset.validators.length = valset.powers.length ∧ valset.validators ≠ [] ∧
        powerThreshold < (valset.powers.map Fin.val).sum ∧
        valset.valsetNonce.val = (start.runAll ext happenings).lastValsetNonce) ∧
      ∀ more, ∃ changes later, (start.runAll ext (happenings ++ more)).Obeys ext later ∧
        (start.runAll ext (happenings ++ more)).changes =
        (start.runAll ext happenings).changes ++ changes ∧
        Authorised ext gravityId authority changes later ∧
        (start.runAll ext happenings).lastValsetNonce ≤
        (start.runAll ext (happenings ++ more)).lastValsetNonce ∧
        (∀ token, (start.runAll ext happenings).lastBatchNonces token ≤
          (start.runAll ext (happenings ++ more)).lastBatchNonces token) ∧
        (∀ id, (start.runAll ext happenings).invalidationMapping id ≤
          (start.runAll ext (happenings ++ more)).invalidationMapping id) := by
  obtain ⟨_, authority, evolved⟩ := construct_evolved deployed free happenings
  have sameId := (construct_eq_ok deployed).1
  have runId := evolved.gravityId.trans sameId
  refine ⟨authority, evolved.obeys, sameId ▸ evolved.authorised, ?_, ?_⟩
  · rw [← runId]
    exact evolved.obeys.existsUnique free
  · intro more
    obtain ⟨changes, _, later, further⟩ := Ethereum.runAll_evolves free more _ authority evolved.obeys
    rw [← Ethereum.runAll_append] at further
    have upTo := further.authorised.upTo
    refine ⟨changes, later, further.obeys, further.recorded, runId ▸ further.authorised, ?_, ?_, ?_⟩
    · rw [evolved.obeys.nonce, further.obeys.nonce]
      exact upTo.valset
    · rw [evolved.obeys.batchNonces, further.obeys.batchNonces]
      exact upTo.batches
    · rw [evolved.obeys.invalidations, further.obeys.invalidations]
      exact upTo.invalidations

/-- After any run since the deployment the events carry the nonces one, two, three and so on. The
validator sets of the events have growing nonces and the last one is in force exactly as long as no
set was stored while the reward for another one was paid. -/
theorem valset_events_in_order_iff (free : Function.Injective ext.keccak256)
    (happenings : List Happening) : (start.runAll ext happenings).log.map Logged.eventNonce =
        List.range' 1 (start.runAll ext happenings).log.length ∧
      ((Increasing (valsetsIn (start.runAll ext happenings).log) ∧
          ∃ valset, (valsetsIn (start.runAll ext happenings).log).getLast? = some valset ∧
            makeCheckpoint ext valset gravityId =
              (start.runAll ext happenings).lastValsetCheckpoint) ↔
        (start.runAll ext happenings).overtaken = false) := by
  obtain ⟨events, authority, evolved⟩ := construct_evolved deployed free happenings
  obtain ⟨sameId, _, fresh, firstNonce, firstLog⟩ := construct_eq_ok deployed
  have log : (start.runAll ext happenings).log =
      ⟨1, blockNumber, .valsetUpdated (firstValset validators powers)⟩ :: events := by
    rw [evolved.log, firstLog]
    rfl
  have inLog : valsetsIn (start.runAll ext happenings).log =
      firstValset validators powers :: valsetsIn events := by
    rw [log]
    rfl
  refine ⟨?_, ?_, ?_⟩
  · rw [log, List.map_cons, evolved.nonces, firstNonce, List.length_cons, List.range'_succ]
  · rintro ⟨increasing, _⟩
    rw [inLog, Increasing, List.map_cons, List.pairwise_cons] at increasing
    cases overtaken : (start.runAll ext happenings).overtaken with
    | false => rfl
    | true =>
        rcases evolved.outOfOrder overtaken with before | notIncreasing
        · exact absurd before (by simp [fresh])
        · exact absurd increasing.2 notIncreasing
  · intro inOrder
    obtain ⟨increasing, last⟩ := evolved.authorised.valsets
    rw [inLog, (evolved.inOrder inOrder).2]
    refine ⟨increasing, authority.valset, last, ?_⟩
    rw [evolved.obeys.checkpoint, evolved.gravityId, sameId]

end

/-! ## A reward that is paid in a token of the relayer -/

def soleGravityId : Bytes32 := ⟨ascii "foo" ++ List.replicate 29 0, by decide⟩

/-- On the local chain this is a signature of the validator with the address seven. -/
def soleSignature : Signature := ⟨27, 7, 1⟩

/-- The sole validator holds all the power; the next set rewards the relayer, the one after it does
not. -/
def soleValset (nonce rewardAmount : U256) (rewardToken : EthAddress) : ValsetArgs :=
  ⟨[7], [4294967295], nonce, rewardAmount, rewardToken⟩

def soleStart : Ethereum where
  blockNumber := 10
  contracts := [9]
  holdings := fun _ => 100
  entered := false
  gravityId := soleGravityId
  lastValsetCheckpoint := makeCheckpoint localnet (soleValset 0 0 0) soleGravityId
  lastBatchNonces := fun _ => 0
  invalidationMapping := fun _ => 0
  lastValsetNonce := 0
  lastEventNonce := 1
  log := [⟨1, 10, .valsetUpdated (soleValset 0 0 0)⟩]
  changes := []
  overtaken := false

theorem soleStart_deployed :
    construct localnet soleGravityId [7] [4294967295] 10 [9] (fun _ => 100) = .ok soleStart := by
  rfl

/-- The reward token takes the call for the reward and does nothing else. -/
def calmUpdate : Happening :=
  .transact 1 [.call (.updateValset 3 (soleValset 1 5 9) (soleValset 0 0 0) [soleSignature])
    [some ((), word 1)]]

/-- The reward token uses the call for the reward to submit the set after the one it is paid for. -/
def overtakingUpdate : Happening :=
  .transact 2 [.call (.updateValset 3 (soleValset 1 5 9) (soleValset 0 0 0) [soleSignature])
    [some ([.call (.updateValset 9 (soleValset 2 0 0) (soleValset 1 5 9) [soleSignature]) []],
      word 1)]]

/-- Both sets are authorised, also the one that was submitted during the call for the reward. -/
theorem overtaking_update_authorised :
    valsetsOf (soleStart.runAll localnet [overtakingUpdate]).changes =
      [soleValset 1 5 9, soleValset 2 0 0] ∧
      ∃ authority, (soleStart.runAll localnet [overtakingUpdate]).Obeys localnet authority ∧
        Authorised localnet soleGravityId (Authority.first [7] [4294967295])
          (soleStart.runAll localnet [overtakingUpdate]).changes authority := by
  have free : Function.Injective localnet.keccak256 := fun _ _ same => same
  obtain ⟨authority, obeys, authorised, _⟩ :=
    storage_authorised soleStart_deployed free [overtakingUpdate]
  exact ⟨by decide +kernel, authority, obeys, authorised⟩

/-- The event of the second set comes before the event of the first one, and the last event
describes a set that is not in force. -/
theorem overtaking_update_out_of_order :
    construct localnet soleGravityId [7] [4294967295] 10 [9] (fun _ => 100) = .ok soleStart ∧
      (soleStart.runAll localnet [overtakingUpdate]).log.map
      (fun logged => (logged.eventNonce, logged.event)) =
        [(1, .valsetUpdated (soleValset 0 0 0)), (2, .valsetUpdated (soleValset 2 0 0)),
          (3, .valsetUpdated (soleValset 1 5 9))] ∧
      ¬ Increasing (valsetsIn (soleStart.runAll localnet [overtakingUpdate]).log) ∧
      (soleStart.runAll localnet [overtakingUpdate]).lastValsetNonce = 2 ∧
      makeCheckpoint localnet (soleValset 1 5 9) soleGravityId ≠
        (soleStart.runAll localnet [overtakingUpdate]).lastValsetCheckpoint := by
  refine ⟨soleStart_deployed, by decide +kernel, ?_, by decide +kernel, by decide +kernel⟩
  rw [Increasing]
  decide +kernel

theorem calm_update_in_order :
    (soleStart.runAll localnet [calmUpdate]).lastValsetNonce = 1 ∧
      Increasing (valsetsIn (soleStart.runAll localnet [calmUpdate]).log) ∧
      ∃ valset, (valsetsIn (soleStart.runAll localnet [calmUpdate]).log).getLast? = some valset ∧
        makeCheckpoint localnet valset soleGravityId =
          (soleStart.runAll localnet [calmUpdate]).lastValsetCheckpoint := by
  have free : Function.Injective localnet.keccak256 := fun _ _ same => same
  exact ⟨by decide +kernel,
    (valset_events_in_order_iff soleStart_deployed free [calmUpdate]).2.mpr (by decide +kernel)⟩

end GravityBridge.Contract
