import GravityBridge.Keeper.Machine
import GravityBridge.Keeper.Panics
import GravityBridge.Keeper.Tally

/-!
# Events are applied once and in order

Over whole runs, with any votes, any staking powers, pauses and rollbacks: the
handler sees one event nonce after the other, votes are unique, and an observed
event had more than two thirds of the power behind it.
-/

namespace GravityBridge.Keeper

open Lib.Fallible Lib.ByteString Lib.Store Lib.Runs
open GravityBridge.Types Oracle List

variable {ext : External} {powers : PowerTable} {state next : State}
  {handled trace : List EthereumClaim} {result : List EthereumClaim × Go State}

/-! ## What a tally hands to the handler -/

theorem Stopped.nonces {fault : Fault Err} (stopped : Stopped ext powers state handled fault) :
    handled.map (fun claim => claim.getEventNonce.val) =
      List.range' (state.oracle.lastObservedEventNonce + 1) handled.length := by
  have following : ∀ {middle : State} {before : List EthereumClaim} {key : AttestationKey}
      {att : Attestation}, Tallied ext powers state before middle → Elected powers middle key att →
      (before ++ [att.claim]).map (fun claim => claim.getEventNonce.val) =
        List.range' (state.oracle.lastObservedEventNonce + 1) (before ++ [att.claim]).length := by
    intro middle before key att tallied elected
    obtain ⟨earlier, last⟩ := tallied.nonces
    rw [map_append, earlier, map_singleton, elected.following, last, length_append,
      length_singleton, range'_concat, Nat.one_mul]
    congr 2
    omega
  cases stopped with
  | rollback tallied elected backward => exact tallied.nonces.1
  | panicked tallied elected forward panics => exact following tallied elected
  | unannounced tallied elected unnamed => exact following tallied elected

theorem Outcomes.nonces (outcomes : Outcomes ext powers state result) :
    result.1.map (fun claim => claim.getEventNonce.val) =
      List.range' (state.oracle.lastObservedEventNonce + 1) result.1.length := by
  rcases result with ⟨handled, fault | final⟩
  · exact Stopped.nonces outcomes
  · exact (Tallied.nonces outcomes).1

variable {claim : EthereumClaim} {key : AttestationKey} {att : Attestation}

theorem Applies.stored (applies : Applies ext powers state claim next)
    (stored : next.oracle.attestations.get key = some att) :
    state.oracle.attestations.get key = some att ∨ att.claim = claim := by
  cases applies with
  | @intro observedKey observed ledger elected _ _ =>
    change (state.oracle.attestations.set observedKey { observed with observed := true }).get key =
      some att at stored
    rw [KVStore.get_set] at stored
    split_ifs at stored with same
    · obtain rfl := Option.some.inj stored
      exact .inr rfl
    · exact .inl stored

/-- Whatever is marked as observed was handed to the handler. -/
theorem Tallied.observed (tallied : Tallied ext powers state handled next)
    (stored : next.oracle.attestations.get key = some att) :
    state.oracle.attestations.get key = some att ∨ att.claim ∈ handled := by
  induction tallied with
  | done => exact .inl stored
  | next applies _ ih =>
    rcases ih stored with before | later
    · rcases applies.stored before with earlier | rfl
      · exact .inl earlier
      · exact .inr mem_cons_self
    · exact .inr (mem_cons_of_mem _ later)

/-- A tally does not touch the attestations that it has not come to yet. -/
theorem Applies.pending (applies : Applies ext powers state claim next)
    (stored : next.oracle.attestations.get key = some att)
    (above : next.oracle.lastObservedEventNonce < att.claim.getEventNonce.val) :
    state.oracle.attestations.get key = some att ∧
      state.oracle.lastObservedEventNonce < att.claim.getEventNonce.val := by
  obtain ⟨mine, raised⟩ := applies.nonce
  rcases applies.stored stored with before | rfl
  · exact ⟨before, by omega⟩
  · omega

theorem Tallied.pending (tallied : Tallied ext powers state handled next)
    (stored : next.oracle.attestations.get key = some att)
    (above : next.oracle.lastObservedEventNonce < att.claim.getEventNonce.val) :
    state.oracle.attestations.get key = some att ∧
      state.oracle.lastObservedEventNonce < att.claim.getEventNonce.val := by
  induction tallied with
  | done => exact ⟨stored, above⟩
  | next applies _ ih =>
    obtain ⟨before, aboveBefore⟩ := ih stored above
    exact applies.pending before aboveBefore

/-- Every event that a tally applies had a quorum when the tally began. -/
theorem Tallied.elected (tallied : Tallied ext powers state handled next)
    (member : claim ∈ handled) : ∃ key att, state.oracle.attestations.get key = some att ∧
      state.oracle.lastObservedEventNonce < att.claim.getEventNonce.val ∧ att.claim = claim ∧
      powers.passes 0 att.votes = true := by
  induction tallied with
  | done => simp at member
  | next applies _ ih =>
    rcases mem_cons.mp member with rfl | later
    · cases applies with
      | intro elected _ _ _ =>
        exact ⟨_, _, elected.stored, by rw [elected.following]; omega, rfl, elected.passes⟩
    · obtain ⟨key, att, stored, above, same, passes⟩ := ih later
      obtain ⟨before, aboveBefore⟩ := applies.pending stored above
      exact ⟨key, att, before, aboveBefore, same, passes⟩

theorem Outcomes.elected (outcomes : Outcomes ext powers state result) (member : claim ∈ result.1) :
    ∃ key att, state.oracle.attestations.get key = some att ∧
      state.oracle.lastObservedEventNonce < att.claim.getEventNonce.val ∧ att.claim = claim ∧
      powers.passes 0 att.votes = true := by
  have lastElected : ∀ {middle : State} {before : List EthereumClaim} {key : AttestationKey}
      {att : Attestation}, Tallied ext powers state before middle → Elected powers middle key att →
      claim ∈ before ++ [att.claim] → ∃ key att, state.oracle.attestations.get key = some att ∧
        state.oracle.lastObservedEventNonce < att.claim.getEventNonce.val ∧ att.claim = claim ∧
        powers.passes 0 att.votes = true := by
    intro middle before key att tallied elected member
    rcases mem_append.mp member with earlier | last
    · exact tallied.elected earlier
    · obtain ⟨before, above⟩ := tallied.pending elected.stored (by rw [elected.following]; omega)
      exact ⟨_, _, before, above, (mem_singleton.mp last).symm, elected.passes⟩
  rcases result with ⟨handled, fault | final⟩
  · cases outcomes with
    | rollback tallied elected backward => exact tallied.elected member
    | panicked tallied elected forward panics => exact lastElected tallied elected member
    | unannounced tallied elected unnamed => exact lastElected tallied elected member
  · exact Tallied.elected outcomes member

/-! ## Runs -/

/-- The claims handled so far have consecutive nonces, and everything observed is among them. -/
structure Ordered (ext : External) (initial : Nat) (handled : List EthereumClaim)
    (state : State) : Prop where
  sound : Sound ext state.oracle
  nonces : handled.map (fun claim => claim.getEventNonce.val) =
    List.range' (initial + 1) handled.length
  last : state.oracle.lastObservedEventNonce = initial + handled.length
  observed : ∀ {key att}, state.oracle.attestations.get key = some att → att.observed = true →
    att.claim ∈ handled

variable {initial : Nat} {other : AttestationKey} {rival : Attestation}

theorem Ordered.append (ordered : Ordered ext initial trace state) {more : List EthereumClaim}
    (nonces : more.map (fun claim => claim.getEventNonce.val) =
      List.range' (state.oracle.lastObservedEventNonce + 1) more.length) :
    (trace ++ more).map (fun claim => claim.getEventNonce.val) = List.range' (initial + 1)
    (trace ++ more).length := by
  rw [map_append, ordered.nonces, nonces, ordered.last, Nat.add_right_comm, length_append,
    range'_append_1]

/-- A step that applies no event and adds no observed attestation. -/
theorem Ordered.quiet (ordered : Ordered ext initial trace state) (sound : Sound ext next.oracle)
    (sameLast : next.oracle.lastObservedEventNonce = state.oracle.lastObservedEventNonce)
    (observed : ∀ {key att}, next.oracle.attestations.get key = some att → att.observed = true →
      ∃ before, state.oracle.attestations.get key = some before ∧ before.observed = true ∧
        before.claim = att.claim) :
    Ordered ext initial trace next where
  sound := sound
  nonces := ordered.nonces
  last := sameLast.trans ordered.last
  observed stored marked := by
    obtain ⟨before, storedBefore, markedBefore, same⟩ := observed stored marked
    exact same ▸ ordered.observed storedBefore markedBefore

/-- A vote marks nothing as observed. -/
theorem Voted.observed {oracle result : Oracle} {validator : ValAddress}
    (voted : Voted ext oracle claim validator key att result)
    (stored : result.attestations.get other = some rival) (marked : rival.observed = true) :
    ∃ before, oracle.attestations.get other = some before ∧ before.observed = true ∧
      before.claim = rival.claim := by
  rw [voted.result, KVStore.get_set] at stored
  split_ifs at stored with same
  · obtain rfl := Option.some.inj stored
    rcases voted.earlier with ⟨_, unobserved⟩ | found
    · rw [unobserved] at marked
      contradiction
    · exact ⟨att, same ▸ found, marked, rfl⟩
  · exact ⟨rival, stored, marked, rfl⟩

theorem Ordered.step (ordered : Ordered ext initial trace state)
    (took : OracleStep ext state handled next) : Ordered ext initial (trace ++ handled) next := by
  cases took with
  | unchanged same =>
    rw [append_nil]
    refine ordered.quiet (same ▸ ordered.sound) (by rw [same]) ?_
    intro key att stored marked
    exact ⟨att, same ▸ stored, marked, rfl⟩
  | voted attested =>
    rw [append_nil]
    obtain ⟨validator, key, att, voted⟩ := attest_voted attested
    exact ordered.quiet (ordered.sound.voted_step voted) (by rw [voted.result]) voted.observed
  | rolledBack rolled =>
    rw [append_nil]
    obtain ⟨sound, sameLast, _, fewer⟩ := ordered.sound.rolledBack rolled
    refine ordered.quiet sound sameLast ?_
    intro key att stored marked
    exact ⟨att, fewer key att stored, marked, rfl⟩
  | ended tally pruned =>
    have tallied := tallied_of_attestationTally ordered.sound tally
    obtain ⟨sound, frame, fewer⟩ := (tallied.sound ordered.sound).pruned pruned
    obtain ⟨nonces, last⟩ := tallied.nonces
    refine ⟨sound, ordered.append nonces, ?_, ?_⟩
    · rw [frame, length_append, ← Nat.add_assoc, ← ordered.last]
      exact last
    · intro key att stored marked
      rcases tallied.observed (fewer key att stored) with before | new
      · exact mem_append_left _ (ordered.observed before marked)
      · exact mem_append_right _ new

/-- Runs begin before the first vote, with any last observed nonce. -/
def BeforeVotes (initial : Nat) (state : State) : Prop :=
  state.oracle.NoVotes ∧ state.oracle.lastObservedEventNonce = initial

theorem ordered_of_reachable (reach : Reachable ext (BeforeVotes initial) trace state) :
    Ordered ext initial trace state := by
  refine reach.invariant ?_ ?_
  · rintro start ⟨fresh, rfl⟩
    exact ⟨fresh.sound, rfl, rfl, by simp [fresh.attestations]⟩
  · intro trace state label handled next _ ordered took _
    exact ordered.step (step_oracle took)

/-- Only the end of a block hands claims to the handler, and it hands over what the tally does. -/
theorem step_emits (label : Label) (state : State) :
    (step ext label state).1 = [] ∨ ∃ powers env, label = .endBlock powers env ∧
      (step ext label state).1 = (state.attestationTally ext powers).1 := by
  cases label with
  | endBlock powers env => exact .inr ⟨powers, env, rfl, rfl⟩
  | attest validator claim => exact .inl rfl
  | submitClaim voter claim => exact .inl rfl
  | ledger msg => exact .inl rfl
  | unhaltBridge targetNonce => exact .inl rfl
  | updateParams params => exact .inl rfl
  | setHrpIbcRecord hrp channel => exact .inl rfl

theorem Ordered.emitted (ordered : Ordered ext initial trace state) (label : Label) :
    (trace ++ (Keeper.step ext label state).1).map (fun claim => claim.getEventNonce.val) =
      List.range' (initial + 1) (trace ++ (Keeper.step ext label state).1).length := by
  rcases step_emits label state with none | ⟨powers, env, rfl, tally⟩
  · rw [none, append_nil]
    exact ordered.nonces
  · rw [tally]
    exact ordered.append (attestationTally_outcomes ordered.sound).nonces

/-- At most one attestation of a nonce is marked as observed. -/
theorem Ordered.observed_unique (ordered : Ordered ext initial trace state)
    (stored : state.oracle.attestations.get key = some att)
    (rivalStored : state.oracle.attestations.get other = some rival) (marked : att.observed = true)
    (rivalMarked : rival.observed = true)
    (same : att.claim.getEventNonce = rival.claim.getEventNonce) : key = other := by
  have distinct : (trace.map (fun claim => claim.getEventNonce.val)).Nodup := by
    rw [ordered.nonces]
    exact nodup_range'
  have sameClaim := inj_on_of_nodup_map distinct (ordered.observed stored marked)
    (ordered.observed rivalStored rivalMarked) (congrArg Fin.val same)
  have keyed := ordered.sound.keyed rivalStored
  unfold Keyed at keyed
  rw [← sameClaim] at keyed
  exact Keyed.unique (ordered.sound.keyed stored) keyed

/-! ## The guards of the order are never reached -/

theorem orderPanics_subset : orderPanics ⊆ guardPanics := subset_append_left _ _

theorem handle_avoids_orderPanics {context : Context} {ledger : Ledger} :
    Avoids orderPanics (ledger.handle ext context claim) := by
  refine avoids_handle (fun msg _ => ?_) orderPanics_subset
  exact avoids_handleBatchSendToEth orderPanics_subset (fun _ _ => .inr (by decide))
    (fun _ _ _ _ => .inr (by decide))

theorem attestationTally_avoids_orderPanics (sound : Sound ext state.oracle) :
    Avoids orderPanics (state.attestationTally ext powers).2 := by
  have outcomes : Outcomes ext powers state _ := attestationTally_outcomes sound
  intro message panics
  unfold Outcomes at outcomes
  rw [panics] at outcomes
  generalize (state.attestationTally ext powers).1 = handled at outcomes
  cases outcomes with
  | rollback tallied elected backward => decide
  | panicked tallied elected forward stops => exact handle_avoids_orderPanics message stops
  | unannounced tallied elected unnamed => decide

theorem step_avoids_orderPanics (sound : Sound ext state.oracle) (label : Label) :
    Avoids orderPanics (step ext label state).2 := by
  cases label with
  | endBlock powers env =>
    simp only [step, State.endBlocker, avoids_bind, avoids_pure, implies_true, and_true]
    refine ⟨attestationTally_avoids_orderPanics sound, fun tally _ => ⟨?_, fun _ _ => ?_⟩⟩
    · exact avoids_maintain.mono orderPanics_subset
    · exact avoids_pruneAttestations.mono orderPanics_subset
  | attest validator claim => exact avoids_ok _
  | submitClaim voter claim => exact avoids_ok _
  | ledger msg => exact avoids_ok _
  | unhaltBridge targetNonce => exact avoids_ok _
  | updateParams params => exact avoids_ok _
  | setHrpIbcRecord hrp channel => exact avoids_ok _

/-- Over every run and one more step, finished or not: the nonces handed to the handler are
consecutive, at most one attestation of a nonce is observed and everything observed was handled,
and the guards of the order do not panic. -/
theorem events_applied_once_in_order {initial : Nat}
    (reach : Reachable ext (BeforeVotes initial) trace state) (label : Label) :
    (trace ++ (step ext label state).1).map (fun claim => claim.getEventNonce.val) =
        List.range' (initial + 1) (trace ++ (step ext label state).1).length ∧
      (∀ key att, state.oracle.attestations.get key = some att → att.observed = true →
        att.claim ∈ trace) ∧
      (∀ key other att rival, state.oracle.attestations.get key = some att →
        state.oracle.attestations.get other = some rival → att.observed = true →
        rival.observed = true → att.claim.getEventNonce = rival.claim.getEventNonce → key = other) ∧
      Avoids orderPanics (step ext label state).2 := by
  have ordered := ordered_of_reachable reach
  refine ⟨ordered.emitted label, fun _ _ => ordered.observed, ?_,
    step_avoids_orderPanics ordered.sound label⟩
  exact fun _ _ _ _ stored rivalStored marked rivalMarked same =>
    ordered.observed_unique stored rivalStored marked rivalMarked same

/-- A deposit of thirty, voted on by the one validator. -/
def exampleDeposit (eventNonce height : U64) (token : EthAddress) (receiver : Bytes) :
    EthereumClaim :=
  .sendToCosmos ⟨eventNonce, height, hex localnet token, some 30, hex localnet 9, receiver,
    ascii "gravity1orchestrator"⟩

def exampleVotes : List Label :=
  [.attest (some (ascii "validator")) (exampleDeposit 1 100 5 (ascii "gravity1recipient")),
    .endBlock (soleValidator (ascii "validator") 10) (soleBonded 10 1),
    .attest (some (ascii "validator")) (exampleDeposit 2 101 5 (ascii "gravity1recipient"))]

def exampleGenesis : State := genesis (ascii "recipient") ⟨ascii "stake", 100⟩

theorem exampleVotes_ran : (execute localnet exampleVotes exampleGenesis).isSome = true := by
  decide +kernel

theorem exampleVotes_reachable :
    Reachable localnet (BeforeVotes 0)
      ((execute localnet exampleVotes exampleGenesis).get exampleVotes_ran).1
      ((execute localnet exampleVotes exampleGenesis).get exampleVotes_ran).2 :=
  reachable_of_execute ⟨⟨rfl, by decide⟩, rfl⟩ exampleVotes_ran

theorem exampleVotes_applied_in_order :
    ∃ trace state, Reachable localnet (BeforeVotes 0) trace state ∧
      trace.map (fun claim => claim.getEventNonce.val) = [1] ∧
      ∀ label, (trace ++ (step localnet label state).1).map (fun claim => claim.getEventNonce.val) =
        List.range' 1 (trace ++ (step localnet label state).1).length :=
  ⟨_, _, exampleVotes_reachable, by decide +kernel,
    fun label => (events_applied_once_in_order exampleVotes_reachable label).1⟩

/-- In every reachable state a validator has one vote for each nonce, none beyond its own last
nonce; an event is applied only with distinct voters of more than 66 percent of the power, and
two attestations of one nonce cannot both have that. -/
theorem one_vote_per_nonce {initial : Nat} (reach : Reachable ext (BeforeVotes initial) trace state) :
    (∀ nonce, (state.oracle.votesOn nonce).Nodup) ∧
      (∀ key att validator, state.oracle.attestations.get key = some att → validator ∈ att.votes →
        att.claim.getEventNonce.val ≤ state.oracle.getLastEventNonceByValidator validator) ∧
      (∀ powers env claim, claim ∈ (step ext (.endBlock powers env) state).1 →
        ∃ key att, state.oracle.attestations.get key = some att ∧ att.claim = claim ∧
          att.votes.Nodup ∧ 66 * powers.total / 100 < (att.votes.map powers.power).sum) ∧
      (∀ (powers : PowerTable) key other att rival, state.oracle.attestations.get key = some att →
        state.oracle.attestations.get other = some rival → key ≠ other →
        att.claim.getEventNonce = rival.claim.getEventNonce →
        66 * powers.total / 100 < (att.votes.map powers.power).sum →
        ¬ 66 * powers.total / 100 < (rival.votes.map powers.power).sum) := by
  have sound := (ordered_of_reachable reach).sound
  refine ⟨sound.votesOn_nodup, fun key att validator stored member => ?_, ?_, ?_⟩
  · obtain ⟨last, found, below, _⟩ := sound.voted stored member
    simpa [getLastEventNonceByValidator, found] using below
  · intro powers env claim member
    have outcomes : Outcomes ext powers state _ := attestationTally_outcomes sound
    obtain ⟨key, att, stored, _, same, passes⟩ := outcomes.elected member
    refine ⟨key, att, stored, same, sound.nodup stored, ?_⟩
    simpa [PowerTable.requiredPower] using (passes_iff powers att.votes (Nat.zero_le _)).mp passes
  · intro powers key other att rival stored rivalStored distinct same quorum rivalQuorum
    exact powers.quorums_intersect (sound.nodup stored) (sound.nodup rivalStored)
      (sound.disjoint stored rivalStored distinct same) quorum rivalQuorum

theorem exampleVotes_unique :
    ∃ trace state, Reachable localnet (BeforeVotes 0) trace state ∧
      state.oracle.votesOn 2 = [ascii "validator"] ∧ (state.oracle.votesOn 2).Nodup :=
  ⟨_, _, exampleVotes_reachable, by decide +kernel, (one_vote_per_nonce exampleVotes_reachable).1 2⟩

end GravityBridge.Keeper
