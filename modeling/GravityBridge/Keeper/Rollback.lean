import GravityBridge.Keeper.EventOrder

/-!
# Rolling the oracle back

Only validators with a vote on a deleted attestation are set back. That reaches every validator beyond
the target, because a validator votes on one nonce after the other and votes beyond the last observed
nonce are deleted by a rollback only: up to its last nonce it has a stored vote on each of them.
-/

namespace GravityBridge.Keeper

open Lib.Fallible Lib.ByteString Lib.Store Lib.Runs
open GravityBridge.Types Oracle List KVStore

variable {ext : External} {oracle next : Oracle} {state final : State}
  {trace handled : List EthereumClaim}
  {powers : PowerTable} {outdated : Nat → Bool} {cutoff : Nat} {initial : Nat}

/-! ## Deleting is exact -/

/-- Attestations that have a key can be deleted, and nothing else is. -/
theorem foldlM_deleteAttestation_kept (oracle : Oracle) (outdated : Nat → Bool)
    {atts : List Attestation} (keyed : ∀ att ∈ atts, ∃ key, Keyed ext key att) :
    ∃ next, atts.foldlM (fun current att => if outdated att.claim.getEventNonce.val
        then current.deleteAttestation ext att else pure current) oracle = .ok next ∧
      ∀ key, (∀ att ∈ atts, outdated att.claim.getEventNonce.val = true → ¬ Keyed ext key att) →
        next.attestations.get key = oracle.attestations.get key := by
  induction atts generalizing oracle with
  | nil => exact ⟨oracle, rfl, fun _ _ => rfl⟩
  | cons att rest ih =>
    obtain ⟨⟨mine, keyedMine⟩, keyedRest⟩ := forall_mem_cons.mp keyed
    rw [foldlM_cons]
    by_cases old : outdated att.claim.getEventNonce.val = true
    · rw [if_pos old, keyedMine.deleteAttestation, ok_bind]
      obtain ⟨next, ran, kept⟩ := ih _ keyedRest
      refine ⟨next, ran, fun key others => ?_⟩
      obtain ⟨notMine, notRest⟩ := forall_mem_cons.mp others
      rw [kept key notRest, get_delete, if_neg]
      rintro rfl
      exact notMine old keyedMine
    · rw [if_neg old]
      obtain ⟨next, ran, kept⟩ := ih _ keyedRest
      exact ⟨next, ran, fun key others => kept key (forall_mem_cons.mp others).2⟩

theorem Oracle.Sound.deleteWhere_eq (sound : Sound ext oracle) (outdated : Nat → Bool) :
    oracle.deleteWhere ext outdated = .ok { oracle with
      attestations :=
      oracle.attestations.filter (fun _ att => !outdated att.claim.getEventNonce.val) } := by
  have keyed : ∀ att ∈ oracle.getAttestations, ∃ key, Keyed ext key att := by
    intro att member
    obtain ⟨key, stored⟩ := mem_values.mp member
    exact ⟨key, sound.keyed stored⟩
  obtain ⟨next, ran, kept⟩ := foldlM_deleteAttestation_kept oracle outdated keyed
  obtain ⟨frame, fewer⟩ := sound.deleteWhere ran
  have filtered : next.attestations =
      oracle.attestations.filter (fun _ att => !outdated att.claim.getEventNonce.val) := by
    refine ext_get fun key => ?_
    rw [get_filter]
    cases found : oracle.attestations.get key with
    | none =>
      by_contra stored
      obtain ⟨att, stored⟩ := Option.ne_none_iff_exists'.mp stored
      rw [(fewer key att stored).1] at found
      contradiction
    | some att =>
      cases old : outdated att.claim.getEventNonce.val with
      | true =>
        rw [Option.filter_some, if_neg (by simp [old])]
        by_contra stored
        obtain ⟨rival, stored⟩ := Option.ne_none_iff_exists'.mp stored
        obtain ⟨before, young⟩ := fewer key rival stored
        rw [found, Option.some.injEq] at before
        rw [← before, old] at young
        contradiction
      | false =>
        rw [Option.filter_some, if_pos (by simp [old]), kept key ?_, found]
        intro rival member rivalOld rivalKeyed
        obtain ⟨other, stored⟩ := mem_values.mp member
        rw [(sound.keyed stored).unique rivalKeyed, found, Option.some.injEq] at stored
        rw [← stored, old] at rivalOld
        contradiction
  rw [Oracle.deleteWhere, ran, frame, filtered]

/-! ## Setting validators back -/

theorem getLastEventNonceByValidator_set (voter validator : ValAddress) (nonce : Nat) :
    (oracle.setLastEventNonceByValidator voter nonce).getLastEventNonceByValidator validator =
      if validator = voter then nonce else oracle.getLastEventNonceByValidator validator := by
  unfold setLastEventNonceByValidator getLastEventNonceByValidator
  rw [get_set]
  split_ifs <;> rfl

/-- Whatever the order, a listed validator beyond the cutoff ends at it, and nothing else is
written. -/
theorem foldl_setBack_eq (cutoff : Nat) (order : List ValAddress) (oracle : Oracle) :
    order.foldl (setBack cutoff) oracle = { oracle with
      lastEventNonceByValidator := (order.foldl (setBack cutoff) oracle).lastEventNonceByValidator } ∧
    ∀ validator, (order.foldl (setBack cutoff) oracle).lastEventNonceByValidator.get validator =
      if validator ∈ order ∧ cutoff < oracle.getLastEventNonceByValidator validator then some cutoff
      else oracle.lastEventNonceByValidator.get validator := by
  induction order generalizing oracle with
  | nil => simp
  | cons voter rest ih =>
    obtain ⟨frame, lasts⟩ := ih (setBack cutoff oracle voter)
    rw [foldl_cons]
    by_cases beyond : cutoff < oracle.getLastEventNonceByValidator voter
    · have stepped : setBack cutoff oracle voter =
          oracle.setLastEventNonceByValidator voter cutoff := if_pos beyond
      refine ⟨by rw [frame, stepped]; rfl, fun validator => ?_⟩
      rw [lasts, stepped, getLastEventNonceByValidator_set, setLastEventNonceByValidator, get_set]
      by_cases same : validator = voter
      · subst same
        simp [beyond]
      · simp [same]
    · have stepped : setBack cutoff oracle voter = oracle := if_neg beyond
      refine ⟨by rw [frame, stepped], fun validator => ?_⟩
      rw [lasts, stepped]
      by_cases same : validator = voter
      · subst same
        simp [beyond]
      · simp [same]

/-- The validators with a vote beyond the cutoff, in the order of the store. -/
def Oracle.affected (oracle : Oracle) (cutoff : Nat) : List ValAddress :=
  (oracle.getAttestations.filter (fun att => cutoff < att.claim.getEventNonce.val)).flatMap
    Attestation.votes

variable {validator : ValAddress}

theorem mem_affected : validator ∈ oracle.affected cutoff ↔
    ∃ key att, oracle.attestations.get key = some att ∧ cutoff < att.claim.getEventNonce.val ∧
      validator ∈ att.votes := by
  simp only [affected, mem_flatMap, mem_filter, getAttestations, mem_values, decide_eq_true_eq]
  constructor
  · rintro ⟨att, ⟨⟨key, stored⟩, beyond⟩, member⟩
    exact ⟨key, att, stored, beyond, member⟩
  · rintro ⟨key, att, stored, beyond, member⟩
    exact ⟨att, ⟨⟨key, stored⟩, beyond⟩, member⟩

/-- `pruneAttestationsAfterNonce` with the affected validators in another order. -/
def Oracle.pruneInOrder (ext : External) (oracle : Oracle) (nonceCutoff : Nat)
    (order : List ValAddress) : Go Oracle :=
  if nonceCutoff < oracle.lastObservedEventNonce ∨ nonceCutoff = 0 then pure oracle
  else do
    let deleted ← oracle.deleteWhere ext (fun nonce => nonceCutoff < nonce)
    pure (order.foldl (setBack nonceCutoff) deleted)

/-! ## Every nonce beyond the last observed one is backed by votes -/

/-- A validator has a stored vote on every nonce after the last observed one up to its own last
one. -/
def Oracle.Backed (oracle : Oracle) : Prop :=
  ∀ validator last nonce, oracle.lastEventNonceByValidator.get validator = some last →
    oracle.lastObservedEventNonce < nonce → nonce ≤ last →
    ∃ key att, oracle.attestations.get key = some att ∧ att.claim.getEventNonce.val = nonce ∧
    validator ∈ att.votes

/-- A validator beyond the cutoff has a vote beyond it. -/
theorem Oracle.Backed.mem_affected (backed : oracle.Backed)
    (allowed : oracle.lastObservedEventNonce ≤ cutoff)
    (beyond : cutoff < oracle.getLastEventNonceByValidator validator) :
    validator ∈ oracle.affected cutoff := by
  unfold getLastEventNonceByValidator at beyond
  cases found : oracle.lastEventNonceByValidator.get validator with
  | none =>
    rw [found, Option.getD_none] at beyond
    omega
  | some last =>
    rw [found, Option.getD_some] at beyond
    obtain ⟨key, att, stored, nonce, member⟩ := backed validator last last found (by omega) le_rfl
    exact Keeper.mem_affected.mpr ⟨key, att, stored, by omega, member⟩

/-- The oracle rolled back to a nonce. -/
def Oracle.RolledBack (oracle : Oracle) (cutoff : Nat) (next : Oracle) : Prop :=
  next = { oracle with
    attestations :=
      oracle.attestations.filter (fun _ att => !decide (cutoff < att.claim.getEventNonce.val))
    lastEventNonceByValidator := next.lastEventNonceByValidator } ∧
  ∀ validator, next.lastEventNonceByValidator.get validator =
    (oracle.lastEventNonceByValidator.get validator).map (min cutoff)

/-- Any list of the affected validators gives the same result. -/
theorem Oracle.Backed.pruneInOrder (backed : oracle.Backed) (sound : Sound ext oracle)
    {order : List ValAddress}
    (positive : cutoff ≠ 0) (allowed : oracle.lastObservedEventNonce ≤ cutoff)
    (listed : ∀ validator, validator ∈ order ↔ validator ∈ oracle.affected cutoff) :
    ∃ next, oracle.pruneInOrder ext cutoff order = .ok next ∧ oracle.RolledBack cutoff next := by
  have permitted : ¬ (cutoff < oracle.lastObservedEventNonce ∨ cutoff = 0) := by omega
  obtain ⟨frame, lasts⟩ := foldl_setBack_eq cutoff order { oracle with
    attestations :=
      oracle.attestations.filter (fun _ att => !decide (cutoff < att.claim.getEventNonce.val)) }
  refine ⟨_, by rw [Oracle.pruneInOrder, if_neg permitted, sound.deleteWhere_eq, ok_bind]; rfl,
    frame, fun validator => ?_⟩
  rw [lasts]
  have sameLast : ∀ attestations,
  { oracle with attestations := attestations }.getLastEventNonceByValidator validator =
      oracle.getLastEventNonceByValidator validator := fun _ => rfl
  rw [sameLast]
  by_cases beyond : cutoff < oracle.getLastEventNonceByValidator validator
  · rw [if_pos ⟨(listed validator).mpr (backed.mem_affected allowed beyond), beyond⟩]
    unfold getLastEventNonceByValidator at beyond
    cases found : oracle.lastEventNonceByValidator.get validator with
    | none =>
      rw [found, Option.getD_none] at beyond
      omega
    | some last =>
      rw [found, Option.getD_some] at beyond
      rw [Option.map_some, min_eq_left beyond.le]
  · rw [if_neg fun both => beyond both.2]
    unfold getLastEventNonceByValidator at beyond
    cases found : oracle.lastEventNonceByValidator.get validator with
    | none => rfl
    | some last =>
      rw [found, Option.getD_some] at beyond
      rw [Option.map_some, min_eq_right (not_lt.mp beyond)]

variable {key : AttestationKey}

/-- Votes on a nonce stay votes on that nonce when an attestation is written again with more votes. -/
theorem Oracle.Backed.set (att : Attestation) (backed : oracle.Backed)
    (stores : next.attestations = oracle.attestations.set key att)
    (more : ∀ before, oracle.attestations.get key = some before →
      att.claim.getEventNonce = before.claim.getEventNonce ∧
        ∀ validator ∈ before.votes, validator ∈ att.votes)
    (later : oracle.lastObservedEventNonce ≤ next.lastObservedEventNonce)
    (lasts : ∀ validator last nonce, next.lastEventNonceByValidator.get validator = some last →
      next.lastObservedEventNonce < nonce → nonce ≤ last →
      (∃ before, oracle.lastEventNonceByValidator.get validator = some before ∧ nonce ≤ before) ∨
        att.claim.getEventNonce.val = nonce ∧ validator ∈ att.votes) : next.Backed := by
  intro validator last nonce found beyond below
  rw [stores]
  rcases lasts validator last nonce found beyond below with ⟨before, foundBefore, belowBefore⟩ | new
  · obtain ⟨other, rival, stored, same, member⟩ :=
      backed validator before nonce foundBefore (later.trans_lt beyond) belowBefore
    by_cases overwritten : other = key
    · subst overwritten
      obtain ⟨sameNonce, kept⟩ := more rival stored
      exact ⟨other, att, by simp, sameNonce ▸ same, kept validator member⟩
    · exact ⟨other, rival, by rw [get_set, if_neg overwritten, stored], same, member⟩
  · exact ⟨key, att, by simp, new⟩

theorem Voted.backed {claim : EthereumClaim} {att : Attestation}
    (voted : Voted ext oracle claim validator key att next) (sound : Sound ext oracle)
    (backed : oracle.Backed) :
    next.Backed := by
  obtain ⟨-, sameNonce⟩ := voted.keyed_att sound
  refine backed.set { att with votes := att.votes ++ [validator] } (by rw [voted.result]) ?_
    (by rw [voted.result]) ?_
  · intro before stored
    rcases voted.found with found | ⟨missing, _⟩
    · obtain rfl : att = before := Option.some.inj (found.symm.trans stored)
      exact ⟨rfl, fun _ member => mem_append_left _ member⟩
    · rw [missing] at stored
      contradiction
  · intro voter last nonce found beyond below
    rw [voted.result] at found beyond
    rw [get_set] at found
    split_ifs at found with same
    · subst same
      obtain rfl := Option.some.inj found
      rcases below.lt_or_eq with earlier | rfl
      · -- the vote before this one was on the nonce before, or the validator starts now
        have following := voted.following
        have wrapped : succU64 (oracle.getLastEventNonceByValidator voter) ≤
            oracle.getLastEventNonceByValidator voter + 1 :=
          Nat.mod_le _ _
        unfold getLastEventNonceByValidator at following wrapped
        cases before : oracle.lastEventNonceByValidator.get voter with
        | none =>
          rw [before, Option.getD_none] at following wrapped
          dsimp only at beyond
          omega
        | some previous =>
          rw [before, Option.getD_some] at following wrapped
          exact .inl ⟨previous, rfl, by omega⟩
      · exact .inr ⟨congrArg Fin.val sameNonce, by simp⟩
    · exact .inl ⟨last, found, below⟩

theorem Applies.backed {claim : EthereumClaim} (applies : Applies ext powers state claim final)
    (backed : state.oracle.Backed) : final.oracle.Backed := by
  cases applies with
  | @intro key att ledger elected _ _ =>
    refine backed.set { att with observed := true } rfl ?_ ?_ ?_
    · intro before stored
      obtain rfl : att = before := Option.some.inj (elected.stored.symm.trans stored)
      exact ⟨rfl, fun _ member => member⟩
    · change state.oracle.lastObservedEventNonce ≤ att.claim.getEventNonce.val
      rw [elected.following]
      exact Nat.le_succ _
    · exact fun validator last nonce found _ below => .inl ⟨last, found, below⟩

theorem Tallied.backed (tallied : Tallied ext powers state handled final)
    (backed : state.oracle.Backed) : final.oracle.Backed := by
  induction tallied with
  | done => exact backed
  | next applies _ ih => exact ih (applies.backed backed)

/-- Pruning deletes votes on nonces far below the last observed one only. -/
theorem Oracle.Backed.pruned (backed : oracle.Backed) (sound : Sound ext oracle)
    (pruned : oracle.pruneAttestations ext = .ok next) : next.Backed := by
  unfold pruneAttestations at pruned
  split_ifs at pruned with early
  · exact pure_eq_ok.mp pruned ▸ backed
  · rw [sound.deleteWhere_eq, Except.ok.injEq] at pruned
    subst pruned
    intro validator last nonce found beyond below
    obtain ⟨key, att, stored, same, member⟩ := backed validator last nonce found beyond below
    refine ⟨key, att, ?_, same, member⟩
    dsimp only at beyond
    have recent : ¬ nonce < oracle.lastObservedEventNonce - eventsToKeep := by omega
    rw [get_filter, stored, Option.filter_some, if_pos (by simpa [same] using recent)]

theorem Oracle.Backed.rolledBack (backed : oracle.Backed) (rolled : oracle.RolledBack cutoff next) :
    next.Backed := by
  obtain ⟨frame, lasts⟩ := rolled
  intro validator last nonce found beyond below
  rw [lasts, Option.map_eq_some_iff] at found
  obtain ⟨before, foundBefore, rfl⟩ := found
  rw [frame] at beyond ⊢
  obtain ⟨key, att, stored, same, member⟩ :=
    backed validator before nonce foundBefore beyond (below.trans (min_le_right _ _))
  have kept : ¬ cutoff < nonce := not_lt.mpr (below.trans (min_le_left _ _))
  exact ⟨key, att, by rw [get_filter, stored, Option.filter_some,
    if_pos (by simpa [same] using kept)], same, member⟩

/-- A rollback is refused or exact. -/
theorem pruneAttestationsAfterNonce_cases (backed : oracle.Backed) (sound : Sound ext oracle)
    (cutoff : Nat) :
    ((cutoff = 0 ∨ cutoff < oracle.lastObservedEventNonce) ∧
      oracle.pruneAttestationsAfterNonce ext cutoff = .ok oracle) ∨
      (cutoff ≠ 0 ∧ oracle.lastObservedEventNonce ≤ cutoff) ∧
        ∃ next, oracle.pruneAttestationsAfterNonce ext cutoff = .ok next ∧
          oracle.RolledBack cutoff next := by
  by_cases refused : cutoff < oracle.lastObservedEventNonce ∨ cutoff = 0
  · exact .inl ⟨refused.symm, if_pos refused⟩
  · rw [not_or, not_lt] at refused
    exact .inr ⟨⟨refused.2, refused.1⟩, backed.pruneInOrder sound refused.2 refused.1 fun _ =>
      Iff.rfl⟩

theorem OracleStep.backed (took : OracleStep ext state handled final) (sound : Sound ext state.oracle)
    (backed : state.oracle.Backed) : final.oracle.Backed := by
  cases took with
  | unchanged same => exact same ▸ backed
  | voted attested =>
    obtain ⟨validator, key, att, voted⟩ := attest_voted attested
    exact voted.backed sound backed
  | @rolledBack _ target rolled =>
    rcases pruneAttestationsAfterNonce_cases backed sound target.val with
      ⟨-, same⟩ | ⟨-, next, ran, exact⟩
    · exact Except.ok.inj (same.symm.trans rolled) ▸ backed
    · exact Except.ok.inj (ran.symm.trans rolled) ▸ backed.rolledBack exact
  | ended tally pruned =>
    have tallied := tallied_of_attestationTally sound tally
    exact (tallied.backed backed).pruned (tallied.sound sound) pruned

/-- Nobody has voted yet, and no validator has a last nonce. -/
structure Unvoted (initial : Nat) (state : State) : Prop where
  unvoted : BeforeVotes initial state
  unset : state.oracle.lastEventNonceByValidator = KVStore.empty

theorem backed_of_reachable (reach : Reachable ext (Unvoted initial) trace state) :
    Ordered ext initial trace state ∧ state.oracle.Backed := by
  refine Reach.invariant (motive := fun trace state => Ordered ext initial trace state ∧
    state.oracle.Backed) ?_ ?_ reach
  · rintro start ⟨unvoted, unset⟩
    refine ⟨ordered_of_reachable (.start unvoted), ?_⟩
    simp [Oracle.Backed, unset]
  · rintro trace state label handled next _ ⟨ordered, backed⟩ took _
    exact ⟨ordered.step (step_oracle took), (step_oracle took).backed ordered.sound backed⟩

section

variable (rolled : oracle.RolledBack cutoff next)

include rolled

theorem Oracle.RolledBack.unique {other : Oracle}
    (rolledOther : oracle.RolledBack cutoff other) : next = other := by
  have same : next.lastEventNonceByValidator = other.lastEventNonceByValidator :=
    ext_get fun validator => by rw [rolled.2, rolledOther.2]
  rw [rolled.1, rolledOther.1, same]

theorem Oracle.RolledBack.stored {att : Attestation} :
    next.attestations.get key = some att ↔
      oracle.attestations.get key = some att ∧ att.claim.getEventNonce.val ≤ cutoff := by
  rw [rolled.1, get_filter, Option.filter_eq_some_iff]
  simp

theorem Oracle.RolledBack.getLastEventNonceByValidator
    (allowed : oracle.lastObservedEventNonce ≤ cutoff) (validator : ValAddress) :
    next.getLastEventNonceByValidator validator =
      min (oracle.getLastEventNonceByValidator validator) cutoff := by
  have sameObserved : next.lastObservedEventNonce = oracle.lastObservedEventNonce := by rw [rolled.1]
  unfold Oracle.getLastEventNonceByValidator
  rw [rolled.2, sameObserved]
  cases oracle.lastEventNonceByValidator.get validator with
  | none =>
    have below : oracle.lastObservedEventNonce - 1 ≤ cutoff := by omega
    simp [below]
  | some last => simp [min_comm]

end

/-- A rollback to zero or below the last observed nonce changes nothing. Any other deletes the
attestations beyond the target, sets the validators beyond it back to it, and changes nothing else,
whatever the order in which the affected validators are visited. -/
theorem rollback_exact (reach : Reachable ext (Unvoted initial) trace state) (target : U64) :
    (target.val = 0 ∨ target.val < state.oracle.lastObservedEventNonce →
      step ext (.unhaltBridge target) state = ([], .ok state)) ∧
    (target.val ≠ 0 → state.oracle.lastObservedEventNonce ≤ target.val →
      ∃ oracle, step ext (.unhaltBridge target) state = ([], .ok { state with oracle := oracle }) ∧
        oracle = { state.oracle with
          attestations := oracle.attestations
          lastEventNonceByValidator := oracle.lastEventNonceByValidator } ∧
        (∀ key att, oracle.attestations.get key = some att ↔
          state.oracle.attestations.get key = some att ∧ att.claim.getEventNonce.val ≤ target.val) ∧
        (∀ validator, oracle.getLastEventNonceByValidator validator =
          min (state.oracle.getLastEventNonceByValidator validator) target.val) ∧
        (∀ validator, oracle.lastEventNonceByValidator.get validator =
          (state.oracle.lastEventNonceByValidator.get validator).map (min target.val)) ∧
        ∀ order : List ValAddress, (∀ validator, validator ∈ order ↔
          validator ∈ state.oracle.affected target.val) →
          state.oracle.pruneInOrder ext target.val order = .ok oracle) := by
  obtain ⟨ordered, backed⟩ := backed_of_reachable reach
  refine ⟨fun refused => ?_, fun positive allowed => ?_⟩
  · have same : state.oracle.pruneAttestationsAfterNonce ext target.val = .ok state.oracle :=
      if_pos refused.symm
    simp [step, same, transaction]
  · obtain ⟨oracle, ran, rolled⟩ := backed.pruneInOrder ordered.sound positive allowed fun _ =>
      Iff.rfl
    refine ⟨oracle, ?_, ?_, fun key att => rolled.stored,
      rolled.getLastEventNonceByValidator allowed, rolled.2, ?_⟩
    · have pruned : state.oracle.pruneAttestationsAfterNonce ext target.val = .ok oracle := ran
      simp [step, pruned, transaction]
    · rw [rolled.1]
    · intro order listed
      obtain ⟨other, ranOther, rolledOther⟩ :=
        backed.pruneInOrder ordered.sound positive allowed listed
      rw [ranOther, rolledOther.unique rolled]

/-- A vote on the second event is rolled back to the first one, which has been observed. -/
theorem second_vote_rolled_back :
    ∃ trace state oracle, Reachable localnet (Unvoted 0) trace state ∧
      state.oracle.getLastEventNonceByValidator (ascii "validator") = 2 ∧
      state.oracle.getAttestations.length = 2 ∧
      step localnet (.unhaltBridge 1) state = ([], .ok { state with oracle := oracle }) ∧
      oracle.getLastEventNonceByValidator (ascii "validator") = 1 ∧
      ∀ key att, oracle.attestations.get key = some att ↔
        state.oracle.attestations.get key = some att ∧ att.claim.getEventNonce.val ≤ 1 := by
  have unvoted : Unvoted 0 exampleGenesis := ⟨⟨⟨rfl, by decide⟩, rfl⟩, rfl⟩
  have reach := reachable_of_execute unvoted exampleVotes_ran
  obtain ⟨-, exact⟩ := rollback_exact reach 1
  obtain ⟨oracle, took, -, stored, lasts, -⟩ := exact (by decide) (by decide +kernel)
  have before : ((execute localnet exampleVotes exampleGenesis).get
      exampleVotes_ran).2.oracle.getLastEventNonceByValidator
      (ascii "validator") = 2 := by decide +kernel
  refine ⟨_, _, oracle, reach, before, by decide +kernel, took, ?_, stored⟩
  rw [lasts, before]
  rfl

end GravityBridge.Keeper
