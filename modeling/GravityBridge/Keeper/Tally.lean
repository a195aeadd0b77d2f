import GravityBridge.Keeper.Votes

/-!
# The tally

A tally is a run of its own: it applies one event after the other, each from the
state that the previous one left. On a sound oracle the checks on the order of the
events cannot fail, so a tally ends early only when a claim lowers the Ethereum
height, when its handler panics, or when the event of the observation cannot name
the bridge contract.
-/

namespace GravityBridge.Keeper

open Lib.Fallible Lib.ByteString Lib.Store
open GravityBridge.Types List

/-- The state after an attestation is marked as observed. -/
def State.observe (state : State) (key : AttestationKey) (att : Attestation) : State :=
  { state with oracle := { state.oracle with
      attestations := state.oracle.attestations.set key { att with observed := true }
      lastObservedEventNonce := att.claim.getEventNonce.val
      lastObservedEthereumBlockHeight := ⟨state.blockHeight, att.claim.getEthBlockHeight.val⟩ } }

/-- The attestation that a tally observes next. -/
structure Elected (powers : PowerTable) (state : State) (key : AttestationKey)
    (att : Attestation) : Prop where
  stored : state.oracle.attestations.get key = some att
  following : att.claim.getEventNonce.val = state.oracle.lastObservedEventNonce + 1
  passes : powers.passes 0 att.votes = true

/-- The height of an observed claim is not below the last one. -/
def Forward (state : State) (att : Attestation) : Prop :=
  state.oracle.lastObservedEthereumBlockHeight.ethereumBlockHeight ≤ att.claim.getEthBlockHeight.val

instance (state : State) (att : Attestation) : Decidable (Forward state att) :=
  inferInstanceAs (Decidable (_ ≤ _))

variable (ext : External)

/-- What the handler makes of the claim of an observed attestation. -/
def State.handled (state : State) (key : AttestationKey) (att : Attestation) : Go Ledger :=
  state.ledger.handle ext (state.observe key att).context att.claim

/-- One event is applied: its attestation is observed and its claim handled, with the handler's
changes dropped if it returned an error. -/
inductive Applies (powers : PowerTable) (state : State) : EthereumClaim → State → Prop
  | intro {key : AttestationKey} {att : Attestation} {ledger : Ledger} :
      Elected powers state key att →
      Forward state att → cached state.ledger (state.handled ext key att) = .ok ledger →
      state.params.NamesBridge →
      Applies powers state att.claim { state.observe key att with ledger := ledger }

/-- The events that a tally applies, and the state after them. -/
inductive Tallied (powers : PowerTable) : State → List EthereumClaim → State → Prop
  | done {state : State} : Tallied powers state [] state
  | next {state middle final : State} {claim : EthereumClaim} {rest : List EthereumClaim} :
      Applies ext powers state claim middle → Tallied powers middle rest final →
      Tallied powers state (claim :: rest) final

/-- How a tally that panics ends. -/
inductive Stopped (powers : PowerTable) (state : State) : List EthereumClaim → Fault Err → Prop
  | rollback {middle : State} {handled : List EthereumClaim} {key : AttestationKey}
      {att : Attestation} :
      Tallied ext powers state handled middle → Elected powers middle key att → ¬ Forward middle att →
      Stopped powers state handled (.panic "Attempt to roll back Ethereum block height!")
  | panicked {middle : State} {handled : List EthereumClaim} {key : AttestationKey}
      {att : Attestation}
      {message : String} : Tallied ext powers state handled middle → Elected powers middle key att →
      Forward middle att → middle.handled ext key att = .error (.panic message) →
      Stopped powers state (handled ++ [att.claim]) (.panic message)
  | unannounced {middle : State} {handled : List EthereumClaim} {key : AttestationKey}
      {att : Attestation} :
      Tallied ext powers state handled middle → Elected powers middle key att →
      ¬ middle.params.NamesBridge →
      Stopped powers state (handled ++ [att.claim]) (.panic "failed to parse bridge ethereum address")

variable {ext} {powers : PowerTable} {state final : State} {claim : EthereumClaim}
  {handled : List EthereumClaim}

open Oracle

/-! ## Observing keeps the oracle sound -/

variable {att : Attestation}

theorem Oracle.Sound.following (sound : Sound ext state.oracle)
    (positive : att.claim.getEventNonce ≠ 0)
    (next : att.claim.getEventNonce.val = succU64 state.oracle.lastObservedEventNonce) :
    att.claim.getEventNonce.val = state.oracle.lastObservedEventNonce + 1 := by
  have nonzero : att.claim.getEventNonce.val ≠ 0 := fun zero => positive (Fin.ext zero)
  have range := sound.range
  unfold succU64 at next
  omega

variable {key : AttestationKey}

theorem Oracle.Sound.observe (sound : Sound ext state.oracle)
    (elected : Elected powers state key att) : Sound ext (state.observe key att).oracle := by
  have following := elected.following
  have keyed := sound.keyed elected.stored
  have positive := sound.positive elected.stored
  have nodup := sound.nodup elected.stored
  have voted : ∀ validator ∈ att.votes, _ := fun _ member => sound.voted elected.stored member
  refine sound.set { att with observed := true } rfl keyed positive
    ?_ att.claim.getEventNonce.isLt (fun _ => le_refl _) nodup voted
    (fun _ last found bounded => ⟨last, found, le_refl _, bounded⟩) ?_
  · change state.oracle.lastObservedEventNonce ≤ att.claim.getEventNonce.val
    omega
  · intro other rival stored distinct same
    have disjoint := sound.disjoint elected.stored stored distinct.symm same.symm
    exact disjoint

theorem Applies.sound (applies : Applies ext powers state claim final)
    (sound : Sound ext state.oracle) : Sound ext final.oracle := by
  obtain ⟨elected, _, _⟩ := applies
  exact sound.observe elected

theorem Applies.nonce (applies : Applies ext powers state claim final) :
    claim.getEventNonce.val = state.oracle.lastObservedEventNonce + 1 ∧
      final.oracle.lastObservedEventNonce = state.oracle.lastObservedEventNonce + 1 := by
  obtain ⟨elected, _, _⟩ := applies
  exact ⟨elected.following, elected.following⟩

theorem Tallied.sound (tallied : Tallied ext powers state handled final)
    (sound : Sound ext state.oracle) : Sound ext final.oracle := by
  induction tallied with
  | done => exact sound
  | next applies _ ih => exact ih (applies.sound sound)

theorem Tallied.nonces (tallied : Tallied ext powers state handled final) :
    handled.map (fun claim => claim.getEventNonce.val) =
        List.range' (state.oracle.lastObservedEventNonce + 1) handled.length ∧
      final.oracle.lastObservedEventNonce = state.oracle.lastObservedEventNonce + handled.length := by
  induction tallied with
  | done => simp
  | next applies _ ih =>
    obtain ⟨mine, raised⟩ := applies.nonce
    rw [raised] at ih
    refine ⟨?_, ?_⟩
    · rw [map_cons, length_cons, range'_succ, mine, ih.1]
    · rw [ih.2, length_cons]
      omega

/-! ## The loop of the tally -/

/-- The attestations still to come are stored as they were when the tally began. -/
def Pending (state : State) (atts : List Attestation) : Prop :=
  ∀ att ∈ atts, att.claim.getEventNonce ≠ 0 ∧
    (state.oracle.lastObservedEventNonce < att.claim.getEventNonce.val →
      ∃ key, state.oracle.attestations.get key = some att)

theorem Pending.observe {atts : List Attestation} (pending : Pending state atts)
    (elected : Elected powers state key att) : Pending (state.observe key att) atts := by
  intro other member
  refine ⟨(pending other member).1, fun later => ?_⟩
  have following := elected.following
  have above : state.oracle.lastObservedEventNonce < other.claim.getEventNonce.val := by
    change att.claim.getEventNonce.val < _ at later
    omega
  obtain ⟨otherKey, stored⟩ := (pending other member).2 above
  have distinct : otherKey ≠ key := by
    rintro rfl
    have same := Option.some.inj (stored.symm.trans elected.stored)
    rw [same] at later
    exact lt_irrefl _ later
  refine ⟨otherKey, ?_⟩
  change (state.oracle.attestations.set key { att with observed := true }).get otherKey = some other
  rw [KVStore.get_set, if_neg distinct]
  exact stored

theorem markObserved_eq (hash : Bytes)
    (following : att.claim.getEventNonce.val = state.oracle.lastObservedEventNonce + 1) :
    state.markObserved att hash =
      if Forward state att then
        .ok (state.observe (getAttestationKey att.claim.getEventNonce hash) att)
      else panicking "Attempt to roll back Ethereum block height!" := by
  have bound := att.claim.getEventNonce.isLt
  have wraps : att.claim.getEventNonce.val = succU64 state.oracle.lastObservedEventNonce := by
    unfold succU64
    omega
  have above : state.oracle.lastObservedEventNonce < att.claim.getEventNonce.val := by omega
  unfold State.markObserved setLastObservedEventNonce setLastObservedEthereumBlockHeight check
  rw [if_pos wraps, if_pos (Or.inl above)]
  by_cases forward : Forward state att
  · have height := forward
    unfold Forward at height
    rw [if_pos forward]
    simp only [ok_bind, pure, Except.pure, if_pos height]
    rfl
  · have height := forward
    unfold Forward at height
    rw [if_neg forward]
    simp only [ok_bind, pure, Except.pure, if_neg height]
    rfl

theorem tryAttestation_eq {hash : Bytes} (hashed : att.claim.claimHash ext = .ok hash)
    (unobserved : att.observed = false)
    (following : att.claim.getEventNonce.val = state.oracle.lastObservedEventNonce + 1)
    (passes : powers.passes 0 att.votes = true) :
    state.tryAttestation ext powers att = if Forward state att then
        ([att.claim], (state.observe (getAttestationKey att.claim.getEventNonce hash)
          att).processAttestation ext att.claim >>= State.emitObservedEvent)
      else ([], panicking "Attempt to roll back Ethereum block height!") := by
  unfold State.tryAttestation
  simp only [hashed, unobserved, passes, if_true, Bool.false_eq_true, if_false,
    markObserved_eq hash following]
  by_cases forward : Forward state att
  · simp only [if_pos forward]
  · simp only [if_neg forward]
    rfl

theorem Oracle.Sound.unobserved (sound : Sound ext state.oracle)
    (stored : state.oracle.attestations.get key = some att)
    (following : att.claim.getEventNonce.val = state.oracle.lastObservedEventNonce + 1) :
    att.observed = false := by
  by_contra observed
  have below := sound.observedBelow stored (by simpa using observed)
  omega

theorem tryAttestation_elected (sound : Sound ext state.oracle)
    (elected : Elected powers state key att) : state.tryAttestation ext powers att =
      if Forward state att then
        ([att.claim], (state.observe key att).processAttestation ext att.claim >>=
          State.emitObservedEvent)
      else ([], panicking "Attempt to roll back Ethereum block height!") := by
  obtain ⟨hash, hashed, rfl⟩ := sound.keyed elected.stored
  exact tryAttestation_eq hashed (sound.unobserved elected.stored elected.following)
    elected.following elected.passes

/-- What a tally can come to: it applied events and ended, or it applied events and stopped. -/
def Outcomes (ext : External) (powers : PowerTable) (state : State)
    (result : List EthereumClaim × Go State) : Prop :=
  match result.2 with
  | .ok final => Tallied ext powers state result.1 final
  | .error fault => Stopped ext powers state result.1 fault

theorem Stopped.cons {middle : State} {fault : Fault Err}
    (applies : Applies ext powers state claim middle)
    (stopped : Stopped ext powers middle handled fault) :
    Stopped ext powers state (claim :: handled) fault := by
  cases stopped with
  | rollback tallied elected backward => exact .rollback (.next applies tallied) elected backward
  | panicked tallied elected forward panics =>
    exact .panicked (.next applies tallied) elected forward panics
  | unannounced tallied elected unnamed => exact .unannounced (.next applies tallied) elected unnamed

theorem Outcomes.cons {middle : State} {result : List EthereumClaim × Go State}
    (applies : Applies ext powers state claim middle) (rest : Outcomes ext powers middle result) :
    Outcomes ext powers state (claim :: result.1, result.2) := by
  rcases result with ⟨handled, fault | final⟩
  · exact Stopped.cons applies rest
  · exact Tallied.next applies rest

theorem tallyLoop_outcomes (atts : List Attestation) (state : State) (sound : Sound ext state.oracle)
    (pending : Pending state atts) : Outcomes ext powers state (state.tallyLoop ext powers atts) := by
  induction atts generalizing state with
  | nil => exact .done
  | cons att rest ih =>
    have pendingRest : Pending state rest := fun other member =>
      pending other (mem_cons_of_mem _ member)
    unfold State.tallyLoop
    split_ifs with next
    · obtain ⟨positive, lookup⟩ := pending att mem_cons_self
      have following := sound.following positive next
      obtain ⟨key, stored⟩ := lookup (by omega)
      cases passes : powers.passes 0 att.votes with
      | false =>
        obtain ⟨hash, hashed, _⟩ := sound.keyed stored
        have skipped : state.tryAttestation ext powers att = ([], .ok state) := by
          simp [State.tryAttestation, hashed, sound.unobserved stored following, passes]
        rw [skipped]
        exact ih state sound pendingRest
      | true =>
        have elected : Elected powers state key att := ⟨stored, following, passes⟩
        rw [tryAttestation_elected sound elected]
        by_cases forward : Forward state att
        · rw [if_pos forward]
          rcases caching : cached state.ledger (state.handled ext key att) with fault | ledger
          · have stops : (state.observe key att).processAttestation ext att.claim = .error fault := by
              change (cached state.ledger (state.handled ext key att) >>= _) = _
              rw [caching, error_bind]
            rw [stops, error_bind]
            obtain ⟨message, rfl, panics⟩ := cached_eq_error.mp caching
            exact .panicked .done elected forward panics
          · have goesOn : (state.observe key att).processAttestation ext att.claim =
                .ok { state.observe key att with ledger := ledger } := by
              change (cached state.ledger (state.handled ext key att) >>= _) = _
              rw [caching, ok_bind]
              rfl
            rw [goesOn, ok_bind]
            by_cases named : state.params.NamesBridge
            · have emitted :
                  State.emitObservedEvent { state.observe key att with ledger := ledger } = .ok _ :=
                State.emitObservedEvent_eq_ok.mpr ⟨named, rfl⟩
              rw [emitted]
              have applies := Applies.intro elected forward caching named
              exact Outcomes.cons applies (ih _ (applies.sound sound) (pendingRest.observe elected))
            · have silent : State.emitObservedEvent { state.observe key att with
                  ledger := ledger } = _ :=
                State.emitObservedEvent_of_not_namesBridge _ named
              rw [silent]
              exact .unannounced .done elected named
        · rw [if_neg forward]
          exact .rollback .done elected forward
    · exact ih state sound pendingRest

theorem attestationTally_outcomes (sound : Sound ext state.oracle) :
    Outcomes ext powers state (state.attestationTally ext powers) := by
  unfold State.attestationTally
  split_ifs with active
  · refine tallyLoop_outcomes _ state sound ?_
    intro att member
    obtain ⟨key, stored⟩ := KVStore.mem_values.mp member
    exact ⟨sound.positive stored, fun _ => ⟨key, stored⟩⟩
  · exact .done

theorem tallied_of_attestationTally (sound : Sound ext state.oracle)
    (tally : state.attestationTally ext powers = (handled, .ok final)) :
    Tallied ext powers state handled final := by
  have outcomes : Outcomes ext powers state _ := attestationTally_outcomes sound
  rw [tally] at outcomes
  exact outcomes

/-! ## Quorums -/

/-- The loop over the votes compares the whole power of the votes with the threshold. -/
theorem passes_iff (powers : PowerTable) (votes : List ValAddress) {attestationPower : Nat}
    (below : attestationPower ≤ powers.requiredPower) :
    powers.passes attestationPower votes = true ↔
      powers.requiredPower < attestationPower + (votes.map powers.power).sum := by
  induction votes generalizing attestationPower with
  | nil => simpa [PowerTable.passes] using below
  | cons validator rest ih =>
    rw [PowerTable.passes, map_cons, sum_cons, ← Nat.add_assoc]
    split_ifs with exceeds
    · simp only [true_iff]
      omega
    · exact ih (by omega)

/-- Distinct voters have at most the total power. -/
theorem PowerTable.sum_le_total (powers : PowerTable) {voters : List ValAddress}
    (distinct : voters.Nodup) : (voters.map powers.power).sum ≤ powers.total := by
  calc (voters.map powers.power).sum = ∑ voter ∈ voters.toFinset, powers.power voter :=
        (sum_toFinset powers.power distinct).symm
    _ ≤ powers.total := powers.covers voters.toFinset

/-- Two groups of voters with nobody in common cannot both exceed the threshold. -/
theorem PowerTable.quorums_intersect (powers : PowerTable) {first second : List ValAddress}
    (firstDistinct : first.Nodup) (secondDistinct : second.Nodup) (disjoint : first.Disjoint second)
    (left : powers.requiredPower < (first.map powers.power).sum)
    (right : powers.requiredPower < (second.map powers.power).sum) : False := by
  have together := powers.sum_le_total (firstDistinct.append secondDistinct disjoint)
  rw [map_append, sum_append] at together
  unfold PowerTable.requiredPower at left right
  omega

end GravityBridge.Keeper
