import GravityBridge.Keeper.Attestation

/-!
# Votes

The invariant of the oracle: every attestation is stored under its own nonce and
hash, only nonces up to the last observed one are observed, no validator has two
votes on one nonce, and none has voted beyond its own last nonce.
-/

namespace GravityBridge.Keeper

open Lib.Fallible Lib.ByteString Lib.Store
open GravityBridge.Types List KVStore

/-- The key is made from the claim of the attestation. -/
def Keyed (ext : External) (key : AttestationKey) (att : Attestation) : Prop :=
  ∃ hash, att.claim.claimHash ext = .ok hash ∧ key = getAttestationKey att.claim.getEventNonce hash

namespace Oracle

/-- All votes on the attestations of one event nonce. -/
def votesOn (oracle : Oracle) (nonce : Nat) : List ValAddress :=
  (oracle.getAttestations.filter (fun att => att.claim.getEventNonce.val = nonce)).flatMap
    Attestation.votes

structure Sound (ext : External) (oracle : Oracle) : Prop where
  keyed : ∀ {key att}, oracle.attestations.get key = some att → Keyed ext key att
  positive : ∀ {key att}, oracle.attestations.get key = some att → att.claim.getEventNonce ≠ 0
  observedBelow : ∀ {key att}, oracle.attestations.get key = some att → att.observed = true →
    att.claim.getEventNonce.val ≤ oracle.lastObservedEventNonce
  range : oracle.lastObservedEventNonce < 2 ^ 64
  voted : ∀ {key att validator}, oracle.attestations.get key = some att → validator ∈ att.votes →
    ∃ last, oracle.lastEventNonceByValidator.get validator = some last ∧
      att.claim.getEventNonce.val ≤ last ∧ last < 2 ^ 64
  nodup : ∀ {key att}, oracle.attestations.get key = some att → att.votes.Nodup
  disjoint : ∀ {key other att rival}, oracle.attestations.get key = some att →
    oracle.attestations.get other = some rival → key ≠ other →
    att.claim.getEventNonce = rival.claim.getEventNonce → att.votes.Disjoint rival.votes

/-- An oracle on which nobody has voted yet. -/
structure NoVotes (oracle : Oracle) : Prop where
  attestations : oracle.attestations = KVStore.empty
  range : oracle.lastObservedEventNonce < 2 ^ 64

end Oracle

variable {ext : External} {oracle next : Oracle}

open Oracle

variable {key : AttestationKey} {att : Attestation} {other : AttestationKey}

theorem Keyed.unique (first : Keyed ext key att) (second : Keyed ext other att) : key = other := by
  obtain ⟨hash, hashed, rfl⟩ := first
  obtain ⟨rival, rivalHashed, rfl⟩ := second
  rw [hashed] at rivalHashed
  rw [Except.ok.inj rivalHashed]

theorem Keyed.nonce (keyed : Keyed ext key att) : (ofLex key).1 = att.claim.getEventNonce.val := by
  obtain ⟨hash, _, rfl⟩ := keyed
  rfl

theorem Oracle.NoVotes.sound (fresh : oracle.NoVotes) : Sound ext oracle where
  keyed := by simp [fresh.attestations]
  positive := by simp [fresh.attestations]
  observedBelow := by simp [fresh.attestations]
  range := fresh.range
  voted := by simp [fresh.attestations]
  nodup := by simp [fresh.attestations]
  disjoint := by simp [fresh.attestations]

/-! ## One vote per validator and nonce -/

theorem Oracle.Sound.votesOn_nodup (sound : Sound ext oracle) (nonce : Nat) :
    (oracle.votesOn nonce).Nodup := by
  unfold votesOn Oracle.getAttestations KVStore.values
  rw [filter_map, flatMap_map, nodup_flatMap]
  refine ⟨?_, ?_⟩
  · rintro ⟨key, att⟩ member
    exact sound.nodup (mem_entries.mp (mem_filter.mp member).1)
  · have ordered := oracle.attestations.sorted.filter
      ((fun att : Attestation => decide (att.claim.getEventNonce.val = nonce)) ∘ Prod.snd)
    refine ordered.imp_of_mem ?_
    rintro ⟨key, att⟩ ⟨other, rival⟩ first second below
    obtain ⟨stored, atNonce⟩ := mem_filter.mp first
    obtain ⟨rivalStored, rivalAtNonce⟩ := mem_filter.mp second
    refine sound.disjoint (mem_entries.mp stored) (mem_entries.mp rivalStored) below.ne ?_
    apply Fin.ext
    simp only [Function.comp_apply, decide_eq_true_eq] at atNonce rivalAtNonce
    rw [atNonce, rivalAtNonce]

variable {validator : ValAddress}

/-! ## Voting -/

variable {claim : EthereumClaim} {blockHeight : Nat} {outdated : Nat → Bool}

theorem eventNonce_ne_zero (valid : claim.validateBasic ext = .ok ()) : claim.getEventNonce ≠ 0 := by
  cases claim with
  | sendToCosmos msg =>
    simp only [EthereumClaim.validateBasic, MsgSendToCosmosClaim.validateBasic, bind_eq_ok,
      require_eq_ok] at valid
    obtain ⟨_, _, _, _, _, _, nonzero⟩ := valid
    exact nonzero
  | batchSendToEth msg =>
    simp only [EthereumClaim.validateBasic, MsgBatchSendToEthClaim.validateBasic, bind_eq_ok,
      require_eq_ok] at valid
    obtain ⟨_, nonzero, _⟩ := valid
    exact nonzero
  | erc20Deployed msg =>
    simp only [EthereumClaim.validateBasic, MsgERC20DeployedClaim.validateBasic, bind_eq_ok,
      require_eq_ok] at valid
    obtain ⟨_, _, _, _, _, _, nonzero⟩ := valid
    exact nonzero
  | logicCallExecuted msg =>
    simp only [EthereumClaim.validateBasic, MsgLogicCallExecutedClaim.validateBasic, bind_eq_ok,
      require_eq_ok] at valid
    obtain ⟨_, _, nonzero⟩ := valid
    exact nonzero
  | valsetUpdated msg =>
    simp only [EthereumClaim.validateBasic, MsgValsetUpdatedClaim.validateBasic, bind_eq_ok,
      require_eq_ok] at valid
    obtain ⟨_, _, _, nonzero, _⟩ := valid
    exact nonzero

theorem findOrCreate_cases {hash : Bytes}
    (found : oracle.findOrCreate ext blockHeight claim hash = .ok att) :
    oracle.attestations.get (getAttestationKey claim.getEventNonce hash) = some att ∨
      oracle.attestations.get (getAttestationKey claim.getEventNonce hash) = none ∧ att.votes = [] ∧
        att.observed = false ∧ att.claim = claim := by
  unfold findOrCreate at found
  split at found
  · rename_i stored lookup
    obtain rfl := pure_eq_ok.mp found
    exact .inl lookup
  · rename_i lookup
    simp only [bind_eq_ok, pure_eq_ok] at found
    obtain ⟨_, _, rfl⟩ := found
    exact .inr ⟨lookup, rfl, rfl, rfl⟩

/-- What a successful vote did. -/
structure Voted (ext : External) (oracle : Oracle) (claim : EthereumClaim) (validator : ValAddress)
    (key : AttestationKey) (att : Attestation) (next : Oracle) : Prop where
  valid : claim.validateBasic ext = .ok ()
  following : claim.getEventNonce.val = succU64 (oracle.getLastEventNonceByValidator validator)
  keyed : ∃ hash, claim.claimHash ext = .ok hash ∧ key = getAttestationKey claim.getEventNonce hash
  found : oracle.attestations.get key = some att ∨
    oracle.attestations.get key = none ∧ att.votes = [] ∧ att.observed = false ∧ att.claim = claim
  result : next = { oracle with
    attestations := oracle.attestations.set key { att with votes := att.votes ++ [validator] }
    lastEventNonceByValidator :=
      oracle.lastEventNonceByValidator.set validator claim.getEventNonce.val }

theorem attest_voted {voter : Option ValAddress}
    (attested : oracle.attest ext blockHeight voter claim = .ok next) :
    ∃ validator key att, Voted ext oracle claim validator key att next := by
  simp only [attest, EthereumClaim.getClaimer, bind_eq_ok, orPanic_eq_ok, unwrap_eq_ok, require_eq_ok,
    rewrap_eq_ok, pure_eq_ok] at attested
  obtain ⟨_, ⟨_, valid, _⟩, validator, _, _, _, _, following, hash, hashed, att, found, _, _,
    rfl⟩ := attested
  exact ⟨validator, _, att, valid, following, ⟨hash, hashed, rfl⟩, findOrCreate_cases found, rfl⟩

/-- The attestation that a vote adds to has the nonce and the key of the vote's claim. -/
theorem Voted.keyed_att (voted : Voted ext oracle claim validator key att next)
    (sound : Sound ext oracle) :
    Keyed ext key att ∧ att.claim.getEventNonce = claim.getEventNonce := by
  obtain ⟨hash, hashed, rfl⟩ := voted.keyed
  rcases voted.found with stored | ⟨_, _, _, same⟩
  · have keyed := sound.keyed stored
    refine ⟨keyed, Fin.ext ?_⟩
    rw [← keyed.nonce]
    rfl
  · rw [Keyed, same]
    exact ⟨⟨hash, hashed, rfl⟩, rfl⟩

/-- A validator votes on the nonce after its last one, which it has not voted on. -/
theorem Voted.fresh
    {rival : Attestation} (voted : Voted ext oracle claim validator key att next)
    (sound : Sound ext oracle) (stored : oracle.attestations.get other = some rival)
    (same : rival.claim.getEventNonce = claim.getEventNonce) : validator ∉ rival.votes := by
  intro member
  obtain ⟨last, found, below, bounded⟩ := sound.voted stored member
  have following := voted.following
  have nonzero : claim.getEventNonce.val ≠ 0 := fun zero =>
    eventNonce_ne_zero voted.valid (Fin.ext zero)
  rw [getLastEventNonceByValidator, found, Option.getD_some, succU64] at following
  rw [same] at below
  omega

/-- Overwriting one attestation keeps the invariant, as long as what is written fits in. -/
theorem Oracle.Sound.set (att : Attestation) (sound : Sound ext oracle)
    (stores : next.attestations = oracle.attestations.set key att) (keyed : Keyed ext key att)
    (positive : att.claim.getEventNonce ≠ 0)
    (later : oracle.lastObservedEventNonce ≤ next.lastObservedEventNonce)
    (range : next.lastObservedEventNonce < 2 ^ 64)
    (observedBelow : att.observed = true → att.claim.getEventNonce.val ≤ next.lastObservedEventNonce)
    (nodup : att.votes.Nodup)
    (voted : ∀ validator ∈ att.votes, ∃ last, next.lastEventNonceByValidator.get validator =
      some last ∧ att.claim.getEventNonce.val ≤ last ∧ last < 2 ^ 64)
    (raised : ∀ validator last, oracle.lastEventNonceByValidator.get validator = some last →
      last < 2 ^ 64 →
      ∃ higher, next.lastEventNonceByValidator.get validator = some higher ∧ last ≤ higher ∧
        higher < 2 ^ 64)
    (disjoint : ∀ other rival, oracle.attestations.get other = some rival → other ≠ key →
      rival.claim.getEventNonce = att.claim.getEventNonce → att.votes.Disjoint rival.votes) :
    Sound ext next := by
  have cases : ∀ {other rival}, next.attestations.get other = some rival →
      other = key ∧ rival = att ∨ other ≠ key ∧ oracle.attestations.get other = some rival := by
    intro other rival stored
    rw [stores, get_set] at stored
    split_ifs at stored with same
    · exact .inl ⟨same, (Option.some.inj stored).symm⟩
    · exact .inr ⟨same, stored⟩
  constructor
  case keyed =>
    intro other rival stored
    rcases cases stored with ⟨rfl, rfl⟩ | ⟨_, old⟩
    · exact keyed
    · exact sound.keyed old
  case positive =>
    intro other rival stored
    rcases cases stored with ⟨rfl, rfl⟩ | ⟨_, old⟩
    · exact positive
    · exact sound.positive old
  case observedBelow =>
    intro other rival stored observed
    rcases cases stored with ⟨rfl, rfl⟩ | ⟨_, old⟩
    · exact observedBelow observed
    · exact (sound.observedBelow old observed).trans later
  case range => exact range
  case voted =>
    intro other rival validator stored member
    rcases cases stored with ⟨rfl, rfl⟩ | ⟨_, old⟩
    · exact voted validator member
    · obtain ⟨last, found, below, bounded⟩ := sound.voted old member
      obtain ⟨higher, foundHigher, above, boundedHigher⟩ := raised validator last found bounded
      exact ⟨higher, foundHigher, below.trans above, boundedHigher⟩
  case nodup =>
    intro other rival stored
    rcases cases stored with ⟨rfl, rfl⟩ | ⟨_, old⟩
    · exact nodup
    · exact sound.nodup old
  case disjoint =>
    intro first second left right storedLeft storedRight distinct same
    rcases cases storedLeft with ⟨rfl, rfl⟩ | ⟨notLeft, oldLeft⟩
    · rcases cases storedRight with ⟨rfl, rfl⟩ | ⟨notRight, oldRight⟩
      · exact absurd rfl distinct
      · exact disjoint second right oldRight notRight same.symm
    · rcases cases storedRight with ⟨rfl, rfl⟩ | ⟨notRight, oldRight⟩
      · exact (disjoint first left oldLeft notLeft same).symm
      · exact sound.disjoint oldLeft oldRight distinct same

/-- The votes already on the attestation that a vote adds to. -/
theorem Voted.earlier (voted : Voted ext oracle claim validator key att next) :
    att.votes = [] ∧ att.observed = false ∨ oracle.attestations.get key = some att := by
  rcases voted.found with stored | ⟨_, none, unobserved, _⟩
  · exact .inr stored
  · exact .inl ⟨none, unobserved⟩

/-- The last nonce of a validator only grows when it votes. -/
theorem Voted.raised (voted : Voted ext oracle claim validator key att next) (other : ValAddress)
    (last : Nat)
    (found : oracle.lastEventNonceByValidator.get other = some last) (bounded : last < 2 ^ 64) :
    ∃ higher, next.lastEventNonceByValidator.get other = some higher ∧ last ≤ higher ∧
      higher < 2 ^ 64 := by
  have following := voted.following
  have nonzero : claim.getEventNonce.val ≠ 0 := fun zero =>
    eventNonce_ne_zero voted.valid (Fin.ext zero)
  rw [voted.result, get_set]
  split_ifs with same
  · rw [getLastEventNonceByValidator, ← same, found, Option.getD_some, succU64] at following
    exact ⟨_, rfl, by omega, claim.getEventNonce.isLt⟩
  · exact ⟨last, found, le_refl _, bounded⟩

theorem Oracle.Sound.voted_step (sound : Sound ext oracle)
    (voted : Voted ext oracle claim validator key att next) : Sound ext next := by
  obtain ⟨keyed, sameNonce⟩ := voted.keyed_att sound
  have latest : next.lastEventNonceByValidator.get validator = some claim.getEventNonce.val := by
    simp [voted.result]
  have sameObserved : next.lastObservedEventNonce = oracle.lastObservedEventNonce := by
    rw [voted.result]
  refine sound.set { att with votes := att.votes ++ [validator] } (by rw [voted.result]) keyed
    (sameNonce ▸ eventNonce_ne_zero voted.valid) sameObserved.ge (sameObserved ▸ sound.range) ?_ ?_
      ?_ voted.raised ?_
  · intro observed
    rw [sameObserved]
    rcases voted.earlier with ⟨_, unobserved⟩ | stored
    · rw [unobserved] at observed
      contradiction
    · have below := sound.observedBelow stored observed
      exact below
  · rcases voted.earlier with ⟨none, _⟩ | stored
    · simp [none]
    · refine nodup_append.mpr ⟨sound.nodup stored, nodup_singleton _, ?_⟩
      rintro voter member _ new rfl
      exact voted.fresh sound stored sameNonce (mem_singleton.mp new ▸ member)
  · intro voter member
    rcases mem_append.mp member with old | new
    · rcases voted.earlier with ⟨none, _⟩ | stored
      · simp [none] at old
      · obtain ⟨last, found, below, bounded⟩ := sound.voted stored old
        obtain ⟨higher, foundHigher, above, boundedHigher⟩ := voted.raised voter last found bounded
        exact ⟨higher, foundHigher, below.trans above, boundedHigher⟩
    · rw [mem_singleton.mp new]
      exact ⟨_, latest, (congrArg Fin.val sameNonce).le, claim.getEventNonce.isLt⟩
  · intro other rival stored distinct same
    rw [disjoint_append_left, singleton_disjoint]
    refine ⟨?_, voted.fresh sound stored (same.trans sameNonce)⟩
    rcases voted.earlier with ⟨none, _⟩ | mine
    · simp [none]
    · exact sound.disjoint mine stored distinct.symm same.symm

/-! ## Deleting attestations -/

/-- An oracle with fewer attestations, whose validators may have been set back. -/
theorem Oracle.Sound.sub (sound : Sound ext oracle)
    (fewer : ∀ key att, next.attestations.get key = some att → oracle.attestations.get key = some att)
    (sameObserved : next.lastObservedEventNonce = oracle.lastObservedEventNonce)
    (lasts : ∀ key att validator last, next.attestations.get key = some att →
      oracle.lastEventNonceByValidator.get validator = some last →
      att.claim.getEventNonce.val ≤ last →
      last < 2 ^ 64 → ∃ other, next.lastEventNonceByValidator.get validator = some other ∧
        att.claim.getEventNonce.val ≤ other ∧ other < 2 ^ 64) : Sound ext next where
  keyed stored := sound.keyed (fewer _ _ stored)
  positive stored := sound.positive (fewer _ _ stored)
  observedBelow stored observed := sameObserved ▸ sound.observedBelow (fewer _ _ stored) observed
  range := sameObserved ▸ sound.range
  voted stored member := by
    obtain ⟨last, found, below, bounded⟩ := sound.voted (fewer _ _ stored) member
    exact lasts _ _ _ last stored found below bounded
  nodup stored := sound.nodup (fewer _ _ stored)
  disjoint left right := sound.disjoint (fewer _ _ left) (fewer _ _ right)

/-- What is stored under a key is deleted under that key. -/
theorem Keyed.deleteAttestation (keyed : Keyed ext key att) :
    oracle.deleteAttestation ext att =
      .ok { oracle with attestations := oracle.attestations.delete key } := by
  obtain ⟨hash, hashed, rfl⟩ := keyed
  simp only [Oracle.deleteAttestation, hashed, orPanic, ok_bind]
  rfl

theorem foldlM_deleteAttestation {atts : List Attestation}
    (ran : atts.foldlM (fun current att => if outdated att.claim.getEventNonce.val
      then current.deleteAttestation ext att else pure current) oracle = .ok next) :
    next = { oracle with attestations := next.attestations } ∧
      (∀ key att, next.attestations.get key = some att → oracle.attestations.get key = some att) ∧
      ∀ att ∈ atts, outdated att.claim.getEventNonce.val = true →
        ∀ key, Keyed ext key att → next.attestations.get key = none := by
  induction atts generalizing oracle with
  | nil =>
    obtain rfl : oracle = next := by simpa using ran
    simp
  | cons att rest ih =>
    simp only [foldlM_cons, bind_eq_ok] at ran
    obtain ⟨middle, first, tail⟩ := ran
    obtain ⟨frame, fewer, gone⟩ := ih tail
    by_cases old : outdated att.claim.getEventNonce.val = true
    · rw [if_pos old] at first
      simp only [deleteAttestation, bind_eq_ok, orPanic_eq_ok, pure_eq_ok] at first
      obtain ⟨hash, hashed, rfl⟩ := first
      have smaller : ∀ other rival, next.attestations.get other = some rival →
          other ≠ getAttestationKey att.claim.getEventNonce hash ∧
          oracle.attestations.get other = some rival := by
        intro other rival stored
        have kept := fewer other rival stored
        rw [get_delete] at kept
        split_ifs at kept with same
        exact ⟨same, kept⟩
      refine ⟨frame, fun other rival stored => (smaller other rival stored).2, ?_⟩
      rintro rival member rivalOld other rivalKeyed
      rcases mem_cons.mp member with rfl | later
      · by_contra stored
        obtain ⟨_, found⟩ := Option.ne_none_iff_exists'.mp stored
        exact (smaller _ _ found).1 (rivalKeyed.unique ⟨hash, hashed, rfl⟩)
      · exact gone rival later rivalOld other rivalKeyed
    · rw [if_neg old, pure_eq_ok] at first
      subst first
      refine ⟨frame, fewer, ?_⟩
      rintro rival member rivalOld other rivalKeyed
      rcases mem_cons.mp member with rfl | later
      · exact absurd rivalOld old
      · exact gone rival later rivalOld other rivalKeyed

/-- Deleting by nonce keeps only attestations that do not pass the test. -/
theorem Oracle.Sound.deleteWhere (sound : Sound ext oracle)
    (deleted : oracle.deleteWhere ext outdated = .ok next) :
    next = { oracle with attestations := next.attestations } ∧
      ∀ key att, next.attestations.get key = some att →
        oracle.attestations.get key = some att ∧ outdated att.claim.getEventNonce.val = false := by
  obtain ⟨frame, fewer, gone⟩ := foldlM_deleteAttestation deleted
  refine ⟨frame, fun key att stored => ⟨fewer key att stored, ?_⟩⟩
  by_contra old
  have absent := gone att (mem_values.mpr ⟨key, fewer key att stored⟩) (by simpa using old) key
    (sound.keyed (fewer key att stored))
  rw [absent] at stored
  contradiction

theorem Oracle.Sound.pruned (sound : Sound ext oracle)
    (pruned : oracle.pruneAttestations ext = .ok next) :
    Sound ext next ∧ next = { oracle with attestations := next.attestations } ∧
      ∀ key att, next.attestations.get key = some att → oracle.attestations.get key = some att := by
  unfold pruneAttestations at pruned
  split_ifs at pruned with early
  · obtain rfl := pure_eq_ok.mp pruned
    exact ⟨sound, rfl, fun _ _ stored => stored⟩
  · obtain ⟨frame, kept⟩ := sound.deleteWhere pruned
    have fewer := fun key att stored => (kept key att stored).1
    refine ⟨sound.sub fewer (by rw [frame]) ?_, frame, fewer⟩
    intro key att validator last _ found below bounded
    exact ⟨last, by rw [frame]; exact found, below, bounded⟩

/-- Set back the validators that are beyond a nonce. -/
def setBack (cutoff : Nat) (oracle : Oracle) (validator : ValAddress) : Oracle :=
  if cutoff < oracle.getLastEventNonceByValidator validator then
    oracle.setLastEventNonceByValidator validator cutoff
  else oracle

/-- Nobody is set back below the smaller of the last nonce and the cutoff. -/
theorem foldl_setBack (cutoff : Nat) (validators : List ValAddress) (oracle : Oracle) :
    (validators.foldl (setBack cutoff) oracle).attestations = oracle.attestations ∧
    (validators.foldl (setBack cutoff) oracle).lastObservedEventNonce =
      oracle.lastObservedEventNonce ∧
    (validators.foldl (setBack cutoff) oracle).lastObservedEthereumBlockHeight =
      oracle.lastObservedEthereumBlockHeight ∧
    ∀ validator last, oracle.lastEventNonceByValidator.get validator = some last →
      ∃ other, (validators.foldl (setBack cutoff) oracle).lastEventNonceByValidator.get validator =
        some other ∧ (other = last ∨ other = cutoff) := by
  induction validators generalizing oracle with
  | nil => exact ⟨rfl, rfl, rfl, fun _ last found => ⟨last, found, .inl rfl⟩⟩
  | cons voter rest ih =>
    obtain ⟨sameStore, sameObserved, sameHeight, lasts⟩ := ih (setBack cutoff oracle voter)
    have step : (setBack cutoff oracle voter).attestations = oracle.attestations ∧
        (setBack cutoff oracle voter).lastObservedEventNonce = oracle.lastObservedEventNonce ∧
        (setBack cutoff oracle voter).lastObservedEthereumBlockHeight =
          oracle.lastObservedEthereumBlockHeight := by
      unfold setBack
      split_ifs
      · exact ⟨rfl, rfl, rfl⟩
      · exact ⟨rfl, rfl, rfl⟩
    refine ⟨sameStore.trans step.1, sameObserved.trans step.2.1, sameHeight.trans step.2.2, ?_⟩
    intro validator last found
    have one : ∃ other, (setBack cutoff oracle voter).lastEventNonceByValidator.get validator =
        some other ∧ (other = last ∨ other = cutoff) := by
      unfold setBack
      split_ifs
      · rw [setLastEventNonceByValidator, get_set]
        split_ifs
        · exact ⟨cutoff, rfl, .inr rfl⟩
        · exact ⟨last, found, .inl rfl⟩
      · exact ⟨last, found, .inl rfl⟩
    obtain ⟨middle, foundMiddle, near⟩ := one
    obtain ⟨other, foundOther, close⟩ := lasts validator middle foundMiddle
    refine ⟨other, foundOther, ?_⟩
    rcases close with rfl | rfl
    · exact near
    · exact .inr rfl

theorem Oracle.Sound.rolledBack (sound : Sound ext oracle) {cutoff : U64}
    (rolled : oracle.pruneAttestationsAfterNonce ext cutoff.val = .ok next) :
    Sound ext next ∧ next.lastObservedEventNonce = oracle.lastObservedEventNonce ∧
      next.lastObservedEthereumBlockHeight = oracle.lastObservedEthereumBlockHeight ∧
      ∀ key att, next.attestations.get key = some att → oracle.attestations.get key = some att := by
  unfold pruneAttestationsAfterNonce at rolled
  split_ifs at rolled with refused
  · obtain rfl := pure_eq_ok.mp rolled
    exact ⟨sound, rfl, rfl, fun _ _ stored => stored⟩
  · simp only [bind_eq_ok, pure_eq_ok] at rolled
    obtain ⟨deleted, deletion, rfl⟩ := rolled
    obtain ⟨frame, kept⟩ := sound.deleteWhere deletion
    obtain ⟨sameStore, sameObserved, sameHeight, lasts⟩ := foldl_setBack cutoff.val
      ((oracle.getAttestations.filter (fun att => cutoff.val < att.claim.getEventNonce.val)).flatMap
        Attestation.votes) deleted
    have fewer : ∀ key att, deleted.attestations.get key = some att →
        oracle.attestations.get key = some att :=
      fun key att stored => (kept key att stored).1
    refine ⟨sound.sub (fun key att stored => fewer key att (sameStore ▸ stored)) ?_ ?_, ?_, ?_, ?_⟩
    · exact sameObserved.trans (by rw [frame])
    · intro key att validator last stored found below bounded
      have small := (kept key att (sameStore ▸ stored)).2
      obtain ⟨other, foundOther, near⟩ := lasts validator last (by rw [frame]; exact found)
      refine ⟨other, foundOther, ?_⟩
      rcases near with rfl | rfl
      · exact ⟨below, bounded⟩
      · exact ⟨by simpa using small, cutoff.isLt⟩
    · exact sameObserved.trans (by rw [frame])
    · exact sameHeight.trans (by rw [frame])
    · exact fun key att stored => fewer key att (sameStore ▸ stored)

end GravityBridge.Keeper
