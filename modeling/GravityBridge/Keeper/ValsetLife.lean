import GravityBridge.Keeper.LiveConfirms

/-!
# The life of a validator set

A request is made at the end of a block, examined by slashing once its signing
window has passed, and pruned once Ethereum has moved past it. Requests are made
at growing heights, so those whose window has passed come first, whatever the
window is at the time; and what may be pruned at the end of a block was due to be
examined at the latest at its beginning.
-/

namespace GravityBridge.Keeper

open Lib.Fallible Lib.ByteString Lib.Store Lib.Runs
open GravityBridge.Types List KVStore

/-! ## Slashing for unsigned validator sets -/

/-- The queue of unbonding validators in the staking module. -/
structure UnbondingQueue where
  addresses : List ValAddress
  unbondingHeight : ValAddress → Nat

def Docket.visitUnbonding (queue : UnbondingQueue) (unbondSlashingValsetsWindow : Nat)
    (valset : Valset)
    (confirms : List ValAddress) (docket : Docket) (address : ValAddress) : Go Docket := do
  let validator ← unwrap "Unable to find validator!" (docket.staking.validators.get address)
  docket.slashMissing (.valset valset) confirms (decide (validator.startHeight < int64 valset.height ∧
    validator.status = .unbonding ∧
    valset.height < (queue.unbondingHeight address + unbondSlashingValsetsWindow) %
      2 ^ 64)) validator.operator

/-- `GetUnSlashedValsets`, in ascending order. -/
def Valsets.getUnSlashedValsets (valsets : Valsets)
    (lastSlashedValsetNonce blockHeight signedValsetsWindow : Nat) : List Valset :=
  (valsets.requests.filter (fun nonce _ =>
    decide (lastSlashedValsetNonce ≤ nonce ∧ nonce < valsets.latestValsetNonce + 1))).values.filter
      (fun valset =>
      decide (lastSlashedValsetNonce < valset.nonce ∧
        ¬ blockHeight < (valset.height + signedValsetsWindow) % 2 ^ 64))

/-- What a pass over the validator sets changes, and the nonces that it has examined so far. -/
structure ValsetPass extends Docket where
  lastSlashedValsetNonce : Nat
  examined : List Nat

namespace Chain

variable (ext : External)

def examineValset (chain : Chain) (queue : UnbondingQueue) (currentBondedSet : List Validator)
    (pass : ValsetPass) (valset : Valset) : Go ValsetPass := do
  let confirms ← chain.prepValsetConfirms ext valset.nonce
  let bonded ← currentBondedSet.foldlM (Docket.visitBonded (.valset valset) confirms) pass.toDocket
  let docket ← queue.addresses.foldlM
    (Docket.visitUnbonding queue chain.state.params.unbondSlashingValsetsWindow valset confirms)
      bonded
  pure ⟨docket, valset.nonce, pass.examined ++ [valset.nonce]⟩

def valsetSlashing (chain : Chain) (queue : UnbondingQueue) : Go ValsetPass :=
  if chain.state.blockHeight ≤ chain.state.params.signedValsetsWindow then
    pure ⟨chain.docket, chain.lastSlashedValsetNonce, []⟩
  else
    (chain.state.ledger.valsets.getUnSlashedValsets chain.lastSlashedValsetNonce
      chain.state.blockHeight chain.state.params.signedValsetsWindow).foldlM
      (chain.examineValset ext queue chain.staking.getBondedValidatorsByPower)
      ⟨chain.docket, chain.lastSlashedValsetNonce, []⟩

end Chain

/-! ## Runs -/

inductive ValsetEvent where
  | examined (nonce : Nat)
  | created (nonce : Nat)
  | pruned (nonce : Nat)
  deriving DecidableEq, Repr

inductive LifeLabel where
  | endBlock (queue : UnbondingQueue) (powers : PowerTable) (env : ValsetEnv)
  | within (label : ChainLabel)

/-- Blocks end with the slashing for validator sets, which nothing else stands in for. -/
def LifeLabel.regular (chain : Chain) : LifeLabel → Bool
  | .within (.module (.endBlock _ _)) => false
  | .within (.environment _ lastSlashedValsetNonce _) =>
    lastSlashedValsetNonce == chain.lastSlashedValsetNonce
  | _ => true

/-- What a whole end of a block did to the stored validator sets, in the order of its parts. -/
def blockEvents (pass : ValsetPass) (before after : Ledger) : List ValsetEvent :=
  pass.examined.map .examined ++ (Chain.prunedValsets after before).map .created ++
    (Chain.prunedValsets before after).map .pruned

def Chain.slashed (chain : Chain) (pass : ValsetPass) : Chain :=
  { chain with staking := pass.staking, lastSlashedValsetNonce := pass.lastSlashedValsetNonce }

def Chain.lifeStep (ext : External) : LifeLabel → Chain → List ValsetEvent × Go Chain
  | .endBlock queue powers env, chain =>
      match chain.valsetSlashing ext queue with
      | .error fault => ([], .error fault)
      | .ok pass =>
          match ((chain.slashed pass).endBlock ext powers env).2 with
          | .error fault => ([], .error fault)
          | .ok next => (blockEvents pass chain.state.ledger next.state.ledger, .ok next)
  | .within label, chain => ([], (Chain.step ext label chain).2)

/-- No validator set was ever requested, observed or examined. -/
structure Chain.Valsetless (chain : Chain) : Prop where
  valsets : chain.state.ledger.valsets = ⟨.empty, 0, none⟩
  unslashed : chain.lastSlashedValsetNonce = 0

/-- A run from a start; block heights are signed 64-bit numbers. -/
def Chain.LifeRun (ext : External) (start : Chain → Prop) (trace : List ValsetEvent)
    (chain : Chain) : Prop :=
  Reach (Chain.lifeStep ext) start
    (fun chain label _ _ => chain.state.blockHeight < 2 ^ 63 ∧ label.regular chain = true) trace chain

variable {ext : External} {chain next : Chain} {trace emitted : List ValsetEvent}

def examinedIn (trace : List ValsetEvent) : List Nat :=
  trace.filterMap (fun event => match event with
    | .examined nonce => some nonce
    | _ => none)

def createdIn (trace : List ValsetEvent) : List Nat :=
  trace.filterMap (fun event => match event with
    | .created nonce => some nonce
    | _ => none)

@[simp] theorem examinedIn_append (first second : List ValsetEvent) :
    examinedIn (first ++ second) = examinedIn first ++ examinedIn second := filterMap_append

@[simp] theorem createdIn_append (first second : List ValsetEvent) :
    createdIn (first ++ second) = createdIn first ++ createdIn second := filterMap_append

@[simp] theorem examinedIn_blockEvents (pass : ValsetPass) (before after : Ledger) :
    examinedIn (blockEvents pass before after) = pass.examined := by
  simp [blockEvents, examinedIn, filterMap_map]

@[simp] theorem createdIn_blockEvents (pass : ValsetPass) (before after : Ledger) :
    createdIn (blockEvents pass before after) = Chain.prunedValsets after before := by
  simp [blockEvents, createdIn, filterMap_map]

/-- Every set that is pruned has been examined before, and is not the latest of those made so far. -/
def ExaminedFirst (trace : List ValsetEvent) : Prop :=
  ∀ before nonce after, trace = before ++ .pruned nonce :: after →
    nonce ∈ examinedIn before ∧ nonce < (createdIn before).length

theorem ExaminedFirst.append_quiet (first : ExaminedFirst trace)
    (quiet : ∀ nonce, .pruned nonce ∉ emitted) : ExaminedFirst (trace ++ emitted) := by
  intro before nonce after same
  rcases append_eq_append_iff.mp same with ⟨middle, _, inEmitted⟩ | ⟨middle, inTrace, rest⟩
  · exact absurd (by simp [inEmitted]) (quiet nonce)
  · rcases middle with _ | ⟨event, middle⟩
    · rw [nil_append] at rest
      exact absurd (rest ▸ mem_cons_self) (quiet nonce)
    · obtain ⟨rfl, _⟩ := List.cons.inj rest
      exact first before nonce middle inTrace

theorem ExaminedFirst.append_pruned (first : ExaminedFirst trace) {nonces : List Nat}
    (fit : ∀ nonce ∈ nonces, nonce ∈ examinedIn trace ∧ nonce < (createdIn trace).length) :
    ExaminedFirst (trace ++ nonces.map .pruned) := by
  intro before nonce after same
  rcases append_eq_append_iff.mp same with ⟨middle, rfl, inNonces⟩ | ⟨middle, rfl, rest⟩
  · have member : ValsetEvent.pruned nonce ∈ nonces.map .pruned := by simp [inNonces]
    obtain ⟨examined, created⟩ := fit nonce (by simpa using member)
    rw [examinedIn_append, createdIn_append, length_append]
    exact ⟨mem_append_left _ examined, Nat.lt_add_right _ created⟩
  · rcases middle with _ | ⟨event, middle⟩
    · rw [nil_append] at rest
      have member : ValsetEvent.pruned nonce ∈ nonces.map .pruned := rest ▸ mem_cons_self
      simpa using fit nonce (by simpa using member)
    · obtain ⟨rfl, _⟩ := List.cons.inj rest
      exact first before nonce middle rfl

/-! ## The sets that are due -/

/-- Which numbers of an interval have a property that spreads downwards. -/
theorem exists_threshold (holds : Nat → Prop) {low high : Nat} (ordered : low ≤ high)
    (downwards : ∀ lower upper, low < lower → lower ≤ upper → upper ≤ high → holds upper →
      holds lower) :
    ∃ last, low ≤ last ∧ last ≤ high ∧ ∀ number, low < number → number ≤ high →
      (holds number ↔ number ≤ last) := by
  induction high, ordered using Nat.le_induction with
  | base => exact ⟨low, le_refl _, le_refl _, fun number above within => by omega⟩
  | succ high ordered ih =>
    by_cases top : holds (high + 1)
    · refine ⟨high + 1, by omega, le_refl _, fun number above within => ?_⟩
      exact ⟨fun _ => within, fun _ => downwards number (high + 1) above within (le_refl _) top⟩
    · obtain ⟨last, least, most, threshold⟩ := ih fun lower upper above below within =>
        downwards lower upper above below (by omega)
      refine ⟨last, least, by omega, fun number above within => ?_⟩
      rcases Nat.lt_or_ge high number with final | earlier
      · obtain rfl : number = high + 1 := by omega
        exact ⟨fun held => absurd held top, fun small => by omega⟩
      · exact threshold number above earlier

variable {queue : UnbondingQueue} {pass : ValsetPass} {valset : Valset} {nonce : Nat}
  {handled : List EthereumClaim}

theorem examineValsets_eq_ok {currentBondedSet : List Validator} {sets : List Valset}
    {result : ValsetPass}
    (ran : sets.foldlM (chain.examineValset ext queue currentBondedSet) pass = .ok result) :
    result.examined = pass.examined ++ sets.map Valset.nonce ∧
      result.lastSlashedValsetNonce =
        (sets.map Valset.nonce).getLast?.getD pass.lastSlashedValsetNonce := by
  induction sets generalizing pass with
  | nil =>
    obtain rfl : pass = result := by simpa using ran
    simp
  | cons valset rest ih =>
    rw [foldlM_cons, bind_eq_ok] at ran
    obtain ⟨middle, examined, ran⟩ := ran
    simp only [Chain.examineValset, bind_eq_ok, pure_eq_ok] at examined
    obtain ⟨_, _, _, _, _, _, rfl⟩ := examined
    obtain ⟨log, last⟩ := ih ran
    rw [log, last, map_cons, getLast?_cons]
    simp

/-- The signing window of the set has passed. -/
def Chain.Due (chain : Chain) (valset : Valset) : Prop :=
  chain.state.params.signedValsetsWindow < chain.state.blockHeight ∧
    valset.height + chain.state.params.signedValsetsWindow ≤ chain.state.blockHeight

/-- Stored validator sets, with the nonce of the last one examined and a bound on the heights. -/
structure Valsets.Sound (valsets : Valsets) (lastSlashedValsetNonce height : Nat) : Prop where
  keyed : ∀ nonce valset, valsets.requests.get nonce = some valset → valset.nonce = nonce ∧
    0 < nonce ∧ nonce ≤ valsets.latestValsetNonce ∧ valset.height < height
  rising : ∀ first second left right, valsets.requests.get first = some left →
    valsets.requests.get second = some right →
    first < second → left.height ≤ right.height
  latest : valsets.latestValsetNonce = 0 ∨
    ∃ valset, valsets.requests.get valsets.latestValsetNonce = some valset
  observed : ∀ valset, valsets.lastObservedValset = some valset →
    valset.nonce ≤ valsets.latestValsetNonce
  slashed : lastSlashedValsetNonce ≤ valsets.latestValsetNonce
  pending : ∀ nonce, lastSlashedValsetNonce < nonce → nonce ≤ valsets.latestValsetNonce →
    ∃ valset, valsets.requests.get nonce = some valset

abbrev Chain.Sound (chain : Chain) : Prop :=
  chain.state.ledger.valsets.Sound chain.lastSlashedValsetNonce chain.state.blockHeight

theorem mem_getUnSlashedValsets {valsets : Valsets}
    {lastSlashedValsetNonce blockHeight signedValsetsWindow : Nat} :
    valset ∈ valsets.getUnSlashedValsets lastSlashedValsetNonce blockHeight signedValsetsWindow ↔
      (∃ nonce, valsets.requests.get nonce = some valset ∧ lastSlashedValsetNonce ≤ nonce ∧
        nonce < valsets.latestValsetNonce + 1) ∧ lastSlashedValsetNonce < valset.nonce ∧
      (valset.height + signedValsetsWindow) % 2 ^ 64 ≤ blockHeight := by
  simp only [Valsets.getUnSlashedValsets, mem_filter, mem_values, get_filter,
    Option.filter_eq_some_iff, decide_eq_true_eq, not_lt]

namespace Chain.Sound

theorem unslashed_nonces (sound : chain.Sound) (bounded : chain.state.blockHeight < 2 ^ 63)
    (late : chain.state.params.signedValsetsWindow < chain.state.blockHeight) (nonce : Nat) :
    nonce ∈ (chain.state.ledger.valsets.getUnSlashedValsets chain.lastSlashedValsetNonce
      chain.state.blockHeight chain.state.params.signedValsetsWindow).map Valset.nonce ↔
      chain.lastSlashedValsetNonce < nonce ∧
        ∃ valset, chain.state.ledger.valsets.requests.get nonce = some valset ∧ chain.Due valset := by
  simp only [mem_map, mem_getUnSlashedValsets]
  constructor
  · rintro ⟨valset, ⟨⟨key, stored, _, _⟩, above, window⟩, rfl⟩
    obtain ⟨rfl, _, _, height⟩ := sound.keyed key valset stored
    -- Neither the height nor the window exceeds the block height, so that their sum does not wrap
    -- around.
    rw [Nat.mod_eq_of_lt (by omega)] at window
    exact ⟨above, valset, stored, late, window⟩
  · rintro ⟨above, valset, stored, _, window⟩
    obtain ⟨rfl, _, below, height⟩ := sound.keyed nonce valset stored
    refine ⟨valset, ⟨⟨_, stored, by omega, by omega⟩, above, ?_⟩, rfl⟩
    rwa [Nat.mod_eq_of_lt (by omega)]

/-- A pass examines the sets that follow the last one examined, up to some nonce, and all that are
due. -/
theorem examines (sound : chain.Sound) (bounded : chain.state.blockHeight < 2 ^ 63)
    (ran : chain.valsetSlashing ext queue = .ok pass) :
    chain.lastSlashedValsetNonce ≤ pass.lastSlashedValsetNonce ∧
      pass.lastSlashedValsetNonce ≤ chain.state.ledger.valsets.latestValsetNonce ∧
      pass.examined = List.range' (chain.lastSlashedValsetNonce + 1)
        (pass.lastSlashedValsetNonce - chain.lastSlashedValsetNonce) ∧
      ∀ nonce valset, chain.state.ledger.valsets.requests.get nonce = some valset → chain.Due valset →
        nonce ≤ pass.lastSlashedValsetNonce := by
  unfold Chain.valsetSlashing at ran
  split_ifs at ran with early
  · obtain rfl := pure_eq_ok.mp ran
    refine ⟨le_refl _, sound.slashed, by simp, fun nonce valset _ due => ?_⟩
    exact absurd due.1 (Nat.not_lt.mpr early)
  · obtain ⟨last, least, most, threshold⟩ := exists_threshold
      (fun nonce => ∃ valset, chain.state.ledger.valsets.requests.get nonce = some valset ∧
        chain.Due valset)
      sound.slashed (by
        rintro lower upper above ordered below ⟨valset, stored, late, window⟩
        obtain ⟨other, pending⟩ := sound.pending lower above (ordered.trans below)
        refine ⟨other, pending, late, ?_⟩
        rcases Nat.lt_or_ge lower upper with less | same
        · exact (Nat.add_le_add_right (sound.rising lower upper other valset pending stored less)
            _).trans window
        · obtain rfl := Nat.le_antisymm ordered same
          rw [stored] at pending
          exact Option.some.inj pending ▸ window)
    have nonces : (chain.state.ledger.valsets.getUnSlashedValsets chain.lastSlashedValsetNonce
        chain.state.blockHeight chain.state.params.signedValsetsWindow).map Valset.nonce =
        List.range' (chain.lastSlashedValsetNonce + 1) (last - chain.lastSlashedValsetNonce) := by
      refine List.Pairwise.eq_of_mem_iff (r := (· < ·)) ?_ pairwise_lt_range' fun nonce => ?_
      · refine pairwise_map.mpr (List.Pairwise.filter _ (values_pairwise fun key valset found => ?_))
        rw [get_filter, Option.filter_eq_some_iff] at found
        exact (sound.keyed key valset found.1).1.symm
      · rw [sound.unslashed_nonces bounded (Nat.not_le.mp early), mem_range'_1]
        constructor
        · rintro ⟨above, valset, stored, due⟩
          have := (threshold nonce above (sound.keyed nonce valset stored).2.2.1).mp
            ⟨valset, stored, due⟩
          omega
        · rintro ⟨above, below⟩
          exact ⟨above, (threshold nonce above (by omega)).mpr (by omega)⟩
    obtain ⟨log, ends⟩ := examineValsets_eq_ok ran
    rw [nonces] at log ends
    have final : pass.lastSlashedValsetNonce = last := by
      rw [ends, getLast?_range']
      split_ifs <;> simp <;> omega
    rw [final]
    refine ⟨least, most, by simpa using log, fun nonce valset stored due => ?_⟩
    rcases Nat.lt_or_ge chain.lastSlashedValsetNonce nonce with above | below
    · exact (threshold nonce above (sound.keyed nonce valset stored).2.2.1).mp ⟨valset, stored, due⟩
    · exact below.trans least

end Chain.Sound

/-! ## What the parts of a block do -/

namespace Valsets.Sound

variable {valsets later : Valsets} {last height : Nat}

variable (sound : valsets.Sound last height)

include sound

/-- More of the sets have been examined. -/
theorem examined {further : Nat} (more : last ≤ further)
    (within : further ≤ valsets.latestValsetNonce) : valsets.Sound further height :=
  ⟨sound.keyed, sound.rising, sound.latest, sound.observed, within,
    fun nonce above => sound.pending nonce (more.trans_lt above)⟩

theorem observes (requests : later.requests = valsets.requests)
    (latest : later.latestValsetNonce = valsets.latestValsetNonce)
    (observed : later.lastObservedValset = valsets.lastObservedValset ∨
      ∃ valset, later.lastObservedValset = some valset ∧
        (valset.nonce = 0 ∨ ∃ stored, valsets.requests.get valset.nonce = some stored)) :
        later.Sound last height where
  keyed := by rw [requests, latest]; exact sound.keyed
  rising := by rw [requests]; exact sound.rising
  latest := by rw [requests, latest]; exact sound.latest
  observed valset seen := by
    rw [latest]
    rcases observed with same | ⟨other, sees, zero | ⟨stored, found⟩⟩
    · exact sound.observed valset (same ▸ seen)
    · rw [← Option.some.inj (sees.symm.trans seen), zero]
      exact Nat.zero_le _
    · rw [← Option.some.inj (sees.symm.trans seen)]
      exact (sound.keyed other.nonce stored found).2.2.1
  slashed := by rw [latest]; exact sound.slashed
  pending := by rw [requests, latest]; exact sound.pending

theorem requests (requests : valsets.Requests height later) :
    later.Sound last (height + 1) := by
  cases requests with
  | none _ =>
    refine ⟨fun nonce valset found => ?_, sound.rising, sound.latest, sound.observed, sound.slashed,
      sound.pending⟩
    obtain ⟨same, positive, below, earlier⟩ := sound.keyed nonce valset found
    exact ⟨same, positive, below, Nat.lt_succ_of_lt earlier⟩
  | @next added following made _ =>
    refine ⟨fun nonce valset found => ?_, fun first second left right firstIn secondIn less => ?_,
      .inr ⟨added, ?_⟩, fun valset seen => ?_, ?_, fun nonce above below => ?_⟩
    · rw [get_set] at found
      split_ifs at found with same
      · obtain rfl := Option.some.inj found
        exact ⟨same.symm, by omega, by rw [same], by omega⟩
      · obtain ⟨known, positive, below, earlier⟩ := sound.keyed nonce valset found
        exact ⟨known, positive, by simp only; omega, by omega⟩
    · rw [get_set] at firstIn secondIn
      split_ifs at firstIn secondIn with newFirst newSecond newSecond
      · omega
      · have := (sound.keyed second right secondIn).2.2.1
        omega
      · obtain rfl := Option.some.inj secondIn
        have := (sound.keyed first left firstIn).2.2.2
        omega
      · exact sound.rising first second left right firstIn secondIn less
    · rw [get_set, if_pos rfl]
    · have := sound.observed valset seen
      simp only
      omega
    · have := sound.slashed
      simp only
      omega
    · rw [get_set]
      split_ifs with new
      · exact ⟨added, rfl⟩
      · simp only at below
        exact sound.pending nonce above (by omega)

/-- Sets that were examined and are not the latest may go. -/
theorem pruned (latest : later.latestValsetNonce = valsets.latestValsetNonce)
    (observed : later.lastObservedValset = valsets.lastObservedValset)
    (kept : ∀ nonce valset, later.requests.get nonce = some valset →
      valsets.requests.get nonce = some valset)
    (stays : ∀ nonce valset, valsets.requests.get nonce = some valset →
      last < nonce ∨ nonce = valsets.latestValsetNonce → later.requests.get nonce = some valset) :
    later.Sound last height where
  keyed nonce valset found := by
    rw [latest]
    exact sound.keyed nonce valset (kept nonce valset found)
  rising first second left right firstIn secondIn :=
    sound.rising first second left right (kept first left firstIn) (kept second right secondIn)
  latest := by
    rw [latest]
    refine sound.latest.imp id fun ⟨valset, stored⟩ => ⟨valset, stays _ valset stored (.inr rfl)⟩
  observed := by rw [latest, observed]; exact sound.observed
  slashed := by rw [latest]; exact sound.slashed
  pending nonce above below := by
    rw [latest] at below
    obtain ⟨valset, stored⟩ := sound.pending nonce above below
    exact ⟨valset, stays nonce valset stored (.inl above)⟩

end Valsets.Sound

/-- The sets that a request added. -/
theorem Valsets.Requests.created {valsets later : Valsets} {height : Nat}
    (requests : valsets.Requests height later) :
    valsets.latestValsetNonce ≤ later.latestValsetNonce ∧
      ∀ nonce valset, later.requests.get nonce = some valset →
      valsets.requests.get nonce = Option.none →
      nonce ∈ List.range' (valsets.latestValsetNonce + 1)
        (later.latestValsetNonce - valsets.latestValsetNonce) ∧ valset.height = height := by
  cases requests with
  | none _ => exact ⟨le_refl _, fun nonce valset found absent => by simp [absent] at found⟩
  | next following made _ =>
    refine ⟨by simp [following], fun nonce valset found absent => ?_⟩
    rw [get_set, absent] at found
    split_ifs at found with same
    exact ⟨by simp [same, following], Option.some.inj found ▸ made⟩

theorem Valsets.Requests.latest_le {valsets later : Valsets} {height : Nat}
    (requests : valsets.Requests height later) :
    later.latestValsetNonce ≤ valsets.latestValsetNonce + 1 := by
  cases requests with
  | none _ => exact Nat.le_succ _
  | next following _ _ => exact following.le

theorem mem_prunedValsets {before after : Ledger} : nonce ∈ Chain.prunedValsets before after ↔
    (∃ valset, before.valsets.requests.get nonce = some valset) ∧
      after.valsets.requests.get nonce = none := by
  simp only [Chain.prunedValsets, mem_filter, mem_map, Prod.exists, exists_and_right, exists_eq_right,
    mem_entries, Option.isNone_iff_eq_none]


/-- What may be pruned at the end of a block was there before and due, and is not the latest set. -/
theorem prunable_examined {tallied requested : Ledger} {context : Context} {last : Nat}
    (sound : requested.valsets.Sound last (chain.state.blockHeight + 1))
    (tally : tallied.valsets.requests = chain.state.ledger.valsets.requests)
    (requests : tallied.valsets.Requests chain.state.blockHeight requested.valsets)
    (height : context.blockHeight = chain.state.blockHeight)
    (params : context.params = chain.state.params)
    (due : ∀ nonce valset, chain.state.ledger.valsets.requests.get nonce = some valset →
      chain.Due valset → nonce ≤ last) (stored : requested.valsets.requests.get nonce = some valset)
    (prunable : requested.valsets.Prunable context valset) :
    nonce ≤ last ∧ nonce < requested.valsets.latestValsetNonce := by
  obtain ⟨lastObserved, observed, _, below, old⟩ := prunable
  rw [height, params] at old
  obtain ⟨rfl, _, _, _⟩ := sound.keyed nonce valset stored
  refine ⟨?_, below.trans_le (sound.observed lastObserved observed)⟩
  rcases Option.eq_none_or_eq_some (tallied.valsets.requests.get valset.nonce) with
    absent | ⟨earlier, found⟩
  · have new := (requests.created.2 valset.nonce valset stored absent).2
    omega
  · obtain rfl := Option.some.inj (stored.symm.trans (requests.within _ _ found))
    exact due valset.nonce valset (tally ▸ found) ⟨by omega, by omega⟩

/-- The end of a block, with the slashing at its beginning. -/
theorem Chain.Sound.endBlock (sound : chain.Sound) (bounded : chain.state.blockHeight < 2 ^ 63)
    (slashed : chain.valsetSlashing ext queue = .ok pass)
    (ended : BlockEnd ext chain.state next.state)
    (last : next.lastSlashedValsetNonce = pass.lastSlashedValsetNonce) :
    next.Sound ∧ chain.state.ledger.valsets.latestValsetNonce ≤
      next.state.ledger.valsets.latestValsetNonce ∧
      Chain.prunedValsets next.state.ledger chain.state.ledger =
        List.range' (chain.state.ledger.valsets.latestValsetNonce + 1)
          (next.state.ledger.valsets.latestValsetNonce -
            chain.state.ledger.valsets.latestValsetNonce) ∧
      ∀ nonce ∈ Chain.prunedValsets chain.state.ledger next.state.ledger,
        0 < nonce ∧ nonce ≤ next.lastSlashedValsetNonce ∧
          nonce < next.state.ledger.valsets.latestValsetNonce := by
  obtain ⟨more, within, _, due⟩ := sound.examines bounded slashed
  obtain @⟨tallied, requested, context, moved, _, requests, _, heightEq, paramsEq, result, height,
    _⟩ := ended
  have tallySound := (sound.examined more within).observes moved.requests moved.latest moved.observed
  have requestSound := tallySound.requests requests
  have frame := pruneValsets_frame context requested
  have latest : next.state.ledger.valsets.latestValsetNonce =
      requested.valsets.latestValsetNonce := by
    rw [result, frame]
  have prunable : ∀ nonce valset, requested.valsets.requests.get nonce = some valset →
      requested.valsets.Prunable context valset →
      nonce ≤ pass.lastSlashedValsetNonce ∧ nonce < requested.valsets.latestValsetNonce :=
        fun nonce valset stored =>
    prunable_examined requestSound moved.requests requests heightEq paramsEq due stored
  have kept : ∀ nonce valset, next.state.ledger.valsets.requests.get nonce = some valset →
      requested.valsets.requests.get nonce = some valset := by
    intro nonce valset found
    rw [result] at found
    exact (get_pruneValsets.mp found).1
  have after : next.Sound := by
    unfold Chain.Sound
    rw [last, height]
    refine requestSound.pruned latest (by rw [result, frame]) kept fun nonce valset stored stays => ?_
    rw [result]
    refine get_pruneValsets.mpr ⟨stored, fun gone => ?_⟩
    have := prunable nonce valset stored gone
    omega
  have created := requests.created
  rw [moved.latest] at created
  refine ⟨after, latest ▸ created.1, ?_, fun nonce member => ?_⟩
  · refine List.Pairwise.eq_of_mem_iff (r := (· < ·))
      ((pairwise_map.mpr (KVStore.sorted _)).filter _) pairwise_lt_range' fun nonce => ?_
    rw [mem_prunedValsets]
    constructor
    · rintro ⟨⟨valset, found⟩, absent⟩
      rw [latest]
      exact (created.2 nonce valset (kept nonce valset found) (moved.requests ▸ absent)).1
    · intro inRange
      have bounds := mem_range'_1.mp inRange
      rw [latest] at bounds
      -- A request takes one nonce, so that the new one is the latest, which is stored.
      have one : requested.valsets.latestValsetNonce ≤
          chain.state.ledger.valsets.latestValsetNonce + 1 := by
        rw [← moved.latest]
        exact requests.latest_le
      refine ⟨?_, Option.eq_none_iff_forall_ne_some.mpr fun valset found => ?_⟩
      · have newest : nonce = next.state.ledger.valsets.latestValsetNonce := by omega
        rw [newest]
        exact after.latest.resolve_left (by omega)
      · have := (sound.keyed nonce valset found).2.2.1
        omega
  · obtain ⟨⟨valset, found⟩, gone⟩ := mem_prunedValsets.mp member
    have stored : requested.valsets.requests.get nonce = some valset :=
      requests.within _ _ (moved.requests ▸ found)
    have prune : requested.valsets.Prunable context valset := by
      by_contra stays
      rw [result, get_pruneValsets.mpr ⟨stored, stays⟩] at gone
      contradiction
    rw [last, latest]
    exact ⟨(sound.keyed nonce valset found).2.1, prunable nonce valset stored prune⟩

/-! ## Steps -/

theorem step_height {label : Label} {state final : State}
    (within : ∀ powers env, label ≠ .endBlock powers env)
    (took : step ext label state = (handled, .ok final)) :
    final.blockHeight = state.blockHeight := by
  cases step_cases took with
  | ended _ _ _ => exact absurd rfl (within _ _)
  | _ => rfl

/-- Within a block neither the height nor the mark of slashing changes. -/
theorem Chain.step_regular {label : ChainLabel}
    (regular : (LifeLabel.within label).regular chain = true)
    (took : Chain.step ext label chain = (handled, .ok next)) :
    next.state.blockHeight = chain.state.blockHeight ∧
      next.lastSlashedValsetNonce = chain.lastSlashedValsetNonce := by
  cases Chain.step_cases took with
  | delivered within stepped => exact ⟨step_height within stepped, rfl⟩
  | ended _ _ _ => simp [LifeLabel.regular] at regular
  | environment => exact ⟨rfl, by simpa [LifeLabel.regular] using regular⟩
  | _ => exact ⟨rfl, rfl⟩

theorem Chain.endBlock_eq_ok {powers : PowerTable} {env : ValsetEnv}
    (ran : (chain.endBlock ext powers env).2 = .ok next) :
    BlockEnd ext chain.state next.state ∧ next.lastSlashedValsetNonce =
      chain.lastSlashedValsetNonce := by
  simp only [Chain.endBlock] at ran
  split at ran
  · contradiction
  · simp only [bind_eq_ok, pure_eq_ok] at ran
    obtain ⟨state, stepped, rfl⟩ := ran
    exact ⟨step_endBlock (Prod.ext rfl stepped), rfl⟩

/-- The stored sets are sound, and the events of the run account for them. -/
structure Chain.Alive (chain : Chain) (trace : List ValsetEvent) : Prop where
  sound : chain.Sound
  created : createdIn trace = List.range' 1 chain.state.ledger.valsets.latestValsetNonce
  examined : examinedIn trace = List.range' 1 chain.lastSlashedValsetNonce
  first : ExaminedFirst trace

theorem Chain.Valsetless.alive (blank : chain.Valsetless) : chain.Alive [] := by
  refine ⟨?_, ?_, ?_, ?_⟩
  · unfold Chain.Sound
    rw [blank.valsets, blank.unslashed]
    exact ⟨by simp, by simp, .inl rfl, by simp, le_refl _,
      fun nonce above below => by simp only at below; omega⟩
  · rw [blank.valsets]
    rfl
  · rw [blank.unslashed]
    rfl
  · intro before nonce after same
    simp at same

theorem range'_append_range' {low high : Nat} (ordered : low ≤ high) :
    List.range' 1 low ++ List.range' (low + 1) (high - low) = List.range' 1 high := by
  rw [Nat.add_comm low 1, range'_append_1, Nat.add_sub_cancel' ordered]

theorem Chain.Alive.step (alive : chain.Alive trace) {label : LifeLabel}
    (bounded : chain.state.blockHeight < 2 ^ 63)
    (regular : label.regular chain = true)
    (took : Chain.lifeStep ext label chain = (emitted, .ok next)) :
    next.Alive (trace ++ emitted) ∧ chain.lastSlashedValsetNonce ≤ next.lastSlashedValsetNonce := by
  cases label with
  | endBlock queue powers env =>
    simp only [Chain.lifeStep] at took
    split at took
    · simp at took
    · rename_i pass slashed
      split at took
      · simp at took
      · rename_i final ran
        obtain ⟨rfl, same⟩ := Prod.mk.inj took
        obtain rfl : next = final := (Except.ok.inj same).symm
        obtain ⟨ended, last⟩ := Chain.endBlock_eq_ok ran
        obtain ⟨more, _, log, _⟩ := alive.sound.examines bounded slashed
        obtain ⟨sound, grown, created, pruned⟩ := alive.sound.endBlock bounded slashed ended last
        have marked : next.lastSlashedValsetNonce = pass.lastSlashedValsetNonce := last
        have createdAll : createdIn trace ++ Chain.prunedValsets next.state.ledger
            chain.state.ledger = List.range' 1 next.state.ledger.valsets.latestValsetNonce := by
          rw [alive.created, created, range'_append_range' grown]
        have examinedAll : examinedIn trace ++ pass.examined =
            List.range' 1 next.lastSlashedValsetNonce := by
          rw [alive.examined, log, ← marked, range'_append_range' (marked ▸ more)]
        refine ⟨⟨sound, by simpa using createdAll, by simpa using examinedAll, ?_⟩, marked ▸ more⟩
        have quiet : ∀ nonce, ValsetEvent.pruned nonce ∉ pass.examined.map .examined ++
            (Chain.prunedValsets next.state.ledger chain.state.ledger).map .created := by simp
        rw [blockEvents, ← append_assoc]
        refine (alive.first.append_quiet quiet).append_pruned fun nonce member => ?_
        obtain ⟨positive, examined, below⟩ := pruned nonce member
        have logged : examinedIn (trace ++ (pass.examined.map ValsetEvent.examined ++
            (Chain.prunedValsets next.state.ledger chain.state.ledger).map .created)) =
            List.range' 1 next.lastSlashedValsetNonce := by
          rw [← examinedAll]
          simp [examinedIn, filterMap_map]
        have made : createdIn (trace ++ (pass.examined.map ValsetEvent.examined ++
            (Chain.prunedValsets next.state.ledger chain.state.ledger).map .created)) =
            List.range' 1 next.state.ledger.valsets.latestValsetNonce := by
          rw [← createdAll]
          simp [createdIn, filterMap_map]
        rw [logged, made, mem_range'_1, length_range']
        omega
  | within label =>
    simp only [Chain.lifeStep, Prod.mk.injEq] at took
    obtain ⟨rfl, ran⟩ := took
    have stepped : Chain.step ext label chain = ((Chain.step ext label chain).1, .ok next) :=
      Prod.ext rfl ran
    obtain ⟨height, last⟩ := Chain.step_regular regular stepped
    rw [append_nil]
    refine ⟨?_, last.ge⟩
    rcases (Chain.step_signing stepped).watched with ⟨_, _, _, _, _, _, _, later, _⟩ | watched
    · omega
    · refine ⟨?_, ?_, by rw [last]; exact alive.examined, alive.first⟩
      · unfold Chain.Sound
        rw [last, height]
        exact alive.sound.observes watched.requests watched.latest watched.observed
      · rw [watched.latest]
        exact alive.created

theorem Chain.LifeRun.alive (run : Chain.LifeRun ext Chain.Valsetless trace chain) :
    chain.Alive trace :=
  Reach.invariant (motive := fun trace chain => Chain.Alive chain trace) (fun _ blank => blank.alive)
    (fun _ _ _ _ _ _ alive took permitted => (alive.step permitted.1 permitted.2 took).1) run

/-- Along a further run the mark of slashing only rises. -/
theorem Chain.LifeRun.slashed_mono {later : Chain} {more : List ValsetEvent}
    (run : Chain.LifeRun ext Chain.Valsetless trace chain)
    (further : Chain.LifeRun ext (· = chain) more later) :
    chain.lastSlashedValsetNonce ≤ later.lastSlashedValsetNonce := by
  refine Reach.invariant (motive := fun more later =>
    later.Alive (trace ++ more) ∧ chain.lastSlashedValsetNonce ≤
      later.lastSlashedValsetNonce) (fun start same => ?_)
    (fun _ _ _ _ _ _ ⟨alive, risen⟩ took permitted => ?_) further |>.2
  · subst same
    rw [append_nil]
    exact ⟨run.alive, le_refl _⟩
  · obtain ⟨alive, rises⟩ := alive.step permitted.1 permitted.2 took
    rw [← append_assoc]
    exact ⟨alive, risen.trans rises⟩

/-- In every run: the sets are made with the nonces one, two, three and so on; the latest is there
from the first on; they are examined in the same order, each once, and those that are pruned have
been examined before and are not the latest; the mark of slashing stays below the latest nonce and
never falls. -/
theorem valset_life_cycle (run : Chain.LifeRun ext Chain.Valsetless trace chain) :
    createdIn trace = List.range' 1 chain.state.ledger.valsets.latestValsetNonce ∧
    (createdIn trace ≠ [] →
      ∃ valset, chain.state.ledger.valsets.requests.get
        chain.state.ledger.valsets.latestValsetNonce = some valset) ∧
    examinedIn trace = List.range' 1 chain.lastSlashedValsetNonce ∧
    (∀ before nonce after, trace = before ++ .pruned nonce :: after →
      (examinedIn before).count nonce = 1 ∧ nonce < (createdIn before).length) ∧
    chain.lastSlashedValsetNonce ≤ chain.state.ledger.valsets.latestValsetNonce ∧
    ∀ more later, Chain.LifeRun ext (· = chain) more later →
      chain.lastSlashedValsetNonce ≤ later.lastSlashedValsetNonce := by
  have alive := run.alive
  refine ⟨alive.created, fun made => alive.sound.latest.resolve_left fun zero => made ?_,
    alive.examined, fun before nonce after same => ?_, alive.sound.slashed,
    fun more later further => run.slashed_mono further⟩
  · rw [alive.created, zero]
    rfl
  · obtain ⟨examined, below⟩ := alive.first before nonce after same
    have once : (examinedIn before).Nodup := by
      have all : (examinedIn trace).Nodup := alive.examined ▸ List.nodup_range'
      rw [same, examinedIn_append] at all
      exact all.of_append_left
    exact ⟨List.count_eq_one_of_mem once examined, below⟩

/-- The one validator ends a block; in a block in which someone starts to unbond a new set is due. -/
def soleBlock (lastUnbondingHeight : Nat) : LifeLabel :=
  .endBlock ⟨[], fun _ => 0⟩ (soleValidator (ascii "validator") 10) ⟨[], lastUnbondingHeight⟩

/-- Two sets are made, both are due at once, and Ethereum takes the second. -/
def replacedRun : List LifeLabel :=
  [.within (.setOrchestratorAddress ⟨ascii "gravity1validator", ascii "gravity1orchestrator",
    hex localnet 7⟩), soleBlock 0, soleBlock 2,
    .within (.module (.updateParams { stakeGenesis.params with signedValsetsWindow := 1 })),
    .within (.module
      (exampleVote (.valsetUpdated ⟨1, 2, 100, [⟨4294967296, hex localnet 7⟩], some 0,
        hex localnet zeroAddress, ascii "gravity1orchestrator"⟩))),
    soleBlock 0]

def Chain.executeLife (ext : External) (chain : Chain) (labels : List LifeLabel) :
    Option (List ValsetEvent × Chain) :=
  run (Chain.lifeStep ext) (fun before label _ _ =>
    decide (before.state.blockHeight < 2 ^ 63) && label.regular before) labels chain

theorem replacedRun_ran : (Chain.executeLife localnet stakeLaunch replacedRun).isSome = true := by
  decide +kernel

def replacedChain : Chain :=
  ((Chain.executeLife localnet stakeLaunch replacedRun).get replacedRun_ran).2

theorem replacedRun_events :
    ((Chain.executeLife localnet stakeLaunch replacedRun).get replacedRun_ran).1 =
    [.created 1, .created 2, .examined 1, .examined 2, .pruned 1] := by decide +kernel

theorem replaced_valset_pruned : replacedChain.state.ledger.valsets.latestValsetNonce = 2 ∧
    replacedChain.lastSlashedValsetNonce = 2 ∧
    (examinedIn [.created 1, .created 2, .examined 1, .examined 2]).count 1 = 1 ∧
    ∃ valset, replacedChain.state.ledger.valsets.requests.get
      replacedChain.state.ledger.valsets.latestValsetNonce = some valset := by
  have reach : Chain.LifeRun localnet Chain.Valsetless [.created 1, .created 2, .examined 1,
      .examined 2, .pruned 1]
      replacedChain := by
    rw [← replacedRun_events]
    exact reach_of_isSome (fun _ _ _ _ permitted => by simpa using permitted)
      ⟨rfl, rfl⟩ replacedRun_ran
  obtain ⟨_, latest, _, pruned, _⟩ := valset_life_cycle reach
  exact ⟨by decide +kernel, by decide +kernel,
    (pruned [.created 1, .created 2, .examined 1, .examined 2] 1 [] rfl).1, latest (by decide)⟩

end GravityBridge.Keeper
