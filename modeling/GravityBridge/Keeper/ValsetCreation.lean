import GravityBridge.Keeper.Params
import GravityBridge.Keeper.Valset
import GravityBridge.Types.ClaimComponents

/-!
# When the creation of a validator set halts the chain

The end of a block asks for the current validator set and tolerates one error only, that no
validator is bonded, and that one only once a request is stored. Every other error of the snapshot
is a panic: no bonded validator has registered a key, the registered ones have no power, or the
reward is not a bridged asset. A new request takes the next nonce, which is 0 after the last 64-bit
number, and its event names the bridge contract, which the parameters may leave unset.
-/

namespace GravityBridge.Keeper

open Lib.Fallible Lib.ByteString Lib.Store
open GravityBridge.Types

variable {ext : External} {context : Context} {ledger : Ledger} {bonded : List BondedValidator}
  {env : ValsetEnv}

/-! ## When a snapshot can be taken -/

/-- The validators with a key have power and different keys, and the reward is unset or a bridged
asset. -/
structure Ledger.Snapshotable (context : Context) (ledger : Ledger)
    (bonded : List BondedValidator) : Prop where
  power : 0 < ((bridgeMembers bonded).map Prod.fst).sum
  keys : ((bridgeMembers bonded).map Prod.snd).Nodup
  reward : context.params.valsetReward.isValid = false ∨ context.params.valsetReward.amount = 0 ∨
    ∃ origin, ledger.classifyDenom context.params.valsetReward.denom = .ok origin

theorem valsetReward_succeeds : (∃ reward, ledger.valsetReward context = .ok reward) ↔
      context.params.valsetReward.isValid = false ∨ context.params.valsetReward.amount = 0 ∨
        ∃ origin, ledger.classifyDenom context.params.valsetReward.denom = .ok origin := by
  unfold Ledger.valsetReward
  split_ifs with unset
  · rcases unset with invalid | zero
    · exact iff_of_true ⟨_, rfl⟩ (.inl invalid)
    · exact iff_of_true ⟨_, rfl⟩ (.inr (.inl zero))
  · obtain ⟨valid, nonzero⟩ := not_or.mp unset
    rw [or_iff_right valid, or_iff_right nonzero]
    simp [Ledger.rewardToERC20Lookup, Bool.eq_true_of_not_eq_false valid, nonzero, Unique.exists_iff]

/-- The members of a snapshot. -/
def currentMembers (ext : External) (bonded : List BondedValidator) : List InternalBridgeValidator :=
  sortMembers ext ((bridgeMembers bonded).map (fun member =>
    ⟨normalizeValidatorPower member.1 ((bridgeMembers bonded).map Prod.fst).sum, member.2⟩))

/-- The validator set that a snapshot with this reward makes. -/
def Ledger.snapshot (ext : External) (context : Context) (ledger : Ledger)
    (bonded : List BondedValidator) (reward : EthAddress × Nat) : Valset :=
  ⟨succU64 ledger.valsets.latestValsetNonce,
    (currentMembers ext bonded).map (InternalBridgeValidator.toExternal ext), context.blockHeight,
    some reward.2, hex ext reward.1⟩

theorem getCurrentValset_eq_ok {vs : Valset} : ledger.getCurrentValset ext context bonded = .ok vs ↔
      0 < ((bridgeMembers bonded).map Prod.fst).sum ∧ ((bridgeMembers bonded).map Prod.snd).Nodup ∧
        ∃ reward, ledger.valsetReward context = .ok reward ∧
          ledger.snapshot ext context bonded reward = vs := by
  simp only [Ledger.getCurrentValset, newValset, bind_eq_ok, require_eq_ok, check_eq_ok,
    rewrap_eq_ok, pure_eq_ok, List.map_map, List.map_eq_nil_iff, Unique.exists_iff, ne_eq,
    Ledger.snapshot, currentMembers]
  constructor
  · rintro ⟨-, powered, reward, found, some, distinct, made⟩
    exact ⟨Nat.pos_of_ne_zero (powered.resolve_left some), distinct, reward, found, made⟩
  · rintro ⟨power, distinct, reward, found, made⟩
    have some : bridgeMembers bonded ≠ [] := by
      intro none
      simp [none] at power
    have anyone : bonded ≠ [] := by
      rintro rfl
      exact some rfl
    exact ⟨anyone, .inr power.ne', reward, found, some, distinct, made⟩

theorem getCurrentValset_succeeds :
    (∃ vs, ledger.getCurrentValset ext context bonded = .ok vs) ↔
      ledger.Snapshotable context bonded := by
  simp only [getCurrentValset_eq_ok]
  constructor
  · rintro ⟨_, power, keys, reward, found, -⟩
    exact ⟨power, keys, valsetReward_succeeds.mp ⟨reward, found⟩⟩
  · rintro ⟨power, keys, reward⟩
    obtain ⟨reward, found⟩ := valsetReward_succeeds.mpr reward
    exact ⟨_, power, keys, reward, found, rfl⟩

/-- Only the absence of bonded validators is reported as such. -/
theorem getCurrentValset_noValidators {cause : Err}
    (failed : ledger.getCurrentValset ext context bonded = .error (.error cause)) :
    cause.code = .noValidators ↔ bonded = [] := by
  by_cases none : bonded = []
  · subst none
    cases failed
    exact iff_of_true rfl rfl
  · refine iff_of_false ?_ none
    have rewarded : ∀ cause, ledger.valsetReward context ≠ .error (.error cause) := by
      intro cause
      unfold Ledger.valsetReward Ledger.rewardToERC20Lookup check
      split_ifs
      · nofun
      · rcases ledger.classifyDenom context.params.valsetReward.denom with ⟨_ | _⟩ | _ <;> nofun
      · nofun
    simp only [Ledger.getCurrentValset, require, if_pos none, ok_bind, check] at failed
    split_ifs at failed with powered
    · rw [ok_bind] at failed
      rcases found : ledger.valsetReward context with ⟨_ | _⟩ | ⟨token, amount⟩
      · exact absurd found (rewarded _)
      · simp [found] at failed
      · rw [found, ok_bind] at failed
        -- what is left to fail is the new set, and its errors are wrapped
        revert failed
        dsimp only
        generalize newValset ext _ _ _ _ _ = made
        rcases made with ⟨_ | _⟩ | _ <;> intro failed <;> cases failed
        decide
    · simp [panicking] at failed

theorem checkpoint_of_snapshot (gravityId : context.params.gravityId.length ≤ 32)
    (reward : EthAddress × Nat) :
    ∃ checkpoint, (ledger.snapshot ext context bonded reward).getCheckpoint ext
      context.params.gravityId = .ok checkpoint := by
  simp [Valset.getCheckpoint, strToFixByteArray, gravityId, Ledger.snapshot, validateEthAddress_hex,
    Unique.exists_iff]

/-! ## When the end of a block goes through -/

/-- A new request can be stored and announced. -/
structure Ledger.Requestable (params : Params) (ledger : Ledger) : Prop where
  fresh : ledger.valsets.requests.get (ledger.valsets.latestValsetNonce + 1) = none
  room : ledger.valsets.latestValsetNonce + 1 < 2 ^ 64
  bridge : params.bridgeEthereumAddress ≠ []

/-- The next nonce is accepted as the latest one exactly when it did not wrap around. -/
theorem le_succU64_iff {number : Nat} : number ≤ succU64 number ↔ number + 1 < 2 ^ 64 := by
  unfold succU64
  omega

/-- Accepted parameters name the bridge contract or leave it unset. -/
theorem namesBridge_iff_of_accepted {params : Params} (accepted : params.Accepted) :
    params.NamesBridge ↔ params.bridgeEthereumAddress ≠ [] := by
  constructor
  · intro named unset
    rw [Params.NamesBridge, unset] at named
    cases named
  · exact accepted.bridgeContract.resolve_left

theorem setValsetRequest_succeeds (accepted : context.params.Accepted) :
    (∃ next, ledger.setValsetRequest ext context bonded = .ok next) ↔
      ledger.Snapshotable context bonded ∧ ledger.Requestable context.params := by
  simp only [Ledger.setValsetRequest, Ledger.storeValset, Ledger.setLatestValsetNonce, bind_eq_ok,
    orPanic_eq_ok, check_eq_ok, pure_eq_ok, Unique.exists_iff]
  constructor
  · rintro ⟨_, vs, current, _, ⟨fresh, rfl⟩, _, ⟨rising, -⟩, _, -, address, parsed, -⟩
    have snapshotable := getCurrentValset_succeeds.mp ⟨vs, current⟩
    obtain ⟨-, -, _, -, rfl⟩ := getCurrentValset_eq_ok.mp current
    rw [Ledger.snapshot, succU64_of_le rising] at fresh
    exact ⟨snapshotable, fresh, le_succU64_iff.mp rising,
      (namesBridge_iff_of_accepted accepted).mp (getBridgeContractAddress_eq_ok.mp ⟨address, parsed⟩)⟩
  · rintro ⟨snapshotable, fresh, room, bridge⟩
    obtain ⟨vs, current⟩ := getCurrentValset_succeeds.mpr snapshotable
    obtain ⟨-, -, reward, -, rfl⟩ := getCurrentValset_eq_ok.mp current
    obtain ⟨checkpoint, hashed⟩ := checkpoint_of_snapshot accepted.gravityId reward
    obtain ⟨address, parsed⟩ :=
      getBridgeContractAddress_eq_ok.mpr ((namesBridge_iff_of_accepted accepted).mpr bridge)
    have rising := le_succU64_iff.mpr room
    rw [← succU64_of_le rising] at fresh
    exact ⟨_, _, current, _, ⟨fresh, rfl⟩, _, ⟨rising, rfl⟩, checkpoint, hashed, address, parsed, rfl⟩

/-- Without a request a snapshot is needed and stored. With one, a snapshot is needed once anyone is
bonded, and it is stored when a validator started unbonding in this block or the powers differ. -/
def Ledger.Creatable (ext : External) (context : Context) (ledger : Ledger)
    (env : ValsetEnv) : Prop :=
  match ledger.valsets.requests.get ledger.valsets.latestValsetNonce with
  | none => ledger.Snapshotable context env.bonded ∧ ledger.Requestable context.params
  | some latestValset => env.bonded = [] ∨ (ledger.Snapshotable context env.bonded ∧
      ∃ latestMembers, membersToInternal latestValset.members = .ok latestMembers ∧
        (env.lastUnbondingHeight = context.blockHeight ∨
            significantPowerDiff (currentMembers ext env.bonded) latestMembers = true →
          ledger.Requestable context.params))

/-- The creation of validator sets goes through exactly when a snapshot that is needed can be taken,
and a request that is due can be stored and announced. -/
theorem valset_creation_survives (valid : context.params.validateBasic = .ok ()) :
    (∃ next, ledger.createValsets ext context env = .ok next) ↔ ledger.Creatable ext context env := by
  have stored : (∃ next, ledger.setValsetRequest ext context env.bonded = .ok next) ↔ _ :=
    setValsetRequest_succeeds (context.params.accepted valid)
  have taken : (∃ vs, ledger.getCurrentValset ext context env.bonded = .ok vs) ↔ _ :=
    getCurrentValset_succeeds
  unfold Ledger.createValsets Ledger.Creatable
  cases latest : ledger.valsets.requests.get ledger.valsets.latestValsetNonce with
  | none => exact stored
  | some latestValset =>
      dsimp only
      rcases current : ledger.getCurrentValset ext context env.bonded with ⟨cause | message⟩ | vs
      · have unable : ¬ ledger.Snapshotable context env.bonded := by simp [← taken, current]
        simp only [unable, false_and, or_false, ← getCurrentValset_noValidators current]
        split_ifs with tolerated <;> simp [tolerated]
      · have unable : ¬ ledger.Snapshotable context env.bonded := by simp [← taken, current]
        have anyone : env.bonded ≠ [] := by
          intro none
          rw [none] at current
          cases current
        simp [unable, anyone]
      · obtain ⟨power, keys, reward, found, rfl⟩ := getCurrentValset_eq_ok.mp current
        have able : ledger.Snapshotable context env.bonded := taken.mp ⟨_, current⟩
        have anyone : env.bonded ≠ [] := by
          intro none
          simp [none, bridgeMembers] at power
        have members : membersToInternal (ledger.snapshot ext context env.bonded reward).members =
            .ok (currentMembers ext env.bonded) := membersToInternal_toExternal _
        rw [and_iff_right able] at stored
        rw [or_iff_right anyone, and_iff_right able]
        simp only [Ledger.requestIfDue, members, bind_eq_ok, orPanic_eq_ok, Except.ok.injEq]
        constructor
        · rintro ⟨next, _, rfl, latestMembers, parsed, created⟩
          refine ⟨latestMembers, parsed, fun due => ?_⟩
          rw [if_pos due] at created
          exact stored.mp ⟨next, created⟩
        · rintro ⟨latestMembers, parsed, requestable⟩
          by_cases due : env.lastUnbondingHeight = context.blockHeight ∨
              significantPowerDiff (currentMembers ext env.bonded) latestMembers = true
          · obtain ⟨next, created⟩ := stored.mpr (requestable due)
            exact ⟨next, _, rfl, latestMembers, parsed, by rw [if_pos due]; exact created⟩
          · exact ⟨ledger, _, rfl, latestMembers, parsed, by rw [if_neg due]; rfl⟩

def plainContext (params : Params) : Context := ⟨params, 9, 0, ⟨0, 0⟩, none, .empty⟩

def freshLedger : Ledger := .unused [] Bank.empty

/-- One validator with a key is enough for a first request, if the contract is named. -/
theorem first_valset_created :
    (∃ next, freshLedger.createValsets localnet (plainContext defaultParams)
      ⟨[⟨1, some 3⟩, ⟨2, none⟩], 0⟩ = .ok next) ∧
      ¬ ∃ next, freshLedger.createValsets localnet
        (plainContext { defaultParams with bridgeEthereumAddress := [] })
        ⟨[⟨1, some 3⟩], 0⟩ = .ok next := by
  refine ⟨(valset_creation_survives (by decide +kernel)).mpr ⟨⟨?_, ?_, .inr (.inl rfl)⟩, rfl,
    by decide, by decide⟩, fun created => ?_⟩
  · decide
  · decide
  · obtain ⟨-, -, -, bridge⟩ := (valset_creation_survives (by decide +kernel)).mp created
    exact bridge rfl

/-- The one bonded validator has not registered a key: the first block panics, and so does every
block once a request is stored. -/
theorem keyless_validators_halt :
    defaultParams.validateBasic = .ok () ∧
      freshLedger.createValsets localnet (plainContext defaultParams) ⟨[⟨1, none⟩], 0⟩ =
        panicking "could not get the current valset" ∧
      { freshLedger with valsets := ⟨KVStore.empty.set 1 ⟨1, [], 3, some 0, []⟩, 1,
        none⟩ }.createValsets localnet
        (plainContext defaultParams)
        ⟨[⟨1, none⟩], 0⟩ = panicking "could not get the current valset" := by
  exact ⟨by decide +kernel, rfl, rfl⟩

end GravityBridge.Keeper
