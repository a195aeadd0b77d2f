import GravityBridge.Keeper.Checkpoint
import GravityBridge.Keeper.Registry

/-!
# Validator set requests

The end of a block may snapshot the bonded validators into a new request, with
the relayer reward of the parameters, when the powers moved or a validator left. It
prunes requests that Ethereum has moved past.
-/

namespace GravityBridge.Keeper

open Lib.Fallible Lib.ByteString Lib.Store
open GravityBridge.Types

/-- A bonded validator: its last power and the Ethereum key it registered, if any. -/
structure BondedValidator where
  power : Nat
  ethAddress : Option EthAddress
  deriving DecidableEq, Repr

/-- What staking and the hooks tell the end of a block about validator sets. -/
structure ValsetEnv where
  bonded : List BondedValidator
  /-- The last block in which a validator started unbonding. -/
  lastUnbondingHeight : Nat

def normalizeValidatorPower (rawPower totalValidatorPower : Nat) : U64 :=
  Fin.ofNat (2 ^ 64) (rawPower * 4294967296 / totalValidatorPower)

/-- The raw power and key of the validators that registered a key. -/
def bridgeMembers (bonded : List BondedValidator) : List (Nat × EthAddress) :=
  bonded.filterMap (fun validator =>
    validator.ethAddress.map (fun address => (validator.power, address)))

variable (ext : External)

/-- `RewardToERC20Lookup`. -/
def Ledger.rewardToERC20Lookup (ledger : Ledger) (coin : Coin) : Go (EthAddress × Nat) := do
  check (coin.isValid = true ∧ coin.amount ≠ 0) "Bad validator set relaying reward!"
  let origin ← orPanic "Invalid Valset reward! Denom is not a known bridged asset"
    (ledger.classifyDenom coin.denom)
  pure (origin.erc20, coin.amount)

/-- The reward of a new request: none when the parameter is unset. -/
def Ledger.valsetReward (context : Context) (ledger : Ledger) : Go (EthAddress × Nat) :=
  if context.params.valsetReward.isValid = false ∨ context.params.valsetReward.amount = 0 then
    pure (zeroAddress, 0)
  else ledger.rewardToERC20Lookup context.params.valsetReward

def newValset (nonce height : Nat) (members : List InternalBridgeValidator) (rewardAmount : Nat)
    (rewardToken : EthAddress) : Go Valset := do
  require (members ≠ []) ⟨.empty, "empty"⟩
  require ((members.map InternalBridgeValidator.ethereumAddress).Nodup) ⟨.duplicate, "addresses"⟩
  pure ⟨nonce, (sortMembers ext members).map (InternalBridgeValidator.toExternal ext), height,
    some rewardAmount, hex ext rewardToken⟩

def Ledger.getCurrentValset (context : Context) (ledger : Ledger) (bonded : List BondedValidator) :
    Go Valset := do
  require (bonded ≠ []) ⟨.noValidators, "no bonded validators in active set"⟩
  let members := bridgeMembers bonded
  let totalPower := (members.map Prod.fst).sum
  check (members = [] ∨ totalPower ≠ 0) "division by zero"
  let (rewardToken, rewardAmount) ← ledger.valsetReward context
  rewrap ⟨.plain, "invalid valset"⟩
    (newValset ext (succU64 ledger.valsets.latestValsetNonce) context.blockHeight
      (members.map (fun member => ⟨normalizeValidatorPower member.1 totalPower, member.2⟩))
      rewardAmount rewardToken)

def Ledger.storeValset (ledger : Ledger) (valset : Valset) : Go Ledger := do
  check (ledger.valsets.requests.get valset.nonce = none) "Trying to overwrite existing valset!"
  pure { ledger with
    valsets := { ledger.valsets with requests := ledger.valsets.requests.set valset.nonce valset } }

def Ledger.setLatestValsetNonce (ledger : Ledger) (nonce : Nat) : Go Ledger := do
  check (ledger.valsets.latestValsetNonce ≤ nonce) "Decrementing valset nonce!"
  pure { ledger with valsets := { ledger.valsets with latestValsetNonce := nonce } }

def Ledger.setValsetRequest (context : Context) (ledger : Ledger) (bonded : List BondedValidator) :
    Go Ledger := do
  let valset ← orPanic "could not get the current valset" (ledger.getCurrentValset ext context bonded)
  let stored ← ledger.storeValset valset
  let latest ← stored.setLatestValsetNonce valset.nonce
  let checkpoint ← valset.getCheckpoint ext context.params.gravityId
  let _ ← context.params.getBridgeContractAddress
  pure (latest.setPastEthSignatureCheckpoint checkpoint)

/-- A 64-bit successor that is not below the number did not wrap around. -/
theorem succU64_of_le {number : Nat} (rising : number ≤ succU64 number) :
    succU64 number = number + 1 := by
  unfold succU64 at rising ⊢
  omega

/-! ## The distance of two validator sets -/

/-- Subtraction of signed 64-bit integers. -/
def int64Sub (left right : Int) : Int := Int.bmod (left - right) (2 ^ 64)

/-- The sum that `PowerDiff` divides: what the members differ in, by address. -/
def powerDelta (b c : List InternalBridgeValidator) : Nat :=
  let own : KVStore EthAddress Int :=
    b.foldl (fun powers bv => powers.set bv.ethereumAddress (int64 bv.power)) .empty
  let powers := c.foldl (fun powers bv =>
    match powers.get bv.ethereumAddress with
    | some val => powers.set bv.ethereumAddress (int64Sub val (int64 bv.power))
    | none => powers.set bv.ethereumAddress (int64Sub 0 (int64 bv.power))) own
  (powers.values.map Int.natAbs).sum

/-- `PowerDiff` above five percent of the largest 32-bit number. No quotient of an integer is
close enough to five percent for the rounding of the division to matter, and a sum that is
itself rounded is far above it. -/
def significantPowerDiff (current latest : List InternalBridgeValidator) : Bool :=
  decide (4294967295 < 20 * powerDelta current latest)

/-! ## The end of a block -/

/-- A request is made when a validator started unbonding in this block or the powers differ. -/
def Ledger.requestIfDue (context : Context) (ledger : Ledger) (env : ValsetEnv)
    (latestValset vs : Valset) : Go Ledger := do
  let intCurrMembers ← orPanic "invalid current valset members" (membersToInternal vs.members)
  let intLatestMembers ← orPanic "invalid latest valset members"
    (membersToInternal latestValset.members)
  if env.lastUnbondingHeight = context.blockHeight ∨
    significantPowerDiff intCurrMembers intLatestMembers = true then
    ledger.setValsetRequest ext context env.bonded
  else pure ledger

/-- `createValsets`: without bonded validators an existing request stays the latest one. -/
def Ledger.createValsets (context : Context) (ledger : Ledger) (env : ValsetEnv) : Go Ledger :=
  match ledger.valsets.requests.get ledger.valsets.latestValsetNonce with
  | none => ledger.setValsetRequest ext context env.bonded
  | some latestValset =>
      match ledger.getCurrentValset ext context env.bonded with
      | .error (.error cause) =>
          if cause.code = .noValidators then pure ledger
            else panicking "could not get the current valset"
      | .error (.panic message) => panicking message
      | .ok vs => ledger.requestIfDue ext context env latestValset vs

/-- The end of a block makes a new request, or keeps the stored one as the latest. -/
theorem createValsets_cases {ext : External} {context : Context} {ledger next : Ledger}
    {env : ValsetEnv} (created : ledger.createValsets ext context env = .ok next) :
    ledger.setValsetRequest ext context env.bonded = .ok next ∨
      next = ledger ∧ ∃ latest, ledger.valsets.requests.get ledger.valsets.latestValsetNonce =
        some latest := by
  unfold Ledger.createValsets at created
  split at created
  · exact .inl created
  · rename_i latest stored
    split at created
    · split_ifs at created
      · exact .inr ⟨(pure_eq_ok.mp created).symm, latest, stored⟩
      · simp at created
    · simp at created
    · simp only [Ledger.requestIfDue, bind_eq_ok] at created
      obtain ⟨_, _, _, _, created⟩ := created
      split_ifs at created
      · exact .inl created
      · exact .inr ⟨(pure_eq_ok.mp created).symm, latest, stored⟩

/-- `pruneValsets`: drop requests below the last observed one, once the signing window has passed. -/
def Ledger.pruneValsets (context : Context) (ledger : Ledger) : Ledger :=
  match ledger.valsets.lastObservedValset with
  | none => ledger
  | some lastObserved =>
      if context.blockHeight < context.params.signedValsetsWindow then ledger
      else { ledger with
        valsets := { ledger.valsets with
          requests := ledger.valsets.requests.filter (fun _ set =>
            !(decide (set.nonce < lastObserved.nonce) &&
              decide (set.height < context.blockHeight - context.params.signedValsetsWindow))) } }

end GravityBridge.Keeper
