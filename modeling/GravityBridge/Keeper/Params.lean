import GravityBridge.Keeper.Checkpoint

/-!
# Parameters

The checks that a parameter set passes before it is stored. Most parameters are bounded one by one
or not at all, and nothing relates one of them to another.
-/

namespace GravityBridge.Keeper

open Lib.Fallible Lib.ByteString
open GravityBridge.Types

/-- A coin without a name and amount stands for no reward. -/
def validateValsetRewardAmount (reward : Coin) : Go Unit :=
  if reward.denom = [] ∧ reward.amount = 0 then pure ()
  else do
    require (sdkValidateDenom reward.denom = true) ⟨.plain, "invalid denom in ValsetReward"⟩
    rewrap ⟨.plain, "invalid denom in ValsetReward"⟩ (validateStrictDenom reward.denom)

/-- The address of the bridge contract may be unset. -/
def validateBridgeContractAddress (address : Bytes) : Go Unit :=
  match validateEthAddress address with
  | .error (.error cause) => if cause.text = "empty" then pure () else fail cause
  | outcome => outcome

/-- `Params.ValidateBasic`, for the parameters that the model has. -/
def Params.validateBasic (params : Params) : Go Unit := do
  let _ ← rewrap ⟨.plain, "gravity id"⟩ (strToFixByteArray params.gravityId)
  rewrap ⟨.plain, "bridge contract address"⟩
    (validateBridgeContractAddress params.bridgeEthereumAddress)
  require (60000 ≤ params.targetBatchTimeout) ⟨.plain, "Batch timeout"⟩
  require (100 ≤ params.averageBlockTime) ⟨.plain, "Block time"⟩
  require (100 ≤ params.averageEthereumBlockTime) ⟨.plain, "Ethereum block time"⟩
  rewrap ⟨.plain, "ValsetReward amount"⟩ (validateValsetRewardAmount params.valsetReward)
  require (params.minChainFeeBasisPoints ≤ 10000) ⟨.plain, "min chain fee basis points parameter"⟩
  require (params.chainFeeAuctionPoolFraction ≤ 10 ^ 18) ⟨.plain,
    "chain fee auction pool fraction parameter"⟩

/-- The parameters as they are stored: the times are 64-bit numbers of milliseconds. -/
structure ParamSet extends Params where
  targetBatchTimeout_lt : targetBatchTimeout < 2 ^ 64
  averageBlockTime_lt : averageBlockTime < 2 ^ 64
  averageEthereumBlockTime_lt : averageEthereumBlockTime < 2 ^ 64

theorem validateBridgeContractAddress_eq_ok {address : Bytes} {result : Unit} :
    validateBridgeContractAddress address = .ok result ↔ address = [] ∨
      validateEthAddress address = .ok () := by
  unfold validateBridgeContractAddress
  by_cases unset : address = []
  · subst unset
    exact iff_of_true rfl (.inl rfl)
  · rw [or_iff_right unset]
    simp only [validateEthAddress, require]
    split_ifs <;> simp [fail]

/-- What a stored parameter set has been checked for. -/
structure Params.Accepted (params : Params) : Prop where
  gravityId : params.gravityId.length ≤ 32
  bridgeContract : params.bridgeEthereumAddress = [] ∨
    validateEthAddress params.bridgeEthereumAddress = .ok ()
  targetBatchTimeout : 60000 ≤ params.targetBatchTimeout
  averageBlockTime : 100 ≤ params.averageBlockTime
  averageEthereumBlockTime : 100 ≤ params.averageEthereumBlockTime
  reward : validateValsetRewardAmount params.valsetReward = .ok ()
  minChainFeeBasisPoints : params.minChainFeeBasisPoints ≤ 10000
  chainFeeAuctionPoolFraction : params.chainFeeAuctionPoolFraction ≤ 10 ^ 18

theorem Params.accepted (params : Params) (valid : params.validateBasic = .ok ()) :
    params.Accepted := by
  simp only [Params.validateBasic, bind_eq_ok, rewrap_eq_ok, strToFixByteArray, require_eq_ok,
    pure_eq_ok, validateBridgeContractAddress_eq_ok, Unique.exists_iff] at valid
  obtain ⟨_, ⟨gravityId, -⟩, bridgeContract, timeout, blockTime, ethereumBlockTime, reward, points,
    fraction⟩ := valid
  exact ⟨gravityId, bridgeContract, timeout, blockTime, ethereumBlockTime, reward, points, fraction⟩

/-- Parameters as small as they may be, without a reward. -/
def plainParams (bridgeEthereumAddress : Bytes) : ParamSet where
  gravityId := []
  bridgeEthereumAddress := bridgeEthereumAddress
  bridgeActive := true
  signedValsetsWindow := 0
  signedBatchesWindow := 0
  targetBatchTimeout := 60000
  averageBlockTime := 100
  averageEthereumBlockTime := 100
  valsetReward := ⟨[], 0⟩
  ethereumBlacklist := []
  minChainFeeBasisPoints := 0
  chainFeeAuctionPoolFraction := 0
  unbondSlashingValsetsWindow := 0
  targetBatchTimeout_lt := by decide
  averageBlockTime_lt := by decide
  averageEthereumBlockTime_lt := by decide

end GravityBridge.Keeper
