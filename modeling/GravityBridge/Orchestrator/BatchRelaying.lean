import GravityBridge.Orchestrator.OrderSigs

/-!
# Which batches a relayer submits

A relayer compares the fee of a batch with the cost of submitting it, both in WETH. With a
whitelist its operator sets the price of a coin and the number of decimals of the token.
The power that should scale the price is a power of one, so the decimals change nothing.
-/

namespace GravityBridge.Orchestrator

open Lib.Fallible GravityBridge.Types

/-! ## Source -/

structure WhitelistToken where
  price : U256
  decimals : UInt8
  token : EthAddress
  deriving DecidableEq, Repr

inductive BatchRelayingMode where
  | altruistic
  | everyBatch
  | profitableOnly (margin : Float32)
  | profitableWithWhitelist (margin : Float32) (whitelist : List WhitelistToken)

/-- The quotes of exchanges that the relayer asks for. -/
structure Market where
  wethContractAddress : EthAddress
  uniswapPrice : EthAddress → U256 → Option U256

/-- A result of arithmetic on `Uint256`. -/
def uint256 (number : Nat) : Rust U256 := do
  check (number < 2 ^ 256) "arithmetic operation overflow"
  pure (Fin.ofNat _ number)

def divUint256 (number divisor : U256) : Rust U256 := do
  check (divisor ≠ 0) "attempt to divide by zero"
  pure (number / divisor)

/-- The cost is rounded to the nearest `f32`, and so is the product. The conversion to `u128` rounds
down and saturates; it takes what is negative or not a number to zero. -/
def getCostWithMargin (cost : U256) (margin : Float32) : U256 :=
  let costAsFloat := Float32.ofNat cost.val
  let costWithMargin := costAsFloat * margin
  Fin.ofNat _ (costWithMargin.toModel.unpack.toInt 0 (2 ^ 128 - 1)).toNat

section

variable (market : Market)

def getWethPriceWithRetries (token : EthAddress) (amount : U256) : Option U256 :=
  if token = market.wethContractAddress then some amount
  else if amount = 0 then some 0
  else market.uniswapPrice token amount

/-- The first entry of the token counts. -/
def getWhitelistPrice (erc20 : EthAddress) : List WhitelistToken → Option (U256 × UInt8)
  | [] => none
  | entry :: rest => if entry.token = erc20 then some (entry.price, entry.decimals)
      else getWhitelistPrice erc20 rest

/-- The reward for a price from the whitelist. What is printed and parsed again in between is the
same number. -/
def rewardAmountInWeth (whitelistPrice : U256) (decimals : UInt8) (batchRewardAmount : U256) :
    Rust U256 := do
  let one ← uint256 (1 ^ decimals.toNat)
  let scaled ← divUint256 whitelistPrice one
  uint256 (scaled.val * batchRewardAmount.val)

def shouldRelayBatch (batch : TransactionBatch) (cost : U256) (config : BatchRelayingMode) :
    Rust (Bool × Option U256) :=
  let price := getWethPriceWithRetries market batch.totalFee.tokenContractAddress
    batch.totalFee.amount
  match config with
  | .everyBatch | .altruistic => pure (true, none)
  | .profitableOnly margin =>
      match price with
      | some price => pure (decide (getCostWithMargin cost margin < price), some price)
      | none => pure (false, none)
  | .profitableWithWhitelist margin whitelist =>
      match price, getWhitelistPrice batch.tokenContract whitelist with
      | _, some (whitelistPrice, decimals) => do
          let reward ← rewardAmountInWeth whitelistPrice decimals batch.totalFee.amount
          pure (decide (getCostWithMargin cost margin < reward), some reward)
      | some price, none => pure (decide (getCostWithMargin cost margin < price), some price)
      | none, none => pure (false, none)

end

/-! ## Valuation -/

section

variable {market : Market} {cost : U256} {margin : Float32} {whitelist : List WhitelistToken}
  {batch : TransactionBatch} {price : U256} {decimals : UInt8}

/-- The price is per coin, but it is multiplied with the base units. -/
theorem rewardAmountInWeth_eq (decimals : UInt8) {amount : U256}
    (fits : price.val * amount.val < 2 ^ 256) :
    ∃ reward, rewardAmountInWeth price decimals amount = .ok reward ∧
      reward.val = price.val * amount.val := by
  have one : uint256 (1 ^ decimals.toNat) = .ok 1 := by
    rw [one_pow]
    decide +kernel
  have scaled : divUint256 price 1 = .ok price := by
    have nonzero : (1 : U256) ≠ 0 := by decide
    have same : price / 1 = price := Fin.ext (Nat.div_one _)
    simp only [divUint256, bind_eq_ok, check_eq_ok, pure_eq_ok, same]
    exact ⟨(), nonzero, trivial⟩
  refine ⟨⟨_, fits⟩, ?_, rfl⟩
  rw [rewardAmountInWeth, one, ok_bind, scaled, ok_bind]
  simp only [uint256, bind_eq_ok, check_eq_ok, pure_eq_ok]
  exact ⟨(), fits, Fin.ext (Nat.mod_eq_of_lt fits)⟩

theorem shouldRelayBatch_listed
    (listed : getWhitelistPrice batch.tokenContract whitelist = some (price, decimals))
    (fits : price.val * batch.totalFee.amount.val < 2 ^ 256) :
    ∃ reward, shouldRelayBatch market batch cost (.profitableWithWhitelist margin whitelist) =
        .ok (decide (getCostWithMargin cost margin < reward), some reward) ∧
      reward.val = price.val * batch.totalFee.amount.val := by
  obtain ⟨reward, made, valued⟩ := rewardAmountInWeth_eq decimals fits
  refine ⟨reward, ?_, valued⟩
  simp only [shouldRelayBatch, listed, made, ok_bind]
  rfl

/-- Only a number of decimals that scales by one, or a reward of nothing, is valued by the whole
coins. -/
theorem mul_eq_mul_div_iff {first second places : Nat} :
    first * second = first * second / 10 ^ places ↔ places = 0 ∨ first = 0 ∨ second = 0 := by
  rw [← Nat.mul_eq_zero]
  constructor
  · intro same
    by_contra apart
    obtain ⟨scaled, positive⟩ := not_or.mp apart
    have less := Nat.div_lt_self (Nat.pos_of_ne_zero positive)
      (Nat.one_lt_pow scaled (by decide : 1 < 10))
    omega
  · rintro (rfl | nothing)
    · rw [pow_zero, Nat.div_one]
    · rw [nothing, Nat.zero_div]

/-- Fees of the same whole coins have the same value. -/
theorem mul_div_eq_of_whole_coins {amount second places other : Nat} (unit : Nat)
    (coins : amount * 10 ^ other = second * 10 ^ places) :
    unit * amount / 10 ^ places = unit * second / 10 ^ other := by
  have positive : ∀ exponent : Nat, 0 < 10 ^ exponent := fun _ => Nat.pow_pos (by decide)
  calc unit * amount / 10 ^ places
      = unit * amount * 10 ^ other / (10 ^ places * 10 ^ other) :=
        (Nat.mul_div_mul_right _ _ (positive other)).symm
    _ = unit * second * 10 ^ places / (10 ^ other * 10 ^ places) := by
        rw [mul_assoc, coins, ← mul_assoc, mul_comm (10 ^ places)]
    _ = unit * second / 10 ^ other := Nat.mul_div_mul_right _ _ (positive places)

/-- The reward is the value of the fee in whole coins only without decimals or for nothing. Only
then fees of the same whole coins are surely treated alike. -/
theorem whitelist_valuation_iff (market : Market) (cost : U256) (margin : Float32)
    (listed : getWhitelistPrice batch.tokenContract whitelist = some (price, decimals))
    (fits : price.val * batch.totalFee.amount.val < 2 ^ 256) :
    ∃ relay reward, shouldRelayBatch market batch cost (.profitableWithWhitelist margin whitelist) =
        .ok (relay, some reward) ∧
      (relay = true ↔ getCostWithMargin cost margin < reward) ∧
      (reward.val = price.val * batch.totalFee.amount.val / 10 ^ decimals.toNat ↔
        decimals = 0 ∨ price = 0 ∨ batch.totalFee.amount = 0) ∧
      ∀ (second : TransactionBatch) (other : List WhitelistToken) (places : UInt8),
        getWhitelistPrice second.tokenContract other = some (price, places) →
        price.val * second.totalFee.amount.val < 2 ^ 256 →
        batch.totalFee.amount.val * 10 ^ places.toNat =
          second.totalFee.amount.val * 10 ^ decimals.toNat →
        (decimals = 0 ∨ price = 0 ∨ batch.totalFee.amount = 0) →
        (places = 0 ∨ price = 0 ∨ second.totalFee.amount = 0) →
        shouldRelayBatch market second cost (.profitableWithWhitelist margin other) =
          .ok (relay, some reward) := by
  have exact_iff : ∀ (amount : U256) (places : UInt8),
      price.val * amount.val = price.val * amount.val / 10 ^ places.toNat ↔
        places = 0 ∨ price = 0 ∨ amount = 0 := by
    intro amount places
    rw [mul_eq_mul_div_iff, ← UInt8.toNat_inj, Fin.ext_iff, Fin.ext_iff]
    rfl
  obtain ⟨reward, ran, valued⟩ := shouldRelayBatch_listed listed fits
  refine ⟨_, reward, ran, decide_eq_true_iff, valued ▸ exact_iff _ _, ?_⟩
  intro second other places secondListed secondFits coins whole secondWhole
  obtain ⟨secondReward, secondRan, secondValued⟩ := shouldRelayBatch_listed secondListed secondFits
  have same : secondReward = reward := by
    refine Fin.ext ?_
    calc secondReward.val
        = price.val * second.totalFee.amount.val / 10 ^ places.toNat :=
          secondValued.trans ((exact_iff _ _).mpr secondWhole)
      _ = price.val * batch.totalFee.amount.val / 10 ^ decimals.toNat :=
        (mul_div_eq_of_whole_coins _ coins).symm
      _ = reward.val := (valued.trans ((exact_iff _ _).mpr whole)).symm
  rw [secondRan, same]

end

/-- A market that refuses every quote. -/
def plainMarket : Market := ⟨1, fun _ _ => none⟩

/-- A batch of token 7 that pays a fee. -/
def feeBatch (amount : U256) : TransactionBatch := ⟨1, 100, [], ⟨amount, 7⟩, 7⟩

/-- A coin of token 7 is worth a thousandth of a WETH, and the margin is ten percent. -/
def thousandth (decimals : UInt8) : BatchRelayingMode :=
  .profitableWithWhitelist 1.1 [⟨10 ^ 15, decimals, 7⟩]

/-- One coin is valued at far more than it is worth, and with more decimals it is valued higher. -/
theorem decimals_ignored :
    shouldRelayBatch plainMarket (feeBatch (10 ^ 18)) (10 ^ 22) (thousandth 18) =
      .ok (true, some (10 ^ 33)) ∧
      10 ^ 15 * 10 ^ 18 < 2 ^ 256 ∧ 10 ^ 15 * 10 ^ 18 / 10 ^ 18 = 10 ^ 15 ∧
      shouldRelayBatch plainMarket (feeBatch (10 ^ 6)) (10 ^ 22) (thousandth 6) =
        .ok (false, some (10 ^ 21)) ∧
      10 ^ 15 * 10 ^ 6 / 10 ^ 6 = 10 ^ 15 := by
  refine ⟨?_, by norm_num, by norm_num, ?_, by norm_num⟩ <;> decide +kernel

theorem undivided_token_valued :
    getWhitelistPrice 7 [⟨10 ^ 15, 0, 7⟩] = some (10 ^ 15, 0) ∧
      ∃ relay reward, shouldRelayBatch plainMarket (feeBatch 3) 5 (thousandth 0) =
        .ok (relay, some reward) ∧ (relay = true ↔ getCostWithMargin 5 1.1 < reward) ∧
        (reward.val = (10 ^ 15 : U256).val * 3 / 10 ^ 0 ↔ (0 : UInt8) = 0 ∨ (10 ^ 15 : U256) = 0 ∨
          (3 : U256) = 0) := by
  have listed : getWhitelistPrice (feeBatch 3).tokenContract [⟨10 ^ 15, 0, 7⟩] =
      some (10 ^ 15, 0) := by decide +kernel
  obtain ⟨relay, reward, ran, decided, valued, _⟩ := whitelist_valuation_iff plainMarket 5 1.1 listed
    (by decide +kernel)
  exact ⟨listed, relay, reward, ran, decided, valued⟩

end GravityBridge.Orchestrator
