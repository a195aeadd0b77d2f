import GravityBridge.Keeper.MsgServer
import GravityBridge.Keeper.Params
import GravityBridge.Lib.Decimal

/-!
# The chain fee in fixed-point decimals

The message server computes the minimum fee and the share of the auction pool
with decimals of eighteen places, and divides before it multiplies. For accepted
parameters the results are those of whole numbers.
-/

namespace GravityBridge.Keeper

open Lib.Fallible Lib.Decimal Lib.ByteString
open GravityBridge.Types

/-- The decimals of the SDK. Their range is known only from below. -/
structure LegacyDec extends Format where
  scale_eq : scale = 10 ^ 18
  units_ge : 2 ^ 255 * 10 ^ 18 ≤ unitLimit
  wholes_ge : 2 ^ 255 ≤ wholeLimit

/-! ## The code -/

/-- The basis points are read as a signed number. -/
def minChainFee (decimals : LegacyDec) (minChainFeeBasisPoints amount : Nat) : Go Int := do
  let minFeeBasisPoints := (minChainFeeBasisPoints : Int).bmod (2 ^ 64)
  let product ← decimals.mulInt (Format.quoInt (decimals.ofInt amount) basisPointDivisor)
    minFeeBasisPoints
  decimals.truncateInt product

/-- The first half of `checkAndDeductSendToEthFees`. Fees too low to collect are ignored, and coins
of different denoms cannot be compared. -/
def checkChainFee (decimals : LegacyDec) (params : Params)
    (sendAmount chainFee : Coin) : Go Unit := do
  let minFee ← minChainFee decimals params.minChainFeeBasisPoints sendAmount.amount
  if 0 < minFee then do
    let minFeeCoin ← newCoin sendAmount.denom (some minFee)
    check (chainFee.denom = minFeeCoin.denom) "invalid coin denominations"
    require (minFeeCoin.amount ≤ chainFee.amount) ⟨.insufficientFee,
      "chain fee provided is insufficient"⟩

variable (ext : External)

/-- The second half of `checkAndDeductSendToEthFees`. -/
def Ledger.deductChainFee (decimals : LegacyDec) (params : Params) (auctionable : Bool)
    (ledger : Ledger) (sender : AccAddress) (chainFee : Coin) : Go Ledger :=
  if chainFee.amount = 0 then pure ledger
  else if auctionable then do
    let share ← decimals.mul ⟨params.chainFeeAuctionPoolFraction⟩ (decimals.ofInt chainFee.amount)
    let poolFee ← decimals.truncateInt share
    let stakerFee := chainFee.amount - poolFee
    let pooled ← ledger.payFee sender ext.auctionPool (← newCoin chainFee.denom (some poolFee))
    pooled.payFee sender ext.feeCollector (← newCoin chainFee.denom (some stakerFee))
  else do
    ledger.payFee sender ext.feeCollector (← newCoin chainFee.denom (some chainFee.amount))

def Ledger.checkAndDeductFixedPoint (decimals : LegacyDec) (params : Params) (auctionable : Bool)
    (ledger : Ledger) (sender : AccAddress) (sendAmount chainFee : Coin) : Go Ledger := do
  checkChainFee decimals params sendAmount chainFee
  ledger.deductChainFee ext decimals params auctionable sender chainFee

/-! ## Its arithmetic is exact -/

variable {ext} {decimals : LegacyDec} {amount : Nat} {auctionable : Bool} {ledger : Ledger}
  {sender : AccAddress}

theorem minChainFee_eq {basisPoints : Nat} (points : basisPoints ≤ 10000) (small : amount < 2 ^ 255) :
    minChainFee decimals basisPoints amount =
      .ok (amount * basisPoints / basisPointDivisor : Nat) := by
  have signed : (basisPoints : Int).bmod (2 ^ 64) = basisPoints :=
    Int.bmod_eq_of_le (by omega) (by omega)
  have divides : basisPointDivisor ∣ decimals.scale := by
    rw [decimals.scale_eq]
    decide
  have product : (amount : Int) * (decimals.scale / basisPointDivisor : Nat) * basisPoints =
      (amount * 10 ^ 14 * basisPoints : Nat) := by
    rw [decimals.scale_eq]
    push_cast [basisPointDivisor]
    norm_num
  have below : amount * 10 ^ 14 * basisPoints < decimals.unitLimit :=
    calc amount * 10 ^ 14 * basisPoints ≤ amount * 10 ^ 14 * 10000 := Nat.mul_le_mul_left _ points
      _ < 2 ^ 255 * 10 ^ 18 := by omega
      _ ≤ decimals.unitLimit := decimals.units_ge
  have whole : amount * 10 ^ 14 * basisPoints / decimals.scale =
      amount * basisPoints / basisPointDivisor := by
    rw [decimals.scale_eq, Nat.mul_right_comm, basisPointDivisor]
    exact Nat.mul_div_mul_right (amount * basisPoints) 10000 (by decide : 0 < 10 ^ 14)
  have wholeBelow : amount * basisPoints / basisPointDivisor < decimals.wholeLimit := by
    refine lt_of_lt_of_le (Nat.div_lt_of_lt_mul ?_) decimals.wholes_ge
    calc amount * basisPoints ≤ amount * 10000 := Nat.mul_le_mul_left _ points
      _ < basisPointDivisor * 2 ^ 255 := by
        unfold basisPointDivisor
        omega
  simp only [minChainFee, signed, Format.quoInt_ofInt decimals.toFormat (amount : Int) divides,
    Format.mulInt, product]
  rw [Format.bounded_eq_ok _ (by rwa [Int.natAbs_natCast]), ok_bind,
    Format.truncateInt_natCast _ (by rwa [whole]), whole]

/-- The share of the auction pool, a fraction of at most one. -/
theorem poolFee_eq (decimals : LegacyDec) {fraction : Nat} (atMostOne : fraction ≤ 10 ^ 18)
    (small : amount < 2 ^ 255) : (do
      let share ← decimals.mul ⟨fraction⟩ (decimals.ofInt amount)
      decimals.truncateInt share : Go Int) = .ok (fraction * amount / 10 ^ 18 : Nat) := by
  have atMost : fraction * amount ≤ 10 ^ 18 * amount := Nat.mul_le_mul_right _ atMostOne
  have below : fraction * amount < decimals.unitLimit := by
    have wide := decimals.units_ge
    omega
  have whole : fraction * amount / decimals.scale < decimals.wholeLimit := by
    rw [decimals.scale_eq]
    refine lt_of_lt_of_le (Nat.div_lt_of_lt_mul ?_) decimals.wholes_ge
    omega
  have product : (fraction : Int) * amount = (fraction * amount : Nat) := by push_cast; rfl
  simp only [Format.mul_ofInt, product]
  rw [Format.bounded_eq_ok _ (by rwa [Int.natAbs_natCast]), ok_bind,
    Format.truncateInt_natCast _ whole, decimals.scale_eq]

theorem newCoin_natCast {denom : Denom} (valid : sdkValidateDenom denom = true) (amount : Nat) :
    newCoin denom (some (amount : Int)) = .ok ⟨denom, amount⟩ :=
  newCoin_eq_ok.mpr ⟨valid, amount, rfl, rfl⟩

section

variable {params : Params} {sendAmount chainFee : Coin}

theorem checkChainFee_eq (points : params.minChainFeeBasisPoints ≤ 10000)
    (small : sendAmount.amount < 2 ^ 255)
    (valid : sdkValidateDenom sendAmount.denom = true) (same : chainFee.denom = sendAmount.denom) :
    checkChainFee decimals params sendAmount chainFee =
      require (sendAmount.amount * params.minChainFeeBasisPoints / basisPointDivisor ≤
        chainFee.amount) ⟨.insufficientFee, "chain fee provided is insufficient"⟩ := by
  rw [checkChainFee, minChainFee_eq points small, ok_bind]
  by_cases positive : 0 < sendAmount.amount * params.minChainFeeBasisPoints / basisPointDivisor
  · rw [if_pos (by exact_mod_cast positive), newCoin_natCast valid]
    simp [check, same]
  · rw [if_neg (by exact_mod_cast positive), Nat.eq_zero_of_not_pos positive]
    rfl

/-- The fixed-point computation takes the fee that whole numbers give. -/
theorem checkAndDeductFixedPoint_eq
    (points : params.minChainFeeBasisPoints ≤ 10000)
    (fraction : params.chainFeeAuctionPoolFraction ≤ 10 ^ 18)
    (small : sendAmount.amount < 2 ^ 255) (smallFee : chainFee.amount < 2 ^ 255)
    (valid : sdkValidateDenom sendAmount.denom = true) (same : chainFee.denom = sendAmount.denom) :
    ledger.checkAndDeductFixedPoint ext decimals params auctionable sender sendAmount chainFee =
      ledger.checkAndDeductSendToEthFees ext params auctionable sender sendAmount chainFee := by
  have validFee : sdkValidateDenom chainFee.denom = true := same ▸ valid
  rw [Ledger.checkAndDeductFixedPoint, checkChainFee_eq points small valid same,
    Ledger.checkAndDeductSendToEthFees]
  congr 1
  funext _
  unfold Ledger.deductChainFee
  split_ifs with zero auctioned
  · rfl
  · have share := poolFee_eq decimals fraction smallFee
    have atMost : params.chainFeeAuctionPoolFraction * chainFee.amount / 10 ^ 18 ≤ chainFee.amount :=
      Nat.div_le_of_le_mul (Nat.mul_le_mul_right _ fraction)
    have rest : (chainFee.amount : Int) - (params.chainFeeAuctionPoolFraction * chainFee.amount /
        10 ^ 18 : Nat) =
        (chainFee.amount - params.chainFeeAuctionPoolFraction * chainFee.amount / 10 ^ 18 : Nat) :=
      (Nat.cast_sub atMost).symm
    rw [← bind_assoc, share, ok_bind]
    simp only [newCoin_natCast validFee, rest, ok_bind, check, if_pos atMost]
  · rw [newCoin_natCast validFee, ok_bind]

end

/-! ## Who pays and who is paid -/

/-- The share of the auction pool: the fraction of the fee, rounded down, when the denom is
auctionable. -/
def poolShare (params : Params) (auctionable : Bool) (fee : Nat) : Nat :=
  if auctionable then params.chainFeeAuctionPoolFraction * fee / 10 ^ 18 else 0

/-- The sender paid the fee; the pool got its share and the fee collector the rest. The equation
holds for every account, also if one of the three is another. -/
def ChainFeePaid (ext : External) (ledger : Ledger) (sender : AccAddress) (chainFee : Coin)
    (pool : Nat) (next : Ledger) : Prop :=
  ∀ account denom, next.bank.balances account denom + (if account = sender then
    chainFee.amountOf denom else 0) = ledger.bank.balances account denom +
      (if account = ext.auctionPool then (Coin.mk chainFee.denom pool).amountOf denom else 0) +
      (if account = ext.feeCollector then
        (Coin.mk chainFee.denom (chainFee.amount - pool)).amountOf denom else 0)

theorem payFee_balances {next : Ledger} {collector : AccAddress} {fee : Coin}
    (paid : ledger.payFee sender collector fee = .ok next) (account : AccAddress) (denom : Denom) :
    next.bank.balances account denom + (if account = sender then fee.amountOf denom else 0) =
      ledger.bank.balances account denom + (if account = collector then fee.amountOf denom
        else 0) := by
  simp only [Ledger.payFee, bind_eq_ok, Bank.sendCoins_eq_ok, pure_eq_ok] at paid
  obtain ⟨_, ⟨held, rfl⟩, rfl⟩ := paid
  exact Bank.move_balances held account denom

theorem amountOf_split (coin : Coin) (denom : Denom) {part : Nat} (within : part ≤ coin.amount) :
    (Coin.mk coin.denom part).amountOf denom + (Coin.mk coin.denom (coin.amount - part)).amountOf
      denom = coin.amountOf denom := by
  unfold Coin.amountOf
  split_ifs
  · exact Nat.add_sub_cancel' within
  · rfl

theorem checkAndDeductSendToEthFees_paid {params : Params} {next : Ledger}
    {sendAmount chainFee : Coin} (positive : 0 < chainFee.amount)
    (charged : ledger.checkAndDeductSendToEthFees ext params auctionable sender sendAmount
      chainFee = .ok next) :
    ChainFeePaid ext ledger sender chainFee (poolShare params auctionable chainFee.amount) next := by
  simp only [Ledger.checkAndDeductSendToEthFees, if_neg positive.ne', bind_eq_ok, require_eq_ok]
    at charged
  obtain ⟨_, -, charged⟩ := charged
  intro account denom
  cases auctionable with
  | true =>
    simp only [if_true, bind_eq_ok, check_eq_ok] at charged
    obtain ⟨pooled, toPool, _, within, toCollector⟩ := charged
    have first := payFee_balances toPool account denom
    have second := payFee_balances toCollector account denom
    have split := amountOf_split chainFee denom within
    simp only [poolShare, if_true]
    by_cases isSender : account = sender
    · simp only [isSender, if_true] at first second ⊢
      omega
    · simp only [isSender, if_false] at first second ⊢
      omega
  | false =>
    have paid := payFee_balances charged account denom
    have nothing : (Coin.mk chainFee.denom 0).amountOf denom = 0 := by simp [Coin.amountOf]
    simpa [poolShare, nothing] using paid

/-- For accepted parameters the fee check compares with the exact minimum, and a collected fee is
split exactly. -/
theorem chain_fee_exact (ext : External) (decimals : LegacyDec) {params : ParamSet}
    (accepted : params.validateBasic = .ok ()) (sendAmount chainFee : Coin)
    (valid : sdkValidateDenom sendAmount.denom = true)
    (same : chainFee.denom = sendAmount.denom) (small : sendAmount.amount < 2 ^ 255)
    (smallFee : chainFee.amount < 2 ^ 255) :
    (checkChainFee decimals params.toParams sendAmount chainFee = .ok () ↔
      sendAmount.amount * params.minChainFeeBasisPoints / 10000 ≤ chainFee.amount) ∧
    ∀ (auctionable : Bool) (ledger next : Ledger) (sender : AccAddress), 0 < chainFee.amount →
      ledger.checkAndDeductFixedPoint ext decimals params.toParams auctionable sender sendAmount
        chainFee = .ok next →
      ChainFeePaid ext ledger sender chainFee
        (poolShare params.toParams auctionable chainFee.amount) next := by
  have bounds := params.accepted accepted
  refine ⟨?_, fun auctionable ledger next sender positive charged => ?_⟩
  · rw [checkChainFee_eq bounds.minChainFeeBasisPoints small valid same, require_eq_ok]
    rfl
  · rw [checkAndDeductFixedPoint_eq bounds.minChainFeeBasisPoints bounds.chainFeeAuctionPoolFraction
      small smallFee valid same] at charged
    exact checkAndDeductSendToEthFees_paid positive charged

/-- Units of up to 315 bits and whole numbers of up to 256. -/
def sdkDec : LegacyDec where
  scale := 10 ^ 18
  unitLimit := 2 ^ 315
  wholeLimit := 2 ^ 256
  positive := by decide
  scale_eq := rfl
  units_ge := by decide +kernel
  wholes_ge := by decide +kernel

/-- A fee of 0.3 percent, half of it for the auction pool. -/
def feeParams : ParamSet :=
  { plainParams [] with minChainFeeBasisPoints := 30, chainFeeAuctionPoolFraction := 5 * 10 ^ 17 }

/-- The account `s` holds twenty coins. -/
def feePayer : Ledger := .unused [] (Bank.empty.mint (ascii "s") ⟨ascii "stake", 20⟩)

def stake (amount : Nat) : Coin := ⟨ascii "stake", amount⟩

theorem three_collected :
    checkChainFee sdkDec feeParams.toParams (stake 1000) (stake 3) = .ok () ∧
    checkChainFee sdkDec feeParams.toParams (stake 1000) (stake 2) ≠ .ok () ∧
    ∃ next, feePayer.checkAndDeductFixedPoint localnet sdkDec feeParams.toParams true (ascii "s")
      (stake 1000) (stake 3) = .ok next ∧
      ChainFeePaid localnet feePayer (ascii "s") (stake 3) 1 next := by
  have accepted : feeParams.validateBasic = .ok () := by decide +kernel
  have valid : sdkValidateDenom (stake 1000).denom = true := by decide
  have small : (stake 1000).amount < 2 ^ 255 := by decide
  obtain ⟨three, paid⟩ :=
    chain_fee_exact localnet sdkDec accepted (stake 1000) (stake 3) valid rfl small (by decide)
  obtain ⟨two, -⟩ :=
    chain_fee_exact localnet sdkDec accepted (stake 1000) (stake 2) valid rfl small (by decide)
  refine ⟨three.mpr (by decide), two.not.mpr (by decide), ?_⟩
  have collected :
      succeeds (feePayer.checkAndDeductFixedPoint localnet sdkDec feeParams.toParams true (ascii "s")
        (stake 1000) (stake 3)) = true := by decide +kernel
  obtain ⟨next, charged⟩ := succeeds_eq_true.mp collected
  exact ⟨next, charged, paid true feePayer next (ascii "s") (by decide) charged⟩

end GravityBridge.Keeper
