import GravityBridge.Contract.Authority
import GravityBridge.Keeper.EventOrder
import GravityBridge.Lib.Apportion

/-!
# Powers of a validator set on both chains

A new validator set rescales the staking powers of its members to a total of 2^32 and rounds every
one down. The threshold of the contract is a number on this scale. What is lost by rounding moves the
threshold by less than one unit for each signer.
-/

namespace GravityBridge.Contract

open Lib.Fallible Lib.Apportion
open GravityBridge.Types Keeper List

/-- The staking power of some members. -/
def rawPower (members : List (Nat × EthAddress)) : Nat := (members.map Prod.fst).sum

/-- Their power in a validator set with a given total. -/
def bridgePower (totalPower : Nat) (members : List (Nat × EthAddress)) : Nat :=
  (members.map (fun member => (normalizeValidatorPower member.1 totalPower).val)).sum

/-- The powers of a validator set as they are passed to the contract. -/
def passedPowers (members : List BridgeValidator) : List U256 :=
  members.map (fun member => Fin.castLE (by decide) member.power)

variable {totalPower : Nat} {members : List (Nat × EthAddress)}

/-- A share never leaves the range of the power's type. -/
theorem normalizeValidatorPower_val {power : Nat} (within : power ≤ totalPower) :
    (normalizeValidatorPower power totalPower).val = portion 4294967296 totalPower power := by
  have less : portion 4294967296 totalPower power ≤ 4294967296 := portion_le within
  exact Nat.mod_eq_of_lt (by unfold portion at less; omega)

theorem rawPower_le_of_mem {member : Nat × EthAddress} (inside : member ∈ members) :
    member.1 ≤ rawPower members :=
  single_le_sum (fun _ _ => Nat.zero_le _) _ (mem_map_of_mem inside)

theorem bridgePower_eq {signers : List (Nat × EthAddress)}
    (within : ∀ member ∈ signers, member.1 ≤ totalPower) :
    bridgePower totalPower signers = portions 4294967296 totalPower (signers.map Prod.fst) := by
  unfold bridgePower portions
  rw [map_map]
  exact congrArg List.sum (map_congr_left fun member inside =>
    normalizeValidatorPower_val (within member inside))

/-! ## The check of the contract -/

theorem cumulatePower_reaches {cumulativePower : Nat} {powers : List U256}
    (fits : cumulativePower + (powers.map Fin.val).sum < 2 ^ 256)
    (enough : powerThreshold < cumulativePower + (powers.map Fin.val).sum) :
    ∃ total, cumulatePower cumulativePower powers = .ok total ∧ powerThreshold < total := by
  induction powers generalizing cumulativePower with
  | nil => exact ⟨cumulativePower, rfl, by simpa using enough⟩
  | cons power rest ih =>
    rw [map_cons, sum_cons] at fits enough
    rw [cumulatePower, checkedAdd_eq_ok.mpr ⟨by omega, rfl⟩, ok_bind]
    split_ifs with reached
    · exact ⟨_, rfl, reached⟩
    · exact ih (by omega) (by omega)

theorem requirePower_passes {powers : List U256} (fits : (powers.map Fin.val).sum < 2 ^ 256)
    (enough : powerThreshold < (powers.map Fin.val).sum) : requirePower powers = .ok () := by
  obtain ⟨total, ran, reached⟩ :=
    cumulatePower_reaches (by rwa [Nat.zero_add]) (by rwa [Nat.zero_add])
  simp only [requirePower, bind_eq_ok, require_eq_ok]
  exact ⟨total, ran, reached⟩

/-- The members of a new set are those that registered a key, with their rescaled powers. -/
theorem getCurrentValset_powers {ext : External} {context : Context} {ledger : Ledger}
    {bonded : List BondedValidator}
    {valset : Valset} (current : ledger.getCurrentValset ext context bonded = .ok valset) :
    (valset.members.map BridgeValidator.power).Perm ((bridgeMembers bonded).map (fun member =>
      normalizeValidatorPower member.1 (rawPower (bridgeMembers bonded)))) := by
  simp only [Ledger.getCurrentValset, newValset, bind_eq_ok, rewrap_eq_ok, pure_eq_ok] at current
  obtain ⟨_, _, _, _, _, _, _, _, _, _, rfl⟩ := current
  have sorted := (perm_insertionSort (sortsBefore ext) ((bridgeMembers bonded).map (fun member =>
    ⟨normalizeValidatorPower member.1 (rawPower (bridgeMembers bonded)), member.2⟩))).map
      InternalBridgeValidator.power
  rw [map_map] at sorted ⊢
  exact sorted

/-! ## The guarantee -/

/-- What the rescaled powers keep of the staking powers. The comparisons with the threshold are
multiplied out. -/
structure KeepsProportions (members : List (Nat × EthAddress)) : Prop where
  bounded : ∀ member ∈ members, (normalizeValidatorPower member.1 (rawPower members)).val ≤ 2 ^ 32
  monotone : ∀ first ∈ members, ∀ second ∈ members, first.1 ≤ second.1 →
    normalizeValidatorPower first.1 (rawPower members) ≤
      normalizeValidatorPower second.1 (rawPower members)
  total_le : bridgePower (rawPower members) members ≤ 2 ^ 32
  lt_total : 2 ^ 32 < bridgePower (rawPower members) members + members.length
  backed : ∀ signers : List (Nat × EthAddress), signers.Sublist members →
    powerThreshold < bridgePower (rawPower members) signers →
    powerThreshold * rawPower members < rawPower signers * 2 ^ 32
  reached : ∀ signers : List (Nat × EthAddress), signers.Sublist members →
    (powerThreshold + signers.length) * rawPower members ≤ rawPower signers * 2 ^ 32 →
    powerThreshold < bridgePower (rawPower members) signers

theorem keepsProportions (positive : 0 < rawPower members) : KeepsProportions members where
  bounded member inside := by
    rw [normalizeValidatorPower_val (rawPower_le_of_mem inside)]
    exact portion_le (rawPower_le_of_mem inside)
  monotone first isFirst second isSecond less := by
    rw [Fin.le_def, normalizeValidatorPower_val (rawPower_le_of_mem isFirst),
      normalizeValidatorPower_val (rawPower_le_of_mem isSecond)]
    exact portion_mono less
  total_le := by
    rw [bridgePower_eq fun member inside => rawPower_le_of_mem inside]
    exact portions_le _ positive
  lt_total := by
    rw [bridgePower_eq fun member inside => rawPower_le_of_mem inside]
    simpa [rawPower] using lt_portions_add_length (members.map Prod.fst) positive
  backed signers inside above := by
    rw [bridgePower_eq fun member member_signers =>
      rawPower_le_of_mem (inside.subset member_signers)] at above
    exact lt_parts_of_lt_portions positive above
  reached signers inside above := by
    rw [bridgePower_eq fun member member_signers => rawPower_le_of_mem (inside.subset member_signers)]
    exact lt_portions_of_le_parts positive (by simpa [rawPower] using above) (by decide)

/-- Rescaling keeps the proportions of the staking powers up to one unit for each member. A new set
of up to 1431655765 members passes the contract's check of its total power. -/
theorem normalized_power_guarantee (members : List (Nat × EthAddress))
    (positive : 0 < rawPower members) : KeepsProportions members ∧
    ∀ (ext : External) (context : Context) (ledger : Ledger) (bonded : List BondedValidator)
      (valset : Valset), bridgeMembers bonded = members →
      ledger.getCurrentValset ext context bonded = .ok valset →
      (valset.members.map BridgeValidator.power).Perm
        (members.map (fun member => normalizeValidatorPower member.1 (rawPower members))) ∧
      (members.length ≤ 1431655765 → requirePower (passedPowers valset.members) = .ok ()) := by
  have keeps := keepsProportions positive
  refine ⟨keeps, ?_⟩
  rintro ext context ledger bonded valset rfl current
  have powers := getCurrentValset_powers current
  refine ⟨powers, fun few => ?_⟩
  have total : ((passedPowers valset.members).map Fin.val).sum =
      bridgePower (rawPower (bridgeMembers bonded)) (bridgeMembers bonded) := by
    have same := (powers.map Fin.val).sum_eq
    simp only [List.map_map, Function.comp_def] at same
    simpa [passedPowers, Function.comp_def, bridgePower] using same
  have above := keeps.lt_total
  have below := keeps.total_le
  refine requirePower_passes ?_ ?_
  · rw [total]
    omega
  · rw [total]
    unfold powerThreshold
    omega

/-- Three validators with a key, of which two hold more than two thirds, and one without. -/
def threeBonded : List BondedValidator := [⟨500, some 7⟩, ⟨60, none⟩, ⟨300, some 8⟩, ⟨200, some 9⟩]

theorem three_powers_guarantee :
    KeepsProportions (bridgeMembers threeBonded) ∧ ∃ valset,
      (Ledger.unused [] .empty).getCurrentValset localnet exampleGenesis.context threeBonded =
        .ok valset ∧
      requirePower (passedPowers valset.members) = .ok () := by
  obtain ⟨keeps, checked⟩ := normalized_power_guarantee (bridgeMembers threeBonded) (by decide)
  obtain ⟨valset, current⟩ :=
    succeeds_eq_true.mp (show succeeds ((Ledger.unused [] .empty).getCurrentValset localnet
      exampleGenesis.context threeBonded) = true by decide +kernel)
  exact ⟨keeps, valset, current, (checked _ _ _ _ valset rfl current).2 (by decide)⟩

end GravityBridge.Contract
