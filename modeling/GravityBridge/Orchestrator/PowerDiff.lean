import GravityBridge.Keeper.ValsetCreation
import GravityBridge.Lib.Distance
import GravityBridge.Orchestrator.OrderSigs

/-!
# How far two validator sets are apart

The module and the orchestrator both compare validator sets by power. The module subtracts in a
map of signed numbers and adds up floating-point numbers in the order in which the map happens to
be visited. The orchestrator visits what only one set has and what both have, each in the order of
a hash set. Both sums are the distance of the powers.
-/

namespace GravityBridge.Orchestrator

open Lib.Fallible Lib.Store Lib.Distance
open GravityBridge.Types Keeper List

/-! ## The module -/

/-- The map of `PowerDiff` after both loops. -/
def powerMap (b c : List InternalBridgeValidator) : KVStore EthAddress Int :=
  c.foldl (fun powers bv =>
    match powers.get bv.ethereumAddress with
    | some val => powers.set bv.ethereumAddress (int64Sub val (int64 bv.power))
    | none => powers.set bv.ethereumAddress (int64Sub 0 (int64 bv.power)))
    (b.foldl (fun powers bv => powers.set bv.ethereumAddress (int64 bv.power)) .empty)

/-- The last loop of `PowerDiff`, over the values of the map in some order. All floating-point
numbers in it are integers, with 53 significant bits. -/
def accumulateDelta (values : List Int) : Nat :=
  values.foldl (fun delta v => nearest 53 (delta + nearest 53 v.natAbs)) 0

/-! ## The orchestrator -/

def Valset.toHashmap (valset : Valset) : KVStore EthAddress U64 :=
  valset.members.foldl (fun res item => res.set item.ethAddress item.power) .empty

def Valset.toHashset (valset : Valset) : Finset EthAddress :=
  (valset.members.map ValsetMember.ethAddress).toFinset

/-- An order in which a hash set may be visited. -/
def Visits (order : List EthAddress) (set : Finset EthAddress) : Prop :=
  order.Nodup ∧ order.toFinset = set

/-- `+=` on unsigned 64-bit integers. -/
def addPower (total power : U64) : Rust U64 := do
  check (total.val + power.val < 2 ^ 64) "attempt to add with overflow"
  pure (total + power)

section

variable (a b : KVStore EthAddress U64)

/-- The body of the loop over the symmetric difference. -/
def addSingle (total : U64) (item : EthAddress) : Rust U64 := do
  let power ← unwrap "called Option::unwrap() on a None value" ((a.get item).or (b.get item))
  addPower total power

/-- The body of the loop over the intersection. -/
def addCommon (total : U64) (item : EthAddress) : Rust U64 := do
  let powerA ← unwrap "no entry found for key" (a.get item)
  let powerB ← unwrap "no entry found for key" (b.get item)
  if powerB < powerA then addPower total (powerA - powerB) else addPower total (powerB - powerA)

end

/-- The sum of `power_diff`, with the orders in which the two sets are visited. -/
def Valset.totalPowerDiff (valset other : Valset)
    (symmetricDifference intersection : List EthAddress) : Rust U64 := do
  let total ← symmetricDifference.foldlM (addSingle valset.toHashmap other.toHashmap) 0
  intersection.foldlM (addCommon valset.toHashmap other.toHashmap) total

/-! ## Powers -/

/-- The power that a set gives to an address, none if it is not a member. -/
def powerAt (members : List InternalBridgeValidator) : EthAddress → Nat :=
  weightAt InternalBridgeValidator.ethereumAddress (fun member => member.power.val) members

/-- Sets as they are compared: every address once, normalized powers, and not too many members. -/
structure Comparable (members : List InternalBridgeValidator) : Prop where
  distinct : (members.map InternalBridgeValidator.ethereumAddress).Nodup
  bounded : ∀ member ∈ members, member.power.val ≤ 2 ^ 32
  few : members.length < 2 ^ 20

/-- The orchestrator's copy of a set, in any order. -/
def Valset.Copies (valset : Valset) (members : List InternalBridgeValidator) : Prop :=
  valset.members.Perm (members.map fun member => ⟨member.power, member.ethereumAddress⟩)

section

variable {b c : List InternalBridgeValidator}

theorem Comparable.perm (comparable : Comparable b) (same : c.Perm b) : Comparable c :=
  ⟨(same.map _).nodup_iff.mpr comparable.distinct, fun member inside =>
    comparable.bounded member (same.mem_iff.mp inside), same.length_eq ▸ comparable.few⟩

theorem Comparable.powerAt_le (comparable : Comparable b) (address : EthAddress) :
    powerAt b address ≤ 2 ^ 32 := by
  by_cases member : address ∈ b.map InternalBridgeValidator.ethereumAddress
  · obtain ⟨validator, inside, rfl⟩ := mem_map.mp member
    rw [powerAt, weightAt_of_mem comparable.distinct inside]
    exact comparable.bounded validator inside
  · rw [powerAt, weightAt_of_absent member]
    exact Nat.zero_le _

theorem Comparable.sum_powerAt_lt (comparable : Comparable b) :
    ∑ address, powerAt b address < 2 ^ 52 := by
  rw [powerAt, sum_weightAt]
  have total : (b.map fun member => member.power.val).sum ≤
      (b.map fun member => member.power.val).length • 2 ^ 32 :=
    sum_le_card_nsmul _ _ (by simpa using comparable.bounded)
  have few := comparable.few
  rw [length_map, smul_eq_mul] at total
  omega

theorem distance_lt (first : Comparable b) (second : Comparable c) :
    distance (powerAt b) (powerAt c) < 2 ^ 53 := by
  have bound := distance_le (powerAt b) (powerAt c)
  have firstSum := first.sum_powerAt_lt
  have secondSum := second.sum_powerAt_lt
  omega

/-! ## The sum of the module -/

/-- The first loop, over the members of one set. -/
theorem own_getD (comparable : Comparable b) (address : EthAddress) :
    ((b.foldl (fun powers bv => powers.set bv.ethereumAddress (int64 bv.power)) KVStore.empty).get
      address).getD 0 = powerAt b address := by
  rw [get_foldl_set comparable.distinct, KVStore.get_empty, Option.or_none]
  cases found : b.find? (fun member => member.ethereumAddress = address) with
  | none =>
    have absent : address ∉ b.map InternalBridgeValidator.ethereumAddress := by
      simpa using find?_eq_none.mp found
    rw [powerAt, weightAt_of_absent absent]
    rfl
  | some member =>
    have inside := mem_of_find?_eq_some found
    obtain rfl : member.ethereumAddress = address := by simpa using find?_some found
    have bound := comparable.bounded member inside
    rw [powerAt, weightAt_of_mem comparable.distinct inside, Option.map_some, Option.getD_some,
      int64_of_lt (lt_of_le_of_lt bound (by norm_num))]

/-- The second loop, over the members of the other set. -/
theorem subtracted_getD {powers : KVStore EthAddress Int}
    (distinct : (c.map InternalBridgeValidator.ethereumAddress).Nodup)
    (bounded : ∀ member ∈ c, member.power.val ≤ 2 ^ 32)
    (small : ∀ address ∈ c.map InternalBridgeValidator.ethereumAddress,
      0 ≤ (powers.get address).getD 0 ∧
      (powers.get address).getD 0 ≤ 2 ^ 32) (address : EthAddress) :
    ((c.foldl (fun powers bv => powers.set bv.ethereumAddress
      (int64Sub ((powers.get bv.ethereumAddress).getD 0) (int64 bv.power))) powers).get
        address).getD 0 =
      (powers.get address).getD 0 - powerAt c address := by
  induction c generalizing powers with
  | nil => simp [powerAt, weightAt]
  | cons member rest ih =>
    obtain ⟨notAgain, distinctRest⟩ := nodup_cons.mp distinct
    have power := bounded member mem_cons_self
    obtain ⟨low, high⟩ := small member.ethereumAddress mem_cons_self
    have subtracted : int64Sub ((powers.get member.ethereumAddress).getD 0) (int64 member.power) =
        (powers.get member.ethereumAddress).getD 0 - member.power.val := by
      rw [int64_of_lt (lt_of_le_of_lt power (by norm_num))]
      exact Int.bmod_eq_of_le (by norm_num; omega) (by norm_num; omega)
    rw [foldl_cons, ih distinctRest (fun other inside => bounded other (mem_cons_of_mem _ inside)),
      KVStore.get_set, powerAt, powerAt, weightAt_cons, subtracted]
    · by_cases same : address = member.ethereumAddress
      · rw [if_pos same, if_pos same.symm, Option.getD_some, same]
        push_cast
        ring
      · rw [if_neg same, if_neg (Ne.symm same), zero_add]
    · intro other inside
      have apart : other ≠ member.ethereumAddress := fun same => notAgain (same ▸ inside)
      rw [KVStore.get_set, if_neg apart]
      exact small other (mem_cons_of_mem _ inside)

theorem powerMap_getD (first : Comparable b) (second : Comparable c) (address : EthAddress) :
    ((powerMap b c).get address).getD 0 = (powerAt b address : ℤ) - powerAt c address := by
  have body : (fun (powers : KVStore EthAddress Int) (bv : InternalBridgeValidator) =>
      match powers.get bv.ethereumAddress with
      | some val => powers.set bv.ethereumAddress (int64Sub val (int64 bv.power))
      | none => powers.set bv.ethereumAddress (int64Sub 0 (int64 bv.power))) = fun powers bv =>
        powers.set bv.ethereumAddress
          (int64Sub ((powers.get bv.ethereumAddress).getD 0) (int64 bv.power)) := by
    funext powers bv
    cases powers.get bv.ethereumAddress with
    | none => rfl
    | some _ => rfl
  rw [powerMap, body, subtracted_getD second.distinct second.bounded, own_getD first]
  intro other _
  rw [own_getD first]
  have bound := first.powerAt_le other
  omega

/-- The end of a block compares the distance with its threshold. -/
theorem powerDelta_eq_distance (first : Comparable b) (second : Comparable c) :
    powerDelta b c = distance (powerAt b) (powerAt c) := by
  change (powerMap b c).sumOf Int.natAbs = _
  rw [sumOf_eq_sum, distance]
  refine Finset.sum_congr rfl fun address _ => ?_
  rw [← powerMap_getD first second]
  cases (powerMap b c).get address with
  | none => rfl
  | some _ => rfl

/-- The sum is the distance, in whichever order the map is visited. -/
theorem accumulateDelta_eq (first : Comparable b) (second : Comparable c) {values : List Int}
    (order : values.Perm (powerMap b c).values) :
    accumulateDelta values = distance (powerAt b) (powerAt c) := by
  have total : (values.map Int.natAbs).sum = distance (powerAt b) (powerAt c) :=
    (order.map Int.natAbs).sum_eq.trans (powerDelta_eq_distance first second)
  have short : 0 + (values.map Int.natAbs).sum < 2 ^ 53 := by
    rw [zero_add, total]
    exact distance_lt first second
  have exactSum := foldl_nearest short
  rw [foldl_map, zero_add, total] at exactSum
  exact exactSum

/-! ## The sum of the orchestrator -/

theorem addPower_eq {total power : U64} (fits : total.val + power.val < 2 ^ 64) :
    ∃ next, addPower total power = .ok next ∧ next.val = total.val + power.val := by
  refine ⟨total + power, ?_, Fin.val_add_eq_of_add_lt fits⟩
  simp only [addPower, bind_eq_ok, check_eq_ok, pure_eq_ok]
  exact ⟨(), fits, trivial⟩

/-- A loop that adds a number for each item. -/
theorem foldlM_adds {body : U64 → EthAddress → Rust U64} {amount : EthAddress → Nat}
    {items : List EthAddress}
    (adds : ∀ item ∈ items, ∀ total : U64, total.val + amount item < 2 ^ 64 →
      ∃ next, body total item = .ok next ∧ next.val = total.val + amount item)
    {start : U64} (fits : start.val + (items.map amount).sum < 2 ^ 64) :
    ∃ final, items.foldlM body start = .ok final ∧
      final.val = start.val + (items.map amount).sum := by
  induction items generalizing start with
  | nil => exact ⟨start, rfl, rfl⟩
  | cons item rest ih =>
    rw [map_cons, sum_cons] at fits ⊢
    obtain ⟨next, made, value⟩ := adds item mem_cons_self start (by omega)
    obtain ⟨final, ran, sum⟩ :=
      @ih (fun other inside => adds other (mem_cons_of_mem _ inside)) next (by omega)
    exact ⟨final, by rw [foldlM_cons, made, ok_bind, ran], by omega⟩

variable {valset other : Valset}

/-- What the map of a copy holds. -/
theorem Valset.Copies.toHashmap_get (copies : valset.Copies b) (comparable : Comparable b)
    (address : EthAddress) :
    (address ∈ valset.toHashset ∧ ∃ power, valset.toHashmap.get address = some power ∧
      power.val = powerAt b address) ∨
      (address ∉ valset.toHashset ∧ valset.toHashmap.get address = none ∧ powerAt b address = 0) := by
  have addresses : (valset.members.map ValsetMember.ethAddress).Perm
      (b.map InternalBridgeValidator.ethereumAddress) := by
    have mapped := copies.map ValsetMember.ethAddress
    rwa [map_map] at mapped
  have distinct : (valset.members.map ValsetMember.ethAddress).Nodup :=
    addresses.nodup_iff.mpr comparable.distinct
  have powers : powerAt b = weightAt ValsetMember.ethAddress (fun member => member.power.val)
      valset.members := by
    rw [weightAt_perm copies, weightAt_map]
    rfl
  rw [Valset.toHashset, Valset.toHashmap, get_foldl_set distinct, KVStore.get_empty, Option.or_none,
    mem_toFinset, powers]
  cases found : valset.members.find? (fun member => member.ethAddress = address) with
  | none =>
    have absent : address ∉ valset.members.map ValsetMember.ethAddress := by
      simpa using find?_eq_none.mp found
    exact .inr ⟨absent, rfl, weightAt_of_absent absent⟩
  | some member =>
    have inside := mem_of_find?_eq_some found
    obtain rfl : member.ethAddress = address := by simpa using find?_some found
    exact .inl ⟨mem_map_of_mem inside, member.power, rfl, by rw [weightAt_of_mem distinct inside]⟩

section

variable (copies : valset.Copies b) (otherCopies : other.Copies c) (first : Comparable b)
  (second : Comparable c)
include copies otherCopies first second

theorem addSingle_eq {item : EthAddress} (single : item ∈ symmDiff valset.toHashset other.toHashset)
    {total : U64} (fits : total.val + ((powerAt b item : ℤ) - powerAt c item).natAbs < 2 ^ 64) :
    ∃ next, addSingle valset.toHashmap other.toHashmap total item = .ok next ∧
      next.val = total.val + ((powerAt b item : ℤ) - powerAt c item).natAbs := by
  rw [Finset.mem_symmDiff] at single
  rcases copies.toHashmap_get first item with ⟨inFirst, power, own, value⟩ | ⟨notFirst, own, none⟩
  · rcases otherCopies.toHashmap_get second item with ⟨inSecond, _⟩ | ⟨notSecond, _, zero⟩
    · exact absurd single (by simp [inFirst, inSecond])
    · have amount : ((powerAt b item : ℤ) - powerAt c item).natAbs = power.val := by omega
      rw [amount] at fits ⊢
      obtain ⟨next, made, sum⟩ := addPower_eq fits
      exact ⟨next, by rw [addSingle, own, Option.some_or, unwrap, ok_bind, made], sum⟩
  · rcases otherCopies.toHashmap_get second item with ⟨inSecond, power, others, value⟩ |
      ⟨notSecond, _, _⟩
    · have amount : ((powerAt b item : ℤ) - powerAt c item).natAbs = power.val := by omega
      rw [amount] at fits ⊢
      obtain ⟨next, made, sum⟩ := addPower_eq fits
      exact ⟨next, by rw [addSingle, own, others, Option.none_or, unwrap, ok_bind, made], sum⟩
    · exact absurd single (by simp [notFirst, notSecond])

theorem addCommon_eq {item : EthAddress} (common : item ∈ valset.toHashset ∩ other.toHashset)
    {total : U64} (fits : total.val + ((powerAt b item : ℤ) - powerAt c item).natAbs < 2 ^ 64) :
    ∃ next, addCommon valset.toHashmap other.toHashmap total item = .ok next ∧
      next.val = total.val + ((powerAt b item : ℤ) - powerAt c item).natAbs := by
  obtain ⟨inFirst, inSecond⟩ := Finset.mem_inter.mp common
  rcases copies.toHashmap_get first item with ⟨_, power, own, value⟩ | ⟨notFirst, _, _⟩
  · rcases otherCopies.toHashmap_get second item with ⟨_, less, others, lessValue⟩ | ⟨notSecond, _, _⟩
    · rw [addCommon, own, others, unwrap, ok_bind, unwrap, ok_bind]
      have amount : (if less < power then power - less else less - power).val =
          ((powerAt b item : ℤ) - powerAt c item).natAbs := by
        split_ifs with more
        · rw [Fin.sub_val_of_le more.le]
          have := Fin.lt_def.mp more
          omega
        · rw [Fin.sub_val_of_le (not_lt.mp more)]
          have := Fin.le_def.mp (not_lt.mp more)
          omega
      rw [← amount] at fits ⊢
      obtain ⟨next, made, sum⟩ := addPower_eq fits
      refine ⟨next, ?_, sum⟩
      rw [← made]
      split_ifs <;> rfl
    · exact absurd inSecond notSecond
  · exact absurd inFirst notFirst

/-- The sum is the distance, in whichever order the hash sets are visited. -/
theorem totalPowerDiff_eq {single common : List EthAddress}
    (singles : Visits single (symmDiff valset.toHashset other.toHashset))
    (commons : Visits common (valset.toHashset ∩ other.toHashset)) :
    ∃ total, valset.totalPowerDiff other single common = .ok total ∧
      total.val = distance (powerAt b) (powerAt c) := by
  let amount : EthAddress → Nat := fun item => ((powerAt b item : ℤ) - powerAt c item).natAbs
  have sums : (single.map amount).sum + (common.map amount).sum =
      distance (powerAt b) (powerAt c) := by
    rw [← sum_toFinset amount singles.1, ← sum_toFinset amount commons.1, singles.2, commons.2,
      ← Finset.sum_union (disjoint_symmDiff_inf _ _)]
    refine Finset.sum_subset (Finset.subset_univ _) fun item _ outside => ?_
    rcases copies.toHashmap_get first item with ⟨inFirst, _⟩ | ⟨notFirst, _, zero⟩
    · refine absurd (Finset.mem_union.mpr ?_) outside
      by_cases inSecond : item ∈ other.toHashset
      · exact .inr (Finset.mem_inter.mpr ⟨inFirst, inSecond⟩)
      · exact .inl (Finset.mem_symmDiff.mpr (.inl ⟨inFirst, inSecond⟩))
    · rcases otherCopies.toHashmap_get second item with ⟨inSecond, _⟩ | ⟨_, _, otherZero⟩
      · exact absurd (Finset.mem_union.mpr
          (.inl (Finset.mem_symmDiff.mpr (.inr ⟨inSecond, notFirst⟩)))) outside
      · simp [zero, otherZero]
  have short := distance_lt first second
  have start : (0 : U64).val = 0 := rfl
  obtain ⟨partway, ranSingle, firstSum⟩ :=
    @foldlM_adds (addSingle valset.toHashmap other.toHashmap) amount single
    (fun item inside total fits => addSingle_eq copies otherCopies first second
      (singles.2 ▸ mem_toFinset.mpr inside) fits) 0 (by omega)
  obtain ⟨total, ranCommon, secondSum⟩ :=
    @foldlM_adds (addCommon valset.toHashmap other.toHashmap) amount common
    (fun item inside total fits => addCommon_eq copies otherCopies first second
      (commons.2 ▸ mem_toFinset.mpr inside) fits) partway (by omega)
  exact ⟨total, by rw [Valset.totalPowerDiff, ranSingle, ok_bind, ranCommon], by omega⟩

end

/-- Both implementations add up the distance of the powers, whatever the order of the members, of
the map and of the hash sets. It is a distance between assignments of powers. -/
theorem power_differences_agree (first : Comparable b) (second : Comparable c) :
    (∀ d e values, d.Perm b → e.Perm c → values.Perm (powerMap d e).values →
      accumulateDelta values = distance (powerAt b) (powerAt c)) ∧
    (∀ (valset other : Valset) single common, valset.Copies b → other.Copies c →
      Visits single (symmDiff valset.toHashset other.toHashset) →
      Visits common (valset.toHashset ∩ other.toHashset) →
      ∃ total, valset.totalPowerDiff other single common = .ok total ∧
        total.val = distance (powerAt b) (powerAt c)) ∧
    distance (powerAt b) (powerAt c) = distance (powerAt c) (powerAt b) ∧
    (∀ d, distance (powerAt b) (powerAt d) ≤ distance (powerAt b) (powerAt c) + distance (powerAt c)
      (powerAt d)) ∧
    (distance (powerAt b) (powerAt c) = 0 ↔ ∀ address, powerAt b address = powerAt c address) := by
  refine ⟨fun d e values sameFirst sameSecond order => ?_,
    fun valset other single common copies otherCopies singles commons =>
    totalPowerDiff_eq copies otherCopies first second singles commons, distance_comm _ _, fun d =>
      distance_triangle _ _ _,
    distance_eq_zero_iff⟩
  rw [accumulateDelta_eq (first.perm sameFirst) (second.perm sameSecond) order, powerAt, powerAt,
    weightAt_perm sameFirst, weightAt_perm sameSecond]
  rfl

end

/-- A set that loses its first member and halves the second. -/
def setBefore : List InternalBridgeValidator := [⟨3, 1⟩, ⟨8, 2⟩]

def setAfter : List InternalBridgeValidator := [⟨4, 2⟩, ⟨5, 3⟩]

def valsetOf (members : List InternalBridgeValidator) : Valset :=
  ⟨1, members.map fun member => ⟨member.power, member.ethereumAddress⟩, 0, none⟩

theorem changed_sets_agree :
    accumulateDelta [4, -5, 3] = 12 ∧ accumulateDelta [4, -5, 3] =
      distance (powerAt setBefore) (powerAt setAfter) ∧
      ∃ total, (valsetOf setBefore).totalPowerDiff (valsetOf setAfter) [3, 1] [2] = .ok total ∧
        total.val = distance (powerAt setBefore) (powerAt setAfter) := by
  have before : Comparable setBefore := ⟨by decide, by decide, by decide⟩
  have after : Comparable setAfter := ⟨by decide, by decide, by decide⟩
  have values : (powerMap setBefore setAfter).values = [3, 4, -5] := by decide +kernel
  obtain ⟨module, orchestrator, _⟩ := power_differences_agree before after
  refine ⟨by decide +kernel, module _ _ _ (.refl _) (.refl _) (values ▸ by decide),
    orchestrator _ _ _ _ (.refl _) (.refl _)
    ⟨by decide, by decide +kernel⟩ ⟨by decide, by decide +kernel⟩⟩

end GravityBridge.Orchestrator
