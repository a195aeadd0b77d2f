import GravityBridge.Types.ClaimHash

/-!
# Components restore the claim

An attestation stores the hashed fields of its claim once more, with amounts as decimal strings and
the members of a validator set in sorted order. The claim restored from them hashes to the same
bytes and has the same components again. Since the sorted order leaves no choice, the order of the
claimed members does not matter.
-/

namespace GravityBridge.Types

open Lib.Fallible Lib.ByteString Lib.Digits

variable {ext : External}

/-! ## Amounts -/

theorem readDigits_numeral (number : Nat) : readDigits (numeral 10 number) = some number := by
  have digits : ∀ digit < 10, (48 ≤ digitByte digit && digitByte digit ≤ 57) = true ∧
      (digitByte digit).toNat - 48 = digit := by decide
  have all : ∀ byte ∈ numeral 10 number, (48 ≤ byte && byte ≤ 57) = true := by
    intro byte member
    obtain ⟨digit, below, rfl⟩ := mem_numeral (by decide) member
    exact (digits digit below).1
  rw [readDigits, if_pos ⟨numeral_ne_nil 10 number, List.all_eq_true.mpr all⟩, numeral,
    List.foldl_map]
  have same : (shortest 10 number).foldl (fun total digit =>
      total * 10 + ((digitByte digit).toNat - 48)) 0 = value 10 (shortest 10 number) :=
    List.foldl_ext _ _ _ fun total digit member => by
      rw [(digits digit (shortest_lt (by decide) number digit member)).2]
  rw [same, value_shortest]

/-- An amount of at most 256 bits is read back as it was printed. -/
theorem newIntFromString_amountString {amount : Int} (small : amount.natAbs < 2 ^ 256) :
    newIntFromString (amountString (some amount)) = some amount := by
  cases amount with
  | ofNat number =>
    have unsigned : ∀ digits, numeral 10 number ≠ 45 :: digits := fun digits =>
      numeral_ne_cons number digits (by decide)
    have fits : number < 2 ^ 256 := small
    rw [amountString, newIntFromString.eq_2 _ unsigned, readDigits_numeral, Option.bind_some,
      if_pos fits]
    rfl
  | negSucc number =>
    have fits : number + 1 < 2 ^ 256 := small
    have signed : ascii "-" ++ numeral 10 (number + 1) = 45 :: numeral 10 (number + 1) := rfl
    rw [amountString, signed, newIntFromString, readDigits_numeral, Option.bind_some, if_pos fits]
    rfl

/-! ## Members -/

theorem sortsBefore_total (first second : InternalBridgeValidator) :
    sortsBefore ext first second ∨ sortsBefore ext second first := by
  rcases lt_trichotomy first.power second.power with less | same | greater
  · exact .inr (.inl less)
  · exact (le_total (hex ext first.ethereumAddress) (hex ext second.ethereumAddress)).imp
      (fun below => .inr ⟨same, below⟩) (fun below => .inr ⟨same.symm, below⟩)
  · exact .inl (.inl greater)

theorem sortsBefore_trans {first second third : InternalBridgeValidator}
    (left : sortsBefore ext first second)
    (right : sortsBefore ext second third) : sortsBefore ext first third := by
  rcases left with more | ⟨same, below⟩
  · rcases right with more' | ⟨same', -⟩
    · exact .inl (more'.trans more)
    · exact .inl (same' ▸ more)
  · rcases right with more' | ⟨same', below'⟩
    · exact .inl (same ▸ more')
    · exact .inr ⟨same.trans same', below.trans below'⟩

/-- Members that are not ordered by power or address are the same. -/
theorem sortsBefore_antisymm {first second : InternalBridgeValidator}
    (left : sortsBefore ext first second)
    (right : sortsBefore ext second first) : first = second := by
  rcases left with more | ⟨same, below⟩
  · rcases right with more' | ⟨same', -⟩
    · exact absurd more' more.not_gt
    · exact absurd same' more.ne
  · rcases right with more' | ⟨-, below'⟩
    · exact absurd same more'.ne
    · have address := hex_injective ext (le_antisymm below below')
      cases first
      cases second
      simp_all

instance : Std.Total (sortsBefore ext) := ⟨sortsBefore_total⟩

instance : IsTrans InternalBridgeValidator (sortsBefore ext) := ⟨fun _ _ _ => sortsBefore_trans⟩

instance : Std.Antisymm (sortsBefore ext) := ⟨fun _ _ => sortsBefore_antisymm⟩

/-- Whatever the order before, there is one order after. -/
theorem sortMembers_perm {first second : List InternalBridgeValidator} (same : first.Perm second) :
    sortMembers ext first = sortMembers ext second :=
  List.Perm.eq_of_pairwise' (List.pairwise_insertionSort _ first)
    (List.pairwise_insertionSort _ second)
    (((List.perm_insertionSort _ first).trans same).trans (List.perm_insertionSort _ second).symm)

theorem membersToInternal_toExternal (members : List InternalBridgeValidator) :
    membersToInternal (members.map (InternalBridgeValidator.toExternal ext)) = .ok members :=
  mapM_map_eq_ok members fun member _ => by
    simp only [newInternalBridgeValidator, InternalBridgeValidator.toExternal, newEthAddress_hex]
    rfl

variable {members canonical : List BridgeValidator}

theorem canonicalMembers_eq_ok :
    canonicalMembers ext members = .ok canonical ↔
      ∃ internal, membersToInternal members = .ok internal ∧
      (sortMembers ext internal).map (InternalBridgeValidator.toExternal ext) = canonical := by
  simp [canonicalMembers]

/-- Canonical members stay as they are. -/
theorem canonicalMembers_canonical
    (sorted : canonicalMembers ext members = .ok canonical) :
    canonicalMembers ext canonical = .ok canonical := by
  obtain ⟨internal, read, rfl⟩ := canonicalMembers_eq_ok.mp sorted
  exact canonicalMembers_eq_ok.mpr ⟨_, membersToInternal_toExternal _,
    congrArg _ (sortMembers_perm (List.perm_insertionSort _ internal))⟩

theorem canonicalMembers_perm {first second : List BridgeValidator} (same : first.Perm second)
    (sorted : canonicalMembers ext first = .ok canonical) :
    canonicalMembers ext second = .ok canonical := by
  obtain ⟨internal, read, rfl⟩ := canonicalMembers_eq_ok.mp sorted
  obtain ⟨other, readOther, perm⟩ := mapM_perm same read
  exact canonicalMembers_eq_ok.mpr ⟨other, readOther, by rw [sortMembers_perm perm]⟩

theorem canonicalMembers_of_valid (ext : External)
    (valid : ∀ member ∈ members, validateEthAddress member.ethereumAddress = .ok ()) :
    ∃ canonical, canonicalMembers ext members = .ok canonical := by
  obtain ⟨internal, read⟩ : ∃ internal, membersToInternal members = .ok internal := by
    refine mapM_succeeds fun member inside =>
      ⟨⟨member.power, hexToAddress member.ethereumAddress⟩, ?_⟩
    have parsed := newEthAddress_eq_ok.mpr ⟨valid member inside, rfl⟩
    simp only [newInternalBridgeValidator, rewrap_eq_ok, bind_eq_ok, pure_eq_ok]
    exact ⟨_, parsed, rfl⟩
  exact ⟨_, canonicalMembers_eq_ok.mpr ⟨internal, read, rfl⟩⟩

/-! ## Claims -/

/-- An amount that is there and has at most 256 bits. -/
def Sized (amount : Option Int) : Prop := ∃ number, amount = some number ∧ number.natAbs < 2 ^ 256

/-- The amounts are there and have at most 256 bits, and the members have addresses. -/
def EthereumClaim.WellSized : EthereumClaim → Prop
  | sendToCosmos msg => Sized msg.amount
  | valsetUpdated msg =>
      Sized msg.rewardAmount ∧ ∀ member ∈ msg.members,
        validateEthAddress member.ethereumAddress = .ok ()
  | batchSendToEth _ | erc20Deployed _ | logicCallExecuted _ => True

theorem Sized.read {amount : Option Int} (sized : Sized amount) :
    ∃ number, amount = some number ∧ newIntFromString (amountString amount) = some number := by
  obtain ⟨number, rfl, small⟩ := sized
  exact ⟨number, rfl, newIntFromString_amountString small⟩

/-- The components of a claim restore a claim with the same hash and the same components. -/
structure Restores (ext : External) (claim : EthereumClaim) (components : ClaimHashComponents)
    (restored : EthereumClaim) (hash : Bytes) : Prop where
  extracted : extractClaimHashComponents ext claim = .ok components
  hashed : claim.claimHash ext = .ok hash
  reconstructed : reconstructClaim components = .ok restored
  computed : components.computeClaimHash ext = .ok hash
  again : extractClaimHashComponents ext restored = .ok components

/-- It is enough that the restored claim has the path and the components of the claim. -/
theorem Restores.of_path {claim restored : EthereumClaim} {components : ClaimHashComponents}
    {path : Bytes}
    (extracted : extractClaimHashComponents ext claim = .ok components)
    (reconstructed : reconstructClaim components = .ok restored)
    (printed : claim.path ext = .ok path) (reprinted : restored.path ext = .ok path)
    (again : extractClaimHashComponents ext restored = .ok components) :
    Restores ext claim components restored (ext.tmhash path) where
  extracted := extracted
  hashed := by simp [EthereumClaim.claimHash, printed]
  reconstructed := reconstructed
  computed := by simp [ClaimHashComponents.computeClaimHash, reconstructed, EthereumClaim.claimHash,
    reprinted]
  again := again

theorem valsetUpdated_of_canonical {msg : MsgValsetUpdatedClaim}
    (sorted : canonicalMembers ext msg.members = .ok canonical) :
    (EthereumClaim.valsetUpdated msg).path ext =
      .ok (joinFields [decimal msg.eventNonce, decimal msg.valsetNonce,
        decimal msg.ethBlockHeight, printMembers canonical, amountString msg.rewardAmount,
          msg.rewardToken]) ∧
      extractClaimHashComponents ext (.valsetUpdated msg) =
        .ok (.valsetUpdated msg.eventNonce msg.valsetNonce
          msg.ethBlockHeight canonical (amountString msg.rewardAmount) msg.rewardToken) := by
  simp only [EthereumClaim.path, MsgValsetUpdatedClaim.path, extractClaimHashComponents, sorted,
    rewrap, ok_bind]
  exact ⟨rfl, rfl⟩

theorem exists_restores {claim : EthereumClaim} (sized : claim.WellSized) :
    ∃ components restored hash, Restores ext claim components restored hash := by
  cases claim with
  | sendToCosmos msg =>
    obtain ⟨number, present, read⟩ := Sized.read sized
    have reconstructed :
        reconstructClaim (.sendToCosmos msg.eventNonce msg.ethBlockHeight msg.tokenContract
          (amountString msg.amount) msg.ethereumSender msg.cosmosReceiver) =
        .ok (.sendToCosmos { msg with orchestrator := [] }) := by
      rw [present] at read
      simp only [reconstructClaim, present, read, fromOption, ok_bind]
      rfl
    exact ⟨_, _, _, .of_path rfl reconstructed rfl rfl rfl⟩
  | batchSendToEth msg => exact ⟨_, _, _, .of_path rfl rfl rfl rfl rfl⟩
  | erc20Deployed msg => exact ⟨_, _, _, .of_path rfl rfl rfl rfl rfl⟩
  | logicCallExecuted msg => exact ⟨_, _, _, .of_path rfl rfl rfl rfl rfl⟩
  | valsetUpdated msg =>
    obtain ⟨number, present, read⟩ := Sized.read sized.1
    obtain ⟨canonical, sorted⟩ := canonicalMembers_of_valid ext sized.2
    have unchanged := canonicalMembers_canonical sorted
    have reconstructed :
        reconstructClaim (.valsetUpdated msg.eventNonce msg.valsetNonce msg.ethBlockHeight canonical
          (amountString msg.rewardAmount) msg.rewardToken) =
        .ok (.valsetUpdated { msg with members := canonical, orchestrator := [] }) := by
      rw [present] at read
      simp only [reconstructClaim, present, read, fromOption, ok_bind]
      rfl
    obtain ⟨printed, extracted⟩ := valsetUpdated_of_canonical sorted
    obtain ⟨reprinted, again⟩ := valsetUpdated_of_canonical
      (show canonicalMembers ext { msg with members := canonical, orchestrator := [] }.members =
        _ from unchanged)
    exact ⟨_, _, _, .of_path extracted reconstructed printed reprinted again⟩

/-- The order of the members of a claimed set changes neither its hash nor its components. -/
theorem members_perm {msg : MsgValsetUpdatedClaim} (same : msg.members.Perm members)
    (valid : ∀ member ∈ msg.members, validateEthAddress member.ethereumAddress = .ok ()) :
    (EthereumClaim.valsetUpdated { msg with members := members }).claimHash ext =
        (EthereumClaim.valsetUpdated msg).claimHash ext ∧
      extractClaimHashComponents ext (.valsetUpdated { msg with members := members }) =
        extractClaimHashComponents ext (.valsetUpdated msg) := by
  obtain ⟨canonical, sorted⟩ := canonicalMembers_of_valid ext valid
  obtain ⟨printed, extracted⟩ := valsetUpdated_of_canonical sorted
  obtain ⟨reprinted, again⟩ := valsetUpdated_of_canonical
    (show canonicalMembers ext { msg with members := members }.members =
      _ from canonicalMembers_perm same sorted)
  exact ⟨by rw [EthereumClaim.claimHash, EthereumClaim.claimHash, printed, reprinted],
    by rw [extracted, again]⟩

end GravityBridge.Types
