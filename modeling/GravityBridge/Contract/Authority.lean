import GravityBridge.Contract.Gravity

/-!
# What the validators decided

The contract is to do what enough validators of the current set signed, and each
thing once. An authority is what they decided so far: the set in force, the last
batch of each token and the last call of each invalidation id. Authorised changes
lead from one authority to a later one, and the storage of the contract obeys an
authority when it says the same.
-/

namespace GravityBridge.Contract

open Lib Lib.Fallible Lib.ByteString Lib.Abi
open GravityBridge.Types

structure Authority where
  valset : ValsetArgs
  batchNonces : EthAddress → Nat
  invalidations : Bytes32 → Nat

/-- A set that can be in force. -/
structure ValsetArgs.WellFormed (valset : ValsetArgs) : Prop where
  matched : valset.validators.length = valset.powers.length
  nonempty : valset.validators ≠ []
  power : powerThreshold < (valset.powers.map Fin.val).sum

/-- What the signatures are over. -/
def Content.hash (ext : External) (gravityId : Bytes32) : Content → Bytes
  | .valset newValset => makeCheckpoint ext newValset gravityId
  | .batch args => batchHash ext args gravityId
  | .logicCall args => argsHash ext args gravityId

/-- The content is newer than what was decided. -/
def Authority.Admits (authority : Authority) : Content → Prop
  | .valset newValset => authority.valset.valsetNonce < newValset.valsetNonce ∧ newValset.WellFormed
  | .batch batch => authority.batchNonces batch.tokenContract < batch.batchNonce.val
  | .logicCall args => authority.invalidations args.invalidationId < args.invalidationNonce.val

def Authority.apply (authority : Authority) : Content → Authority
  | .valset newValset => { authority with valset := newValset }
  | .batch batch => { authority with
      batchNonces := Function.update authority.batchNonces batch.tokenContract batch.batchNonce.val }
  | .logicCall args => { authority with
      invalidations :=
        Function.update authority.invalidations args.invalidationId args.invalidationNonce.val }

/-- Each change is newer than what was decided before it, and members of the set that was then in
force signed it, with more power than the threshold. -/
inductive Authorised (ext : External) (gravityId : Bytes32) : Authority → List Change →
    Authority → Prop
  | nil (authority : Authority) : Authorised ext gravityId authority [] authority
  | cons {authority later : Authority} {change : Change} {rest : List Change} :
      change.currentValset = authority.valset →
      EnoughSigned ext (authority.valset.signedBy change.sigs) (change.content.hash ext gravityId)
        powerThreshold →
      authority.Admits change.content →
      Authorised ext gravityId (authority.apply change.content) rest later →
      Authorised ext gravityId authority (change :: rest) later

/-- One authority is not later than another one. -/
structure Authority.UpTo (authority later : Authority) : Prop where
  valset : authority.valset.valsetNonce ≤ later.valset.valsetNonce
  batches : ∀ token, authority.batchNonces token ≤ later.batchNonces token
  invalidations : ∀ id, authority.invalidations id ≤ later.invalidations id

theorem Authority.UpTo.refl (authority : Authority) : authority.UpTo authority :=
  ⟨le_rfl, fun _ => le_rfl, fun _ => le_rfl⟩

theorem Authority.UpTo.trans {first second third : Authority} (before : first.UpTo second)
    (after : second.UpTo third) :
    first.UpTo third :=
  ⟨before.valset.trans after.valset, fun token => (before.batches token).trans (after.batches token),
    fun id => (before.invalidations id).trans (after.invalidations id)⟩

theorem le_update_of_lt {α : Type*} [DecidableEq α] {nonces : α → Nat} {key : α} {nonce : Nat}
    (newer : nonces key < nonce) (other : α) :
    nonces other ≤ Function.update nonces key nonce other := by
  by_cases same : other = key
  · rw [same, Function.update_self]
    exact newer.le
  · rw [Function.update_of_ne same]

theorem Authority.Admits.upTo {authority : Authority} {content : Content}
    (admitted : authority.Admits content) : authority.UpTo (authority.apply content) := by
  cases content with
  | valset newValset => exact ⟨admitted.1.le, fun _ => le_rfl, fun _ => le_rfl⟩
  | batch batch => exact ⟨le_rfl, le_update_of_lt admitted, fun _ => le_rfl⟩
  | logicCall args => exact ⟨le_rfl, fun _ => le_rfl, le_update_of_lt admitted⟩

section

variable {ext : External} {gravityId : Bytes32} {authority later : Authority}
  {changes more : List Change}

theorem Authorised.append {last : Authority}
    (before : Authorised ext gravityId authority changes later)
    (after : Authorised ext gravityId later more last) :
    Authorised ext gravityId authority (changes ++ more) last := by
  induction before with
  | nil => exact after
  | cons current signed admitted _ ih => exact .cons current signed admitted (ih after)

theorem Authorised.upTo (authorised : Authorised ext gravityId authority changes later) :
    authority.UpTo later := by
  induction authorised with
  | nil authority => exact .refl authority
  | cons _ _ admitted _ ih => exact admitted.upTo.trans ih

/-- The sets follow each other with growing nonces, and the last one is in force. -/
theorem Authorised.valsets (authorised : Authorised ext gravityId authority changes later) :
    ((authority.valset :: valsetsOf changes).map ValsetArgs.valsetNonce).Pairwise (· < ·) ∧
      (authority.valset :: valsetsOf changes).getLast? = some later.valset := by
  induction authorised with
  | nil => simp [valsetsOf]
  | @cons authority later change rest _ _ admitted after ih =>
    obtain ⟨increasing, last⟩ := ih
    obtain ⟨_, _, content⟩ := change
    cases content with
    | valset newValset =>
      have newer : authority.valset.valsetNonce < newValset.valsetNonce := admitted.1
      refine ⟨?_, ?_⟩
      · change ((authority.valset :: newValset :: valsetsOf rest).map
          ValsetArgs.valsetNonce).Pairwise (· < ·)
        rw [List.map_cons, List.pairwise_cons]
        refine ⟨fun nonce member => ?_, increasing⟩
        rcases List.mem_cons.mp member with rfl | inRest
        · exact newer
        · exact newer.trans ((List.pairwise_cons.mp increasing).1 nonce inRest)
      · change (authority.valset :: newValset :: valsetsOf rest).getLast? = some later.valset
        rw [List.getLast?_cons_cons]
        exact last
    | batch batch => exact ⟨increasing, last⟩
    | logicCall args => exact ⟨increasing, last⟩

end

/-! ## Storage -/

/-- The storage of the contract says what the authority says. -/
structure Ethereum.Obeys (ext : External) (ethereum : Ethereum) (authority : Authority) : Prop where
  checkpoint : ethereum.lastValsetCheckpoint = makeCheckpoint ext authority.valset ethereum.gravityId
  wellFormed : authority.valset.WellFormed
  nonce : ethereum.lastValsetNonce = authority.valset.valsetNonce.val
  batchNonces : ethereum.lastBatchNonces = authority.batchNonces
  invalidations : ethereum.invalidationMapping = authority.invalidations

/-- Sets with a power for each validator and one checkpoint are equal. -/
theorem makeCheckpoint_injective {ext : External} (free : Function.Injective ext.keccak256)
    {gravityId : Bytes32}
    {first second : ValsetArgs} (firstMatched : first.validators.length = first.powers.length)
    (secondMatched : second.validators.length = second.powers.length)
    (same : makeCheckpoint ext first gravityId = makeCheckpoint ext second gravityId) :
    first = second :=
  (ValsetArgs.encode_injective gravityId.property.le gravityId.property.le
    (.same _) firstMatched secondMatched (free same)).2

/-- The checkpoint is that of one set only. -/
theorem Ethereum.Obeys.existsUnique {ext : External} (free : Function.Injective ext.keccak256)
    {ethereum : Ethereum} {authority : Authority} (obeys : ethereum.Obeys ext authority) :
    ∃! valset : ValsetArgs, ethereum.lastValsetCheckpoint =
      makeCheckpoint ext valset ethereum.gravityId ∧
      valset.validators.length = valset.powers.length ∧ valset.validators ≠ [] ∧
      powerThreshold < (valset.powers.map Fin.val).sum ∧
        valset.valsetNonce.val = ethereum.lastValsetNonce := by
  refine ⟨authority.valset, ⟨obeys.checkpoint, obeys.wellFormed.matched, obeys.wellFormed.nonempty,
    obeys.wellFormed.power, obeys.nonce.symm⟩, ?_⟩
  rintro valset ⟨checkpoint, matched, _⟩
  exact makeCheckpoint_injective free matched obeys.wellFormed.matched
    (checkpoint.symm.trans obeys.checkpoint)

/-! ## Checks of the contract -/

theorem cumulatePower_le {cumulativePower total : Nat} {powers : List U256}
    (ran : cumulatePower cumulativePower powers = .ok total) :
    total ≤ cumulativePower + (powers.map Fin.val).sum := by
  induction powers generalizing cumulativePower with
  | nil => exact (pure_eq_ok.mp ran).ge
  | cons power rest ih =>
    simp only [cumulatePower, bind_eq_ok, checkedAdd_eq_ok] at ran
    obtain ⟨next, ⟨_, rfl⟩, ran⟩ := ran
    rw [List.map_cons, List.sum_cons]
    split_ifs at ran with reached
    · have := pure_eq_ok.mp ran
      omega
    · have := ih ran
      omega

theorem power_of_requirePower {powers : List U256} (checked : requirePower powers = .ok ()) :
    powerThreshold < (powers.map Fin.val).sum := by
  simp only [requirePower, bind_eq_ok, require_eq_ok] at checked
  obtain ⟨total, ran, enough⟩ := checked
  have := cumulatePower_le ran
  omega

/-- The set that is supplied with its signatures is the one in force. -/
theorem Ethereum.Obeys.current {ext : External} (free : Function.Injective ext.keccak256)
    {ethereum : Ethereum}
    {authority : Authority} (obeys : ethereum.Obeys ext authority) {currentValset : ValsetArgs}
    {sigs : List Signature} (validated : validateValset currentValset sigs = .ok ())
    (checked : ethereum.requireCheckpoint ext currentValset = .ok ()) :
    currentValset = authority.valset := by
  simp only [validateValset, require_eq_ok] at validated
  simp only [Ethereum.requireCheckpoint, require_eq_ok] at checked
  exact makeCheckpoint_injective free validated.1 obeys.wellFormed.matched
    (checked.trans obeys.checkpoint)

end GravityBridge.Contract
