import GravityBridge.Types.ClaimHash

/-!
# Claims that share a hashed string

Two accepted claims with one hashed string describe the same event unless one of
them carries the separator in free text. `runsInto` says exactly how: a name that
continues into the other claim's symbol, or a claim of another type whose free
text spells out the remaining fields.
-/

namespace GravityBridge.Types

open Lib.Fallible Lib.ByteString

/-- A claim that passes the stateless checks made before it is stored. -/
structure Accepted (ext : External) (claim : EthereumClaim) : Prop where
  basic : claim.validateBasic ext = .ok ()
  lengths : validateClaimFieldLengths claim = .ok ()

/-- Both claims have the same type and the same hash components. -/
def SameClaim (ext : External) (first second : EthereumClaim) : Prop :=
  first.getType = second.getType ∧
    extractClaimHashComponents ext first = extractClaimHashComponents ext second

/-- The ways in which free text of one claim imitates the fields of another. -/
def runsInto : EthereumClaim → EthereumClaim → Prop
  | .erc20Deployed first, .erc20Deployed second =>
      first.eventNonce = second.eventNonce ∧ first.ethBlockHeight = second.ethBlockHeight ∧
      first.cosmosDenom = second.cosmosDenom ∧ first.tokenContract = second.tokenContract ∧
      first.decimals = second.decimals ∧
      ∃ gap, second.name = first.name ++ attestationSeparator ++ gap ∧
        first.symbol = gap ++ attestationSeparator ++ second.symbol
  | .sendToCosmos deposit, .erc20Deployed deploy =>
      deposit.eventNonce = deploy.eventNonce ∧ deposit.ethBlockHeight = deploy.ethBlockHeight ∧
      deposit.tokenContract = deploy.cosmosDenom ∧
      amountString deposit.amount = deploy.tokenContract ∧
      ((deploy.name = deposit.ethereumSender ∧ deposit.cosmosReceiver =
          deploy.symbol ++ attestationSeparator ++ decimal deploy.decimals) ∨
        ∃ gap, deploy.name = deposit.ethereumSender ++ attestationSeparator ++ gap ∧
          deposit.cosmosReceiver = gap ++ attestationSeparator ++
            (deploy.symbol ++ attestationSeparator ++ decimal deploy.decimals))
  | .sendToCosmos deposit, .logicCallExecuted call =>
      deposit.eventNonce = call.eventNonce ∧ deposit.ethBlockHeight = call.ethBlockHeight ∧
      ((deposit.cosmosReceiver = decimal call.invalidationNonce ∧ call.invalidationId =
          joinFields [deposit.tokenContract, amountString deposit.amount,
            deposit.ethereumSender]) ∨
        ∃ gap, deposit.cosmosReceiver =
            gap ++ attestationSeparator ++ decimal call.invalidationNonce ∧
          call.invalidationId = joinFields [deposit.tokenContract, amountString deposit.amount,
            deposit.ethereumSender, gap])
  | .erc20Deployed deploy, .logicCallExecuted call =>
      deploy.eventNonce = call.eventNonce ∧ deploy.ethBlockHeight = call.ethBlockHeight ∧
      deploy.decimals = call.invalidationNonce ∧ call.invalidationId =
        joinFields [deploy.cosmosDenom, deploy.tokenContract, deploy.name, deploy.symbol]
  | _, _ => False

variable {ext : External}

/-! ## What the checks say about the fields -/

theorem Accepted.deposit {msg : MsgSendToCosmosClaim} (accepted : Accepted ext (.sendToCosmos msg)) :
    validateEthAddress msg.tokenContract = .ok () ∧
      validateEthAddress msg.ethereumSender = .ok () := by
  have basic := accepted.basic
  simp only [EthereumClaim.validateBasic, MsgSendToCosmosClaim.validateBasic, bind_eq_ok,
    rewrap_eq_ok] at basic
  obtain ⟨_, sender, _, token, _⟩ := basic
  exact ⟨token, sender⟩

theorem Accepted.batch {msg : MsgBatchSendToEthClaim}
    (accepted : Accepted ext (.batchSendToEth msg)) :
    validateEthAddress msg.tokenContract = .ok () := by
  have basic := accepted.basic
  simp only [EthereumClaim.validateBasic, MsgBatchSendToEthClaim.validateBasic, bind_eq_ok,
    rewrap_eq_ok] at basic
  obtain ⟨_, _, _, _, _, token, _⟩ := basic
  exact token

theorem Accepted.deploy {msg : MsgERC20DeployedClaim} (accepted : Accepted ext (.erc20Deployed msg)) :
    Plain msg.cosmosDenom ∧ validateEthAddress msg.tokenContract = .ok () := by
  have basic := accepted.basic
  simp only [EthereumClaim.validateBasic, MsgERC20DeployedClaim.validateBasic, bind_eq_ok,
    rewrap_eq_ok] at basic
  obtain ⟨_, denom, _, token, _⟩ := basic
  exact ⟨plain_of_isASCII (isASCII_of_validateStrictDenom denom), token⟩

theorem Accepted.valset {msg : MsgValsetUpdatedClaim} (accepted : Accepted ext (.valsetUpdated msg)) :
    validateEthAddress msg.rewardToken = .ok () := by
  have basic := accepted.basic
  simp only [EthereumClaim.validateBasic, MsgValsetUpdatedClaim.validateBasic, bind_eq_ok] at basic
  obtain ⟨_, _, _, _, _, token, _⟩ := basic
  exact token

/-! ## Paths as joined fields -/

theorem splitFields {first second firstNext secondNext : Bytes} {firstRest secondRest : List Bytes}
    (firstPlain : Plain first) (secondPlain : Plain second)
    (same : joinFields (first :: firstNext :: firstRest) =
      joinFields (second :: secondNext :: secondRest)) :
    first = second ∧ joinFields (firstNext :: firstRest) = joinFields (secondNext :: secondRest) := by
  rw [joinFields_cons, joinFields_cons] at same
  exact splitFront (· ≤ 127) firstPlain secondPlain (by decide) (by decide) same

theorem splitPair {first second firstLast secondLast : Bytes} (firstPlain : Plain first)
    (secondPlain : Plain second)
    (same : joinFields [first, firstLast] = joinFields [second, secondLast]) :
    first = second ∧ firstLast = secondLast := by
  simpa only [joinFields_single] using splitFields firstPlain secondPlain same

theorem heads_split {firstNonce secondNonce firstHeight secondHeight : U64}
    {firstNext secondNext : Bytes} {firstRest secondRest : List Bytes}
    (same : joinFields (decimal firstNonce :: decimal firstHeight :: firstNext :: firstRest) =
      joinFields (decimal secondNonce :: decimal secondHeight :: secondNext :: secondRest)) :
    firstNonce = secondNonce ∧ firstHeight = secondHeight ∧
      joinFields (firstNext :: firstRest) = joinFields (secondNext :: secondRest) := by
  obtain ⟨nonces, tails⟩ := splitFields (plain_decimal _) (plain_decimal _) same
  obtain ⟨heights, rests⟩ := splitFields (plain_decimal _) (plain_decimal _) tails
  exact ⟨decimal_injective nonces, decimal_injective heights, rests⟩

theorem joinFields_ne_single {first next single : Bytes} {rest : List Bytes} (plain : Plain single) :
    joinFields (first :: next :: rest) ≠ joinFields [single] := by
  rw [joinFields_cons, joinFields_single]
  rintro rfl
  exact not_plain_separator _ _ plain

variable {path : Bytes}

theorem valsetPath_eq_ok {msg : MsgValsetUpdatedClaim} (hashed : msg.path ext = .ok path) :
    ∃ members, canonicalMembers ext msg.members = .ok members ∧
      path = joinFields [decimal msg.eventNonce, decimal msg.valsetNonce,
        decimal msg.ethBlockHeight, printMembers members, amountString msg.rewardAmount,
        msg.rewardToken] := by
  simp only [MsgValsetUpdatedClaim.path, bind_eq_ok, rewrap_eq_ok, pure_eq_ok] at hashed
  obtain ⟨members, canonical, rfl⟩ := hashed
  exact ⟨members, canonical, rfl⟩

/-! ## Pairs of claims of one type -/

theorem deposits_same {first second : MsgSendToCosmosClaim}
    (firstAccepted : Accepted ext (.sendToCosmos first))
    (secondAccepted : Accepted ext (.sendToCosmos second)) (same : first.path = second.path) :
    SameClaim ext (.sendToCosmos first) (.sendToCosmos second) := by
  obtain ⟨firstToken, firstSender⟩ := firstAccepted.deposit
  obtain ⟨secondToken, secondSender⟩ := secondAccepted.deposit
  obtain ⟨nonces, heights, fields⟩ := heads_split same
  obtain ⟨tokens, fields⟩ := splitFields (plain_of_validateEthAddress firstToken)
    (plain_of_validateEthAddress secondToken) fields
  obtain ⟨amounts, fields⟩ := splitFields (plain_amountString _) (plain_amountString _) fields
  obtain ⟨senders, receivers⟩ := splitPair (plain_of_validateEthAddress firstSender)
    (plain_of_validateEthAddress secondSender) fields
  exact ⟨rfl, by simp only [extractClaimHashComponents, nonces, heights, tokens, amounts, senders,
    receivers]⟩

theorem batches_same {first second : MsgBatchSendToEthClaim} (same : first.path = second.path) :
    SameClaim ext (.batchSendToEth first) (.batchSendToEth second) := by
  obtain ⟨nonces, heights, fields⟩ := heads_split same
  obtain ⟨batchNonces, tokens⟩ := splitPair (plain_decimal _) (plain_decimal _) fields
  exact ⟨rfl, by simp only [extractClaimHashComponents, nonces, heights, tokens,
    decimal_injective batchNonces]⟩

theorem calls_same {first second : MsgLogicCallExecutedClaim} (same : first.path = second.path) :
    SameClaim ext (.logicCallExecuted first) (.logicCallExecuted second) := by
  obtain ⟨nonces, heights, fields⟩ := heads_split same
  simp only [joinFields_cons, joinFields_single] at fields
  obtain ⟨ids, invalidationNonces⟩ := splitRight (plain_decimal _) (plain_decimal _) fields
  exact ⟨rfl, by simp only [extractClaimHashComponents, nonces, heights, ids,
    decimal_injective invalidationNonces]⟩

theorem valsets_same {first second : MsgValsetUpdatedClaim}
    (firstHashed : first.path ext = .ok path) (secondHashed : second.path ext = .ok path) :
    SameClaim ext (.valsetUpdated first) (.valsetUpdated second) := by
  obtain ⟨firstMembers, firstCanonical, rfl⟩ := valsetPath_eq_ok firstHashed
  obtain ⟨secondMembers, secondCanonical, same⟩ := valsetPath_eq_ok secondHashed
  obtain ⟨nonces, valsetNonces, fields⟩ := heads_split same
  obtain ⟨heights, fields⟩ := splitFields (plain_decimal _) (plain_decimal _) fields
  obtain ⟨members, fields⟩ := splitFields (plain_printMembers _) (plain_printMembers _) fields
  obtain ⟨amounts, tokens⟩ := splitPair (plain_amountString _) (plain_amountString _) fields
  refine ⟨rfl, ?_⟩
  simp only [extractClaimHashComponents, firstCanonical, secondCanonical, nonces, valsetNonces,
    decimal_injective heights, printMembers_injective members, amounts, tokens]

theorem deploys_same_or_runsInto {first second : MsgERC20DeployedClaim}
    (firstAccepted : Accepted ext (.erc20Deployed first))
    (secondAccepted : Accepted ext (.erc20Deployed second)) (same : first.path = second.path) :
    SameClaim ext (.erc20Deployed first) (.erc20Deployed second) ∨
      runsInto (.erc20Deployed first) (.erc20Deployed second) ∨
      runsInto (.erc20Deployed second) (.erc20Deployed first) := by
  obtain ⟨firstDenom, firstToken⟩ := firstAccepted.deploy
  obtain ⟨secondDenom, secondToken⟩ := secondAccepted.deploy
  obtain ⟨nonces, heights, fields⟩ := heads_split same
  obtain ⟨denoms, fields⟩ := splitFields firstDenom secondDenom fields
  obtain ⟨tokens, fields⟩ := splitFields (plain_of_validateEthAddress firstToken)
    (plain_of_validateEthAddress secondToken) fields
  simp only [joinFields_cons, joinFields_single, ← List.append_assoc] at fields
  obtain ⟨texts, decimals⟩ := splitRight (plain_decimal _) (plain_decimal _) fields
  have decimalsSame := decimal_injective decimals
  rcases splitAnywhere texts with ⟨names, symbols⟩ | ⟨gap, names, symbols⟩ | ⟨gap, names, symbols⟩
  · exact .inl ⟨rfl, by simp only [extractClaimHashComponents, nonces, heights, denoms, tokens,
      names, symbols, decimalsSame]⟩
  · exact .inr (.inl ⟨nonces, heights, denoms, tokens, decimalsSame, gap, names, symbols⟩)
  · exact .inr (.inr ⟨nonces.symm, heights.symm, denoms.symm, tokens.symm, decimalsSame.symm, gap,
      names, symbols⟩)

/-! ## Pairs of claims of two types -/

variable {deposit : MsgSendToCosmosClaim} {deploy : MsgERC20DeployedClaim}

theorem deposit_deploy_runsInto (depositAccepted : Accepted ext (.sendToCosmos deposit))
    (deployAccepted : Accepted ext (.erc20Deployed deploy)) (same : deposit.path = deploy.path) :
    runsInto (.sendToCosmos deposit) (.erc20Deployed deploy) := by
  obtain ⟨depositToken, sender⟩ := depositAccepted.deposit
  obtain ⟨denom, deployToken⟩ := deployAccepted.deploy
  obtain ⟨nonces, heights, fields⟩ := heads_split same
  obtain ⟨denoms, fields⟩ := splitFields (plain_of_validateEthAddress depositToken) denom fields
  obtain ⟨tokens, fields⟩ :=
    splitFields (plain_amountString _) (plain_of_validateEthAddress deployToken) fields
  simp only [joinFields_cons, joinFields_single] at fields
  refine ⟨nonces, heights, denoms, tokens, ?_⟩
  rcases splitAnywhere fields with ⟨names, texts⟩ | ⟨gap, names, texts⟩ | ⟨gap, names, _⟩
  · exact .inl ⟨names.symm, texts⟩
  · exact .inr ⟨gap, names, texts⟩
  · exact absurd (plain_of_validateEthAddress sender) (names ▸ not_plain_separator _ _)

variable {call : MsgLogicCallExecutedClaim}

theorem deposit_call_runsInto (same : deposit.path = call.path) :
    runsInto (.sendToCosmos deposit) (.logicCallExecuted call) := by
  obtain ⟨nonces, heights, fields⟩ := heads_split same
  refine ⟨nonces, heights, ?_⟩
  have split : joinFields [deposit.tokenContract, amountString deposit.amount,
      deposit.ethereumSender] ++ attestationSeparator ++ deposit.cosmosReceiver =
      call.invalidationId ++ attestationSeparator ++ decimal call.invalidationNonce := by
    simpa using fields
  rcases splitAnywhere split with ⟨ids, nonce⟩ | ⟨gap, ids, receiver⟩ | ⟨gap, _, nonce⟩
  · exact .inl ⟨nonce, ids.symm⟩
  · refine .inr ⟨gap, receiver, ?_⟩
    simpa using ids
  · exact absurd (plain_decimal call.invalidationNonce) (nonce ▸ not_plain_separator _ _)

theorem deploy_call_runsInto (same : deploy.path = call.path) :
    runsInto (.erc20Deployed deploy) (.logicCallExecuted call) := by
  obtain ⟨nonces, heights, fields⟩ := heads_split same
  have split : joinFields [deploy.cosmosDenom, deploy.tokenContract, deploy.name, deploy.symbol] ++
      attestationSeparator ++ decimal deploy.decimals =
      call.invalidationId ++ attestationSeparator ++ decimal call.invalidationNonce := by
    simpa using fields
  obtain ⟨ids, invalidationNonces⟩ := splitRight (plain_decimal _) (plain_decimal _) split
  exact ⟨nonces, heights, decimal_injective invalidationNonces, ids.symm⟩

variable {batch : MsgBatchSendToEthClaim}

theorem deposit_path_ne_batch (accepted : Accepted ext (.sendToCosmos deposit)) :
    deposit.path ≠ batch.path := by
  intro same
  obtain ⟨_, _, fields⟩ := heads_split same
  obtain ⟨token, _⟩ :=
    splitFields (plain_of_validateEthAddress accepted.deposit.1) (plain_decimal _) fields
  exact decimal_ne_address accepted.deposit.1 token.symm

theorem deploy_path_ne_batch (deployAccepted : Accepted ext (.erc20Deployed deploy))
    (batchAccepted : Accepted ext (.batchSendToEth batch)) : deploy.path ≠ batch.path := by
  intro same
  obtain ⟨_, _, fields⟩ := heads_split same
  obtain ⟨_, token⟩ := splitFields deployAccepted.deploy.1 (plain_decimal _) fields
  exact joinFields_ne_single (plain_of_validateEthAddress batchAccepted.batch) token

theorem call_path_ne_batch (accepted : Accepted ext (.batchSendToEth batch)) :
    call.path ≠ batch.path := by
  intro same
  obtain ⟨_, _, fields⟩ := heads_split same
  simp only [joinFields_cons, joinFields_single] at fields
  obtain ⟨_, token⟩ :=
    splitRight (plain_decimal _) (plain_of_validateEthAddress accepted.batch) fields
  exact decimal_ne_address accepted.batch token

variable {valset : MsgValsetUpdatedClaim}

theorem deposit_path_ne_valset
    (accepted : Accepted ext (.sendToCosmos deposit)) : valset.path ext ≠ .ok deposit.path := by
  intro hashed
  obtain ⟨members, _, same⟩ := valsetPath_eq_ok hashed
  obtain ⟨_, _, fields⟩ := heads_split same
  obtain ⟨token, _⟩ :=
    splitFields (plain_of_validateEthAddress accepted.deposit.1) (plain_decimal _) fields
  exact decimal_ne_address accepted.deposit.1 token.symm

theorem deploy_path_ne_valset
    (accepted : Accepted ext (.erc20Deployed deploy)) : valset.path ext ≠ .ok deploy.path := by
  intro hashed
  obtain ⟨members, _, same⟩ := valsetPath_eq_ok hashed
  obtain ⟨_, _, fields⟩ := heads_split same
  obtain ⟨_, fields⟩ := splitFields accepted.deploy.1 (plain_decimal _) fields
  obtain ⟨token, _⟩ :=
    splitFields (plain_of_validateEthAddress accepted.deploy.2) (plain_printMembers _) fields
  exact printMembers_ne_address accepted.deploy.2 token

theorem batch_path_ne_valset (accepted : Accepted ext (.batchSendToEth batch)) :
    valset.path ext ≠ .ok batch.path := by
  intro hashed
  obtain ⟨members, _, same⟩ := valsetPath_eq_ok hashed
  obtain ⟨_, _, fields⟩ := heads_split same
  obtain ⟨_, token⟩ := splitFields (plain_decimal _) (plain_decimal _) fields
  exact joinFields_ne_single (plain_of_validateEthAddress accepted.batch) token.symm

theorem call_path_ne_valset (accepted : Accepted ext (.valsetUpdated valset)) :
    valset.path ext ≠ .ok call.path := by
  intro hashed
  obtain ⟨members, _, same⟩ := valsetPath_eq_ok hashed
  obtain ⟨_, _, fields⟩ := heads_split same
  have split : call.invalidationId ++ attestationSeparator ++ decimal call.invalidationNonce =
      joinFields [decimal valset.ethBlockHeight, printMembers members,
        amountString valset.rewardAmount] ++ attestationSeparator ++ valset.rewardToken := by
    simpa using fields
  obtain ⟨_, token⟩ :=
    splitRight (plain_decimal _) (plain_of_validateEthAddress accepted.valset) split
  exact decimal_ne_address accepted.valset token

/-! ## The exact extent of the ambiguity -/

variable {first second : EthereumClaim}

theorem same_or_runsInto (firstAccepted : Accepted ext first) (secondAccepted : Accepted ext second)
    (firstHashed : first.path ext = .ok path) (secondHashed : second.path ext = .ok path) :
    SameClaim ext first second ∨ runsInto first second ∨ runsInto second first := by
  have same := firstHashed.trans secondHashed.symm
  cases first with
  | sendToCosmos deposit =>
    cases second with
    | sendToCosmos other =>
      exact .inl (deposits_same firstAccepted secondAccepted (Except.ok.inj same))
    | batchSendToEth batch => exact absurd (Except.ok.inj same) (deposit_path_ne_batch firstAccepted)
    | erc20Deployed deploy =>
      exact .inr (.inl (deposit_deploy_runsInto firstAccepted secondAccepted (Except.ok.inj same)))
    | logicCallExecuted call => exact .inr (.inl (deposit_call_runsInto (Except.ok.inj same)))
    | valsetUpdated valset => exact absurd same.symm (deposit_path_ne_valset firstAccepted)
  | batchSendToEth batch =>
    cases second with
    | sendToCosmos deposit =>
      exact absurd (Except.ok.inj same).symm (deposit_path_ne_batch secondAccepted)
    | batchSendToEth other => exact .inl (batches_same (Except.ok.inj same))
    | erc20Deployed deploy =>
      exact absurd (Except.ok.inj same).symm (deploy_path_ne_batch secondAccepted firstAccepted)
    | logicCallExecuted call =>
      exact absurd (Except.ok.inj same).symm (call_path_ne_batch firstAccepted)
    | valsetUpdated valset => exact absurd same.symm (batch_path_ne_valset firstAccepted)
  | erc20Deployed deploy =>
    cases second with
    | sendToCosmos deposit =>
      exact .inr (.inr (deposit_deploy_runsInto secondAccepted firstAccepted
        (Except.ok.inj same).symm))
    | batchSendToEth batch =>
      exact absurd (Except.ok.inj same) (deploy_path_ne_batch firstAccepted secondAccepted)
    | erc20Deployed other =>
      exact deploys_same_or_runsInto firstAccepted secondAccepted (Except.ok.inj same)
    | logicCallExecuted call => exact .inr (.inl (deploy_call_runsInto (Except.ok.inj same)))
    | valsetUpdated valset => exact absurd same.symm (deploy_path_ne_valset firstAccepted)
  | logicCallExecuted call =>
    cases second with
    | sendToCosmos deposit => exact .inr (.inr (deposit_call_runsInto (Except.ok.inj same).symm))
    | batchSendToEth batch => exact absurd (Except.ok.inj same) (call_path_ne_batch secondAccepted)
    | erc20Deployed deploy => exact .inr (.inr (deploy_call_runsInto (Except.ok.inj same).symm))
    | logicCallExecuted other => exact .inl (calls_same (Except.ok.inj same))
    | valsetUpdated valset => exact absurd same.symm (call_path_ne_valset secondAccepted)
  | valsetUpdated valset =>
    cases second with
    | sendToCosmos deposit => exact absurd same (deposit_path_ne_valset secondAccepted)
    | batchSendToEth batch => exact absurd same (batch_path_ne_valset secondAccepted)
    | erc20Deployed deploy => exact absurd same (deploy_path_ne_valset secondAccepted)
    | logicCallExecuted call => exact absurd same (call_path_ne_valset firstAccepted)
    | valsetUpdated other => exact .inl (valsets_same firstHashed secondHashed)

/-- Claims related by `runsInto` hash the same string. -/
theorem path_eq_of_runsInto (ext : External) (runs : runsInto first second) :
    ∃ path, first.path ext = .ok path ∧ second.path ext = .ok path := by
  unfold runsInto at runs
  split at runs
  · obtain ⟨nonces, heights, denoms, tokens, decimals, gap, names, symbols⟩ := runs
    refine ⟨_, rfl, congrArg Except.ok ?_⟩
    simp [MsgERC20DeployedClaim.path, nonces, heights, denoms, tokens, decimals, names, symbols]
  · obtain ⟨nonces, heights, denoms, tokens, ⟨names, receiver⟩ | ⟨gap, names, receiver⟩⟩ := runs <;>
      exact ⟨_, rfl, congrArg Except.ok (by
        simp [MsgERC20DeployedClaim.path, MsgSendToCosmosClaim.path, nonces, heights, denoms,
          tokens, names, receiver])⟩
  · obtain ⟨nonces, heights, ⟨receiver, ids⟩ | ⟨gap, receiver, ids⟩⟩ := runs <;>
      exact ⟨_, rfl, congrArg Except.ok (by
        simp [MsgLogicCallExecutedClaim.path, MsgSendToCosmosClaim.path, nonces, heights,
          receiver, ids])⟩
  · obtain ⟨nonces, heights, decimals, ids⟩ := runs
    refine ⟨_, rfl, congrArg Except.ok ?_⟩
    simp [MsgLogicCallExecutedClaim.path, MsgERC20DeployedClaim.path, nonces, heights, decimals, ids]
  · exact runs.elim

theorem not_sameClaim_of_runsInto (runs : runsInto first second) : ¬ SameClaim ext first second := by
  rintro ⟨types, components⟩
  unfold runsInto at runs
  split at runs
  · obtain ⟨_, _, _, _, _, gap, names, _⟩ := runs
    have same := Except.ok.inj components
    simp only [ClaimHashComponents.erc20Deployed.injEq] at same
    have lengths := congrArg List.length (names.symm.trans same.2.2.2.2.1.symm)
    simp [attestationSeparator] at lengths
  · cases types
  · cases types
  · cases types
  · exact runs

/-- For accepted claims, sharing the hashed string means being the same claim exactly when neither
claim's free text runs into the other. -/
theorem sharedPath_sameClaim_iff {first second : EthereumClaim} (firstAccepted : Accepted ext first)
    (secondAccepted : Accepted ext second) :
    ((∃ path, first.path ext = .ok path ∧ second.path ext = .ok path) →
      SameClaim ext first second) ↔ ¬ (runsInto first second ∨ runsInto second first) := by
  constructor
  · rintro determined (runs | runs)
    · exact not_sameClaim_of_runsInto runs (determined (path_eq_of_runsInto ext runs))
    · obtain ⟨path, secondHashed, firstHashed⟩ := path_eq_of_runsInto ext runs
      obtain ⟨types, components⟩ := determined ⟨path, firstHashed, secondHashed⟩
      exact not_sameClaim_of_runsInto runs ⟨types.symm, components.symm⟩
  · rintro separate ⟨path, firstHashed, secondHashed⟩
    exact (same_or_runsInto firstAccepted secondAccepted firstHashed secondHashed).resolve_right
      separate

/-- A deployment whose name is `x`, the separator and `y`, with an empty symbol. -/
def longNameDeploy : MsgERC20DeployedClaim where
  eventNonce := 1
  ethBlockHeight := 7
  cosmosDenom := ascii "uatom"
  tokenContract := ascii "0x0000000000000000000000000000000000000001"
  name := ascii "x" ++ attestationSeparator ++ ascii "y"
  symbol := []
  decimals := 6
  orchestrator := ascii "gravity1val"

/-- The deployment with name `x` and the separator at the end of its symbol. -/
def longSymbolDeploy : MsgERC20DeployedClaim :=
  { longNameDeploy with name := ascii "x", symbol := ascii "y" ++ attestationSeparator }

theorem longNameDeploy_accepted : Accepted localnet (.erc20Deployed longNameDeploy) :=
  ⟨by decide +kernel, by decide +kernel⟩

theorem longSymbolDeploy_accepted : Accepted localnet (.erc20Deployed longSymbolDeploy) :=
  ⟨by decide +kernel, by decide +kernel⟩

theorem longDeploys_sharedPath_iff :
    ((∃ path, EthereumClaim.path localnet (.erc20Deployed longNameDeploy) = .ok path ∧
        EthereumClaim.path localnet (.erc20Deployed longSymbolDeploy) = .ok path) →
      SameClaim localnet (.erc20Deployed longNameDeploy) (.erc20Deployed longSymbolDeploy)) ↔
    ¬ (runsInto (.erc20Deployed longNameDeploy) (.erc20Deployed longSymbolDeploy) ∨
      runsInto (.erc20Deployed longSymbolDeploy) (.erc20Deployed longNameDeploy)) :=
  sharedPath_sameClaim_iff longNameDeploy_accepted longSymbolDeploy_accepted

/-- Two accepted deployments of different tokens hash the same string. -/
theorem longDeploys_collide :
    Accepted localnet (.erc20Deployed longNameDeploy) ∧
    Accepted localnet (.erc20Deployed longSymbolDeploy) ∧
    EthereumClaim.path localnet (.erc20Deployed longNameDeploy) =
      EthereumClaim.path localnet (.erc20Deployed longSymbolDeploy) ∧
    ¬ SameClaim localnet (.erc20Deployed longNameDeploy) (.erc20Deployed longSymbolDeploy) := by
  refine ⟨longNameDeploy_accepted, longSymbolDeploy_accepted, ?_, ?_⟩
  · exact congrArg Except.ok (by simp [MsgERC20DeployedClaim.path, longNameDeploy, longSymbolDeploy])
  · rintro ⟨_, components⟩
    have same := Except.ok.inj components
    simp only [ClaimHashComponents.erc20Deployed.injEq] at same
    exact absurd same.2.2.2.2.1 (by decide)

end GravityBridge.Types
