import GravityBridge.Keeper.Moves

/-!
# What the module account holds

For a token the module account holds the coins of the transfers that are not
finished and of the deposits that wait to be forwarded. For a token registered
for a denom it holds, in addition, what circulates on Ethereum. Each move changes
both sides by what is entered for it.
-/

namespace GravityBridge.Keeper

open Lib.Fallible Lib.ByteString Lib.Store
open GravityBridge.Types List

open Outgoing (WellFormed Cancelled)

/-- What a transfer locks of a token. -/
def OutgoingTransferTx.totalIn (tx : OutgoingTransferTx) (token : EthAddress) : Nat :=
  if tx.erc20Token.contract = token then tx.total else 0

def OutgoingTxBatch.totalIn (batch : OutgoingTxBatch) (token : EthAddress) : Nat :=
  if batch.tokenContract = token then batch.total else 0

/-- What all unfinished transfers lock of a token. -/
def Outgoing.owed (outgoing : Outgoing) (token : EthAddress) : Nat :=
  (outgoing.carried.map (fun tx => tx.totalIn token)).sum

/-- What waits to be forwarded of a denom. -/
def Ledger.queued (ledger : Ledger) (denom : Denom) : Nat :=
  ledger.pendingIbcAutoForwards.sumOf (fun forward => forward.token.amountOf denom)

/-- What the module holds in the denom of a token besides the deposits to forward. -/
def Ledger.held (ext : External) (ledger : Ledger) (token : EthAddress) : Int :=
  ledger.bank.balances ext.gravityModule (ledger.registry.denomOf ext token) -
    ledger.queued (ledger.registry.denomOf ext token)

/-- What the module holds of a token beyond what it owes. -/
def Ledger.slack (ext : External) (ledger : Ledger) (token : EthAddress) : Int :=
  ledger.held ext token - ledger.outgoing.owed token

/-- How much more an entry locks of a token in transfers. -/
def Entry.locks (token : EthAddress) : Entry → Int
  | .issued tx => tx.totalIn token
  | .refunded tx => -tx.totalIn token
  | .executed batch => -batch.totalIn token
  | _ => 0

/-- How much of a token leaves the contract on Ethereum according to an entry. -/
def Entry.outflow (token : EthAddress) : Entry → Int
  | .executed batch => batch.totalIn token
  | .rewarded other amount => if other = token then amount else 0
  | .deposited other amount => if other = token then -amount else 0
  | _ => 0

variable {ext : External} {ledger next : Ledger} {entry : Entry} {token : EthAddress}
  {outgoing result : Outgoing}

/-! ## Transfers -/

theorem owed_of_perm {gone : List OutgoingTransferTx}
    (moved : outgoing.carried.Perm (gone ++ result.carried)) (token : EthAddress) :
    outgoing.owed token = (gone.map (fun tx => tx.totalIn token)).sum + result.owed token := by
  rw [Outgoing.owed, (moved.map _).sum_eq, map_append, sum_append]
  rfl

variable {batch : OutgoingTxBatch}

/-- The transfers of a batch lock its total, all in its own token. -/
theorem sum_totalIn
    (contracts : ∀ tx ∈ batch.transactions, tx.erc20Token.contract = batch.tokenContract)
    (token : EthAddress) :
    (batch.transactions.map (fun tx => tx.totalIn token)).sum = batch.totalIn token := by
  have each : batch.transactions.map (fun tx => tx.totalIn token) =
      batch.transactions.map (fun tx => if batch.tokenContract = token then tx.total else 0) :=
    map_congr_left (fun tx member => by rw [OutgoingTransferTx.totalIn, contracts tx member])
  rw [each, OutgoingTxBatch.totalIn]
  split_ifs
  · rfl
  · simp

theorem Built.carried (built : Built ext ledger batch next) :
    ledger.outgoing.carried.Perm next.outgoing.carried := by
  rw [Outgoing.carried, Outgoing.carried]
  refine (built.pool.append_right _).trans ?_
  refine List.Perm.trans ?_ ((built.stored.flatMap_right _).append_left _).symm
  rw [flatMap_cons, ← append_assoc]
  exact perm_append_comm.append_right _

theorem Outgoing.Cancelled.carried {batches : List OutgoingTxBatch}
    (cancelled : Cancelled ext outgoing batches result) : outgoing.carried.Perm result.carried := by
  rw [Outgoing.carried, Outgoing.carried]
  refine ((cancelled.stored.flatMap_right _).append_left _).trans ?_
  refine List.Perm.trans ?_ (cancelled.pool.append_right _).symm
  rw [flatMap_append, ← append_assoc]
  exact perm_append_comm.append_right _

theorem owed_of_rearranged (moved : outgoing.carried.Perm result.carried) :
    result.owed token = outgoing.owed token := ((moved.map _).sum_eq).symm

theorem Finished.carried (finished : Finished ext outgoing batch result) :
    outgoing.carried.Perm (batch.transactions ++ result.carried) := by
  rw [Outgoing.carried, Outgoing.carried]
  refine ((finished.stored.flatMap_right _).append_left _).trans ?_
  refine List.Perm.trans ?_ ((finished.pool.append_right _).append_left _).symm
  rw [flatMap_cons, flatMap_append, ← append_assoc, ← append_assoc, ← append_assoc, ← append_assoc]
  refine List.Perm.append_right _ ?_
  rw [append_assoc, append_assoc]
  exact (perm_append_comm_assoc _ _ _).trans (perm_append_comm.append_left _)

theorem Finished.stored_batch (finished : Finished ext outgoing batch result) :
    batch ∈ outgoing.batches.values :=
  finished.stored.mem_iff.mpr mem_cons_self

theorem Move.owed (move : Move ext ledger entry next) (tidy : Tidy ext ledger) :
    (next.outgoing.owed token : Int) = ledger.outgoing.owed token + entry.locks token := by
  cases move with
  | settled settled =>
    have same : next.outgoing.carried = ledger.outgoing.carried := by rw [settled.outgoing]; rfl
    simp [Outgoing.owed, same, Entry.locks]
  | forwarded _ _ frame => rw [frame]; simp [Entry.locks]
  | @issued _ denom tx _ issued =>
    have moved : next.outgoing.carried.Perm ([tx] ++ ledger.outgoing.carried) :=
      (tidy.outgoing.issued issued).2
    rw [owed_of_perm moved token]
    simp [Entry.locks, add_comm]
  | @refunded _ tx refunded =>
    have moved : ledger.outgoing.carried.Perm ([tx] ++ next.outgoing.carried) :=
      (tidy.outgoing.refunded refunded).2
    rw [owed_of_perm moved token]
    simp [Entry.locks]
  | built built => rw [owed_of_rearranged built.carried]; simp [Entry.locks]
  | cancelled _ cancelled => simp [owed_of_rearranged cancelled.carried, Entry.locks]
  | @executed _ batch executed =>
    have contracts := tidy.outgoing.batchContracts batch executed.finished.stored_batch
    rw [owed_of_perm executed.finished.carried token, sum_totalIn contracts]
    simp [Entry.locks]
  | registered registered =>
    obtain ⟨_, frame⟩ := registered.result
    rw [frame]
    simp [Entry.locks]
  | deposited deposited => rw [deposited.frame]; simp [Entry.locks]
  | rewarded rewarded => rw [rewarded.result]; simp [Entry.locks]

/-! ## Tokens and denoms -/

/-- Registering is the only way in which a token comes to stand for another denom. -/
theorem Move.mapping (move : Move ext ledger entry next) (token : EthAddress) :
    next.registry.remappedERC20s = ledger.registry.remappedERC20s ∧
      (next.registry.erc20ToDenom.get token = ledger.registry.erc20ToDenom.get token ∨
        ∃ denom, entry = .registered denom token ∧ ledger.registry.erc20ToDenom.get token = none ∧
          next.registry.erc20ToDenom.get token = some denom) := by
  cases move with
  | settled settled => exact ⟨settled.remapped, .inl (by rw [settled.erc20ToDenom])⟩
  | forwarded _ _ frame => rw [frame]; exact ⟨rfl, .inl rfl⟩
  | issued _ issued =>
    obtain ⟨_, frame⟩ := issued.result
    rw [frame]
    exact ⟨rfl, .inl rfl⟩
  | refunded refunded =>
    obtain ⟨_, _, _, frame⟩ := refunded.result
    rw [frame]
    exact ⟨rfl, .inl rfl⟩
  | built built => rw [built.frame]; exact ⟨rfl, .inl rfl⟩
  | cancelled _ _ => exact ⟨rfl, .inl rfl⟩
  | executed executed => rw [executed.frame]; exact ⟨rfl, .inl rfl⟩
  | @registered _ denom other registered =>
    obtain ⟨registrable, frame⟩ := registered.result
    rw [frame]
    refine ⟨rfl, ?_⟩
    simp only [Registry.register, KVStore.get_set]
    by_cases here : token = other
    · subst here
      exact .inr ⟨denom, rfl, registrable.tokenFresh, by simp⟩
    · exact .inl (by simp [here])
  | deposited deposited => rw [deposited.frame]; exact ⟨rfl, .inl rfl⟩
  | rewarded rewarded => rw [rewarded.result]; exact ⟨rfl, .inl rfl⟩

variable {registry : Registry}

theorem voucherDenom_congr (ext : External) {other : Registry}
    (same : registry.remappedERC20s = other.remappedERC20s) :
    registry.voucherDenom ext token = other.voucherDenom ext token := by
  have remapped : registry.isRemappedERC20 token = other.isRemappedERC20 token := by
    rw [Registry.isRemappedERC20, same, Registry.isRemappedERC20]
  rw [Registry.voucherDenom, remapped, Registry.voucherDenom]

theorem Move.denomOf (move : Move ext ledger entry next)
    (same : next.registry.erc20ToDenom.get token = ledger.registry.erc20ToDenom.get token) :
    next.registry.denomOf ext token = ledger.registry.denomOf ext token := by
  rw [Registry.denomOf, Registry.denomOf, same, voucherDenom_congr ext (move.mapping token).1]

theorem Move.unmapped (move : Move ext ledger entry next)
    (unmapped : next.registry.erc20ToDenom.get token = none) :
    ledger.registry.erc20ToDenom.get token = none := by
  rcases (move.mapping token).2 with same | ⟨denom, _, _, mapped⟩
  · rw [← same, unmapped]
  · rw [unmapped] at mapped
    contradiction

/-- No denom but the token's own reads as its voucher and has a supply. -/
def Clean (ext : External) (ledger : Ledger) (token : EthAddress) : Prop :=
  ∀ denom, Reads denom token → denom ≠ ledger.registry.denomOf ext token →
    ledger.bank.supply denom = 0

variable {other : EthAddress} {denom : Denom}

/-- The denom of a registered token reads as nobody's voucher. -/
theorem not_reads_of_mapped (mapped : registry.erc20ToDenom.get token = some denom) :
    ¬ Reads denom other := by
  intro reads
  have plain := registry.notVoucher denom token ((registry.paired denom token).mpr mapped)
  rw [isVoucher_of_reads reads] at plain
  contradiction

/-- The denom of a token reads as no other token's voucher. -/
theorem reads_denomOf (reads : Reads (registry.denomOf ext token) other) : other = token := by
  cases found : registry.erc20ToDenom.get token with
  | some denom =>
    rw [denomOf_mapped ext found] at reads
    exact absurd reads (not_reads_of_mapped found)
  | none =>
    rw [denomOf_unmapped ext found] at reads
    exact reads_voucherDenom reads

theorem Delivered.supply {coin : Coin} (delivered : Delivered ext ledger coin next) (denom : Denom) :
    next.bank.supply denom ≤ ledger.bank.supply denom := by
  cases delivered with
  | paid paid _ => exact paid.supply denom
  | queued _ _ _ frame => rw [frame]

/-- Whether a token stands for a denom of the cosmos chain. -/
def Ledger.isMapped (ledger : Ledger) (token : EthAddress) : Bool :=
  (ledger.registry.erc20ToDenom.get token).isSome

theorem isMapped_eq_true : ledger.isMapped token = true ↔
    ∃ denom, ledger.registry.erc20ToDenom.get token = some denom :=
  Option.isSome_iff_exists

theorem isMapped_eq_false : ledger.isMapped token = false ↔
    ledger.registry.erc20ToDenom.get token = none := by
  simp [Ledger.isMapped]

/-- What an entry mints of a denom: the vouchers of a deposit, or a reward. -/
def Entry.mints (ext : External) (ledger : Ledger) (denom : Denom) : Entry → Nat
  | .deposited token amount =>
      if ledger.isMapped token then
        0 else (⟨ledger.registry.denomOf ext token, amount⟩ : Coin).amountOf denom
  | .rewarded token amount =>
      if ledger.isMapped token then
        (⟨ledger.registry.denomOf ext token, amount⟩ : Coin).amountOf denom else 0
  | _ => 0

/-- What an entry burns of a denom: the vouchers of an executed batch. -/
def Entry.burns (ext : External) (ledger : Ledger) (denom : Denom) : Entry → Nat
  | .executed batch =>
      if ledger.isMapped batch.tokenContract then 0
      else (⟨ledger.registry.denomOf ext batch.tokenContract, batch.total⟩ : Coin).amountOf denom
  | _ => 0

theorem Executed.supply (executed : Executed ext ledger batch next) (denom : Denom) :
    next.bank.supply denom + (Entry.executed batch).burns ext ledger denom =
      ledger.bank.supply denom := by
  obtain ⟨origin, classified, cosmos, ethereum⟩ := executed.bank
  obtain ⟨own, _, chain⟩ := denom_of_classifyERC20 classified
  simp only [Entry.burns]
  cases which : origin.origin with
  | cosmos =>
    rw [cosmos which, isMapped_eq_true.mpr (chain.mp which), if_pos rfl, Nat.add_zero]
  | ethereum =>
    obtain ⟨held, burned⟩ := ethereum which
    have unmapped : ledger.isMapped batch.tokenContract = false := by
      by_contra mapped
      have cosmos := chain.mpr (isMapped_eq_true.mp (by simpa using mapped))
      rw [which] at cosmos
      contradiction
    have enough :=
      (Bank.amountOf_le_balances held denom).trans (ledger.bank.balances_le_supply _ denom)
    rw [burned, unmapped, Bank.burn_supply, ← own]
    simp only [Bool.false_eq_true, if_false]
    omega

theorem Deposited.supply {amount : Nat} (deposited : Deposited ext ledger token amount next)
    (denom : Denom) :
    next.bank.supply denom ≤ ledger.bank.supply denom + (Entry.deposited token amount).mints ext
      ledger denom := by
  obtain ⟨minted, delivered, mapped, unmapped⟩ := deposited.delivered
  refine (delivered.supply denom).trans ?_
  simp only [Entry.mints]
  cases found : ledger.isMapped token with
  | true => simp [mapped (isMapped_eq_true.mp found)]
  | false => simp [unmapped (isMapped_eq_false.mp found)]

/-- A move mints and burns what is entered for it, and may burn what other modules burn. -/
theorem Move.supply (move : Move ext ledger entry next) (denom : Denom) :
    next.bank.supply denom + entry.burns ext ledger denom ≤
      ledger.bank.supply denom + entry.mints ext ledger denom := by
  cases move with
  | settled settled => simp [settled.supply, Entry.burns, Entry.mints]
  | forwarded _ paid _ => simpa [Entry.burns, Entry.mints] using paid.supply denom
  | issued _ issued =>
    obtain ⟨_, frame⟩ := issued.result
    rw [frame]
    exact le_refl _
  | refunded refunded =>
    obtain ⟨_, _, _, frame⟩ := refunded.result
    rw [frame]
    exact le_refl _
  | built built => rw [built.frame]; exact le_refl _
  | cancelled _ _ => exact le_refl _
  | executed executed => exact (executed.supply denom).le
  | registered registered =>
    obtain ⟨_, frame⟩ := registered.result
    rw [frame]
    exact le_refl _
  | deposited deposited => exact deposited.supply denom
  | rewarded rewarded =>
    rw [rewarded.result]
    simp [Entry.burns, Entry.mints, isMapped_eq_true.mpr rewarded.mapped]

/-- Of the denoms that read as vouchers only those of deposited tokens are minted. -/
theorem mints_voucher (reads : Reads denom token) (minted : entry.mints ext ledger denom ≠ 0) :
    ∃ amount, entry = .deposited token amount ∧ ledger.isMapped token = false ∧
      denom = ledger.registry.denomOf ext token := by
  cases entry with
  | deposited other amount =>
    simp only [Entry.mints, Coin.amountOf] at minted
    split_ifs at minted with mapped own
    · contradiction
    · subst own
      obtain rfl := reads_denomOf reads
      exact ⟨amount, rfl, by simpa using mapped, rfl⟩
    · contradiction
  | rewarded other amount =>
    simp only [Entry.mints, Coin.amountOf] at minted
    split_ifs at minted with mapped own
    · obtain ⟨name, found⟩ := isMapped_eq_true.mp mapped
      rw [own, denomOf_mapped ext found] at reads
      exact absurd reads (not_reads_of_mapped found)
    · contradiction
    · contradiction
  | internal | issued | refunded | built | cancelled | executed | registered =>
    exact absurd rfl minted

/-- Denoms that read as vouchers stay without supply, unless the token is deposited. -/
theorem Move.unminted (move : Move ext ledger entry next) (reads : Reads denom token)
    (before : ledger.bank.supply denom = 0)
    (unminted : ∀ amount, entry = .deposited token amount → ledger.isMapped token = true ∨
      denom ≠ ledger.registry.denomOf ext token) : next.bank.supply denom = 0 := by
  have supply := move.supply denom
  have nothing : entry.mints ext ledger denom = 0 := by
    by_contra minted
    obtain ⟨amount, same, unmapped, own⟩ := mints_voucher reads minted
    rcases unminted amount same with mapped | other
    · rw [unmapped] at mapped
      contradiction
    · exact other own
  omega

theorem Move.clean (move : Move ext ledger entry next) (clean : Clean ext ledger token)
    (same : next.registry.erc20ToDenom.get token = ledger.registry.erc20ToDenom.get token) :
    Clean ext next token := by
  intro denom reads other
  rw [move.denomOf same] at other
  exact move.unminted reads (clean denom reads other) (fun _ _ => .inr other)

/-! ## Holdings -/

theorem amountOf_denomOf (ext : External) (registry : Registry) (other token : EthAddress)
    (amount : Nat) :
    (⟨registry.denomOf ext other, amount⟩ : Coin).amountOf (registry.denomOf ext token) =
      if other = token then amount else 0 := by
  unfold Coin.amountOf
  by_cases same : other = token
  · simp [same]
  · rw [if_neg same, if_neg (fun equal => same (denomOf_injective equal).symm)]

/-- A transfer locks coins of the denom that its token stands for. -/
theorem Issued.amountOf {tx : OutgoingTransferTx} (issued : Issued ext ledger denom tx next)
    (clean : Clean ext ledger token) :
    (⟨denom, tx.total⟩ : Coin).amountOf (ledger.registry.denomOf ext token) = tx.totalIn token := by
  obtain ⟨origin, classified, contract, _⟩ := issued.classified
  obtain ⟨held, _⟩ := issued.result
  rw [Coin.amountOf, OutgoingTransferTx.totalIn, contract]
  by_cases here : origin.erc20 = token
  · have own : ledger.registry.denomOf ext token = denom := by
      rcases (classifyDenom_cases classified).2 with ⟨mapped, _⟩ | ⟨reads, _⟩
      · exact denomOf_mapped ext (here ▸ mapped)
      · by_contra other
        have none := clean denom (here ▸ reads) (Ne.symm other)
        have enough := held.trans (ledger.bank.balances_le_supply tx.sender denom)
        have positive := issued.positive
        simp only at enough
        omega
    rw [if_pos own, if_pos here]
  · have foreign : ledger.registry.denomOf ext token ≠ denom := by
      rintro rfl
      exact here (erc20_of_classifyDenom classified)
    rw [if_neg foreign, if_neg here]

theorem Delivered.held {coin : Coin} (delivered : Delivered ext ledger coin next) (denom : Denom) :
    (next.bank.balances ext.gravityModule denom : Int) - next.queued denom =
      ledger.bank.balances ext.gravityModule denom - ledger.queued denom - coin.amountOf denom := by
  cases delivered with
  | paid paid frame =>
    have balance := paid.balance denom
    have queued : next.queued denom = ledger.queued denom := by rw [frame]; rfl
    rw [queued]
    omega
  | queued forward coin fresh frame =>
    have queued : next.queued denom = forward.token.amountOf denom + ledger.queued denom := by
      rw [frame]
      exact KVStore.sumOf_set _ fresh
    have bank : next.bank = ledger.bank := by rw [frame]
    rw [queued, bank, coin]
    push_cast
    omega

theorem Deposited.held {amount : Nat} (deposited : Deposited ext ledger other amount next) :
    (next.bank.balances ext.gravityModule (ledger.registry.denomOf ext token) : Int) -
        next.queued (ledger.registry.denomOf ext token) =
      ledger.held ext token + if ledger.isMapped token = true ∧ other = token then
        -(amount : Int) else 0 := by
  obtain ⟨minted, delivered, mapped, unmapped⟩ := deposited.delivered
  rw [delivered.held, amountOf_denomOf]
  cases found : ledger.isMapped other with
  | true =>
    rw [mapped (isMapped_eq_true.mp found), Ledger.held]
    by_cases same : other = token
    · subst same
      simp [found]
      ring
    · simp [same]
  | false =>
    rw [unmapped (isMapped_eq_false.mp found), Bank.mint_balances, amountOf_denomOf, Ledger.held]
    by_cases same : other = token
    · subst same
      simp [found, Ledger.queued]
      ring
    · simp [same, Ledger.queued]

theorem Executed.held (executed : Executed ext ledger batch next) :
    (next.bank.balances ext.gravityModule (ledger.registry.denomOf ext token) : Int) -
        next.queued (ledger.registry.denomOf ext token) =
      ledger.held ext token - if ledger.isMapped token = true then
        0 else (batch.totalIn token : Int) := by
  have queued : next.queued (ledger.registry.denomOf ext token) =
      ledger.queued (ledger.registry.denomOf ext token) := by rw [executed.frame]; rfl
  obtain ⟨origin, classified, cosmos, ethereum⟩ := executed.bank
  obtain ⟨denom, _, chain⟩ := denom_of_classifyERC20 classified
  rw [queued, OutgoingTxBatch.totalIn]
  cases found : ledger.isMapped batch.tokenContract with
  | true =>
    rw [cosmos (chain.mpr (isMapped_eq_true.mp found)), Ledger.held]
    by_cases same : batch.tokenContract = token
    · simp [← same, found]
    · simp [same]
  | false =>
    have native : origin.origin = .ethereum := by
      cases which : origin.origin with
      | ethereum => rfl
      | cosmos =>
        have mapped := isMapped_eq_true.mpr (chain.mp which)
        rw [found] at mapped
        contradiction
    obtain ⟨held, burned⟩ := ethereum native
    have balance : (ledger.bank.burn ext.gravityModule ⟨origin.denom, batch.total⟩ held).balances
          ext.gravityModule (ledger.registry.denomOf ext token) +
        (⟨origin.denom, batch.total⟩ : Coin).amountOf (ledger.registry.denomOf ext token) =
        ledger.bank.balances ext.gravityModule (ledger.registry.denomOf ext token) :=
          Bank.burn_balances
    rw [← burned, denom, amountOf_denomOf] at balance
    rw [Ledger.held]
    by_cases same : batch.tokenContract = token
    · rw [if_pos same] at balance ⊢
      rw [← same, found]
      rw [← same] at balance
      simp only [Bool.false_eq_true, if_false]
      omega
    · rw [if_neg same] at balance ⊢
      split_ifs <;> omega

/-- What a move changes in the holdings of a token. -/
theorem Move.held (move : Move ext ledger entry next) (clean : Clean ext ledger token)
    (same : next.registry.erc20ToDenom.get token = ledger.registry.erc20ToDenom.get token) :
    next.held ext token = ledger.held ext token + entry.locks token +
      if ledger.isMapped token = true then entry.outflow token else 0 := by
  rw [Ledger.held, move.denomOf same]
  cases move with
  | settled settled =>
    have queued : next.queued = ledger.queued := by
      funext denom
      rw [Ledger.queued, settled.forwards, Ledger.queued]
    simp [settled.balances, queued, Ledger.held, Entry.locks, Entry.outflow]
  | @forwarded _ forward found paid frame =>
    have balance := paid.balance (ledger.registry.denomOf ext token)
    have queued : ledger.queued (ledger.registry.denomOf ext token) =
        forward.token.amountOf (ledger.registry.denomOf ext token) +
          next.queued (ledger.registry.denomOf ext token) := by
      rw [frame]
      exact KVStore.sumOf_delete _ found
    simp only [Ledger.held, Entry.locks, Entry.outflow, ite_self]
    omega
  | @issued _ denom tx notModule issued =>
    have amount := issued.amountOf clean
    obtain ⟨held, frame⟩ := issued.result
    have balance : (ledger.bank.move tx.sender ext.gravityModule ⟨denom, tx.total⟩ held).balances
        ext.gravityModule (ledger.registry.denomOf ext token) = _ :=
          Bank.move_balances_receiver notModule
    rw [amount] at balance
    rw [frame]
    simp only [Ledger.held, Ledger.queued, Entry.locks, Entry.outflow, ite_self, balance]
    push_cast
    omega
  | @refunded _ tx refunded =>
    obtain ⟨origin, held, classified, frame⟩ := refunded.result
    have balance :
        (ledger.bank.move ext.gravityModule tx.sender ⟨origin.denom, tx.total⟩ held).balances
        ext.gravityModule (ledger.registry.denomOf ext token) + _ = _ :=
      Bank.move_balances_sender (ne_gravityModule_of_notBlocked refunded.notBlocked)
    have amount : (⟨origin.denom, tx.total⟩ : Coin).amountOf (ledger.registry.denomOf ext token) =
        tx.totalIn token := by
      rw [(denom_of_classifyERC20 classified).1, amountOf_denomOf, OutgoingTransferTx.totalIn]
    rw [amount] at balance
    rw [frame]
    simp only [Ledger.held, Ledger.queued, Entry.locks, Entry.outflow, ite_self]
    omega
  | built built => rw [built.frame]; simp [Ledger.held, Ledger.queued, Entry.locks, Entry.outflow]
  | cancelled _ _ => simp [Ledger.held, Ledger.queued, Entry.locks, Entry.outflow]
  | executed executed =>
    rw [executed.held]
    simp only [Entry.locks, Entry.outflow]
    split_ifs <;> omega
  | registered registered =>
    obtain ⟨_, frame⟩ := registered.result
    rw [frame]
    simp [Ledger.held, Ledger.queued, Entry.locks, Entry.outflow]
  | @deposited _ other amount deposited =>
    rw [deposited.held]
    simp only [Entry.locks, Entry.outflow]
    by_cases mapped : ledger.isMapped token = true
    · simp [mapped]
    · simp [mapped]
  | @rewarded _ other amount rewarded =>
    have mapped := isMapped_eq_true.mpr rewarded.mapped
    rw [rewarded.result, Bank.mint_balances, amountOf_denomOf]
    simp only [Ledger.held, Ledger.queued, Entry.locks, Entry.outflow]
    by_cases here : other = token
    · subst here
      simp [mapped]
      ring
    · simp [here]

/-! ## Runs -/

/-- The books of every Ethereum-originated token are balanced. -/
def Balanced (ext : External) (ledger : Ledger) : Prop :=
  ∀ token, ledger.registry.erc20ToDenom.get token = none → Clean ext ledger token ∧
    ledger.slack ext token = 0

theorem Move.balanced (move : Move ext ledger entry next) (tidy : Tidy ext ledger)
    (balanced : Balanced ext ledger) : Balanced ext next := by
  intro token unmapped
  have before := move.unmapped unmapped
  have same := unmapped.trans before.symm
  obtain ⟨clean, zero⟩ := balanced token before
  refine ⟨move.clean clean same, ?_⟩
  rw [Ledger.slack] at zero ⊢
  rw [move.held clean same, move.owed tidy, isMapped_eq_false.mpr before, if_neg Bool.false_ne_true]
  omega

end GravityBridge.Keeper
