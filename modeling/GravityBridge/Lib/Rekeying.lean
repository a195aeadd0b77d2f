import GravityBridge.Lib.Store

/-!
# Moving entries to other keys

A pass over a list of moves takes each entry away from its old key and stores it under its
new one, in the same store. Nothing is overwritten when the old keys differ, the new keys
differ and no entry moves to the old key of another one.
-/

namespace GravityBridge.Lib.Rekeying

open Lib.Store List KVStore

structure KeyMove (κ ν : Type*) where
  source : κ
  target : κ
  value : ν

/-- An entry that stays where it is is not written again. -/
def KeyMove.apply {κ ν : Type*} [LinearOrder κ] (store : KVStore κ ν) (move : KeyMove κ ν) :
    KVStore κ ν :=
  if move.source = move.target then store else (store.delete move.source).set move.target move.value

/-- The moves do not get in each other's way. -/
structure Relocation {κ ν : Type*} (moves : List (KeyMove κ ν)) : Prop where
  sources : (moves.map KeyMove.source).Nodup
  targets : (moves.map KeyMove.target).Nodup
  apart : moves.Pairwise (fun first second => first.target ≠ second.source ∧
    second.target ≠ first.source)

variable {κ ν : Type*} {move : KeyMove κ ν} {moves : List (KeyMove κ ν)}

theorem Relocation.tail (relocation : Relocation (move :: moves)) : Relocation moves where
  sources := (nodup_cons.mp relocation.sources).2
  targets := (nodup_cons.mp relocation.targets).2
  apart := (pairwise_cons.mp relocation.apart).2

variable [LinearOrder κ] {store : KVStore κ ν} {key : κ}

theorem KeyMove.get_apply_target : (move.apply store).get move.target =
    if move.source = move.target then store.get move.source else some move.value := by
  unfold apply
  split_ifs with same
  · rw [same]
  · rw [get_set, if_pos rfl]

theorem KeyMove.get_apply_source (moved : move.source ≠ move.target) :
    (move.apply store).get move.source = none := by
  rw [apply, if_neg moved, get_set, if_neg moved, get_delete, if_pos rfl]

theorem KeyMove.get_apply_other (notSource : key ≠ move.source) (notTarget : key ≠ move.target) :
    (move.apply store).get key = store.get key := by
  unfold apply
  split_ifs
  · rfl
  · rw [get_set, if_neg notTarget, get_delete, if_neg notSource]

/-- A key that nothing moves to loses its entry if that moves away, and keeps it otherwise. -/
theorem Relocation.get_of_no_target (relocation : Relocation moves)
    (noTarget : ∀ move ∈ moves, key ≠ move.target) :
    (moves.foldl KeyMove.apply store).get key = if ∃ move ∈ moves, key = move.source then
      none else store.get key := by
  induction moves generalizing store with
  | nil => simp
  | cons first rest ih =>
    obtain ⟨notFirst, notRest⟩ := forall_mem_cons.mp noTarget
    rw [foldl_cons, ih relocation.tail notRest]
    by_cases own : key = first.source
    · have moved : first.source ≠ first.target := own ▸ notFirst
      subst own
      simp [first.get_apply_source moved]
    · simp [own, KeyMove.get_apply_other own notFirst]

/-- Each entry is found under its new key. -/
theorem Relocation.get_target (relocation : Relocation moves) (member : move ∈ moves) :
    (moves.foldl KeyMove.apply store).get move.target =
      if move.source = move.target then store.get move.source else some move.value := by
  induction moves generalizing store with
  | nil => contradiction
  | cons first rest ih =>
    obtain ⟨notAgain, _⟩ := nodup_cons.mp relocation.targets
    obtain ⟨otherSources, _⟩ := nodup_cons.mp relocation.sources
    obtain ⟨apart, _⟩ := pairwise_cons.mp relocation.apart
    rw [foldl_cons]
    rcases mem_cons.mp member with rfl | later
    · have noTarget : ∀ other ∈ rest, move.target ≠ other.target := fun other inside same =>
        notAgain (mem_map.mpr ⟨other, inside, same.symm⟩)
      have noSource : ¬ ∃ other ∈ rest, move.target = other.source := fun ⟨other, inside, same⟩ =>
        (apart other inside).1 same
      rw [relocation.tail.get_of_no_target noTarget, if_neg noSource, KeyMove.get_apply_target]
    · have notSource : move.source ≠ first.source := fun same =>
        otherSources (mem_map.mpr ⟨move, later, same⟩)
      rw [ih relocation.tail later, KeyMove.get_apply_other notSource (apart move later).1.symm]

end GravityBridge.Lib.Rekeying
