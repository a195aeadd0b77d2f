import GravityBridge.Lib.Store

/-!
# Iterators with callbacks

An iterator hands its items to a callback, one after the other, until the callback
asks it to stop. What the callback does to its own state is threaded through. A loop may
also collect items with the same tag, and hand them over when the next tag comes.
-/

namespace GravityBridge.Lib.Iteration

open List

variable {α σ : Type*} {items : List α}

/-- The state of the callback after the last call. -/
def deliver (callback : α → σ → σ × Bool) : List α → σ → σ
  | [], state => state
  | item :: rest, state =>
      if (callback item state).2 then (callback item state).1
        else deliver callback rest (callback item state).1

/-- The items that the callback was called with. -/
def delivered (callback : α → σ → σ × Bool) : List α → σ → List α
  | [], _ => []
  | item :: rest, state =>
      item :: if (callback item state).2 then [] else delivered callback rest (callback item state).1

/-- What the callback answers when it is called with every item. -/
def answers (callback : α → σ → σ × Bool) : List α → σ → List Bool
  | [], _ => []
  | item :: rest, state => (callback item state).2 :: answers callback rest (callback item state).1

section

variable {callback : α → σ → σ × Bool} {state : σ}

theorem delivered_eq_self (never : true ∉ answers callback items state) :
    delivered callback items state = items := by
  induction items generalizing state with
  | nil => rfl
  | cons item rest ih =>
    rw [answers, mem_cons, not_or] at never
    have goesOn : (callback item state).2 = false := by simpa using Ne.symm never.1
    rw [delivered, if_neg (by simp [goesOn]), ih never.2]

/-- When the callback first asks to stop, the call it answers is the last. -/
theorem delivered_eq_take {calls : Nat} (before : true ∉ (answers callback items state).take calls)
    (stops : (answers callback items state)[calls]? = some true) :
    delivered callback items state = items.take (calls + 1) := by
  induction items generalizing state calls with
  | nil => simp [answers] at stops
  | cons item rest ih =>
    rw [answers] at before stops
    rw [delivered]
    cases calls with
    | zero =>
      have stop : (callback item state).2 = true := by simpa using stops
      rw [if_pos stop]
      rfl
    | succ calls =>
      rw [take_succ_cons, mem_cons, not_or] at before
      have goesOn : (callback item state).2 = false := by simpa using Ne.symm before.1
      rw [if_neg (by simp [goesOn]), ih before.2 (by simpa using stops), take_succ_cons]

/-- The callback, which also writes down the items it is called with. -/
def recording (callback : α → σ → σ × Bool) (item : α) (state : σ × List α) : (σ × List α) × Bool :=
  (((callback item state.1).1, state.2 ++ [item]), (callback item state.1).2)

theorem deliver_recording (items : List α) (state : σ) (log : List α) :
    deliver (recording callback) items (state, log) =
      (deliver callback items state, log ++ delivered callback items state) := by
  induction items generalizing state log with
  | nil => simp [deliver, delivered]
  | cons item rest ih =>
    rw [deliver, deliver, delivered]
    cases stop : (callback item state).2 with
    | true => simp [recording, stop]
    | false => simp [recording, stop, ih]

end

/-! ## Groups -/

section

variable {κ : Type*}

/-- The groups that a loop hands over which has seen `pending`, with the item at hand when it does
so. -/
def groups [DecidableEq κ] (tag : α → κ) : List α → α → List α → List (α × κ × List α)
  | [], latest, pending => [(latest, tag latest, pending)]
  | item :: rest, latest, pending =>
      if tag item = tag latest then groups tag rest item (pending ++ [item])
      else (item, tag latest, pending) :: groups tag rest item [item]

variable [LinearOrder κ] {tag : α → κ} {pending : List α} {latest : α}

theorem mem_groups_tags {key : κ} :
    key ∈ (groups tag items latest pending).map (fun group => group.2.1) ↔
      key ∈ (latest :: items).map tag := by
  induction items generalizing latest pending with
  | nil => simp [groups]
  | cons item rest ih =>
    rw [groups]
    split_ifs with same
    · rw [ih]
      simp [same]
    · rw [map_cons, mem_cons, ih]
      simp

/-- After an item with another tag all tags are lower. -/
theorem later_lt {item : α} {rest : List α}
    (sorted : (latest :: item :: rest).Pairwise (fun first second => tag second ≤ tag first))
    (other : tag item ≠ tag latest) : ∀ later ∈ item :: rest, tag later < tag latest := by
  obtain ⟨below, others⟩ := pairwise_cons.mp sorted
  have less : tag item < tag latest := lt_of_le_of_ne (below item mem_cons_self) other
  intro later member
  rcases mem_cons.mp member with rfl | inRest
  · exact less
  · exact lt_of_le_of_lt ((pairwise_cons.mp others).1 later inRest) less

/-- The tag of a group is one of the items that are still to come. -/
theorem tag_of_mem_groups {group : α × κ × List α}
    (member : group ∈ groups tag items latest pending) :
    ∃ item ∈ latest :: items, tag item = group.2.1 :=
  mem_map.mp (mem_groups_tags.mp (mem_map_of_mem member))

/-- Items that come with decreasing tags are handed over tag by tag. -/
theorem groups_tags_decreasing
    (sorted : (latest :: items).Pairwise (fun first second => tag second ≤ tag first)) :
    (groups tag items latest pending).Pairwise (fun first second => second.2.1 < first.2.1) := by
  induction items generalizing latest pending with
  | nil => simp [groups]
  | cons item rest ih =>
    have others := (pairwise_cons.mp sorted).2
    rw [groups]
    split_ifs with same
    · exact ih others
    · refine pairwise_cons.mpr ⟨fun group member => ?_, ih others⟩
      obtain ⟨other, inRest, equal⟩ := tag_of_mem_groups member
      exact equal ▸ later_lt sorted same other inRest

/-- A group is all that has its tag. -/
theorem groups_eq_filter
    (sorted : (latest :: items).Pairwise (fun first second => tag second ≤ tag first))
    (collected : ∀ item ∈ pending, tag item = tag latest) :
    ∀ group ∈ groups tag items latest pending, group.2.2 =
      (pending ++ items).filter (fun item => tag item = group.2.1) := by
  induction items generalizing latest pending with
  | nil =>
    intro group member
    obtain rfl := mem_singleton.mp member
    rw [append_nil, filter_eq_self.mpr (by simpa using collected)]
  | cons item rest ih =>
    have others := (pairwise_cons.mp sorted).2
    rw [groups]
    split_ifs with same
    · intro group member
      have all : ∀ other ∈ pending ++ [item], tag other = tag item := by
        intro other inside
        rcases mem_append.mp inside with before | last
        · exact (collected other before).trans same.symm
        · rw [mem_singleton.mp last]
      rw [ih others all group member, append_assoc, singleton_append]
    · have later := later_lt sorted same
      intro group member
      rcases mem_cons.mp member with rfl | inRest
      · rw [filter_append, filter_eq_self.mpr (by simpa using collected),
          filter_eq_nil_iff.mpr (by simpa using fun other inside => (later other inside).ne),
          append_nil]
      · obtain ⟨other, inside, equal⟩ := tag_of_mem_groups inRest
        have none : pending.filter (fun item => tag item = group.2.1) = [] := by
          refine filter_eq_nil_iff.mpr fun before inPending => ?_
          rw [decide_eq_true_iff, collected before inPending, ← equal]
          exact (later other inside).ne'
        rw [ih others (by simp) group inRest, singleton_append, filter_append, none, nil_append]

end

end GravityBridge.Lib.Iteration
