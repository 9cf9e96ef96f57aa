import Mathlib.Algebra.Order.Ring.Int
import Mathlib.Data.Finset.Card
import Mathlib.Data.List.Basic

namespace Obsidian.Data

/-! # Sliding windows

A log of timed events, each of which was let in only if fewer than its limit of the earlier
ones were in the span before it.
-/

section

variable {α : Type*} (time : α → Int) (span : Int)

def recent (now : Int) (log : List α) : List α := log.filter fun e => now - span < time e

variable {time span}

@[simp] theorem recent_nil (now : Int) : recent time span now ([] : List α) = [] := rfl

theorem recent_append (now : Int) (log rest : List α) :
    recent time span now (log ++ rest) = recent time span now log ++ recent time span now rest :=
  List.filter_append ..

theorem recent_singleton {now : Int} {e : α} (inside : now - span < time e) :
    recent time span now [e] = [e] := by
  simp [recent, inside]

theorem recent_recent {now later : Int} (le : now ≤ later) (log : List α) :
    recent time span later (recent time span now log) = recent time span later log := by
  unfold recent
  rw [List.filter_filter]
  apply List.filter_congr
  intro e _
  simp only [Bool.and_eq_left_iff_imp, decide_eq_true_eq]
  omega

theorem recent_map (now : Int) (log : List α) :
    recent id span now (log.map time) = (recent time span now log).map time := by
  simp only [recent, List.filter_map]
  rfl

/-! ## Measures -/

/-- A way to count events. -/
structure Measure (α : Type*) where
  size : List α → Nat
  nil : size [] = 0
  le_of_sublist : ∀ {part whole : List α}, part.Sublist whole → size part ≤ size whole
  snoc_le : ∀ log e, size (log ++ [e]) ≤ size log + 1

namespace Measure

def length : Measure α where
  size := List.length
  nil := rfl
  le_of_sublist := List.Sublist.length_le
  snoc_le := fun _ _ => by simp

def distinct {β : Type*} [DecidableEq β] (label : α → β) : Measure α where
  size log := (log.map label).toFinset.card
  nil := rfl
  le_of_sublist := fun sublist => Finset.card_le_card fun _ found =>
    List.mem_toFinset.mpr ((sublist.map label).subset (List.mem_toFinset.mp found))
  snoc_le := fun log e => by
    have all : ((log ++ [e]).map label).toFinset = insert (label e) (log.map label).toFinset := by
      ext other
      simp
    rw [all]
    exact Finset.card_insert_le _ _

theorem distinct_size {β : Type*} [DecidableEq β] {label : α → β} {log : List α}
    (apart : (log.map label).Nodup) : (distinct label).size log = log.length := by
  rw [← List.length_map (f := label)]
  exact List.toFinset_card_of_nodup apart

theorem distinct_size_le {β : Type*} [DecidableEq β] {label : α → β} {log : List α}
    {labels : Finset β} (known : ∀ e ∈ log, label e ∈ labels) :
    (distinct label).size log ≤ labels.card := by
  apply Finset.card_le_card (s := (log.map label).toFinset)
  intro found listed
  obtain ⟨e, logged, rfl⟩ := List.mem_map.mp (List.mem_toFinset.mp listed)
  exact known e logged

end Measure

/-! ## Admission -/

variable (time span)

inductive Admitted (measure : Measure α) (limit : α → Int) : List α → Prop
  | nil : Admitted measure limit []
  | snoc {log : List α} {e : α} (sofar : Admitted measure limit log)
      (room : (measure.size (recent time span (time e) log) : Int) < limit e) :
      Admitted measure limit (log ++ [e])

variable {time span}

/-- A window of the span holds at most `bound` of the events with such a limit. -/
theorem Admitted.window_le {measure : Measure α} {limit : α → Int} {log : List α}
    (admitted : Admitted time span measure limit log) (start : Int) (bound : Nat) :
    measure.size (log.filter fun e => (start ≤ time e ∧ time e < start + span) ∧ limit e ≤ bound) ≤
      bound := by
  induction admitted with
  | nil =>
    rw [List.filter_nil, measure.nil]
    exact Nat.zero_le _
  | @snoc log e sofar room ih =>
    rw [List.filter_append]
    by_cases counted : (start ≤ time e ∧ time e < start + span) ∧ limit e ≤ bound
    · -- All that the window holds so far was still counted when the last event came.
      have seen : measure.size (log.filter fun e => (start ≤ time e ∧ time e < start + span) ∧
          limit e ≤ bound) ≤ measure.size (recent time span (time e) log) := by
        apply measure.le_of_sublist
        apply List.monotone_filter_right
        intro earlier inside
        simp only [decide_eq_true_eq] at inside ⊢
        omega
      rw [List.filter_cons_of_pos (by simpa using counted), List.filter_nil]
      have grown := measure.snoc_le (log.filter fun e =>
        (start ≤ time e ∧ time e < start + span) ∧ limit e ≤ bound) e
      omega
    · rw [List.filter_cons_of_neg (by simpa using counted), List.filter_nil, List.append_nil]
      exact ih

end

end Obsidian.Data
