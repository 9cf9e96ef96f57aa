import Mathlib.Algebra.BigOperators.Group.List.Basic
import Mathlib.Data.List.Forall2

namespace Obsidian.Data

/-! # Positions and tuples

The positions of a list's elements that pass a test, and the tuples that take one element of
each of some lists, in lexicographic order.
-/

/-! ## Positions -/

def positions (p : α → Bool) (values : List α) : List Nat :=
  (List.range values.length).filter fun i => values[i]?.any p

section

variable {p : α → Bool} {values : List α}

theorem mem_positions {i : Nat} :
    i ∈ positions p values ↔ ∃ x, values[i]? = some x ∧ p x := by
  rw [positions, List.mem_filter, List.mem_range]
  constructor
  · rintro ⟨inside, passes⟩
    rw [List.getElem?_eq_getElem inside, Option.any_some] at passes
    exact ⟨values[i], List.getElem?_eq_getElem inside, passes⟩
  · rintro ⟨x, found, passes⟩
    exact ⟨(List.getElem?_eq_some_iff.mp found).1, by rw [found, Option.any_some, passes]⟩

theorem pairwise_positions : (positions p values).Pairwise (· < ·) :=
  List.pairwise_lt_range.filter _

theorem filterMap_positions :
    (positions p values).filterMap (values[·]?) = values.filter p := by
  induction values with
  | nil => rfl
  | cons x rest ih =>
    have later : ((List.range rest.length).map Nat.succ).filter
        (fun i => (x :: rest)[i]?.any p) = (positions p rest).map Nat.succ := by
      rw [List.filter_map, positions]
      rfl
    have kept : ((positions p rest).map Nat.succ).filterMap ((x :: rest)[·]?) =
        rest.filter p := by
      rw [List.filterMap_map, ← ih]
      rfl
    rw [positions, List.length_cons, List.range_succ_eq_map, List.filter_cons, later]
    by_cases passes : p x
    · simp [passes, kept]
    · simp [passes, kept]

theorem length_positions : (positions p values).length = values.countP p := by
  rw [List.countP_eq_length_filter, ← filterMap_positions]
  refine (List.filterMap_length_eq_length.mpr fun i member => ?_).symm
  obtain ⟨x, found, -⟩ := mem_positions.mp member
  rw [found, Option.isSome_some]

theorem flatMap_filter_positions {f : α → List β} {g : Nat → List β}
    (agree : ∀ i x, values[i]? = some x → f x = g i) :
    (values.filter p).flatMap f = (positions p values).flatMap g := by
  rw [← filterMap_positions]
  have inside (i : Nat) (member : i ∈ positions p values) : ∃ x, values[i]? = some x :=
    (mem_positions.mp member).imp fun _ found => found.1
  generalize positions p values = indices at inside
  induction indices with
  | nil => rfl
  | cons i rest ih =>
    obtain ⟨x, found⟩ := inside i List.mem_cons_self
    rw [List.filterMap_cons_some found, List.flatMap_cons, List.flatMap_cons, agree i x found,
      ih fun i' member => inside i' (List.mem_cons_of_mem _ member)]

end

/-! ## Tuples -/

def tuples : List (List α) → List (List α)
  | [] => [[]]
  | choices :: rest => choices.flatMap fun x => (tuples rest).map (x :: ·)

section

variable {lists : List (List α)}

theorem mem_tuples {tuple : List α} :
    tuple ∈ tuples lists ↔ List.Forall₂ (· ∈ ·) tuple lists := by
  induction lists generalizing tuple with
  | nil => simp [tuples]
  | cons choices rest ih =>
    simp only [tuples, List.mem_flatMap, List.mem_map, ih, List.forall₂_cons_right_iff]
    constructor
    · rintro ⟨x, member, later, each, rfl⟩
      exact ⟨x, later, member, each, rfl⟩
    · rintro ⟨x, later, member, each, rfl⟩
      exact ⟨x, member, later, each, rfl⟩

theorem length_tuples : (tuples lists).length = (lists.map List.length).prod := by
  induction lists with
  | nil => rfl
  | cons choices rest ih =>
    simp [tuples, List.length_flatMap, ih]

theorem tuples_eq_nil (empty : [] ∈ lists) : tuples lists = [] := by
  induction lists with
  | nil => cases empty
  | cons choices rest ih =>
    rcases List.mem_cons.mp empty with rfl | later
    · rfl
    · simp [tuples, ih later]

/-- Lists in increasing order give tuples in increasing lexicographic order. -/
theorem pairwise_tuples [LT α] (each : ∀ choices ∈ lists, choices.Pairwise (· < ·)) :
    (tuples lists).Pairwise (· < ·) := by
  induction lists with
  | nil => exact List.pairwise_singleton _ _
  | cons choices rest ih =>
    have later := ih fun choices' member => each choices' (List.mem_cons_of_mem _ member)
    rw [tuples, List.pairwise_flatMap]
    constructor
    · intro x _
      exact List.pairwise_map.mpr (later.imp fun less => List.Lex.cons less)
    · refine (each choices List.mem_cons_self).imp fun {x y} less front first back second => ?_
      obtain ⟨_, -, rfl⟩ := List.mem_map.mp first
      obtain ⟨_, -, rfl⟩ := List.mem_map.mp second
      exact List.Lex.rel less

end

end Obsidian.Data
