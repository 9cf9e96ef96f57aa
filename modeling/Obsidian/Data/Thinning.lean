import Mathlib.Data.List.Infix

namespace Obsidian.Data

/-! # Texts that are thinned out

An output that copies elements of a text and puts a plain element wherever it leaves
some out has no token that the text does not have at an element that is copied.  One that joins
the parts it keeps has a token that is in no part exactly if it runs over a place where they
are joined.
-/

variable {α : Type*} (tokens : List (List α)) (plain : α → Prop)

/-- `out` keeps elements at which no token starts, and has a plain element, or its end,
wherever it passes over a part of the text. -/
inductive Thins : (text out : List α) → Prop
  | stop (text : List α) : Thins text []
  | keep {b : α} {text out : List α} (free : ∀ token ∈ tokens, ¬token <+: b :: text)
      (rest : Thins text out) : Thins (b :: text) (b :: out)
  | skip {c : α} {text later out : List α} (isPlain : plain c) (rest : Thins later out) :
      Thins text (c :: out)

variable {tokens plain} {text out : List α}

theorem Thins.isPrefix (thins : Thins tokens plain text out) {w : List α} (marks : ∀ c ∈ w, ¬plain c)
    (front : w <+: out) : w <+: text := by
  induction thins generalizing w with
  | stop text =>
    rw [List.prefix_nil.mp front]
    exact List.nil_prefix
  | @keep b text out _ _ ih =>
    cases w with
    | nil => exact List.nil_prefix
    | cons c w =>
      obtain ⟨same, later⟩ := List.cons_prefix_cons.mp front
      rw [List.cons_prefix_cons]
      exact ⟨same, ih (fun d found => marks d (List.mem_cons_of_mem c found)) later⟩
  | @skip c text later out isPlain _ _ =>
    cases w with
    | nil => exact List.nil_prefix
    | cons d w =>
      obtain ⟨same, _⟩ := List.cons_prefix_cons.mp front
      exact absurd (same ▸ isPlain) (marks d List.mem_cons_self)

theorem Thins.free (thins : Thins tokens plain text out)
    (marks : ∀ token ∈ tokens, token ≠ [] ∧ ∀ c ∈ token, ¬plain c) :
    ∀ token ∈ tokens, ¬token <:+: out := by
  intro token listed inside
  obtain ⟨nonempty, noPlain⟩ := marks token listed
  induction thins with
  | stop text => exact nonempty (List.infix_nil.mp inside)
  | @keep b text out free rest ih =>
    rcases List.infix_cons_iff.mp inside with here | later
    · obtain ⟨c, w, rfl⟩ := List.exists_cons_of_ne_nil nonempty
      obtain ⟨same, front⟩ := List.cons_prefix_cons.mp here
      refine free _ listed (List.cons_prefix_cons.mpr ⟨same, ?_⟩)
      exact rest.isPrefix (fun d found => noPlain d (List.mem_cons_of_mem c found)) front
    · exact ih later
  | @skip c text later out isPlain _ ih =>
    rcases List.infix_cons_iff.mp inside with here | further
    · obtain ⟨d, w, rfl⟩ := List.exists_cons_of_ne_nil nonempty
      obtain ⟨same, _⟩ := List.cons_prefix_cons.mp here
      exact noPlain d List.mem_cons_self (same ▸ isPlain)
    · exact ih further

/-! ## Parts that are joined -/

def Across (tokens : List (List α)) (parts : List (List α)) : Prop :=
  ∃ fronts behinds, parts = fronts ++ behinds ∧ ∃ token ∈ tokens, ∃ x y, token = x ++ y ∧
    x ≠ [] ∧ y ≠ [] ∧ x <:+ fronts.flatten ∧ y <+: behinds.flatten

theorem infix_append_cases {w a b : List α} (inside : w <:+: a ++ b) :
    w <:+: a ∨ w <:+: b ∨ ∃ x y, w = x ++ y ∧ x ≠ [] ∧ y ≠ [] ∧ x <:+ a ∧ y <+: b := by
  obtain ⟨front, behind, whole⟩ := inside
  rcases List.append_eq_append_iff.mp whole with ⟨rest, same, last⟩ | ⟨rest, same, last⟩
  · exact .inl ⟨front, rest, same.symm⟩
  · rcases List.append_eq_append_iff.mp same with ⟨x, first, second⟩ | ⟨x, first, second⟩
    · by_cases xEmpty : x = []
      · refine .inr (.inl ⟨[], behind, ?_⟩)
        rw [last, second, xEmpty]
        rfl
      · by_cases restEmpty : rest = []
        · refine .inl ⟨front, [], ?_⟩
          rw [first, second, restEmpty, List.append_nil, List.append_nil]
        · exact .inr (.inr ⟨x, rest, second, xEmpty, restEmpty, ⟨front, first.symm⟩,
            ⟨behind, last.symm⟩⟩)
    · refine .inr (.inl ⟨x, behind, ?_⟩)
      rw [last, second]

theorem infix_flatten_iff {tokens : List (List α)} {parts : List (List α)} :
    (∃ token ∈ tokens, token <:+: parts.flatten) ↔
      (∃ token ∈ tokens, token = []) ∨
      (∃ part ∈ parts, ∃ token ∈ tokens, token <:+: part) ∨ Across tokens parts := by
  constructor
  · rintro ⟨token, listed, inside⟩
    induction parts with
    | nil => exact .inl ⟨token, listed, List.infix_nil.mp inside⟩
    | cons part rest ih =>
      rw [List.flatten_cons] at inside
      rcases infix_append_cases inside with here | later | ⟨x, y, rfl, hx, hy, left, right⟩
      · exact .inr (.inl ⟨part, List.mem_cons_self, token, listed, here⟩)
      · rcases ih later with empty | ⟨other, found, within⟩ | ⟨fronts, behinds, rfl, across⟩
        · exact .inl empty
        · exact .inr (.inl ⟨other, List.mem_cons_of_mem _ found, within⟩)
        · obtain ⟨other, found, x, y, same, hx, hy, left, right⟩ := across
          refine .inr (.inr ⟨part :: fronts, behinds, rfl, other, found, x, y, same, hx, hy, ?_, right⟩)
          exact left.trans (List.suffix_append _ _)
      · refine .inr (.inr ⟨[part], rest, rfl, x ++ y, listed, x, y, rfl, hx, hy, ?_, right⟩)
        simpa using left
  · rintro (⟨token, listed, rfl⟩ | ⟨part, found, token, listed, inside⟩ | across)
    · exact ⟨[], listed, List.nil_infix⟩
    · obtain ⟨before, after, rfl⟩ := List.append_of_mem found
      refine ⟨token, listed, inside.trans ⟨before.flatten, after.flatten, ?_⟩⟩
      simp
    · obtain ⟨fronts, behinds, rfl, token, listed, x, y, rfl, -, -, ⟨left, hleft⟩, ⟨right, hright⟩⟩ := across
      refine ⟨_, listed, left, right, ?_⟩
      rw [List.flatten_append, ← hleft, ← hright]
      simp

end Obsidian.Data
