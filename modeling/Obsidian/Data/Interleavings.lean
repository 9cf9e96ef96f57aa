import Mathlib.Data.List.Basic
import Mathlib.Data.List.Count
import Mathlib.Logic.Function.Iterate
import Mathlib.Order.Basic
import Mathlib.Tactic.Common

namespace Obsidian.Data

/-! # Interleavings

Calls that share a state.  In each turn one of them makes its next step; what the step finds out
about the world is part of the turn.
-/

structure Threads (σ κ : Type*) where
  shared : σ
  calls : List κ

namespace Threads

section

variable {σ κ ι : Type*} (advance : κ → ι → σ → κ × σ)

def step (w : Threads σ κ) (turn : Nat × ι) : Threads σ κ :=
  match w.calls[turn.1]? with
  | none => w
  | some call =>
    { shared := (advance call turn.2 w.shared).2
      calls := w.calls.set turn.1 (advance call turn.2 w.shared).1 }

def run (w : Threads σ κ) (turns : List (Nat × ι)) : Threads σ κ := turns.foldl (step advance) w

variable {advance}

/-- What every step of every call keeps. -/
theorem run_invariant (inv : Threads σ κ → Prop)
    (moves : ∀ w i call datum, inv w → w.calls[i]? = some call →
      inv ⟨(advance call datum w.shared).2, w.calls.set i (advance call datum w.shared).1⟩)
    {w : Threads σ κ} (initial : inv w) (turns : List (Nat × ι)) : inv (w.run advance turns) := by
  induction turns generalizing w with
  | nil => exact initial
  | cons turn rest ih =>
    refine ih ?_
    unfold step
    cases given : w.calls[turn.1]? with
    | none => exact initial
    | some call => exact moves w turn.1 call turn.2 initial given

end

end Threads

/-! ## One call among the others -/

theorem filterMap_set_perm {α β : Type*} {f : α → Option β} {calls : List α} {i : Nat} {old new : α}
    {shown : β} (given : calls[i]? = some old) (before : f old = none) (after : f new = some shown) :
    ((calls.set i new).filterMap f).Perm (calls.filterMap f ++ [shown]) := by
  induction calls generalizing i with
  | nil => cases given
  | cons call rest ih =>
    cases i with
    | zero =>
      cases given
      rw [List.set_cons_zero, List.filterMap_cons_some after, List.filterMap_cons_none before]
      exact (List.perm_append_singleton shown _).symm
    | succ i =>
      have tail := ih (i := i) (by simpa using given)
      rw [List.set_cons_succ]
      cases shows : f call with
      | none =>
        rw [List.filterMap_cons_none shows, List.filterMap_cons_none shows]
        exact tail
      | some value =>
        rw [List.filterMap_cons_some shows, List.filterMap_cons_some shows]
        exact tail.cons value

theorem filterMap_set_eq {α β : Type*} {f : α → Option β} {calls : List α} {i : Nat} {old new : α}
    (given : calls[i]? = some old) (same : f new = f old) :
    (calls.set i new).filterMap f = calls.filterMap f := by
  induction calls generalizing i with
  | nil => cases given
  | cons call rest ih =>
    cases i with
    | zero =>
      cases given
      rw [List.set_cons_zero, List.filterMap_cons, List.filterMap_cons, same]
    | succ i =>
      rw [List.set_cons_succ, List.filterMap_cons, List.filterMap_cons,
        ih (i := i) (by simpa using given)]

end Obsidian.Data
