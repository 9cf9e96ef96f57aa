import Mathlib.Data.List.Basic
import Mathlib.Data.List.Induction

namespace Obsidian.Data

/-! # Journals

What is written to a journal stays in it in order, and each of its readers is given the
written elements from the first on, at its own pace.
-/

structure Journal (α : Type*) where
  written : List α
  /-- How much each reader has been given; nothing once it is closed. -/
  taken : List (Option Nat)

namespace Journal

variable {α : Type*}

inductive Call (α : Type*) where
  | append (xs : List α)
  | subscribe
  | take (reader size : Nat)
  | clear

def empty : Journal α := ⟨[], []⟩

def piece (j : Journal α) (reader size : Nat) : List α :=
  match j.taken[reader]? with
  | some (some n) => (j.written.drop n).take size
  | _ => []

def step (j : Journal α) : Call α → Journal α
  | .append xs => { j with written := j.written ++ xs }
  | .subscribe => { j with taken := j.taken ++ [some 0] }
  | .take reader size =>
    { j with taken := j.taken.modify reader (Option.map (· + (j.piece reader size).length)) }
  | .clear => { written := [], taken := j.taken.map fun _ => none }

def answer (j : Journal α) : Call α → List α
  | .take reader size => j.piece reader size
  | _ => []

def run (j : Journal α) (calls : List (Call α)) : Journal α := calls.foldl step j

def answers (j : Journal α) : List (Call α) → List (List α)
  | [] => []
  | call :: calls => j.answer call :: (j.step call).answers calls

/-- Of the answers, those to one reader. -/
def gathered (reader : Nat) (calls : List (Call α)) (replies : List (List α)) : List α :=
  (calls.zip replies).flatMap fun
    | (.take r _, reply) => if r = reader then reply else []
    | _ => []

theorem run_append (j : Journal α) (calls : List (Call α)) (call : Call α) :
    j.run (calls ++ [call]) = (j.run calls).step call := by
  rw [run, List.foldl_append]
  rfl

theorem answers_append (j : Journal α) (calls : List (Call α)) (call : Call α) :
    j.answers (calls ++ [call]) = j.answers calls ++ [(j.run calls).answer call] := by
  induction calls generalizing j with
  | nil => rfl
  | cons first calls ih => rw [List.cons_append, answers, ih, answers, List.cons_append, run, run, List.foldl_cons]

theorem length_answers (j : Journal α) (calls : List (Call α)) :
    (j.answers calls).length = calls.length := by
  induction calls generalizing j with
  | nil => rfl
  | cons call calls ih => rw [answers, List.length_cons, List.length_cons, ih]

theorem gathered_append (reader : Nat) {calls : List (Call α)} {replies : List (List α)}
    (lengths : calls.length = replies.length) (call : Call α) (reply : List α) :
    gathered reader (calls ++ [call]) (replies ++ [reply]) =
      gathered reader calls replies ++ gathered reader [call] [reply] := by
  rw [gathered, List.zip_append lengths, List.flatMap_append]
  rfl

theorem taken_take {j : Journal α} {reader n : Nat} (found : j.taken[reader]? = some (some n))
    (size : Nat) : (j.step (.take reader size)).taken =
      j.taken.set reader (some (n + (j.piece reader size).length)) := by
  simp only [step, List.modify_eq_set_getElem?, found]
  rfl

theorem step_take_closed {j : Journal α} {reader : Nat} (closed : j.taken[reader]? = some none)
    (size : Nat) : j.step (.take reader size) = j := by
  have same : j.taken.set reader none = j.taken := by
    obtain ⟨listed, value⟩ := List.getElem?_eq_some_iff.mp closed
    rw [← value, List.set_getElem_self]
  simp only [step, List.modify_eq_set_getElem?, closed]
  exact congrArg (fun taken => ({ j with taken } : Journal α)) same

/-- What a reader has been given is a front of what is written; a reader that is not
there has been given nothing. -/
structure Kept (j : Journal α) (got : Nat → List α) : Prop where
  front : ∀ {reader n : Nat}, j.taken[reader]? = some (some n) →
    n ≤ j.written.length ∧ got reader = j.written.take n
  absent : ∀ reader, j.taken.length ≤ reader → got reader = []

theorem Kept.step {j : Journal α} {got : Nat → List α} (kept : j.Kept got) (call : Call α) :
    (j.step call).Kept fun reader => got reader ++ gathered reader [call] [j.answer call] := by
  cases call with
  | append xs =>
    refine ⟨fun {reader n} open_ => ?_, fun reader beyond => ?_⟩
    · obtain ⟨bound, given⟩ := kept.front open_
      simp only [Journal.step, gathered, List.length_append]
      refine ⟨by omega, ?_⟩
      rw [List.take_append_of_le_length bound, given]
      simp
    · simpa [gathered] using kept.absent reader beyond
  | subscribe =>
    refine ⟨fun {reader n} open_ => ?_, fun reader beyond => ?_⟩
    · simp only [Journal.step] at open_ ⊢
      by_cases old : reader < j.taken.length
      · rw [List.getElem?_append_left old] at open_
        obtain ⟨bound, given⟩ := kept.front open_
        exact ⟨bound, by simpa [gathered] using given⟩
      · have absent := kept.absent reader (Nat.le_of_not_lt old)
        rw [List.getElem?_append_right (Nat.le_of_not_lt old), List.getElem?_singleton] at open_
        split at open_
        · cases open_
          exact ⟨Nat.zero_le _, by simpa [gathered] using absent⟩
        · cases open_
    · simp only [Journal.step, List.length_append, List.length_singleton] at beyond
      simpa [gathered] using kept.absent reader (by omega)
  | take r size =>
    refine ⟨fun {reader n} open_ => ?_, fun reader beyond => ?_⟩
    · simp only [Journal.step, List.getElem?_modify] at open_ ⊢
      by_cases same : r = reader
      · subst same
        simp only [if_true, Option.map_eq_map, Option.map_eq_some_iff] at open_
        obtain ⟨_, found, m, rfl, rfl⟩ := open_
        obtain ⟨bound, given⟩ := kept.front found
        have piece : j.piece r size = (j.written.drop m).take size := by rw [Journal.piece, found]
        have length : (j.piece r size).length ≤ j.written.length - m := by
          rw [piece, List.length_take, List.length_drop]
          omega
        refine ⟨by omega, ?_⟩
        have joined : gathered r [.take r size] [j.answer (.take r size)] = j.piece r size := by
          simp [gathered, answer]
        rw [joined, given, List.take_add, piece,
          ← List.prefix_iff_eq_take.mp (List.take_prefix size (j.written.drop m))]
      · simp only [same, if_false] at open_
        obtain ⟨bound, given⟩ := kept.front (by simpa using open_)
        exact ⟨bound, by simpa [gathered, same] using given⟩
    · simp only [Journal.step, List.length_modify] at beyond
      have nothing := kept.absent reader beyond
      by_cases same : r = reader
      · subst same
        simp [gathered, nothing, answer, Journal.piece, List.getElem?_eq_none beyond]
      · simp [gathered, nothing, same]
  | clear =>
    refine ⟨fun {reader n} open_ => ?_, fun reader beyond => ?_⟩
    · simp only [Journal.step, List.getElem?_map, Option.map_eq_some_iff] at open_
      obtain ⟨_, _, impossible⟩ := open_
      cases impossible
    · simpa [gathered] using kept.absent reader (by simpa [Journal.step] using beyond)

/-- Along a run from the start, each reader is given what is written, in order, and
nothing twice. -/
theorem run_kept (calls : List (Call α)) :
    (empty.run calls).Kept fun reader => gathered reader calls (empty.answers calls) := by
  induction calls using List.reverseRecOn with
  | nil => exact ⟨fun open_ => (by cases open_), fun _ _ => rfl⟩
  | append_singleton calls call ih =>
    have next := ih.step call
    rw [run_append]
    refine ⟨fun open_ => ?_, fun reader beyond => ?_⟩
    · rw [answers_append, gathered_append _ (length_answers _ _).symm]
      exact next.front open_
    · rw [answers_append, gathered_append _ (length_answers _ _).symm]
      exact next.absent reader beyond

end Journal

end Obsidian.Data
