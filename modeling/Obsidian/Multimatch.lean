import Obsidian.Api
import Obsidian.ChangedFlags

namespace Obsidian

open Obsidian.Data

/-! # Multimatch

`executeTransformationsMultimatch` goes on from a transformed value only if the
transformation says that it changed something, `executeTransformations` always.
The two part at a flag that is wrong.
-/

namespace Rule

def plainValue (value : Bytes) (t : Transformation) : Bytes :=
  match t value with
  | (_, _, some _) => value
  | (next, _, none) => next

def flaggedValue (value : Bytes) (t : Transformation) : Bytes :=
  match t value with
  | (_, _, some _) => value
  | (next, changed, none) => if changed then next else value

theorem honest_iff_same (t : Transformation) (value : Bytes) :
    t.Honest value ↔ flaggedValue value t = plainValue value t := by
  simp only [Transformation.Honest, flaggedValue, plainValue]
  obtain ⟨next, changed, err⟩ := t value
  cases err with
  | some err => simp
  | none => cases changed <;> simp [eq_comm]

theorem transformStep_value (t : Transformation) (state : Bytes × List GoError) :
    (transformStep t state).1 = plainValue state.1 t := by
  simp only [transformStep, plainValue]
  split <;> simp_all

theorem foldl_transformStep (ts : List Transformation) (state : Bytes × List GoError) :
    (ts.foldl (fun state t => transformStep t state) state).1 = ts.foldl plainValue state.1 := by
  induction ts generalizing state with
  | nil => rfl
  | cons t rest ih =>
    simp only [List.foldl_cons]
    rw [ih, transformStep_value]

theorem executeTransformations_value (r : Rule) (value : Bytes) :
    (r.executeTransformations value).1 = r.transformations.foldl plainValue value :=
  foldl_transformStep _ _

theorem multimatchStep_value (t : Transformation) {state : List Bytes × List GoError × Bytes}
    (collected : state.1.getLast? = some state.2.2) :
    (multimatchStep t state).2.2 = flaggedValue state.2.2 t ∧
      (multimatchStep t state).1.getLast? = some (flaggedValue state.2.2 t) := by
  obtain ⟨values, errs, value⟩ := state
  simp only [multimatchStep, flaggedValue]
  obtain ⟨next, changed, err⟩ := t value
  cases err with
  | some err => exact ⟨rfl, collected⟩
  | none =>
    cases changed with
    | true => simp
    | false => exact ⟨rfl, collected⟩

theorem foldl_multimatchStep (ts : List Transformation)
    {state : List Bytes × List GoError × Bytes} (collected : state.1.getLast? = some state.2.2) :
    (ts.foldl (fun state t => multimatchStep t state) state).1.getLast? =
      some (ts.foldl flaggedValue state.2.2) := by
  induction ts generalizing state with
  | nil => exact collected
  | cons t rest ih =>
    obtain ⟨value, last⟩ := multimatchStep_value t collected
    simp only [List.foldl_cons]
    rw [ih (last.trans (congrArg some value.symm)), value]

theorem executeTransformationsMultimatch_last (r : Rule) (value : Bytes) :
    (r.executeTransformationsMultimatch value).1.getLast? =
      some (r.transformations.foldl flaggedValue value) := by
  simp only [executeTransformationsMultimatch]
  exact foldl_multimatchStep r.transformations rfl

end Rule

section

variable (rt : Runtime) (unescapeString : Bytes → Bytes)

def Registered.rule (ts : List Registered) : Rule :=
  { transformations := ts.map (·.function rt unescapeString) }

/-- The last value `multiMatch` inspects is the one inspected without it. -/
def ShowsFinal (ts : List Registered) (value : Bytes) : Prop :=
  let r := Registered.rule rt unescapeString ts
  (r.executeTransformationsMultimatch value).1.getLast? = some (r.executeTransformations value).1

/-- Every transformation of the list tells whether it changes the value it is
given on the plain path. -/
def EveryTold : List Registered → Bytes → Prop
  | [], _ => True
  | t :: rest, value =>
    t.Told unescapeString value ∧
      EveryTold rest (Rule.plainValue value (t.function rt unescapeString))

variable {rt : Runtime} {unescapeString : Bytes → Bytes}

theorem showsFinal_cons {t : Registered} {rest : List Registered} {value : Bytes}
    (told : t.Told unescapeString value) :
    ShowsFinal rt unescapeString (t :: rest) value ↔
      ShowsFinal rt unescapeString rest
        (Rule.plainValue value (t.function rt unescapeString)) := by
  have same := (Rule.honest_iff_same _ value).mp ((t.honest_iff rt unescapeString value).mpr told)
  simp only [ShowsFinal, Rule.executeTransformationsMultimatch_last,
    Rule.executeTransformations_value, Registered.rule, List.map_cons, List.foldl_cons, same]

theorem showsFinal_singleton (t : Registered) (value : Bytes) :
    ShowsFinal rt unescapeString [t] value ↔ t.Told unescapeString value := by
  rw [← t.honest_iff rt unescapeString value, Rule.honest_iff_same]
  simp [ShowsFinal, Rule.executeTransformationsMultimatch_last,
    Rule.executeTransformations_value, Registered.rule]

/-- `multiMatch` ends on the plain value, for a list and for each of the lists it
starts with, exactly when every transformation tells what it did. -/
theorem multimatch_showsFinal_iff (rt : Runtime) (unescapeString : Bytes → Bytes)
    (ts : List Registered) (value : Bytes) :
    (∀ seen, seen <+: ts → ShowsFinal rt unescapeString seen value) ↔
      EveryTold rt unescapeString ts value := by
  induction ts generalizing value with
  | nil => simp [EveryTold, ShowsFinal, Registered.rule, Rule.executeTransformationsMultimatch,
      Rule.executeTransformations]
  | cons t rest ih =>
    constructor
    · intro shows
      have told := (showsFinal_singleton t value).mp
        (shows [t] (List.prefix_append [t] rest))
      refine ⟨told, (ih _).mp ?_⟩
      intro seen front
      exact (showsFinal_cons told).mp (shows (t :: seen) (List.cons_prefix_cons.mpr ⟨rfl, front⟩))
    · intro every seen front
      obtain ⟨told, later⟩ := every
      cases seen with
      | nil => rfl
      | cons first seen =>
        obtain ⟨rfl, tail⟩ := List.cons_prefix_cons.mp front
        exact (showsFinal_cons told).mpr ((ih _).mpr later seen tail)

/-- A tab is turned into a space without a word, so the rule's operator never sees
the text with the space in it. -/
theorem multimatch_hides :
    ¬ShowsFinal Host.plain.toRuntime id [.compressWhitespace] (str "a\tb") := by
  rw [showsFinal_singleton]
  intro told
  have tab := told (by decide) 9 (by decide) (by decide)
  cases tab

end

end Obsidian
