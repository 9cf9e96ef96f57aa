import Mathlib.Logic.Relation

namespace Obsidian.Data

/-! # Steps

Rules for a step relation and its reflexive transitive closure: how a loop
closes over steps, and what every sequence of steps keeps.
-/

open Relation

section

variable {σ α β γ : Type*} {R : σ → σ → Prop} {before after : σ}

/-- A loop whose rounds are steps of the state it carries is a sequence of steps. -/
theorem Steps.foldl (state : β → σ) {round : β → α → β} {xs : List α}
    (each : ∀ acc, ∀ x ∈ xs, ReflTransGen R (state acc) (state (round acc x))) (acc : β) :
    ReflTransGen R (state acc) (state (xs.foldl round acc)) := by
  induction xs generalizing acc with
  | nil => exact .refl
  | cons x rest ih =>
    have first := each acc x (List.mem_cons_self ..)
    exact first.trans (ih (fun acc y found => each acc y (List.mem_cons_of_mem x found)) _)

theorem Steps.optional {start : σ} {f : α → σ} (o : Option α)
    (each : ∀ x, o = some x → ReflTransGen R start (f x)) : ReflTransGen R start (o.elim start f) := by
  cases o with
  | none => exact .refl
  | some x => exact each x rfl

theorem Steps.guarded {start next : σ} {p : Prop} [Decidable p]
    (holds : p → ReflTransGen R start next) : ReflTransGen R start (if p then next else start) := by
  split
  · exact holds ‹_›
  · exact .refl

theorem Steps.keeps {P : σ → Prop} (step : ∀ {a b}, R a b → P a → P b)
    (steps : ReflTransGen R before after) (holds : P before) : P after := by
  induction steps with
  | refl => exact holds
  | tail _ last ih => exact step last ih

theorem Steps.frame (read : σ → γ) (step : ∀ {a b}, R a b → read b = read a)
    (steps : ReflTransGen R before after) : read after = read before :=
  Steps.keeps (P := fun state => read state = read before)
    (fun last same => (step last).trans same) steps rfl

theorem Steps.extends (log : σ → List γ) (step : ∀ {a b}, R a b → log a <+: log b)
    (steps : ReflTransGen R before after) : log before <+: log after :=
  Steps.keeps (P := fun state => log before <+: log state)
    (fun last sofar => sofar.trans (step last)) steps (List.prefix_refl _)

end

end Obsidian.Data
