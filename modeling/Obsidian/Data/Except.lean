import Mathlib.Data.List.Basic

namespace Obsidian.Data

/-! # Computations that may fail

What is known of a computation in `Except` or `Option` once it has succeeded.
-/

variable {α β γ ε : Type}

theorem exceptBind_ok {action : Except ε α} {next : α → Except ε β} {result : β}
    (succeeded : action >>= next = .ok result) :
    ∃ value, action = .ok value ∧ next value = .ok result := by
  cases action with
  | error err => cases succeeded
  | ok value => exact ⟨value, rfl, succeeded⟩

theorem exceptMap_ok {action : Except ε α} {f : α → β} {result : β}
    (succeeded : action.map f = .ok result) : ∃ value, action = .ok value ∧ f value = result := by
  cases action with
  | error err => cases succeeded
  | ok value => exact ⟨value, rfl, Except.ok.inj succeeded⟩

theorem exceptFoldlM_cons {f : β → α → Except ε β} {x : α} {xs : List α} {start result : β}
    (succeeded : (x :: xs).foldlM f start = .ok result) :
    ∃ next, f start x = .ok next ∧ xs.foldlM f next = .ok result := by
  rw [List.foldlM_cons] at succeeded
  exact exceptBind_ok succeeded

theorem exceptFoldlM_keeps {P : β → Prop} {f : β → α → Except ε β} {xs : List α}
    (step : ∀ x ∈ xs, ∀ {before after}, f before x = .ok after → P before → P after)
    {start result : β} (succeeded : xs.foldlM f start = .ok result) (holds : P start) :
    P result := by
  induction xs generalizing start with
  | nil =>
    cases succeeded
    exact holds
  | cons x xs ih =>
    obtain ⟨next, first, later⟩ := exceptFoldlM_cons succeeded
    apply ih (fun x found => step x (List.mem_cons_of_mem _ found)) later
    exact step x List.mem_cons_self first holds

/-- A fold that fails only on its elements is a fold over what they succeed with. -/
theorem exceptFoldlM_map {read : α → Except ε γ} {f : β → γ → β} {xs : List α} {start result : β}
    (succeeded : xs.foldlM (fun before x => (read x).map (f before)) start = .ok result) :
    ∃ items : List γ, xs.map read = items.map .ok ∧ items.foldl f start = result := by
  induction xs generalizing start with
  | nil =>
    cases succeeded
    exact ⟨[], rfl, rfl⟩
  | cons x xs ih =>
    obtain ⟨next, first, later⟩ := exceptFoldlM_cons succeeded
    obtain ⟨item, readFirst, rfl⟩ := exceptMap_ok first
    obtain ⟨items, reads, folded⟩ := ih later
    exact ⟨item :: items, by simp [readFirst, reads], folded⟩

/-- A fold over what was written, where reading it never fails. -/
theorem exceptFoldlM_written {read : α → Except ε γ} {write : γ → α} {f : β → γ → β}
    (reads : ∀ x, read (write x) = .ok x) (xs : List γ) (start : β) :
    (xs.map write).foldlM (fun state y => (read y).map (f state)) start =
      .ok (xs.foldl f start) := by
  induction xs generalizing start with
  | nil => rfl
  | cons x xs ih =>
    rw [List.map_cons, List.foldlM_cons, reads]
    exact ih (f start x)

theorem optionFoldlM_cons {f : β → α → Option β} {x : α} {xs : List α} {start result : β}
    (succeeded : (x :: xs).foldlM f start = some result) :
    ∃ next, f start x = some next ∧ xs.foldlM f next = some result := by
  rw [List.foldlM_cons] at succeeded
  exact Option.bind_eq_some_iff.mp succeeded

theorem optionFoldlM_keeps {P : β → Prop} {f : β → α → Option β} {xs : List α}
    (step : ∀ x ∈ xs, ∀ {before after}, f before x = some after → P before → P after)
    {start result : β} (succeeded : xs.foldlM f start = some result) (holds : P start) :
    P result := by
  induction xs generalizing start with
  | nil =>
    cases succeeded
    exact holds
  | cons x xs ih =>
    obtain ⟨next, first, later⟩ := optionFoldlM_cons succeeded
    apply ih (fun x found => step x (List.mem_cons_of_mem _ found)) later
    exact step x List.mem_cons_self first holds

/-- A fold that may fail beside one that does not. -/
theorem optionFoldlM_relates {R : β → γ → Prop} {f : β → α → Option β} {g : γ → α → γ}
    {xs : List α}
    (step : ∀ x ∈ xs, ∀ {before after model}, f before x = some after → R before model →
      R after (g model x))
    {start result : β} {model : γ} (succeeded : xs.foldlM f start = some result)
    (holds : R start model) : R result (xs.foldl g model) := by
  induction xs generalizing start model with
  | nil =>
    cases succeeded
    exact holds
  | cons x xs ih =>
    obtain ⟨next, first, later⟩ := optionFoldlM_cons succeeded
    apply ih (fun x found => step x (List.mem_cons_of_mem _ found)) later
    exact step x List.mem_cons_self first holds

/-- A fold succeeds whose steps do, as long as they keep what they need. -/
theorem optionFoldlM_succeeds {P : β → Prop} {f : β → α → Option β} (xs : List α)
    (step : ∀ x ∈ xs, ∀ before, P before → ∃ after, f before x = some after ∧ P after)
    {start : β} (holds : P start) : ∃ result, xs.foldlM f start = some result ∧ P result := by
  induction xs generalizing start with
  | nil => exact ⟨start, rfl, holds⟩
  | cons x xs ih =>
    obtain ⟨next, first, kept⟩ := step x List.mem_cons_self start holds
    obtain ⟨result, later, reached⟩ := ih (fun x found => step x (List.mem_cons_of_mem _ found)) kept
    refine ⟨result, ?_, reached⟩
    rw [List.foldlM_cons, first]
    exact later

end Obsidian.Data
