import Mathlib.Data.List.AList
import Mathlib.Data.List.Induction

namespace Obsidian.Data

/-! # Memo tables

A log of computations, each with the key it is memoized under, and the table
that memoizing them leaves.  A table is right for every computation that follows
exactly if the log is coherent: equal keys have equal outcomes.
-/

theorem forall_split_snoc {α : Type*} {P : List α → α → Prop} {xs : List α} {last : α} :
    (∀ before x after, xs ++ [last] = before ++ x :: after → P before x) ↔
      (∀ before x after, xs = before ++ x :: after → P before x) ∧ P xs last := by
  constructor
  · intro all
    constructor
    · intro before x after split
      exact all before x (after ++ [last]) (by simp [split])
    · exact all xs last [] rfl
  · rintro ⟨earlier, here⟩ before x after split
    rcases List.eq_nil_or_concat after with rfl | ⟨rest, final, rfl⟩
    · obtain ⟨rfl, same⟩ := List.append_inj' split rfl
      cases same
      exact here
    · have parts : xs ++ [last] = (before ++ x :: rest) ++ [final] := by simpa using split
      exact earlier before x rest (List.append_inj' parts rfl).1

namespace Memo

variable {κ ν : Type*} [DecidableEq κ]

/-- Memoizes one computation; a key that is there already is left alone. -/
def record (table : AList fun _ : κ => ν) (entry : Option κ × ν) : AList fun _ : κ => ν :=
  match entry.1, entry.1.bind table.lookup with
  | some key, none => table.insert key entry.2
  | _, _ => table

def table (log : List (Option κ × ν)) : AList fun _ : κ => ν := log.foldl record ∅

theorem table_snoc (log : List (Option κ × ν)) (entry : Option κ × ν) :
    table (log ++ [entry]) = record (table log) entry := by
  simp [table, List.foldl_append]

omit [DecidableEq κ] in
/-- Equal keys have equal outcomes. -/
def Coherent (log : List (Option κ × ν)) : Prop :=
  ∀ key v w, (some key, v) ∈ log → (some key, w) ∈ log → v = w

omit [DecidableEq κ] in
theorem Coherent.of_prefix {log longer : List (Option κ × ν)} (coherent : Coherent longer)
    (isPrefix : log <+: longer) : Coherent log :=
  fun key v w first second => coherent key v w (isPrefix.subset first) (isPrefix.subset second)

theorem record_lookup_self (table : AList fun _ : κ => ν) (key : κ) (v : ν) :
    (record table (some key, v)).lookup key = some ((table.lookup key).getD v) := by
  simp only [record, Option.bind_some]
  cases found : table.lookup key with
  | none => simp [AList.lookup_insert]
  | some w => simpa using found

theorem record_lookup_ne (table : AList fun _ : κ => ν) {entry : Option κ × ν} {key : κ}
    (other : entry.1 ≠ some key) : (record table entry).lookup key = table.lookup key := by
  obtain ⟨_ | name, v⟩ := entry
  · rfl
  · simp only [record, Option.bind_some]
    cases table.lookup name with
    | none =>
      exact AList.lookup_insert_ne fun same => other (by rw [same])
    | some w => rfl

theorem mem_of_lookup {log : List (Option κ × ν)} {key : κ} {v : ν}
    (found : (table log).lookup key = some v) : (some key, v) ∈ log := by
  induction log using List.reverseRecOn with
  | nil => simp [table] at found
  | append_singleton log entry ih =>
    rw [table_snoc] at found
    by_cases here : entry.1 = some key
    · obtain ⟨_, w⟩ := entry
      obtain rfl : _ = some key := here
      rw [record_lookup_self] at found
      cases before : (table log).lookup key with
      | none =>
        rw [before] at found
        simp_all
      | some u =>
        rw [before] at found
        exact List.mem_append_left _ (ih (before.trans found))
    · rw [record_lookup_ne _ here] at found
      exact List.mem_append_left _ (ih found)

theorem lookup_isSome {log : List (Option κ × ν)} {key : κ} {v : ν}
    (computed : (some key, v) ∈ log) : ∃ w, (table log).lookup key = some w := by
  induction log using List.reverseRecOn with
  | nil => cases computed
  | append_singleton log entry ih =>
    rw [table_snoc]
    by_cases here : entry.1 = some key
    · obtain ⟨_, w⟩ := entry
      obtain rfl : _ = some key := here
      exact ⟨_, record_lookup_self ..⟩
    · rw [record_lookup_ne _ here]
      rcases List.mem_append.mp computed with old | added
      · exact ih old
      · rw [List.mem_singleton] at added
        exact absurd (by rw [← added]) here

/-- A further computation keeps a log coherent exactly if the table is right for it. -/
theorem coherent_snoc {log : List (Option κ × ν)} {entry : Option κ × ν} :
    Coherent (log ++ [entry]) ↔
      Coherent log ∧ (entry.1.bind (table log).lookup).getD entry.2 = entry.2 := by
  constructor
  · intro coherent
    refine ⟨coherent.of_prefix (List.prefix_append ..), ?_⟩
    cases found : entry.1.bind (table log).lookup with
    | none => rfl
    | some w =>
      obtain ⟨key, named, held⟩ := Option.bind_eq_some_iff.mp found
      have old := List.mem_append_left [entry] (mem_of_lookup held)
      have added : (some key, entry.2) ∈ log ++ [entry] := by simp [← named]
      exact coherent key w entry.2 old added
  · rintro ⟨coherent, right⟩ key v w first second
    -- a computation of `key` before the last one is in the table
    have earlier : ∀ {u}, (some key, u) ∈ log → entry.1 = some key → u = entry.2 := by
      intro u computed named
      obtain ⟨t, held⟩ := lookup_isSome computed
      have same := coherent key u t computed (mem_of_lookup held)
      simp only [named, Option.bind_some, held, Option.getD_some] at right
      exact same.trans right
    simp only [List.mem_append, List.mem_singleton] at first second
    rcases first with first | first <;> rcases second with second | second
    · exact coherent key v w first second
    · subst second
      exact earlier first rfl
    · subst first
      exact (earlier second rfl).symm
    · rw [← first] at second
      exact (Prod.mk.inj second).2.symm

/-! ## Computations that may fail -/

section Attempts

variable {ε : Type*}

/-- Memoizes one computation if it succeeds. -/
def attempt (table : AList fun _ : κ => ν) (entry : κ × Except ε ν) : AList fun _ : κ => ν :=
  match entry.2 with
  | .ok v => record table (some entry.1, v)
  | .error _ => table

def attempts (log : List (κ × Except ε ν)) : AList fun _ : κ => ν := log.foldl attempt ∅

def answer (table : AList fun _ : κ => ν) (entry : κ × Except ε ν) : Except ε ν :=
  (table.lookup entry.1).elim entry.2 .ok

/-- If the earlier computation of a key succeeds, the later one succeeds alike. -/
def Agree (earlier later : κ × Except ε ν) : Prop :=
  earlier.1 = later.1 → ∀ v, earlier.2 = .ok v → later.2 = .ok v

def successes (log : List (κ × Except ε ν)) : List (Option κ × ν) :=
  log.filterMap fun entry => entry.2.toOption.map fun v => (some entry.1, v)

omit [DecidableEq κ] in
theorem mem_successes {log : List (κ × Except ε ν)} {key : κ} {v : ν} :
    (some key, v) ∈ successes log ↔ (key, .ok v) ∈ log := by
  simp only [successes, List.mem_filterMap, Option.map_eq_some_iff, Prod.mk.injEq,
    Option.some.injEq]
  constructor
  · rintro ⟨⟨name, result⟩, member, w, succeeded, rfl, rfl⟩
    cases result with
    | error err => cases succeeded
    | ok u =>
      cases succeeded
      exact member
  · intro member
    exact ⟨_, member, v, rfl, rfl, rfl⟩

theorem attempts_eq_table (log : List (κ × Except ε ν)) : attempts log = table (successes log) := by
  simp only [attempts, table, successes, List.foldl_filterMap]
  congr 1
  funext table entry
  obtain ⟨key, _ | v⟩ := entry <;> rfl

theorem attempts_lookup {log : List (κ × Except ε ν)} {key : κ} {v : ν}
    (found : (attempts log).lookup key = some v) : (key, .ok v) ∈ log := by
  rw [attempts_eq_table] at found
  exact mem_successes.mp (mem_of_lookup found)

omit [DecidableEq κ] in
theorem agree_outcomes {log : List (κ × Except ε ν)} (agree : log.Pairwise Agree) {key : κ}
    {v w : ν} (first : (key, .ok v) ∈ log) (second : (key, .ok w) ∈ log) : v = w := by
  induction log with
  | nil => cases first
  | cons head rest ih =>
    obtain ⟨ahead, later⟩ := List.pairwise_cons.mp agree
    rcases List.mem_cons.mp first with here | inRest
    · subst here
      rcases List.mem_cons.mp second with same | after
      · exact (Except.ok.inj (Prod.mk.inj same).2).symm
      · exact (Except.ok.inj (ahead _ after rfl v rfl)).symm
    · rcases List.mem_cons.mp second with here | after
      · subst here
        exact Except.ok.inj (ahead _ inRest rfl w rfl)
      · exact ih later inRest after

/-- A further computation agrees with the earlier ones exactly if it is handed its own
outcome. -/
theorem pairwise_agree_snoc {log : List (κ × Except ε ν)} {entry : κ × Except ε ν} :
    (log ++ [entry]).Pairwise Agree ↔
      log.Pairwise Agree ∧ answer (attempts log) entry = entry.2 := by
  rw [List.pairwise_append]
  simp only [List.pairwise_singleton, true_and, List.mem_singleton, forall_eq]
  apply and_congr_right
  intro agree
  constructor
  · intro last
    cases found : (attempts log).lookup entry.1 with
    | none => simp [answer, found]
    | some w =>
      have same := last _ (attempts_lookup found) rfl w rfl
      simp [answer, found, same]
  · intro right earlier member sameKey v succeeded
    obtain ⟨key, result⟩ := earlier
    obtain rfl : result = .ok v := succeeded
    obtain ⟨w, found⟩ := lookup_isSome (mem_successes.mpr member)
    rw [← attempts_eq_table] at found
    have same : v = w := agree_outcomes agree member (attempts_lookup found)
    rw [← right, answer, ← sameKey, found, same]
    rfl

end Attempts

end Memo

end Obsidian.Data
