import Mathlib.Algebra.Order.Ring.Int
import Mathlib.Data.List.Basic
import Mathlib.Tactic.Common

namespace Obsidian.Data

/-! # Fixed windows

A counter that opens a window with the first event it sees after the last window, and lets a
number of events into each.
-/

section

variable {α : Type*} (time : α → Int) (opens : α → Bool) (span : Int) (n : Nat)

inductive Windowed : List α → (start : Int) → (count : Nat) → Prop
  | first {e : α} (opening : opens e = true) : Windowed [e] (time e) 1
  | opened {log : List α} {start : Int} {count : Nat} {e : α} (sofar : Windowed log start count)
      (opening : opens e = true) (late : start + span ≤ time e) :
      Windowed (log ++ [e]) (time e) 1
  | counted {log : List α} {start : Int} {count : Nat} {e : α} (sofar : Windowed log start count)
      (joining : opens e = false) (after : start ≤ time e) (soon : time e < start + span)
      (room : count < n) : Windowed (log ++ [e]) start (count + 1)

def between (low high : Int) (log : List α) : Nat :=
  log.countP fun e => low ≤ time e ∧ time e < high

variable {time opens span n}

theorem between_append (low high : Int) (log rest : List α) :
    between time low high (log ++ rest) = between time low high log + between time low high rest :=
  List.countP_append

theorem between_singleton (low high : Int) (e : α) :
    between time low high [e] = if low ≤ time e ∧ time e < high then 1 else 0 := by
  simp [between, List.countP_singleton]

theorem between_mono {low high low' high' : Int} {log : List α}
    (wider : ∀ e ∈ log, low ≤ time e → time e < high → low' ≤ time e ∧ time e < high') :
    between time low high log ≤ between time low' high' log := by
  apply List.countP_mono_left
  intro e member inside
  simp only [decide_eq_true_eq] at inside ⊢
  exact wider e member inside.1 inside.2

theorem between_eq_zero {low high : Int} {log : List α}
    (outside : ∀ e ∈ log, low ≤ time e → high ≤ time e) : between time low high log = 0 := by
  rw [between, List.countP_eq_zero]
  intro e member inside
  simp only [decide_eq_true_eq] at inside
  have beyond := outside e member inside.1
  omega

theorem between_snoc_inside {low high : Int} {log : List α} {e : α} (least : low ≤ time e)
    (most : time e < high) :
    between time low high (log ++ [e]) = between time low high log + 1 := by
  rw [between_append, between_singleton, if_pos ⟨least, most⟩]

theorem between_snoc_outside {low high : Int} {log : List α} {e : α}
    (outside : ¬(low ≤ time e ∧ time e < high)) :
    between time low high (log ++ [e]) = between time low high log := by
  rw [between_append, between_singleton, if_neg outside, Nat.add_zero]

theorem between_split {low middle high : Int} (first : low ≤ middle) (second : middle ≤ high)
    (log : List α) :
    between time low high log = between time low middle log + between time middle high log := by
  induction log with
  | nil => rfl
  | cons e rest ih =>
    have split := @between_append α time
    rw [← List.singleton_append, split, split, split, ih, between_singleton, between_singleton,
      between_singleton]
    split_ifs <;> omega

theorem between_lt {low later high : Int} {log : List α} {e : α} (member : e ∈ log)
    (first : time e = low) (inside : low < high) (above : low < later) :
    between time later high log < between time low high log := by
  obtain ⟨front, back, rfl⟩ := List.append_of_mem member
  have mono (part : List α) : between time later high part ≤ between time low high part :=
    between_mono fun e _ least most => ⟨by omega, most⟩
  have fewer := mono front
  have fewer' := mono back
  rw [← List.singleton_append, between_append, between_append, between_append, between_append,
    between_singleton, between_singleton, if_neg (by omega), if_pos (by omega)]
  omega

structure Counted (time : α → Int) (opens : α → Bool) (span : Int) (n : Nat) (log : List α)
    (start : Int) (count : Nat) : Prop where
  room : count ≤ n
  ends : ∀ e ∈ log, time e < start + span
  begun : ∃ e ∈ log, time e = start
  current : between time start (start + span) log = count
  /-- What a span that goes past the beginning of the window holds of what was before it. -/
  past : ∀ low, start < low + span → between time low start log ≤ n - 1
  any : ∀ low, between time low (low + span) log ≤ 2 * n - 1
  openings : ∀ e ∈ log, opens e = true →
    (time e = start ∨ time e + span ≤ start) ∧ between time (time e) (time e + span) log ≤ n

variable (positive : 0 < n) (long : 0 < span)
include positive long

theorem Counted.first {e : α} : Counted time opens span n [e] (time e) 1 where
  room := positive
  ends := by simpa using long
  begun := ⟨e, by simp, rfl⟩
  current := by rw [between_singleton, if_pos ⟨by omega, by omega⟩]
  past low _ := by rw [between_singleton, if_neg (by omega)]; omega
  any low := by
    rw [between_singleton]
    split_ifs <;> omega
  openings := by
    intro e' member _
    rw [List.mem_singleton.mp member, between_singleton]
    refine ⟨.inl rfl, ?_⟩
    split_ifs <;> omega

theorem Counted.opened {log : List α} {start : Int} {count : Nat} {e : α}
    (sofar : Counted time opens span n log start count) (late : start + span ≤ time e) :
    Counted time opens span n (log ++ [e]) (time e) 1 := by
  have early : ∀ x ∈ log, time x < time e := fun x member =>
    Int.lt_of_lt_of_le (sofar.ends x member) late
  have none (high : Int) : between time (time e) high log = 0 :=
    between_eq_zero fun x member inside => absurd (early x member) (by omega)
  have current : between time (time e) (time e + span) (log ++ [e]) = 1 := by
    rw [between_snoc_inside (Int.le_refl _) (by omega), none]
  have past (low : Int) (beyond : time e < low + span) : between time low (time e) log ≤ n - 1 := by
    -- the span has left the beginning of the last window behind
    obtain ⟨x, member, begins⟩ := sofar.begun
    have fewer : between time low (start + span) log < between time start (start + span) log :=
      between_lt member begins (by omega) (by omega)
    have all : between time low (time e) log ≤ between time low (start + span) log :=
      between_mono fun x member inside _ => ⟨inside, sofar.ends x member⟩
    have room := sofar.room
    rw [sofar.current] at fewer
    omega
  refine
    { room := positive
      ends := ?_
      begun := ⟨e, by simp, rfl⟩
      current
      past := fun low beyond => ?_
      any := fun low => ?_
      openings := fun x member opening => ?_ }
  · intro x member
    rcases List.mem_append.mp member with old | last
    · have before := early x old
      omega
    · rw [List.mem_singleton.mp last]
      omega
  · rw [between_snoc_outside (by omega)]
    exact past low beyond
  · by_cases inside : low ≤ time e ∧ time e < low + span
    · have split : between time low (low + span) log =
          between time low (time e) log + between time (time e) (low + span) log :=
        between_split (by omega) (by omega) log
      have old := past low inside.2
      rw [none] at split
      rw [between_snoc_inside inside.1 inside.2]
      omega
    · rw [between_snoc_outside inside]
      exact sofar.any low
  · rcases List.mem_append.mp member with old | last
    · have spread := (sofar.openings x old opening).1
      have full := (sofar.openings x old opening).2
      refine ⟨.inr (by omega), ?_⟩
      rw [between_snoc_outside (by omega)]
      exact full
    · rw [List.mem_singleton.mp last, current]
      exact ⟨.inl rfl, positive⟩

omit positive long in
theorem Counted.counted {log : List α} {start : Int} {count : Nat} {e : α}
    (sofar : Counted time opens span n log start count) (joining : opens e = false)
    (after : start ≤ time e) (soon : time e < start + span) (room : count < n) :
    Counted time opens span n (log ++ [e]) start (count + 1) := by
  have current : between time start (start + span) (log ++ [e]) = count + 1 := by
    rw [between_snoc_inside after soon, sofar.current]
  have ends : ∀ x ∈ log ++ [e], time x < start + span := by
    intro x member
    rcases List.mem_append.mp member with old | last
    · exact sofar.ends x old
    · rw [List.mem_singleton.mp last]
      exact soon
  have past (low : Int) (beyond : start < low + span) :
      between time low start (log ++ [e]) ≤ n - 1 := by
    rw [between_snoc_outside (by omega)]
    exact sofar.past low beyond
  refine
    { room
      ends
      begun := ?_
      current
      past
      any := fun low => ?_
      openings := fun x member opening => ?_ }
  · obtain ⟨x, member, begins⟩ := sofar.begun
    exact ⟨x, List.mem_append_left _ member, begins⟩
  · by_cases beyond : start < low + span
    · have recent : between time (max low start) (low + span) (log ++ [e]) ≤ count + 1 := by
        rw [← current]
        exact between_mono fun x member inside _ => ⟨by omega, ends x member⟩
      by_cases before : low ≤ start
      · have split : between time low (low + span) (log ++ [e]) =
            between time low start (log ++ [e]) + between time start (low + span) (log ++ [e]) :=
          between_split before (by omega) _
        have old := past low beyond
        rw [Int.max_eq_right before] at recent
        omega
      · rw [Int.max_eq_left (by omega)] at recent
        omega
    · rw [between_snoc_outside (by omega)]
      exact sofar.any low
  · rcases List.mem_append.mp member with old | last
    · obtain ⟨spread, full⟩ := sofar.openings x old opening
      refine ⟨spread, ?_⟩
      rcases spread with same | before
      · rw [same, current]
        exact room
      · rw [between_snoc_outside (by omega)]
        exact full
    · rw [List.mem_singleton.mp last, joining] at opening
      cases opening

theorem Windowed.holds {log : List α} {start : Int} {count : Nat}
    (windowed : Windowed time opens span n log start count) :
    Counted time opens span n log start count := by
  induction windowed with
  | first => exact .first positive long
  | opened _ _ late ih => exact ih.opened positive long late
  | counted _ joining after soon room ih => exact ih.counted joining after soon room

/-- If a window only opens a span after everything in the windows before it, a span holds no events
of two windows. -/
theorem Windowed.between_le {log : List α} {start : Int} {count : Nat}
    (windowed : Windowed time opens span n log start count)
    (apart : log.Pairwise fun x e => opens e = true → time x + span ≤ time e) :
    (∀ x ∈ log, time x < start → time x + span ≤ start) ∧
      ∀ low, between time low (low + span) log ≤ n := by
  induction windowed with
  | first =>
    refine ⟨fun x member before => ?_, fun low => ?_⟩
    · rw [List.mem_singleton.mp member] at before
      omega
    · rw [between_singleton]
      split_ifs <;> omega
  | @opened log start count e sofar opening late ih =>
    obtain ⟨front, -, cross⟩ := List.pairwise_append.mp apart
    have early : ∀ x ∈ log, time x + span ≤ time e := fun x member =>
      cross x member e List.mem_cons_self opening
    refine ⟨fun x member before => ?_, fun low => ?_⟩
    · rcases List.mem_append.mp member with old | last
      · exact early x old
      · rw [List.mem_singleton.mp last] at before
        omega
    · by_cases inside : low ≤ time e ∧ time e < low + span
      · have none : between time low (low + span) log = 0 :=
          between_eq_zero fun x member least => by
            have before := early x member
            omega
        rw [between_snoc_inside inside.1 inside.2, none]
        exact positive
      · rw [between_snoc_outside inside]
        exact (ih front).2 low
  | @counted log start count e sofar joining after soon room ih =>
    obtain ⟨before, holds⟩ := ih (List.pairwise_append.mp apart).1
    have now := (sofar.holds positive long).counted joining after soon room
    have before : ∀ x ∈ log ++ [e], time x < start → time x + span ≤ start := by
      intro x member less
      rcases List.mem_append.mp member with old | last
      · exact before x old less
      · rw [List.mem_singleton.mp last] at less
        omega
    refine ⟨before, fun low => ?_⟩
    by_cases inside : low ≤ time e ∧ time e < low + span
    · -- what is in the span with `e` is in its window
      refine (between_mono fun x member least _ => ⟨?_, now.ends x member⟩).trans
        (now.current.le.trans room)
      by_contra less
      have past := before x member (Int.not_le.mp less)
      omega
    · rw [between_snoc_outside inside]
      exact holds low

end

end Obsidian.Data
