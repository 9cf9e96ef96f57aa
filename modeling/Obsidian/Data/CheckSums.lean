import Mathlib.Algebra.Group.Basic
import Mathlib.Tactic.Common

namespace Obsidian.Data

/-! # Check sums

The letters of a word, each counted through a map of its place, are added up in a commutative
group.  What a change of the word does to the sum is decided at the places it changes.
-/

section

variable {Letter Sum : Type*} [AddCommGroup Sum] (weight : Nat → Letter → Sum)

def checkSum : (place : Nat) → List Letter → Sum
  | _, [] => 0
  | place, letter :: rest => weight place letter + checkSum (place + 1) rest

theorem checkSum_append (place : Nat) (front back : List Letter) :
    checkSum weight place (front ++ back) =
      checkSum weight place front + checkSum weight (place + front.length) back := by
  induction front generalizing place with
  | nil => simp [checkSum]
  | cons letter rest ih =>
    have places : place + 1 + rest.length = place + (letter :: rest).length := by
      rw [List.length_cons]
      omega
    rw [List.cons_append, checkSum, checkSum, ih, places, add_assoc]

/-- Two letters at one place keep the sum only when they count the same there. -/
theorem checkSum_replace (place : Nat) (front back : List Letter) (old new : Letter) :
    checkSum weight place (front ++ old :: back) = checkSum weight place (front ++ new :: back) ↔
      weight (place + front.length) old = weight (place + front.length) new := by
  rw [checkSum_append, checkSum_append, checkSum, checkSum, add_right_inj, add_left_inj]

/-- Exchanging neighbours keeps the sum only when the two places count both the same. -/
theorem checkSum_exchange (place : Nat) (front back : List Letter) (a b : Letter) :
    checkSum weight place (front ++ a :: b :: back) =
        checkSum weight place (front ++ b :: a :: back) ↔
      weight (place + front.length) a + weight (place + front.length + 1) b =
        weight (place + front.length) b + weight (place + front.length + 1) a := by
  rw [checkSum_append, checkSum_append, add_right_inj]
  simp only [checkSum, ← add_assoc, add_left_inj]

/-- Where the first letter counts each sum once, it completes every word in one way. -/
theorem checkSum_complete {Valid : Letter → Prop} (place : Nat) (word : List Letter)
    (each : ∀ sum, ∃! letter, Valid letter ∧ weight place letter = sum) :
    ∃! letter, Valid letter ∧ checkSum weight place (letter :: word) = 0 := by
  obtain ⟨letter, ⟨valid, counts⟩, unique⟩ := each (-checkSum weight (place + 1) word)
  refine ⟨letter, ⟨valid, ?_⟩, ?_⟩
  · rw [checkSum, counts, neg_add_cancel]
  · rintro other ⟨validOther, zero⟩
    exact unique other ⟨validOther, eq_neg_of_add_eq_zero_left zero⟩

end

end Obsidian.Data
