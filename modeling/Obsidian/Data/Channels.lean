import Mathlib.Data.List.Basic
import Mathlib.Tactic.Common

namespace Obsidian.Data

/-! # Channels

A buffered channel as its two ends see it: a send that does not wait, and a receive.
-/

structure Channel (α : Type*) where
  capacity : Nat
  buffer : List α
  fits : buffer.length ≤ capacity

namespace Channel

variable {α : Type*}

def make (capacity : Nat) : Channel α := ⟨capacity, [], Nat.zero_le _⟩

def trySend (c : Channel α) (value : α) : Option (Channel α) :=
  if room : c.buffer.length < c.capacity then
    some ⟨c.capacity, c.buffer ++ [value], by rw [List.length_append]; exact room⟩
  else none

def receive (c : Channel α) : Option (α × Channel α) :=
  match buffer : c.buffer with
  | [] => none
  | value :: rest =>
    some (value, ⟨c.capacity, rest,
      Nat.le_trans (Nat.le_succ rest.length) (by simpa [buffer] using c.fits)⟩)

variable {c after : Channel α} {value : α}

theorem buffer_trySend (sent : c.trySend value = some after) :
    after.buffer = c.buffer ++ [value] := by
  unfold trySend at sent
  split_ifs at sent
  rw [← Option.some.inj sent]

theorem buffer_receive (received : c.receive = some (value, after)) :
    c.buffer = value :: after.buffer := by
  unfold receive at received
  split at received
  · cases received
  · next first rest buffer =>
      cases received
      exact buffer

theorem buffer_of_receive_none (empty : c.receive = none) : c.buffer = [] := by
  unfold receive at empty
  split at empty
  · next buffer => exact buffer
  · cases empty

end Channel

end Obsidian.Data
