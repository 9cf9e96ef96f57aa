import Obsidian.BodyBuffer
import Obsidian.Data.Readers

namespace Obsidian

open Obsidian.Data

/-! # Reading bodies

`bodyBufferReader` reads a buffer from its start, in memory or in the file.  What
`io.CopyN` takes out of a reader is no longer there for the next one who reads it.
-/

namespace BodyBuffer

/-- `bodyBufferReader.Read` while the buffer is in use.  The state is the position. -/
def read (disk : Disk) (br : BodyBuffer) : ReadCall UInt8 GoError Nat
  | size, pos =>
    match br.writer, disk.hasAccessToFS with
    | some content, true =>
      match disk.read content with
      | some err => ([], some (.failed err), pos)
      | none =>
        let piece := (content.drop pos).take size
        (piece, if piece.length < size then some .eof else none, pos + piece.length)
    | _, _ =>
      let n := if pos + size > br.buffer.length then br.buffer.length - pos else size
      if n = 0 then ([], some .eof, pos)
      else ((br.buffer.drop pos).take n, none, pos + n)

theorem read_deliversWithin {disk : Disk} (reliable : disk.Reliable) (br : BodyBuffer) (bound : Nat)
    {pos : Nat} (enough : br.content.length - pos < bound) :
    DeliversWithin (br.read disk) bound pos (br.content.drop pos) .eof := by
  induction bound generalizing pos with
  | zero => exact absurd enough (Nat.not_lt_zero _)
  | succ bound ih =>
    intro size positive
    have split (n : Nat) : br.content.drop pos =
        (br.content.drop pos).take n ++ br.content.drop (pos + n) := by
      rw [← List.drop_drop, List.take_append_drop]
    cases stored : br.writer with
    | some file =>
      have content : br.content = file := by simp [BodyBuffer.content, stored]
      simp only [read, stored, reliable.access, reliable.read]
      rw [content] at ih enough split ⊢
      have length : ((file.drop pos).take size).length = min size (file.length - pos) := by
        rw [List.length_take, List.length_drop]
      by_cases short : ((file.drop pos).take size).length < size
      · simp only [short, if_true]
        refine ⟨List.take_of_length_le ?_, trivial⟩
        rw [List.length_drop]
        omega
      · simp only [short, if_false]
        refine ⟨file.drop (pos + size), ?_, ?_⟩
        · exact split size
        · have whole : ((file.drop pos).take size).length = size := by omega
          rw [whole]
          exact ih (by omega)
    | none =>
      have content : br.content = br.buffer := by simp [BodyBuffer.content, stored]
      simp only [read, stored]
      rw [content] at ih enough split ⊢
      generalize count : (if pos + size > br.buffer.length then br.buffer.length - pos
        else size) = n
      by_cases empty : n = 0
      · simp only [empty, if_true]
        have past : br.buffer.length ≤ pos := by
          rw [← count] at empty
          split_ifs at empty <;> omega
        exact ⟨(List.drop_eq_nil_of_le past).symm, trivial⟩
      · simp only [empty, if_false]
        have within : pos + n ≤ br.buffer.length := by
          rw [← count] at empty ⊢
          split_ifs at empty ⊢ <;> omega
        exact ⟨br.buffer.drop (pos + n), split n, ih (by omega)⟩

theorem read_delivers {disk : Disk} (reliable : disk.Reliable) (br : BodyBuffer) :
    Delivers (br.read disk) 0 br.content .eof :=
  ⟨_, read_deliversWithin reliable br _ (Nat.lt_succ_self _)⟩

end BodyBuffer

/-! ## What a copy takes -/

def copyTaken (disk : Disk) : List Bytes → Nat → BodyBuffer → Nat
  | [], _, _ => 0
  | read :: reads, remaining, br =>
    if remaining = 0 then 0
    else
      let piece := read.take remaining
      if piece.length = 0 then copyTaken disk reads remaining br
      else
        match br.write disk piece with
        | (_, _, some _) => piece.length
        | (br, n, none) =>
          if n ≠ piece.length then piece.length
          else piece.length + copyTaken disk reads (remaining - n) br

theorem copyLoop_cases {disk : Disk} (reliable : disk.Reliable) (fails : Option GoError)
    (reads : List Bytes) (remaining : Nat) {br : BodyBuffer} {bytes : Bytes}
    (holds : br.Holds bytes) (small : (bytes.length : Int) + remaining < 2 ^ 63) (written : Nat) :
    (∃ more, more < remaining ∧ (copyLoop disk fails reads remaining br written).2 =
        (written + more, some BodyBuffer.errLimitReached)) ∨
      (copyLoop disk fails reads remaining br written).2.1 =
          written + copyTaken disk reads remaining br ∧
        copyTaken disk reads remaining br = min remaining reads.flatten.length ∧
        (copyLoop disk fails reads remaining br written).1.Holds
          (bytes ++ reads.flatten.take remaining) := by
  induction reads generalizing remaining br bytes written with
  | nil => exact .inr ⟨rfl, by simp [copyTaken], by simpa [copyLoop] using holds⟩
  | cons read rest ih =>
    simp only [copyLoop, copyTaken]
    by_cases done : remaining = 0
    · subst done
      exact .inr ⟨rfl, by simp, by simpa using holds⟩
    simp only [done, if_false]
    have cut : (read.take remaining).length = min remaining read.length := List.length_take
    by_cases empty : (read.take remaining).length = 0
    · obtain rfl : read = [] := by
        rw [← List.length_eq_zero_iff]
        omega
      simpa using ih remaining holds small written
    simp only [empty, if_false]
    have short : (bytes.length : Int) + (read.take remaining).length < 2 ^ 63 := by omega
    rcases BodyBuffer.write_cases reliable holds short with refused | ⟨result, grown⟩
    · simp only [refused]
      exact .inl ⟨0, by omega, rfl⟩
    · revert result grown
      rcases br.write disk (read.take remaining) with ⟨after, count, err⟩
      intro result grown
      obtain ⟨rfl, rfl⟩ := Prod.mk.inj result
      have left : remaining - (read.take remaining).length = remaining - read.length := by omega
      simp only [ne_eq, not_true_eq_false, if_false]
      rw [left]
      rcases ih (remaining - read.length) grown
          (by rw [List.length_append]; omega) (written + (read.take remaining).length) with
        ⟨more, fewer, stopped⟩ | ⟨count, taken, stored⟩
      · exact .inl ⟨(read.take remaining).length + more, by omega, by rw [stopped, Nat.add_assoc]⟩
      · refine .inr ⟨by rw [count, Nat.add_assoc], ?_, ?_⟩
        · rw [taken, List.flatten_cons, List.length_append]
          omega
        · rw [List.flatten_cons, List.take_append, ← List.append_assoc]
          exact stored

theorem copyN_cases {disk : Disk} (reliable : disk.Reliable) (r : Reader) {n : Int}
    {br : BodyBuffer} {bytes : Bytes} (holds : br.Holds bytes)
    (small : (bytes.length : Int) + n.toNat < 2 ^ 63) :
    (copyN disk br r n).2.2 = some BodyBuffer.errLimitReached ∨
      (copyN disk br r n).1.Holds
        (bytes ++ r.reads.flatten.take (copyTaken disk r.reads n.toNat br)) := by
  simp only [copyN]
  rcases copyLoop_cases reliable r.fails r.reads n.toNat holds small 0 with
    ⟨more, fewer, refused⟩ | ⟨_, taken, grown⟩
  · left
    have short : ¬((0 + more : Nat) : Int) = n := by omega
    simp only [refused, short, if_false]
  · right
    rw [taken, ← List.take_eq_take_min]
    split <;> exact grown

end Obsidian
