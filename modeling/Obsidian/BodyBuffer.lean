import Obsidian.Data.Bytes

namespace Obsidian

open Obsidian.Data

/-! # Body buffers

`BodyBuffer` keeps a body in memory up to `MemoryLimit` and in a temporary file
after that.  `length` is its own count of the bytes accepted so far.
-/

structure BodyBufferOptions where
  tmpPath : Bytes
  memoryLimit : Int
  limit : Int
deriving DecidableEq, Repr

/-- The file system as the buffers see it: how `os.CreateTemp`, writing to the
temporary file and reading it back end. -/
structure Disk where
  hasAccessToFS : Bool
  createTemp : (tmpPath : Bytes) → Option GoError
  write : (content data : Bytes) → Nat × Option GoError
  read : (content : Bytes) → Option GoError

structure Disk.Reliable (disk : Disk) : Prop where
  access : disk.hasAccessToFS = true
  createTemp : ∀ tmpPath, disk.createTemp tmpPath = none
  write : ∀ content data, disk.write content data = (data.length, none)
  read : ∀ content, disk.read content = none

structure BodyBuffer where
  options : BodyBufferOptions
  buffer : Bytes
  writer : Option Bytes
  length : Int
  readers : Nat
deriving DecidableEq, Repr

namespace BodyBuffer

def new (options : BodyBufferOptions) : BodyBuffer :=
  { options, buffer := [], writer := none, length := 0, readers := 0 }

def errLimitReached : GoError := str "limit reached while writing"

def errMemoryLimitReached : GoError := str "memoryLimit reached while writing"

def spill (disk : Disk) (br : BodyBuffer) (targetLen : Int) (data : Bytes) :
    BodyBuffer × Nat × Option GoError :=
  let append (br : BodyBuffer) (content : Bytes) : BodyBuffer × Nat × Option GoError :=
    let (n, err) := disk.write content data
    ({ br with writer := some (content ++ data.take n), length := targetLen }, n, err)
  match br.writer with
  | some content => append br content
  | none =>
    match disk.createTemp br.options.tmpPath with
    | some err => (br, 0, some err)
    | none =>
      -- the bytes held in memory move to the file first
      match disk.write [] br.buffer with
      | (n, some err) => ({ br with writer := some (br.buffer.take n) }, 0, some err)
      | (n, none) => append { br with buffer := [] } (br.buffer.take n)

def write (disk : Disk) (br : BodyBuffer) (data : Bytes) : BodyBuffer × Nat × Option GoError :=
  if data.length = 0 then (br, 0, none)
  else if br.length > wrap64 (br.options.limit - data.length) then
    (br, 0, some errLimitReached)
  else
    let targetLen := wrap64 (br.length + data.length)
    if targetLen > br.options.memoryLimit then
      if disk.hasAccessToFS then br.spill disk targetLen data
      else (br, 0, some errMemoryLimitReached)
    else ({ br with buffer := br.buffer ++ data, length := targetLen }, data.length, none)

def reader (br : BodyBuffer) : BodyBuffer := { br with readers := br.readers + 1 }

def reset (br : BodyBuffer) : BodyBuffer :=
  { br with buffer := [], length := 0, readers := 0, writer := none }

def content (br : BodyBuffer) : Bytes := br.writer.getD br.buffer

def readAll (disk : Disk) (br : BodyBuffer) : Except GoError Bytes :=
  match br.writer.bind disk.read with
  | some err => .error err
  | none => .ok br.content

/-! ### What a write does -/

theorem spill_options (disk : Disk) (br : BodyBuffer) (targetLen : Int) (data : Bytes) :
    (br.spill disk targetLen data).1.options = br.options := by
  unfold spill
  dsimp only
  split
  · rfl
  · split
    · rfl
    · split <;> rfl

theorem spill_length (disk : Disk) (br : BodyBuffer) (targetLen : Int) (data : Bytes) :
    (br.spill disk targetLen data).1.length = br.length ∨
      (br.spill disk targetLen data).1.length = targetLen := by
  unfold spill
  dsimp only
  split
  · exact .inr rfl
  · split
    · exact .inl rfl
    · split
      · exact .inl rfl
      · exact .inr rfl

theorem write_options (disk : Disk) (br : BodyBuffer) (data : Bytes) :
    (br.write disk data).1.options = br.options := by
  unfold write
  dsimp only
  repeat' split
  all_goals first | rfl | exact spill_options ..

theorem write_length (disk : Disk) (br : BodyBuffer) (data : Bytes) :
    (br.write disk data).1.length = br.length ∨
      br.length ≤ wrap64 (br.options.limit - data.length) ∧
        (br.write disk data).1.length = wrap64 (br.length + data.length) := by
  unfold write
  dsimp only
  split
  · exact .inl rfl
  · split
    · exact .inl rfl
    · next allowed =>
        have room := Int.not_lt.mp allowed
        split
        · split
          · rcases spill_length disk br (wrap64 (br.length + data.length)) data with kept | grown
            · exact .inl kept
            · exact .inr ⟨room, grown⟩
          · exact .inl rfl
        · exact .inr ⟨room, rfl⟩

theorem write_isInt64 (disk : Disk) {br : BodyBuffer} (data : Bytes) (fits : IsInt64 br.length) :
    IsInt64 (br.write disk data).1.length := by
  rcases br.write_length disk data with kept | ⟨_, grown⟩
  · rwa [kept]
  · rw [grown]
    exact wrap64_isInt64 _

def Within (br : BodyBuffer) : Prop := 0 ≤ br.length ∧ br.length ≤ br.options.limit

theorem write_within (disk : Disk) {br : BodyBuffer} {data : Bytes}
    (small : (data.length : Int) < 2 ^ 63) (fits : IsInt64 br.options.limit)
    (within : br.Within) : (br.write disk data).1.Within := by
  simp only [Within] at within ⊢
  rw [write_options]
  rcases br.write_length disk data with kept | ⟨room, grown⟩
  · rw [kept]
    exact within
  · simp only [IsInt64] at fits
    rw [wrap64_eq_self (by simp only [IsInt64]; omega)] at room
    rw [grown, wrap64_eq_self (by simp only [IsInt64]; omega)]
    omega

/-! ### What a buffer holds -/

/-- The buffer holds these bytes and counts them right.  A file is there only once
the memory limit is passed. -/
structure Holds (br : BodyBuffer) (bytes : Bytes) : Prop where
  content : br.content = bytes
  length : br.length = bytes.length
  spilled : br.writer.isSome → br.options.memoryLimit < br.length

theorem new_holds (options : BodyBufferOptions) : (new options).Holds [] :=
  ⟨rfl, rfl, fun spilled => by cases spilled⟩

section

variable {disk : Disk} {br : BodyBuffer} {bytes data : Bytes}

theorem spill_holds (reliable : disk.Reliable) (holds : br.Holds bytes) {targetLen : Int}
    (target : targetLen = bytes.length + data.length) (beyond : br.options.memoryLimit < targetLen) :
    (br.spill disk targetLen data).2 = (data.length, none) ∧
      (br.spill disk targetLen data).1.Holds (bytes ++ data) := by
  obtain ⟨content, _, _⟩ := holds
  simp only [BodyBuffer.content] at content
  simp only [spill]
  cases stored : br.writer with
  | some file =>
    rw [stored] at content
    obtain rfl : file = bytes := content
    simp only [reliable.write]
    exact ⟨trivial, by simp [BodyBuffer.content], by simp [target], fun _ => beyond⟩
  | none =>
    rw [stored] at content
    obtain rfl : br.buffer = bytes := content
    simp only [reliable.createTemp, reliable.write, List.take_length]
    exact ⟨trivial, by simp [BodyBuffer.content], by simp [target], fun _ => beyond⟩

theorem write_stores (reliable : disk.Reliable) (holds : br.Holds bytes)
    (small : (bytes.length : Int) + data.length < 2 ^ 63)
    (allowed : data.length ≠ 0 → br.length ≤ wrap64 (br.options.limit - data.length)) :
    (br.write disk data).2 = (data.length, none) ∧
      (br.write disk data).1.Holds (bytes ++ data) := by
  simp only [write]
  by_cases empty : data.length = 0
  · rw [if_pos empty]
    rw [List.length_eq_zero_iff] at empty
    subst empty
    rw [List.append_nil]
    exact ⟨rfl, holds⟩
  · have target : wrap64 (br.length + data.length) = bytes.length + data.length := by
      rw [holds.length]
      exact wrap64_eq_self (by simp only [IsInt64]; omega)
    rw [if_neg empty, if_neg (Int.not_lt.mpr (allowed empty))]
    simp only [target]
    split
    · next beyond =>
        rw [if_pos reliable.access]
        exact spill_holds reliable holds rfl beyond
    · next under =>
        have length := holds.length
        have inMemory : br.writer = none := by
          cases stored : br.writer with
          | none => rfl
          | some file =>
            have beyond := holds.spilled (by rw [stored]; rfl)
            omega
        have content := holds.content
        simp only [BodyBuffer.content, inMemory, Option.getD_none] at content
        refine ⟨rfl, by simp [BodyBuffer.content, inMemory, content], by simp, fun spilled => ?_⟩
        simp [inMemory] at spilled

theorem write_holds (reliable : disk.Reliable) (holds : br.Holds bytes)
    (fits : IsInt64 br.options.limit)
    (room : (bytes.length : Int) + data.length ≤ br.options.limit) :
    (br.write disk data).2 = (data.length, none) ∧
      (br.write disk data).1.Holds (bytes ++ data) := by
  simp only [IsInt64] at fits
  have length := holds.length
  have small : wrap64 (br.options.limit - data.length) = br.options.limit - data.length :=
    wrap64_eq_self (by simp only [IsInt64]; omega)
  exact write_stores reliable holds (by omega) fun _ => by omega

theorem write_cases (reliable : disk.Reliable) (holds : br.Holds bytes)
    (small : (bytes.length : Int) + data.length < 2 ^ 63) :
    br.write disk data = (br, 0, some errLimitReached) ∨
      (br.write disk data).2 = (data.length, none) ∧
        (br.write disk data).1.Holds (bytes ++ data) := by
  by_cases allowed : data.length ≠ 0 → br.length ≤ wrap64 (br.options.limit - data.length)
  · exact .inr (write_stores reliable holds small allowed)
  · obtain ⟨nonempty, refused⟩ := Classical.not_imp.mp allowed
    left
    simp only [write]
    rw [if_neg nonempty, if_pos (Int.not_le.mp refused)]

theorem Holds.self (holds : br.Holds bytes) : br.Holds br.content := by
  obtain rfl := holds.content
  exact holds

theorem readAll_reliable (reliable : disk.Reliable) (br : BodyBuffer) :
    br.readAll disk = .ok br.content := by
  simp only [readAll]
  cases br.writer <;> simp [reliable.read]

theorem Holds.reader (holds : br.Holds bytes) :
    br.reader.Holds bytes := ⟨holds.content, holds.length, holds.spilled⟩

theorem write_full (disk : Disk) (holds : br.Holds bytes) (fits : IsInt64 br.options.limit)
    (positive : 0 ≤ br.options.limit) (small : (data.length : Int) < 2 ^ 63)
    (nonempty : data.length ≠ 0) (full : br.options.limit < bytes.length + data.length) :
    br.write disk data = (br, 0, some errLimitReached) := by
  have length := holds.length
  simp only [IsInt64] at fits
  have room : wrap64 (br.options.limit - data.length) = br.options.limit - data.length :=
    wrap64_eq_self (by simp only [IsInt64]; omega)
  simp only [write]
  rw [if_neg nonempty, if_pos (by omega)]

structure Sound (br : BodyBuffer) : Prop where
  within : br.Within
  holds : br.Holds br.content

theorem Sound.write (reliable : disk.Reliable) (fits : IsInt64 br.options.limit)
    (small : (data.length : Int) < 2 ^ 63) (sound : br.Sound) : (br.write disk data).1.Sound := by
  refine ⟨write_within disk small fits sound.within, ?_⟩
  by_cases room : (br.content.length : Int) + data.length ≤ br.options.limit
  · exact (write_holds reliable sound.holds fits room).2.self
  · have positive : 0 ≤ br.options.limit := Int.le_trans sound.within.1 sound.within.2
    by_cases empty : data.length = 0
    · have within := sound.within.2
      rw [sound.holds.length] at within
      omega
    · rw [write_full disk sound.holds fits positive small empty (by omega)]
      exact sound.holds

end

end BodyBuffer

/-! ## Chunks and readers -/

def maxAlloc : Nat := 2 ^ 48

structure Chunk where
  bytes : Bytes
  bounded : bytes.length ≤ maxAlloc := by decide

/-- An `io.Reader`: what its successive `Read` calls deliver, and how it ends
(`none` is `io.EOF`).  A `sized` reader implements `ByteLenger` and so holds its
bytes in memory.  Errors are told apart by their text, so that of a reader is not
the one of the buffer. -/
structure Reader where
  reads : List Bytes
  fails : Option GoError := none
  sized : Bool := false
  own : fails ≠ some BodyBuffer.errLimitReached := by decide
  bounded : sized = true → reads.flatten.length ≤ maxAlloc := by decide

def Reader.len (r : Reader) : Nat := r.reads.flatten.length

def errShortWrite : GoError := str "short write"

def copyLoop (disk : Disk) (fails : Option GoError) :
    List Bytes → Nat → BodyBuffer → Nat → BodyBuffer × Nat × Option GoError
  | [], remaining, br, written => (br, written, if remaining = 0 then none else fails)
  | read :: reads, remaining, br, written =>
    if remaining = 0 then (br, written, none)
    else
      let piece := read.take remaining
      if piece.length = 0 then copyLoop disk fails reads remaining br written
      else
        match br.write disk piece with
        | (br, n, some err) => (br, written + n, some err)
        | (br, n, none) =>
          if n ≠ piece.length then (br, written + n, some errShortWrite)
          else copyLoop disk fails reads (remaining - n) br (written + n)

/-- `io.CopyN(br, r, n)`, with the `io.EOF` of a source that stops early left
out since every caller ignores it. -/
def copyN (disk : Disk) (br : BodyBuffer) (r : Reader) (n : Int) :
    BodyBuffer × Nat × Option GoError :=
  let (br, written, err) := copyLoop disk r.fails r.reads n.toNat br 0
  if (written : Int) = n then (br, written, none) else (br, written, err)

/-! ### What a copy does -/

section Copy

variable (disk : Disk)

theorem copyLoop_keeps {P : BodyBuffer → Prop} {n : Nat}
    (write : ∀ br piece, piece.length ≤ n → P br → P (br.write disk piece).1)
    (fails : Option GoError) (reads : List Bytes) {remaining : Nat} (bounded : remaining ≤ n)
    {br : BodyBuffer} (holds : P br) (written : Nat) :
    P (copyLoop disk fails reads remaining br written).1 := by
  induction reads generalizing remaining br written with
  | nil => exact holds
  | cons read rest ih =>
    have stored := write br (read.take remaining)
      (Nat.le_trans (List.length_take_le _ _) bounded) holds
    unfold copyLoop
    dsimp only
    split
    · exact holds
    · split
      · exact ih bounded holds written
      · revert stored
        rcases br.write disk (read.take remaining) with ⟨after, count, _ | err⟩ <;> intro stored
        · dsimp only
          split
          · exact stored
          · exact ih (Nat.le_trans (Nat.sub_le _ _) bounded) stored _
        · exact stored

theorem copyN_keeps {P : BodyBuffer → Prop} {n : Int}
    (write : ∀ br piece, piece.length ≤ n.toNat → P br → P (br.write disk piece).1)
    (r : Reader) {br : BodyBuffer} (holds : P br) : P (copyN disk br r n).1 := by
  have copied := copyLoop_keeps disk write r.fails r.reads (Nat.le_refl _) holds 0
  unfold copyN
  dsimp only
  split <;> exact copied

theorem copyLoop_length_le (fails : Option GoError) (reads : List Bytes) (remaining : Nat)
    {br : BodyBuffer} (written : Nat) (fits : IsInt64 br.length)
    (room : br.length + reads.flatten.length < 2 ^ 63) :
    (copyLoop disk fails reads remaining br written).1.length
      ≤ br.length + reads.flatten.length := by
  induction reads generalizing remaining br written with
  | nil => simp [copyLoop]
  | cons read rest ih =>
    simp only [List.flatten_cons, List.length_append, Int.natCast_add] at room ⊢
    have cut := List.length_take_le' remaining read
    have fits' := br.write_isInt64 disk (read.take remaining) fits
    have grown : (br.write disk (read.take remaining)).1.length ≤ br.length + read.length := by
      simp only [IsInt64] at fits
      rcases br.write_length disk (read.take remaining) with kept | ⟨_, grown⟩
      · omega
      · rw [grown, wrap64_eq_self (by simp only [IsInt64]; omega)]
        omega
    unfold copyLoop
    dsimp only
    split
    · dsimp only
      omega
    · split
      · have := ih remaining written fits (by omega)
        omega
      · revert fits' grown
        rcases br.write disk (read.take remaining) with ⟨after, count, _ | err⟩ <;>
          intro fits' grown <;> dsimp only at fits' grown ⊢
        · split
          · dsimp only
            omega
          · have := ih (remaining - count) (written + count) fits' (by omega)
            omega
        · omega

theorem copyN_length_le {br : BodyBuffer} (r : Reader) (n : Int) (fits : IsInt64 br.length)
    (room : br.length + r.len < 2 ^ 63) :
    (copyN disk br r n).1.length ≤ br.length + r.len := by
  have copied := copyLoop_length_le disk r.fails r.reads n.toNat 0 fits room
  unfold copyN
  dsimp only
  split <;> exact copied

theorem copyLoop_holds {disk : Disk} (reliable : disk.Reliable) (fails : Option GoError)
    (reads : List Bytes) (remaining : Nat) {br : BodyBuffer} {bytes : Bytes}
    (holds : br.Holds bytes) (fits : IsInt64 br.options.limit)
    (room : (bytes.length : Int) + min reads.flatten.length remaining ≤ br.options.limit)
    (written : Nat) :
    (copyLoop disk fails reads remaining br written).2 =
        (written + min reads.flatten.length remaining,
          if remaining ≤ reads.flatten.length then none else fails) ∧
      (copyLoop disk fails reads remaining br written).1.Holds
        (bytes ++ reads.flatten.take remaining) := by
  induction reads generalizing remaining br bytes written with
  | nil => cases remaining <;> simp [copyLoop, holds]
  | cons read rest ih =>
    simp only [List.flatten_cons, List.length_append] at room ⊢
    simp only [copyLoop]
    by_cases done : remaining = 0
    · simp [done, holds]
    · rw [if_neg done]
      have cut : (read.take remaining).length = min remaining read.length :=
        List.length_take
      by_cases empty : (read.take remaining).length = 0
      · obtain rfl : read = [] := by
          rw [← List.length_eq_zero_iff]
          omega
        simp only [empty, if_true]
        simpa using ih remaining holds fits (by simpa using room) written
      · have fitting : (bytes.length : Int) + (read.take remaining).length ≤ br.options.limit := by
          omega
        obtain ⟨result, grown⟩ := BodyBuffer.write_holds reliable holds fits fitting
        have options := br.write_options disk (read.take remaining)
        revert result grown options
        simp only [empty, if_false]
        rcases br.write disk (read.take remaining) with ⟨after, count, err⟩
        intro result grown options
        obtain ⟨rfl, rfl⟩ := Prod.mk.inj result
        dsimp only at grown options ⊢
        rw [if_neg (by simp)]
        have later := ih (remaining - (read.take remaining).length) grown (by rwa [options])
          (by rw [options, List.length_append]; omega) (written + (read.take remaining).length)
        have left : remaining - (read.take remaining).length = remaining - read.length := by omega
        rw [left] at later ⊢
        refine ⟨later.1.trans (Prod.ext ?_ (if_congr ?_ rfl rfl)), ?_⟩
        · dsimp only
          omega
        · omega
        · rw [List.take_append, ← List.append_assoc]
          exact later.2

theorem copyLoop_full {disk : Disk} (reliable : disk.Reliable) (fails : Option GoError)
    (reads : List Bytes) {remaining : Nat} {br : BodyBuffer} {bytes : Bytes}
    (holds : br.Holds bytes) (fits : IsInt64 br.options.limit) (positive : 0 ≤ br.options.limit)
    (small : (remaining : Int) < 2 ^ 63) (within : (bytes.length : Int) ≤ br.options.limit)
    (full : br.options.limit < (bytes.length : Int) + min reads.flatten.length remaining)
    (written : Nat) :
    ∃ more, more < remaining ∧ (copyLoop disk fails reads remaining br written).2 =
      (written + more, some BodyBuffer.errLimitReached) := by
  induction reads generalizing remaining br bytes written with
  | nil => simp at full; omega
  | cons read rest ih =>
    simp only [List.flatten_cons, List.length_append] at full
    simp only [copyLoop]
    have cut : (read.take remaining).length = min remaining read.length := List.length_take
    rw [if_neg (by omega)]
    by_cases empty : (read.take remaining).length = 0
    · simp only [empty, if_true]
      exact ih holds fits positive small within (by omega) written
    · simp only [empty, if_false]
      by_cases fitting : (bytes.length : Int) + (read.take remaining).length ≤ br.options.limit
      · obtain ⟨result, grown⟩ := BodyBuffer.write_holds reliable holds fits fitting
        have options := br.write_options disk (read.take remaining)
        revert result grown options
        rcases br.write disk (read.take remaining) with ⟨after, count, err⟩
        intro result grown options
        obtain ⟨rfl, rfl⟩ := Prod.mk.inj result
        dsimp only at grown options ⊢
        rw [if_neg (by simp)]
        have left : ((remaining - (read.take remaining).length : Nat) : Int) < 2 ^ 63 := by omega
        have held : ((bytes ++ read.take remaining).length : Int) ≤ after.options.limit := by
          rw [options, List.length_append]
          omega
        obtain ⟨more, fewer, stopped⟩ := ih grown (options ▸ fits) (options ▸ positive) left held
          (by rw [options, List.length_append]; omega) (written + (read.take remaining).length)
        exact ⟨(read.take remaining).length + more, by omega, by rw [stopped, Nat.add_assoc]⟩
      · rw [BodyBuffer.write_full disk holds fits positive (by omega) empty (by omega)]
        exact ⟨0, by omega, rfl⟩

/-! ### `CopyN` -/

section

variable {disk : Disk} (reliable : disk.Reliable) {br : BodyBuffer} {bytes : Bytes} (r : Reader)
  {n : Int} (holds : br.Holds bytes) (fits : IsInt64 br.options.limit)

include reliable holds fits

theorem copyN_holds (natural : 0 ≤ n)
    (room : (bytes.length : Int) + min (r.len : Int) n ≤ br.options.limit) :
    (copyN disk br r n).2 = (min r.len n.toNat, if n ≤ r.len then none else r.fails) ∧
      (copyN disk br r n).1.Holds (bytes ++ r.reads.flatten.take n.toNat) := by
  obtain ⟨result, grown⟩ := copyLoop_holds reliable r.fails r.reads n.toNat holds fits
    (by simp only [Reader.len] at room; omega) 0
  simp only [copyN]
  revert result grown
  rcases copyLoop disk r.fails r.reads n.toNat br 0 with ⟨after, written, err⟩
  intro result grown
  obtain ⟨rfl, rfl⟩ := Prod.mk.inj result
  dsimp only
  refine ⟨?_, ?_⟩
  · unfold Reader.len
    split
    · next whole =>
        rw [if_pos (by omega), Nat.zero_add]
    · next short =>
        rw [if_neg (by omega), if_neg (by omega), Nat.zero_add]
  · split <;> exact grown

theorem copyN_full (positive : 0 ≤ br.options.limit) (small : IsInt64 n)
    (within : (bytes.length : Int) ≤ br.options.limit)
    (full : br.options.limit < (bytes.length : Int) + min (r.len : Int) n) :
    (copyN disk br r n).2.2 = some BodyBuffer.errLimitReached := by
  simp only [IsInt64] at small
  have bound : (n.toNat : Int) < 2 ^ 63 := by omega
  obtain ⟨more, fewer, stopped⟩ := copyLoop_full reliable r.fails r.reads holds fits positive bound
    within (by simp only [Reader.len] at full; omega) 0
  simp only [copyN]
  revert stopped
  rcases copyLoop disk r.fails r.reads n.toNat br 0 with ⟨after, written, err⟩
  intro stopped
  obtain ⟨rfl, rfl⟩ := Prod.mk.inj stopped
  dsimp only
  rw [if_neg (by omega)]

end

end Copy

end Obsidian
