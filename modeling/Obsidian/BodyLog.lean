import Obsidian.BodyReaders
import Obsidian.Data.Journal

namespace Obsidian

open Obsidian.Data

/-! # Body buffers as journals

`BodyBuffer` with the temporary file it shares between its writes and its reads and the
readers it has handed out, against the journal it is meant to be.
-/

/-! ## The file -/

structure TempFile where
  content : Bytes
  offset : Nat
  within : offset ≤ content.length

namespace TempFile

def create : TempFile := ⟨[], 0, Nat.le_refl 0⟩

def write (f : TempFile) (data : Bytes) : TempFile where
  content := f.content.take f.offset ++ data ++ f.content.drop (f.offset + data.length)
  offset := f.offset + data.length
  within := by
    have within := f.within
    simp only [List.length_append, List.length_take, List.length_drop]
    omega

/-- `Read` goes on where the last call of `Read` or `Write` stopped; the flag is `io.EOF`. -/
def read (f : TempFile) (size : Nat) : Bytes × Bool × TempFile :=
  let piece := (f.content.drop f.offset).take size
  (piece, piece.length = 0 ∧ size ≠ 0,
    { f with
      offset := f.offset + piece.length
      within := by
        have within := f.within
        simp only [piece, List.length_take, List.length_drop]
        omega })

def readAt (f : TempFile) (size pos : Nat) : Bytes × Bool :=
  let piece := (f.content.drop pos).take size
  (piece, piece.length < size)

def AtEnd (f : TempFile) : Prop := f.offset = f.content.length

theorem write_content {f : TempFile} (atEnd : f.AtEnd) (data : Bytes) :
    (f.write data).content = f.content ++ data := by
  simp only [AtEnd] at atEnd
  simp [write, atEnd]

theorem AtEnd.write {f : TempFile} (atEnd : f.AtEnd) (data : Bytes) : (f.write data).AtEnd := by
  rw [AtEnd, write_content atEnd, List.length_append, ← atEnd]
  rfl

theorem create_atEnd : create.AtEnd := rfl

end TempFile

/-! ## The buffer -/

/-- A `BodyBuffer` and the readers it has handed out: their positions, or nothing once
they are closed. -/
structure BodyLog where
  options : BodyBufferOptions
  buffer : Bytes
  writer : Option TempFile
  length : Int
  readers : List (Option Nat)

namespace BodyLog

def new (options : BodyBufferOptions) : BodyLog :=
  { options, buffer := [], writer := none, length := 0, readers := [] }

/-- The temporary file, made with what is in memory if there is none yet. -/
def dump (log : BodyLog) : TempFile :=
  match log.writer with
  | some file => file
  | none => TempFile.create.write log.buffer

def write (hasAccessToFS : Bool) (log : BodyLog) (data : Bytes) : BodyLog × Nat × Option GoError :=
  if data.length = 0 then (log, 0, none)
  else if log.length > wrap64 (log.options.limit - data.length) then
    (log, 0, some BodyBuffer.errLimitReached)
  else
    let targetLen := wrap64 (log.length + data.length)
    if targetLen > log.options.memoryLimit then
      if hasAccessToFS then
        ({ log with
            buffer := if log.writer.isSome then log.buffer else []
            writer := some (log.dump.write data)
            length := targetLen }, data.length, none)
      else (log, 0, some BodyBuffer.errMemoryLimitReached)
    else ({ log with buffer := log.buffer ++ data, length := targetLen }, data.length, none)

def reader (log : BodyLog) : BodyLog := { log with readers := log.readers ++ [some 0] }

def move (log : BodyLog) (reader pos : Nat) : BodyLog :=
  { log with readers := log.readers.set reader (some pos) }

/-- `bodyBufferReader.Read` of a reader that was handed out; the flag is `io.EOF`.  A
position behind the end of the memory makes the slice expression panic. -/
def read (hasAccessToFS : Bool) (log : BodyLog) (reader size : Nat) : Option (BodyLog × Bytes × Bool) :=
  match log.readers[reader]? with
  | none => none
  | some none => some (log, [], true)
  | some (some pos) =>
    match hasAccessToFS, log.writer with
    | true, some file =>
      let (piece, eof) := file.readAt size pos
      some (log.move reader (pos + piece.length), piece, eof)
    | _, _ =>
      let n : Int := if pos + size > log.buffer.length then log.buffer.length - pos else size
      if n = 0 then some (log, [], true)
      else if n < 0 then none
      else some (log.move reader (pos + n.toNat), (log.buffer.drop pos).take n.toNat, false)

def size (log : BodyLog) : Int := log.length

/-- What `WriteTo` hands to a writer that takes everything, the count it returns, and
whether it fails with `io.EOF`. -/
def writeTo (log : BodyLog) : BodyLog × Bytes × Nat × Bool :=
  match log.writer with
  | none => ({ log with buffer := [] }, log.buffer, log.buffer.length, false)
  | some file =>
    let (piece, eof, file) := file.read log.length.toNat
    let log := { log with writer := some file }
    if eof then (log, [], 0, true) else (log, piece, piece.length, false)

def reset (log : BodyLog) : BodyLog :=
  { log with buffer := [], length := 0, readers := log.readers.map fun _ => none, writer := none }

/-! ## Runs -/

inductive Call where
  | write (data : Bytes)
  | reader
  | read (reader size : Nat)
  | writeTo
  | reset

inductive Reply where
  | wrote (n : Nat) (err : Option GoError)
  | opened
  | got (piece : Bytes) (eof : Bool)
  | delivered (content : Bytes) (n : Nat) (eof : Bool)
  | cleared

def step (hasAccessToFS : Bool) (log : BodyLog) : Call → Option (BodyLog × Reply)
  | .write data =>
    let (log, n, err) := log.write hasAccessToFS data
    some (log, .wrote n err)
  | .reader => some (log.reader, .opened)
  | .read reader size =>
    (log.read hasAccessToFS reader size).map fun (log, piece, eof) => (log, .got piece eof)
  | .writeTo =>
    let (log, content, n, eof) := log.writeTo
    some (log, .delivered content n eof)
  | .reset => some (log.reset, .cleared)

def run (hasAccessToFS : Bool) (log : BodyLog) : List Call → Option (BodyLog × List Reply)
  | [] => some (log, [])
  | call :: calls => do
      let (log, reply) ← log.step hasAccessToFS call
      let (log, replies) ← log.run hasAccessToFS calls
      some (log, reply :: replies)

/-! ## The journal it is -/

def Call.journal : Call → Journal.Call UInt8
  | .write data => .append data
  | .reader => .subscribe
  | .read r size => .take r size
  | .writeTo => .append []
  | .reset => .clear

def Reply.bytes : Reply → Bytes
  | .got piece _ => piece
  | _ => []

/-- What `WriteTo` has delivered is gone until the next `Reset`. -/
def Call.drains (drained : Bool) : Call → Bool
  | .writeTo => true
  | .reset => false
  | _ => drained

def drainedBy (calls : List Call) : Bool := calls.foldl Call.drains false

/-- A call that keeps to the limits of the buffer, with a reader that was handed out and a
buffer that is not empty, and `WriteTo` in memory and last before a `Reset`. -/
def Call.Within (hasAccessToFS : Bool) (options : BodyBufferOptions) (drained : Bool)
    (j : Journal UInt8) : Call → Prop
  | .write data => drained = false ∧ (data ≠ [] →
      (j.written.length : Int) + data.length ≤ options.limit ∧
        (hasAccessToFS = true ∨ (j.written.length : Int) + data.length ≤ options.memoryLimit))
  | .read r size => drained = false ∧ r < j.taken.length ∧ 0 < size
  | .writeTo => drained = false ∧ (j.written.length : Int) ≤ options.memoryLimit
  | .reader | .reset => True

def CallsWithin (hasAccessToFS : Bool) (options : BodyBufferOptions) :
    Bool → Journal UInt8 → List Call → Prop
  | _, _, [] => True
  | drained, j, call :: calls =>
    call.Within hasAccessToFS options drained j ∧
      CallsWithin hasAccessToFS options (call.drains drained) (j.step call.journal) calls

instance (hasAccessToFS : Bool) (options : BodyBufferOptions) (drained : Bool) (j : Journal UInt8)
    (call : Call) : Decidable (call.Within hasAccessToFS options drained j) :=
  match call with
  | .write data => inferInstanceAs (Decidable (_ ∧ (data ≠ [] → _ ∧ _)))
  | .read r size => inferInstanceAs (Decidable (_ ∧ r < j.taken.length ∧ 0 < size))
  | .writeTo => inferInstanceAs (Decidable (_ ∧ _))
  | .reader | .reset => inferInstanceAs (Decidable True)

instance decidableCallsWithin (hasAccessToFS : Bool) (options : BodyBufferOptions) :
    (drained : Bool) → (j : Journal UInt8) → (calls : List Call) →
      Decidable (CallsWithin hasAccessToFS options drained j calls)
  | _, _, [] => inferInstanceAs (Decidable True)
  | drained, j, call :: calls =>
    have := decidableCallsWithin hasAccessToFS options (call.drains drained) (j.step call.journal) calls
    inferInstanceAs (Decidable (_ ∧
      CallsWithin hasAccessToFS options (call.drains drained) (j.step call.journal) calls))

def Drained (j : Journal UInt8) (reader : Nat) : Prop :=
  ∀ n, j.taken[reader]? = some (some n) → n = j.written.length

/-- The reply of a journal to a call: all data is taken, a reader gets as much as fits of
what it has not had, `io.EOF` comes when nothing is left and only then, and `WriteTo`
delivers all that is written. -/
def Call.Answered (j : Journal UInt8) : Call → Reply → Prop
  | .write data, reply => reply = .wrote data.length none
  | .reader, reply => reply = .opened
  | .writeTo, reply => reply = .delivered j.written j.written.length false
  | .reset, reply => reply = .cleared
  | .read r size, reply => ∃ eof, reply = .got (j.piece r size) eof ∧
      (j.piece r size = [] → eof = true) ∧ (eof = true → Drained (j.step (.take r size)) r)

def CallsAnswered : Journal UInt8 → List Call → List Reply → Prop
  | _, [], [] => True
  | j, call :: calls, reply :: replies =>
    call.Answered j reply ∧ CallsAnswered (j.step call.journal) calls replies
  | _, _, _ => False

def content (log : BodyLog) : Bytes :=
  match log.writer with
  | some file => file.content
  | none => log.buffer

theorem content_spilled {log : BodyLog} {file : TempFile} (stored : log.writer = some file) :
    log.content = file.content := by
  rw [content, stored]

theorem content_memory {log : BodyLog} (inMemory : log.writer = none) :
    log.content = log.buffer := by
  rw [content, inMemory]

/-- The buffer holds what the journal has, in memory or in a file that is written at its
end, unless it is drained. -/
structure Shows (hasAccessToFS : Bool) (options : BodyBufferOptions) (log : BodyLog)
    (drained : Bool) (j : Journal UInt8) : Prop where
  sameOptions : log.options = options
  content : drained = false → log.content = j.written
  length : log.length = j.written.length
  spilled : ∀ file ∈ log.writer, file.AtEnd ∧ options.memoryLimit < log.length ∧ hasAccessToFS = true
  readers : log.readers = j.taken

theorem new_shows (hasAccessToFS : Bool) (options : BodyBufferOptions) :
    (new options).Shows hasAccessToFS options false .empty :=
  ⟨rfl, fun _ => rfl, rfl, nofun, rfl⟩

section

variable {hasAccessToFS : Bool} {options : BodyBufferOptions} {log : BodyLog} {drained : Bool}
  {j : Journal UInt8}

theorem Shows.inMemory (shown : log.Shows hasAccessToFS options drained j)
    (small : (j.written.length : Int) ≤ options.memoryLimit) : log.writer = none := by
  rw [← shown.length] at small
  cases stored : log.writer with
  | none => rfl
  | some file => exact absurd (shown.spilled file stored).2.1 (Int.not_lt.mpr small)

theorem Shows.buffer (shown : log.Shows hasAccessToFS options false j)
    (inMemory : log.writer = none) : log.buffer = j.written :=
  (content_memory inMemory).symm.trans (shown.content rfl)

theorem Shows.dump (shown : log.Shows hasAccessToFS options false j) :
    log.dump.AtEnd ∧ log.dump.content = j.written := by
  rw [BodyLog.dump]
  cases stored : log.writer with
  | some file =>
    exact ⟨(shown.spilled file stored).1, (content_spilled stored).symm.trans (shown.content rfl)⟩
  | none =>
    refine ⟨TempFile.create_atEnd.write log.buffer, ?_⟩
    rw [TempFile.write_content TempFile.create_atEnd, shown.buffer stored]
    rfl

theorem Shows.write (shown : log.Shows hasAccessToFS options false j) (fits : IsInt64 options.limit)
    {data : Bytes} (within : (Call.write data).Within hasAccessToFS options false j) :
    (log.write hasAccessToFS data).2 = (data.length, none) ∧
      (log.write hasAccessToFS data).1.Shows hasAccessToFS options false (j.step (.append data)) := by
  obtain rfl := shown.sameOptions
  have length := shown.length
  rw [BodyLog.write]
  by_cases empty : data.length = 0
  · obtain rfl := List.length_eq_zero_iff.mp empty
    rw [if_pos empty]
    refine ⟨rfl, ?_⟩
    simp only [Journal.step, List.append_nil]
    exact shown
  obtain ⟨room, place⟩ := within.2 fun nothing => empty (by rw [nothing, List.length_nil])
  simp only [IsInt64] at fits
  have rest : wrap64 (log.options.limit - data.length) = log.options.limit - data.length :=
    wrap64_eq_self (by simp only [IsInt64]; omega)
  have target : wrap64 (log.length + data.length) = j.written.length + data.length := by
    rw [length]
    exact wrap64_eq_self (by simp only [IsInt64]; omega)
  rw [if_neg empty, if_neg (by omega)]
  simp only [target]
  split
  · next beyond =>
      have access : hasAccessToFS = true := by
        rcases place with access | small
        · exact access
        · omega
      rw [if_pos access]
      obtain ⟨atEnd, content⟩ := shown.dump
      refine ⟨rfl, rfl, fun _ => ?_, by simp [Journal.step], ?_, shown.readers⟩
      · simp only [BodyLog.content, TempFile.write_content atEnd, content, Journal.step]
      · intro file isFile
        cases isFile
        exact ⟨atEnd.write data, beyond, access⟩
  · next under =>
      have inMemory : log.writer = none := shown.inMemory (by omega)
      refine ⟨rfl, rfl, fun _ => ?_, by simp [Journal.step], ?_, shown.readers⟩
      · simp only [BodyLog.content, inMemory, Journal.step, shown.buffer inMemory]
      · intro file isFile
        rw [inMemory] at isFile
        cases isFile

theorem move_self {r pos : Nat} (isOpen : log.readers[r]? = some (some pos)) : log.move r pos = log := by
  obtain ⟨listed, value⟩ := List.getElem?_eq_some_iff.mp isOpen
  rw [move, ← value, List.set_getElem_self]

theorem Shows.reader (shown : log.Shows hasAccessToFS options drained j) :
    log.reader.Shows hasAccessToFS options drained (j.step .subscribe) := by
  refine ⟨shown.sameOptions, shown.content, shown.length, shown.spilled, ?_⟩
  simp only [BodyLog.reader, shown.readers, Journal.step]

theorem Shows.reset (shown : log.Shows hasAccessToFS options drained j) :
    log.reset.Shows hasAccessToFS options false (j.step .clear) := by
  refine ⟨shown.sameOptions, fun _ => rfl, rfl, nofun, ?_⟩
  simp only [BodyLog.reset, shown.readers, Journal.step]

theorem Shows.move (shown : log.Shows hasAccessToFS options false j) {r n : Nat}
    (found : j.taken[r]? = some (some n)) (size : Nat) :
    (log.move r (n + (j.piece r size).length)).Shows hasAccessToFS options false (j.step (.take r size)) := by
  refine ⟨shown.sameOptions, shown.content, shown.length, shown.spilled, ?_⟩
  rw [Journal.taken_take found, ← shown.readers]
  rfl

theorem drained_of_short {r n size : Nat} (found : j.taken[r]? = some (some n))
    (behind : n ≤ j.written.length) (short : (j.piece r size).length < size) :
    Drained (j.step (.take r size)) r := by
  intro m given
  have listed := (List.getElem?_eq_some_iff.mp found).1
  rw [Journal.taken_take found, List.getElem?_set_self listed] at given
  cases given
  have piece : j.piece r size = (j.written.drop n).take size := by rw [Journal.piece, found]
  rw [piece, List.length_take, List.length_drop] at short ⊢
  simp only [Journal.step]
  omega

theorem Shows.readAt (shown : log.Shows hasAccessToFS options false j) {r n size : Nat} (positive : 0 < size)
    (found : j.taken[r]? = some (some n)) (behind : n ≤ j.written.length) {file : TempFile}
    (stored : log.writer = some file) :
    ∃ next eof, log.read hasAccessToFS r size = some (next, j.piece r size, eof) ∧
      next.Shows hasAccessToFS options false (j.step (.take r size)) ∧
      (j.piece r size = [] → eof = true) ∧ (eof = true → Drained (j.step (.take r size)) r) := by
  have content : file.content = j.written := (content_spilled stored).symm.trans (shown.content rfl)
  have piece : (file.content.drop n).take size = j.piece r size := by
    rw [content, Journal.piece, found]
  refine ⟨log.move r (n + (j.piece r size).length), decide ((j.piece r size).length < size), ?_,
    shown.move found size, fun nothing => ?_, fun short => ?_⟩
  · rw [BodyLog.read, shown.readers, found, stored, (shown.spilled file stored).2.2]
    simp only [TempFile.readAt, piece]
  · rw [nothing, List.length_nil]
    exact decide_eq_true positive
  · exact drained_of_short found behind (of_decide_eq_true short)

theorem read_memory {r pos size : Nat} (isOpen : log.readers[r]? = some (some pos))
    (inMemory : log.writer = none) (behind : pos ≤ log.buffer.length) (positive : 0 < size) :
    log.read hasAccessToFS r size =
      if log.buffer.length = pos then some (log, [], true)
      else
        let piece := (log.buffer.drop pos).take size
        some (log.move r (pos + piece.length), piece, false) := by
  have count : (if pos + size > log.buffer.length then (log.buffer.length : Int) - pos else size) =
      ((log.buffer.drop pos).take size).length := by
    rw [List.length_take, List.length_drop]
    split <;> omega
  have whole : (log.buffer.drop pos).take ((log.buffer.drop pos).take size).length =
      (log.buffer.drop pos).take size :=
    (List.prefix_iff_eq_take.mp (List.take_prefix size (log.buffer.drop pos))).symm
  have empty : ((log.buffer.drop pos).take size).length = 0 ↔ log.buffer.length = pos := by
    rw [List.length_take, List.length_drop]
    omega
  rw [read, isOpen, inMemory]
  cases hasAccessToFS <;> simp only [count, Int.natCast_eq_zero, empty, Int.toNat_natCast, whole]
  all_goals rw [if_neg (Int.not_lt.mpr (Int.natCast_nonneg _))]

theorem Shows.readMemory (shown : log.Shows hasAccessToFS options false j) {r n size : Nat} (positive : 0 < size)
    (found : j.taken[r]? = some (some n)) (behind : n ≤ j.written.length)
    (inMemory : log.writer = none) :
    ∃ next eof, log.read hasAccessToFS r size = some (next, j.piece r size, eof) ∧
      next.Shows hasAccessToFS options false (j.step (.take r size)) ∧
      (j.piece r size = [] → eof = true) ∧ (eof = true → Drained (j.step (.take r size)) r) := by
  have content : log.buffer = j.written := shown.buffer inMemory
  have piece : j.piece r size = (log.buffer.drop n).take size := by rw [content, Journal.piece, found]
  have moved := shown.move found size
  have isOpen : log.readers[r]? = some (some n) := by rw [shown.readers, found]
  rw [read_memory isOpen inMemory (content ▸ behind) positive]
  by_cases atEnd : log.buffer.length = n
  · have nothing : j.piece r size = [] := by
      rw [piece, List.drop_eq_nil_of_le (Nat.le_of_eq atEnd), List.take_nil]
    refine ⟨log, true, by rw [if_pos atEnd, nothing], ?_, fun _ => rfl, fun _ => ?_⟩
    · rwa [nothing, List.length_nil, Nat.add_zero, move_self isOpen] at moved
    · exact drained_of_short found behind (by rw [nothing]; exact positive)
  · refine ⟨_, false, by rw [if_neg atEnd, ← piece], moved, fun nothing => ?_,
      fun ended => absurd ended Bool.false_ne_true⟩
    have length := congrArg List.length nothing
    rw [piece, List.length_take, List.length_drop, List.length_nil] at length
    rw [content] at atEnd length
    omega

theorem Shows.read (shown : log.Shows hasAccessToFS options false j) {got : Nat → Bytes} (kept : j.Kept got)
    {r size : Nat} (within : (Call.read r size).Within hasAccessToFS options false j) :
    ∃ next eof, log.read hasAccessToFS r size = some (next, j.piece r size, eof) ∧
      next.Shows hasAccessToFS options false (j.step (.take r size)) ∧
      (j.piece r size = [] → eof = true) ∧ (eof = true → Drained (j.step (.take r size)) r) := by
  obtain ⟨_, listed, positive⟩ := within
  cases found : j.taken[r]? with
  | none => exact absurd (List.getElem?_eq_none_iff.mp found) (Nat.not_le.mpr listed)
  | some state =>
    cases state with
    | none =>
      have piece : j.piece r size = [] := by rw [Journal.piece, found]
      refine ⟨log, true, ?_, ?_, fun _ => rfl, fun _ m given => ?_⟩
      · rw [BodyLog.read, shown.readers, found, piece]
      · rw [Journal.step_take_closed found]
        exact shown
      · rw [Journal.step_take_closed found, found] at given
        cases given
    | some n =>
      have behind := (kept.front found).1
      cases stored : log.writer with
      | some file => exact shown.readAt positive found behind stored
      | none => exact shown.readMemory positive found behind stored

theorem Shows.writeTo (shown : log.Shows hasAccessToFS options false j) (inMemory : log.writer = none) :
    log.writeTo.2 = (j.written, j.written.length, false) := by
  rw [BodyLog.writeTo, inMemory, shown.buffer inMemory]

theorem Shows.afterWriteTo (shown : log.Shows hasAccessToFS options drained j)
    (inMemory : log.writer = none) : log.writeTo.1.Shows hasAccessToFS options true j := by
  rw [BodyLog.writeTo, inMemory]
  exact ⟨shown.sameOptions, nofun, shown.length, nofun, shown.readers⟩

theorem step_answered (shown : log.Shows hasAccessToFS options drained j) {got : Nat → Bytes}
    (kept : j.Kept got) (fits : IsInt64 options.limit) {call : Call}
    (within : call.Within hasAccessToFS options drained j) :
    ∃ next reply, log.step hasAccessToFS call = some (next, reply) ∧
      next.Shows hasAccessToFS options (call.drains drained) (j.step call.journal) ∧
      call.Answered j reply ∧ reply.bytes = j.answer call.journal := by
  cases call with
  | write data =>
    obtain rfl := within.1
    obtain ⟨result, next⟩ := shown.write fits within
    refine ⟨_, .wrote data.length none, ?_, next, rfl, rfl⟩
    simp only [step, result]
  | reader => exact ⟨log.reader, .opened, rfl, shown.reader, rfl, rfl⟩
  | read r size =>
    obtain rfl := within.1
    obtain ⟨next, eof, result, after, ended, last⟩ := shown.read kept within
    refine ⟨next, .got (j.piece r size) eof, ?_, after, ⟨eof, rfl, ended, last⟩, rfl⟩
    rw [step, result]
    rfl
  | writeTo =>
    obtain ⟨rfl, small⟩ := within
    have inMemory := shown.inMemory small
    have same : j.step (.append []) = j := by rw [Journal.step, List.append_nil]
    refine ⟨log.writeTo.1, .delivered j.written j.written.length false, ?_, ?_, rfl, rfl⟩
    · simp only [step, shown.writeTo inMemory]
    · rw [Call.journal, same]
      exact shown.afterWriteTo inMemory
  | reset => exact ⟨log.reset, .cleared, rfl, shown.reset, rfl, rfl⟩

theorem run_answered (shown : log.Shows hasAccessToFS options drained j) {got : Nat → Bytes}
    (kept : j.Kept got) (fits : IsInt64 options.limit) {calls : List Call}
    (within : CallsWithin hasAccessToFS options drained j calls) :
    ∃ final replies, log.run hasAccessToFS calls = some (final, replies) ∧
      final.Shows hasAccessToFS options (calls.foldl Call.drains drained)
        (j.run (calls.map Call.journal)) ∧
      CallsAnswered j calls replies ∧
      replies.map Reply.bytes = j.answers (calls.map Call.journal) := by
  induction calls generalizing log drained j got with
  | nil => exact ⟨log, [], rfl, shown, trivial, rfl⟩
  | cons call calls ih =>
    obtain ⟨here, later⟩ := within
    obtain ⟨next, reply, stepped, after, answered, bytes⟩ := step_answered shown kept fits here
    obtain ⟨final, replies, ran, atEnd, rest, others⟩ := ih after (kept.step call.journal) later
    refine ⟨final, reply :: replies, ?_, atEnd, ⟨answered, rest⟩, ?_⟩
    · simp only [run, stepped, ran, Option.bind_eq_bind, Option.bind_some]
    · rw [List.map_cons, List.map_cons, Journal.answers, bytes, others]

theorem reset_read (log : BodyLog) {r : Nat} (listed : r < log.readers.length) (size : Nat) :
    log.reset.read hasAccessToFS r size = some (log.reset, [], true) := by
  have closed : log.reset.readers[r]? = some none := by
    rw [reset, List.getElem?_map, List.getElem?_eq_getElem listed]
    rfl
  rw [read, closed]

end

/-- A body buffer is the journal of what was written to it: each reader gets that in
order, however it reads and whatever is written meanwhile.  `WriteTo` has it only as long
as it is in memory, and once between two `Reset`s. -/
theorem run_faithful (hasAccessToFS : Bool) (options : BodyBufferOptions)
    (fits : IsInt64 options.limit) (calls : List Call)
    (within : CallsWithin hasAccessToFS options false .empty calls) :
    ∃ log replies, (new options).run hasAccessToFS calls = some (log, replies) ∧
      CallsAnswered .empty calls replies ∧
      let j := Journal.empty.run (calls.map Call.journal)
      (∀ r n, j.taken[r]? = some (some n) →
        Journal.gathered r (calls.map Call.journal) (replies.map Reply.bytes) = j.written.take n) ∧
      log.size = j.written.length ∧
      (drainedBy calls = false → log.writer = none →
        log.writeTo.2 = (j.written, j.written.length, false)) ∧
      log.reset.size = 0 ∧ log.reset.content = [] ∧
      ∀ r size, r < log.readers.length →
        log.reset.read hasAccessToFS r size = some (log.reset, [], true) := by
  have nothing : (Journal.empty : Journal UInt8).Kept fun r => Journal.gathered r [] [] :=
    Journal.run_kept []
  obtain ⟨log, replies, ran, shown, answered, bytes⟩ :=
    run_answered (new_shows hasAccessToFS options) nothing fits within
  refine ⟨log, replies, ran, answered, fun r n isOpen => ?_, shown.length, fun undrained => ?_, rfl,
    rfl, fun r size listed => reset_read log listed size⟩
  · rw [bytes]
    exact ((Journal.run_kept _).front isOpen).2
  · rw [show calls.foldl Call.drains false = false from undrained] at shown
    exact shown.writeTo

/-- `WriteTo` in memory and a `Reset`, then the memory limit is passed between two reads. -/
def spillingCalls : List Call :=
  [.write (str "xy"), .writeTo, .reset, .write (str "ab"), .reader, .read 0 1, .write (str "cdef"),
    .read 0 10]

theorem run_faithful_spilling :
    CallsWithin true ⟨[], 3, 10⟩ false .empty spillingCalls ∧
    ∃ log replies, (new ⟨[], 3, 10⟩).run true spillingCalls = some (log, replies) ∧ log.size = 6 ∧
      CallsAnswered .empty spillingCalls replies ∧
      Journal.gathered 0 (spillingCalls.map Call.journal) (replies.map Reply.bytes) = str "abcdef" := by
  have within : CallsWithin true ⟨[], 3, 10⟩ false .empty spillingCalls := by decide
  obtain ⟨log, replies, ran, answered, gathered, size, _⟩ :=
    run_faithful true ⟨[], 3, 10⟩ (by decide) spillingCalls within
  exact ⟨within, log, replies, ran, size, answered, gathered 0 6 rfl⟩

/-- `Read` of the temporary file starts where the last `Write` stopped, at its end: once the
body is in the file, `WriteTo` fails with `io.EOF` and delivers nothing.  In memory it takes
out of the buffer what it delivers, so a reader finds nothing of what `Size` counts. -/
theorem writeTo_loses :
    (∃ log replies, (new ⟨[], 1, 100⟩).run true [.write (str "test")] = some (log, replies) ∧
      log.size = 4 ∧ log.content = str "test" ∧ log.writeTo.2 = ([], 0, true)) ∧
    ∃ log replies, (new ⟨[], 500, 500⟩).run true [.write (str "test")] = some (log, replies) ∧
      log.writeTo.2 = (str "test", 4, false) ∧ log.writeTo.1.size = 4 ∧
      (log.writeTo.1.reader.read true 0 4).map (·.2) = some ([], true) := by
  refine ⟨⟨_, _, rfl, by decide, by decide, by decide⟩, ⟨_, _, rfl, by decide, by decide, by decide⟩⟩

/-! ## The buffer of a transaction -/

/-- The buffer as transactions have it, whose file is only what it holds. -/
def toBuffer (log : BodyLog) : BodyBuffer where
  options := log.options
  buffer := log.buffer
  writer := log.writer.map (·.content)
  length := log.length
  readers := log.readers.countP (·.isSome)

@[simp] theorem toBuffer_length (log : BodyLog) : log.toBuffer.length = log.length := rfl

@[simp] theorem toBuffer_options (log : BodyLog) : log.toBuffer.options = log.options := rfl

theorem toBuffer_spill {disk : Disk} (reliable : disk.Reliable) (log : BodyLog)
    (atEnd : ∀ file ∈ log.writer, file.AtEnd) (targetLen : Int) (data : Bytes) :
    log.toBuffer.spill disk targetLen data =
      ({ log.toBuffer with
          buffer := if log.writer.isSome then log.buffer else []
          writer := some (log.dump.write data).content
          length := targetLen }, data.length, none) := by
  cases stored : log.writer with
  | some file =>
    have written := TempFile.write_content (atEnd file stored) data
    simp [BodyBuffer.spill, toBuffer, stored, dump, reliable.write, written]
  | none =>
    have written : ((TempFile.create.write log.buffer).write data).content = log.buffer ++ data := by
      rw [TempFile.write_content (TempFile.create_atEnd.write log.buffer),
        TempFile.write_content TempFile.create_atEnd]
      rfl
    simp [BodyBuffer.spill, toBuffer, stored, dump, reliable.write, reliable.createTemp, written]

theorem toBuffer_write {disk : Disk} (reliable : disk.Reliable) (log : BodyLog)
    (atEnd : ∀ file ∈ log.writer, file.AtEnd) (data : Bytes) :
    log.toBuffer.write disk data =
      ((log.write true data).1.toBuffer, (log.write true data).2) := by
  simp only [write, BodyBuffer.write, reliable.access, if_true, toBuffer_length, toBuffer_options,
    toBuffer_spill reliable log atEnd]
  repeat' split
  all_goals rfl

end BodyLog

end Obsidian
