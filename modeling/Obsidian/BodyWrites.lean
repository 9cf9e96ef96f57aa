import Obsidian.Deliveries

namespace Obsidian

open Obsidian.Data Relation

/-! # Body writes

When a body write can fail.  `ctl` may change the limit of a transaction while its
buffers keep the limit of the WAF, so a write depends on both.
-/

def Transaction.Takes (tx : Transaction) (d : Direction) : Prop :=
  tx.ruleEngine ≠ .off ∧ tx.bodyAccess d = true ∧ tx.bodyLimit d ≠ (tx.bodyBuffer d).length

def Transaction.remaining (tx : Transaction) (d : Direction) : Int :=
  tx.bodyLimit d - (tx.bodyBuffer d).length

namespace Delivery

/-- The data is stored as far as the limit allows, the body is rejected, or the
write is turned away without an error. -/
def Settled (d : Direction) (w : Delivery) (tx next : Transaction) (reply : Reply) : Prop :=
  (next.bodyBuffer d).content =
      (tx.bodyBuffer d).content ++ w.bytes.take (tx.remaining d).toNat ∨
    reply.interruption = some { status := d.status, action := str "deny" } ∨
    next = tx ∧ reply.err = none

/-- What a body write should do: plan for a number of bytes that can be cut off the
data and that the limit leaves room for, and return without running into the limit
of the buffer. -/
structure Meets (host : Host) (waf : WAF) (d : Direction) (w : Delivery) (tx : Transaction) :
    Prop where
  range : tx.Takes d → ∀ n runProcessBody, planWrite waf d w.known tx = .store n runProcessBody →
    0 ≤ n ∧ n ≤ tx.remaining d ∧ ∀ len, w.known = some len → n ≤ len
  answered : ∃ next reply, Obsidian.call host waf tx (w.call d) = (next, .returned reply) ∧
    reply.err ≠ some BodyBuffer.errLimitReached ∧ w.Settled d tx next reply

/-- The limit in force is not below what is buffered, and what it lets in is within
the limit of the WAF; a body that is rejected up front may be of any length. -/
def Safe (waf : WAF) (d : Direction) (w : Delivery) (tx : Transaction) : Prop :=
  tx.Takes d →
    (w.known.isSome ∧ waf.limitAction d = .reject ∧
      tx.bodyLimit d ≤ (tx.bodyBuffer d).length + w.bytes.length) ∨
    ((tx.bodyBuffer d).length ≤ tx.bodyLimit d ∧
      min ((tx.bodyBuffer d).length + w.bytes.length) (tx.bodyLimit d) ≤
        (waf.bodyOptions d).limit)

end Delivery

/-! ## Storing -/

section

variable {host : Host} {waf : WAF} {d : Direction} {tx : Transaction} {held : Bytes}

theorem getBodyProcessor_err {name : Bytes} {err : GoError}
    (missing : host.getBodyProcessor name = .error err) : err ≠ BodyBuffer.errLimitReached := by
  simp only [Host.getBodyProcessor] at missing
  split at missing
  · cases missing
  · cases missing
    intro same
    have first := congr_arg List.head? same
    rw [List.head?_append, show (str "invalid bodyprocessor ").head? = some 105 by decide,
      Option.some_or] at first
    exact absurd first (by decide)

theorem processBody_err (reliable : host.disk.Reliable) (d : Direction) (tx : Transaction) :
    (processBody host waf d tx).2.err ≠ some BodyBuffer.errLimitReached := by
  cases d with
  | request =>
    simp only [processBody, processRequestBody, evalPhase]
    repeat' split
    all_goals simp
  | response =>
    simp only [processBody, processResponseBody, evalPhase,
      BodyBuffer.readAll_reliable reliable]
    repeat' split
    all_goals try simp
    next missing => exact getBodyProcessor_err missing

def Stores (d : Direction) (bytes : Bytes) (result : Transaction × Outcome) : Prop :=
  ∃ next reply, result = (next, .returned reply) ∧
    reply.err ≠ some BodyBuffer.errLimitReached ∧ (next.bodyBuffer d).content = bytes

theorem finishWrite_stores (reliable : host.disk.Reliable) (running : tx.ruleEngine ≠ .off)
    (holds : (tx.bodyBuffer d).Holds held) (runProcessBody : Bool) (written : Nat) :
    Stores d held (finishWrite host waf d runProcessBody written tx) := by
  simp only [finishWrite]
  split
  · exact ⟨_, _, rfl, processBody_err reliable d tx,
      (processBody_phases waf reliable running holds).1.content⟩
  · exact ⟨_, _, rfl, by simp, holds.content⟩

theorem finishCopy_stores (reliable : host.disk.Reliable) (running : tx.ruleEngine ≠ .off)
    (holds : (tx.bodyBuffer d).Holds held) (runProcessBody : Bool) (written : Nat) :
    Stores d held (finishCopy host waf d runProcessBody written tx) := by
  simp only [finishCopy]
  split
  · split
    · exact ⟨_, _, rfl, by simp, by cases d <;> exact holds.content⟩
    · refine finishWrite_stores reliable ?_ ?_ true written
      · exact running
      · rw [Transaction.flagDataError_bodyBuffer]
        exact holds
  · exact finishWrite_stores reliable running holds runProcessBody written

section

variable {w : Delivery} {n : Int} (valid : waf.validate = none) (reliable : host.disk.Reliable)
  (own : (tx.bodyBuffer d).options = waf.bodyOptions d) (sound : (tx.bodyBuffer d).Sound)
  (covered : ∀ len, w.known = some len → n ≤ len) (natural : 0 ≤ n)

include valid reliable own sound covered natural

theorem Delivery.store_stores (running : tx.ruleEngine ≠ .off) (runProcessBody : Bool)
    (room : (tx.bodyBuffer d).length + min (w.bytes.length : Int) n ≤ (waf.bodyOptions d).limit) :
    Stores d ((tx.bodyBuffer d).content ++ w.bytes.take n.toNat)
      (w.store host waf d n runProcessBody tx) := by
  have fits : IsInt64 (tx.bodyBuffer d).options.limit := by
    rw [own]
    exact waf.limit_isInt64 valid d
  have running' (buffer : BodyBuffer) : (tx.setBodyBuffer buffer d).ruleEngine ≠ .off := by
    cases d <;> exact running
  rw [sound.holds.length, ← own] at room
  cases w with
  | write b =>
    have short : n ≤ b.bytes.length := covered _ rfl
    obtain ⟨buffer, grown, _, result⟩ := storeSlice_holds waf reliable sound.holds fits
      runProcessBody natural short (by simp only [Delivery.bytes] at room; omega)
    rw [Delivery.store, result]
    refine finishWrite_stores reliable (running' buffer) ?_ _ _
    rw [Transaction.setBodyBuffer_bodyBuffer]
    exact grown
  | read r =>
    obtain ⟨buffer, grown, _, result⟩ := storeCopy_holds waf reliable sound.holds fits r
      runProcessBody natural room
    rw [Delivery.store, result]
    split
    · next err failed =>
        refine ⟨_, _, rfl, fun same => r.own ?_, ?_⟩
        · split at failed
          · cases failed
          · rw [failed]
            exact same
        · rw [Transaction.setBodyBuffer_bodyBuffer]
          exact grown.content
    · refine finishCopy_stores reliable (running' buffer) ?_ _ _
      rw [Transaction.setBodyBuffer_bodyBuffer]
      exact grown

theorem Delivery.store_limit (runProcessBody : Bool) (small : IsInt64 n)
    (full : (waf.bodyOptions d).limit < (tx.bodyBuffer d).length + min (w.bytes.length : Int) n) :
    ∃ next reply, w.store host waf d n runProcessBody tx = (next, .returned reply) ∧
      reply.err = some BodyBuffer.errLimitReached := by
  obtain ⟨positive, _⟩ := waf.limit_range valid d
  have fits : IsInt64 (tx.bodyBuffer d).options.limit := by
    rw [own]
    exact waf.limit_isInt64 valid d
  have within := sound.within.2
  have length := sound.holds.length
  rw [← own] at full positive
  cases w with
  | write b =>
    have short : n ≤ b.bytes.length := covered _ rfl
    have cut : (b.bytes.take n.toNat).length = n.toNat := by
      rw [List.length_take]
      omega
    simp only [Delivery.bytes] at full
    simp only [IsInt64] at small
    have refused := BodyBuffer.write_full host.disk sound.holds fits (Int.le_of_lt positive)
      (show ((b.bytes.take n.toNat).length : Int) < 2 ^ 63 by omega) (by omega) (by omega)
    simp only [Delivery.store, storeSlice, refused]
    rw [if_neg (by omega)]
    exact ⟨_, _, rfl, rfl⟩
  | read r =>
    have stopped := copyN_full reliable r sound.holds fits (Int.le_of_lt positive) small
      (by omega) (by rw [← length]; exact full)
    simp only [Delivery.store, storeCopy]
    revert stopped
    rcases copyN host.disk (tx.bodyBuffer d) r n with ⟨buffer, written, err⟩
    rintro rfl
    exact ⟨_, _, rfl, rfl⟩

end

/-! ## One write -/

structure SoundBuffers (waf : WAF) (tx : Transaction) : Prop where
  own : OwnBuffers waf tx
  sound : ∀ d, (tx.bodyBuffer d).Sound
  fits : Fits tx

theorem Delivery.meets_of_not_takes {w : Delivery} (turned : ¬ tx.Takes d) :
    w.Meets host waf d tx := by
  refine ⟨fun takes => absurd takes turned, ?_⟩
  rw [Delivery.call_eq, writeWith]
  split
  · exact ⟨_, _, rfl, by simp, .inr (.inr ⟨rfl, rfl⟩)⟩
  · next running =>
      split
      · exact ⟨_, _, rfl, by simp, .inr (.inr ⟨rfl, rfl⟩)⟩
      · next access =>
          have full : tx.bodyLimit d = (tx.bodyBuffer d).length :=
            not_not.mp fun room => turned ⟨running, by simpa using access, room⟩
          rw [if_pos full, replyAtLimit]
          split
          · exact ⟨_, _, rfl, by simp, .inr (.inr ⟨rfl, rfl⟩)⟩
          · exact ⟨_, _, rfl, by simp, .inr (.inr ⟨rfl, rfl⟩)⟩

section

variable {w : Delivery} (takes : tx.Takes d)

include takes

theorem Delivery.call_reject (planned : planWrite waf d w.known tx = .reject) :
    Obsidian.call host waf tx (w.call d) = rejectBody d tx := by
  rw [Delivery.call_eq, writeWith, if_neg takes.1, if_neg (by simp [takes.2.1]),
    if_neg takes.2.2, planned]

theorem Delivery.call_store {n : Int} {runProcessBody : Bool}
    (planned : planWrite waf d w.known tx = .store n runProcessBody) :
    Obsidian.call host waf tx (w.call d) =
      w.store host waf d n runProcessBody (if runProcessBody then tx.flagDataError d else tx) := by
  rw [Delivery.call_eq, writeWith, if_neg takes.1, if_neg (by simp [takes.2.1]),
    if_neg takes.2.2, planned]
  cases runProcessBody <;> rfl

theorem Delivery.meets_of_reject (planned : planWrite waf d w.known tx = .reject) :
    w.Meets host waf d tx := by
  refine ⟨fun _ n run other => ?_, ?_⟩
  · rw [planned] at other
    cases other
  · rw [Delivery.call_reject takes planned]
    exact ⟨_, _, rfl, by simp, .inr (.inl rfl)⟩

theorem Delivery.meets_iff_of_store {n : Int} {runProcessBody : Bool}
    (valid : waf.validate = none) (reliable : host.disk.Reliable) (buffers : SoundBuffers waf tx)
    (planned : planWrite waf d w.known tx = .store n runProcessBody)
    (filled : 0 ≤ n → n ≤ tx.remaining d → n = tx.remaining d ∨ (w.bytes.length : Int) ≤ n) :
    w.Meets host waf d tx ↔
      (0 ≤ n ∧ n ≤ tx.remaining d ∧ ∀ len, w.known = some len → n ≤ len) ∧
      (tx.bodyBuffer d).length + min (w.bytes.length : Int) n ≤ (waf.bodyOptions d).limit := by
  -- the flag set in front of a partial write touches no buffer
  obtain ⟨start, same, running, result⟩ : ∃ start : Transaction,
      start.bodyBuffer d = tx.bodyBuffer d ∧ start.ruleEngine ≠ .off ∧
      Obsidian.call host waf tx (w.call d) = w.store host waf d n runProcessBody start := by
    rw [Delivery.call_store takes planned]
    split
    · exact ⟨tx.flagDataError d, by simp, takes.1, rfl⟩
    · exact ⟨tx, rfl, takes.1, rfl⟩
  have own : (start.bodyBuffer d).options = waf.bodyOptions d := by
    rw [same]
    exact buffers.own d
  have sound : (start.bodyBuffer d).Sound := by
    rw [same]
    exact buffers.sound d
  have small : IsInt64 n :=
    planWrite_isInt64 (fun known found => (Delivery.known_length found).2) planned
  constructor
  · rintro ⟨range, next, reply, answered, unlimited, _⟩
    obtain ⟨natural, within, covered⟩ := range takes n runProcessBody planned
    refine ⟨⟨natural, within, covered⟩, ?_⟩
    by_contra full
    obtain ⟨next', reply', stopped, limited⟩ := Delivery.store_limit valid reliable own sound
      covered natural runProcessBody small (by rw [same]; omega)
    rw [result, stopped] at answered
    cases answered
    exact unlimited limited
  · rintro ⟨⟨natural, within, covered⟩, room⟩
    obtain ⟨next, reply, answered, unlimited, content⟩ := Delivery.store_stores valid reliable own
      sound covered natural running runProcessBody (by rw [same]; exact room)
    refine ⟨fun _ n' run' planned' => ?_, next, reply, result.trans answered, unlimited, .inl ?_⟩
    · rw [planned] at planned'
      cases planned'
      exact ⟨natural, within, covered⟩
    · rw [content, same]
      rcases filled natural within with rfl | enough
      · rfl
      · rw [List.take_of_length_le (by omega), List.take_of_length_le (by omega)]

end

theorem SoundBuffers.bodyRoom (buffers : SoundBuffers waf tx) (d : Direction) :
    ((tx.bodyBuffer d).length ≤ tx.bodyLimit d → tx.bodyRoom d = tx.remaining d) ∧
      (0 ≤ tx.bodyRoom d → tx.bodyRoom d ≤ tx.remaining d →
        (tx.bodyBuffer d).length ≤ tx.bodyLimit d) := by
  have limit := buffers.fits.limit d
  have natural := (buffers.sound d).within.1
  simp only [IsInt64] at limit
  simp only [Transaction.bodyRoom, Transaction.remaining]
  refine ⟨fun above => wrap64_eq_self (by simp only [IsInt64]; omega), fun _ _ => by omega⟩

theorem Delivery.meets_iff_of_room {w : Delivery} {runProcessBody : Bool} (takes : tx.Takes d)
    (valid : waf.validate = none) (reliable : host.disk.Reliable) (buffers : SoundBuffers waf tx)
    (planned : planWrite waf d w.known tx = .store (tx.bodyRoom d) runProcessBody)
    (reached : ∀ len, w.known = some len → tx.bodyLimit d ≤ (tx.bodyBuffer d).length + len) :
    w.Meets host waf d tx ↔ (tx.bodyBuffer d).length ≤ tx.bodyLimit d ∧
      min ((tx.bodyBuffer d).length + w.bytes.length) (tx.bodyLimit d) ≤
        (waf.bodyOptions d).limit := by
  obtain ⟨exact, above⟩ := buffers.bodyRoom d
  have remaining : tx.remaining d = tx.bodyLimit d - (tx.bodyBuffer d).length := rfl
  rw [Delivery.meets_iff_of_store takes valid reliable buffers planned
    fun natural within => .inl (exact (above natural within))]
  constructor
  · rintro ⟨⟨natural, within, _⟩, room⟩
    have enough := above natural within
    rw [exact enough] at room
    exact ⟨enough, by omega⟩
  · rintro ⟨enough, room⟩
    rw [exact enough]
    refine ⟨⟨by omega, Int.le_refl _, fun len known => ?_⟩, by omega⟩
    have := reached len known
    omega

/-- A single write meets what is asked of it exactly if it is safe. -/
theorem Delivery.meets_iff (valid : waf.validate = none) (reliable : host.disk.Reliable)
    (buffers : SoundBuffers waf tx) (d : Direction) (w : Delivery) :
    w.Meets host waf d tx ↔ w.Safe waf d tx := by
  by_cases takes : tx.Takes d
  · obtain ⟨positive, small⟩ := waf.limit_range valid d
    have within := (buffers.sound d).within
    rw [BodyBuffer.Within, buffers.own d] at within
    have short : 0 ≤ (tx.bodyBuffer d).length ∧ (tx.bodyBuffer d).length ≤ gib := by omega
    simp only [Delivery.Safe]
    simp only [takes, forall_const]
    cases known : w.known with
    | none =>
      have planned : planWrite waf d w.known tx = .store (tx.bodyRoom d) false := by
        rw [known]
        rfl
      rw [Delivery.meets_iff_of_room takes valid reliable buffers planned (by simp [known])]
      simp
    | some len =>
      have length := (Delivery.known_length known).1
      by_cases reached : tx.bodyLimit d ≤ (tx.bodyBuffer d).length + len
      · cases action : waf.limitAction d with
        | reject =>
          have planned := planWrite_rejects short known reached action
          have met : w.Meets host waf d tx := Delivery.meets_of_reject takes planned
          simp [met, length ▸ reached]
        | processPartial =>
          have planned := planWrite_processPartial short known reached action
          rw [Delivery.meets_iff_of_room takes valid reliable buffers planned
            (by simpa [known] using reached)]
          simp
      · have planned : planWrite waf d w.known tx = .store len false :=
          planWrite_below short known (by omega)
        rw [Delivery.meets_iff_of_store takes valid reliable buffers planned (by omega)]
        simp only [Transaction.remaining, known, Option.some.injEq]
        constructor
        · rintro ⟨_, room⟩
          exact .inr ⟨by omega, by omega⟩
        · rintro (⟨_, _, reached⟩ | ⟨_, room⟩)
          · omega
          · exact ⟨⟨by omega, by omega, fun _ same => by omega⟩, by omega⟩
  · exact ⟨fun _ other => absurd other takes, fun _ => Delivery.meets_of_not_takes takes⟩

/-! ## Every write of a run -/

theorem SoundBuffers.apiStep (valid : waf.validate = none) (reliable : host.disk.Reliable)
    {a b : Transaction} (step : ApiStep host waf (fun _ => True) a b) (buffers : SoundBuffers waf a) :
    SoundBuffers waf b := by
  refine ⟨buffers.own.apiStep step, fun d => ?_, buffers.fits.apiStep step⟩
  have sound := buffers.sound d
  cases step with
  | feed v ticks => cases d <;> exact sound
  | buffer other buffer grows =>
    have grown : buffer.Sound := grows.sound reliable
      (by rw [buffers.own other]; exact waf.limit_isInt64 valid other) (buffers.sound other)
    cases other <;> cases d <;> first | exact grown | exact sound
  | reject other => cases d <;> exact sound
  | eval phase =>
    rw [eval_bodyBuffer]
    exact sound

theorem PoolObject.soundBuffers (valid : waf.validate = none) (object : PoolObject host waf)
    (opts : Options) (now : Int) : SoundBuffers waf (object.newTransaction opts now) := by
  refine ⟨object.ownBuffers opts now, fun d => ?_, object.fits opts now⟩
  rw [object.bodyBuffer opts now d]
  exact ⟨⟨Int.le_refl 0, Int.le_of_lt (waf.limit_range valid d).1⟩, BodyBuffer.new_holds _⟩

end

def Call.WriteMeets (host : Host) (waf : WAF) (tx : Transaction) : Call → Prop
  | .writeBody d b => (Delivery.write b).Meets host waf d tx
  | .readBodyFrom d r => (Delivery.read r).Meets host waf d tx
  | _ => True

def Call.WriteSafe (waf : WAF) (tx : Transaction) : Call → Prop
  | .writeBody d b => (Delivery.write b).Safe waf d tx
  | .readBodyFrom d r => (Delivery.read r).Safe waf d tx
  | _ => True

section

variable {host : Host} {waf : WAF} (valid : waf.validate = none) (reliable : host.disk.Reliable)

include valid reliable

theorem Call.writeMeets_iff {tx : Transaction} (buffers : SoundBuffers waf tx) (c : Call) :
    c.WriteMeets host waf tx ↔ c.WriteSafe waf tx := by
  cases c with
  | writeBody d b => exact Delivery.meets_iff valid reliable buffers d (.write b)
  | readBodyFrom d r => exact Delivery.meets_iff valid reliable buffers d (.read r)
  | _ => exact Iff.rfl

theorem SoundBuffers.everyCall_iff {tx : Transaction} (buffers : SoundBuffers waf tx)
    (calls : List Call) :
    EveryCall host waf (Call.WriteMeets host waf) tx calls ↔
      EveryCall host waf (Call.WriteSafe waf) tx calls := by
  induction calls generalizing tx with
  | nil => exact Iff.rfl
  | cons c rest ih =>
    have next : SoundBuffers waf (step host waf tx c) :=
      run_keeps (SoundBuffers.apiStep valid reliable) buffers [c]
    exact and_congr (Call.writeMeets_iff valid reliable buffers c) (ih next)

/-- In every run of a transaction, every body write plans within its data and the
limit, and returns without running into the limit of the buffer, exactly if no
write is made while `ctl` has put the limit below what is buffered, or above the
limit of the WAF with more data to come than that allows. -/
theorem run_writesMeet_iff (object : PoolObject host waf) (opts : Options) (now : Int)
    (calls : List Call) :
    EveryCall host waf (Call.WriteMeets host waf) (object.newTransaction opts now) calls ↔
      EveryCall host waf (Call.WriteSafe waf) (object.newTransaction opts now) calls :=
  (object.soundBuffers valid opts now).everyCall_iff valid reliable calls

end

def ctlBodyLimitWAF (limit : String) : WAF :=
  smallBodyWAF .processPartial [{ head := {
    id := 1
    phase := .requestHeaders
    actions := [⟨str "ctl", .ctl { action := .requestBodyLimit, value := str limit }⟩] } }]

def ctlBodyLimitObject (limit : String) : PoolObject .plain (ctlBodyLimitWAF limit) :=
  .new .plain _

def bodyAhead : List Call :=
  [.writeBody .request { bytes := str "ab" }, .processRequestHeaders]

/-- Lowered to three, the limit is still above what is buffered. -/
theorem run_writesMeet_three :
    EveryCall .plain (ctlBodyLimitWAF "3") (Call.WriteMeets .plain (ctlBodyLimitWAF "3"))
      ((ctlBodyLimitObject "3").newTransaction ⟨str "a", 0⟩ 1)
      (bodyAhead ++ [.writeBody .request { bytes := str "cd" }]) := by
  refine (run_writesMeet_iff rfl Host.plain_reliable (ctlBodyLimitObject "3") _ _ _).mpr ?_
  exact ⟨fun _ => .inr (by decide), trivial, fun _ => .inr (by decide), trivial⟩

/-- Lowered to one, the limit makes the next write slice out of range; raised to
ten, it lets a write run into the limit of the buffer. -/
theorem run_writes_fail :
    ¬ EveryCall .plain (ctlBodyLimitWAF "1") (Call.WriteMeets .plain (ctlBodyLimitWAF "1"))
        ((ctlBodyLimitObject "1").newTransaction ⟨str "a", 0⟩ 1)
        (bodyAhead ++ [.writeBody .request { bytes := str "c" }]) ∧
      (call .plain (ctlBodyLimitWAF "1")
        (run .plain (ctlBodyLimitWAF "1")
          ((ctlBodyLimitObject "1").newTransaction ⟨str "a", 0⟩ 1) bodyAhead)
        (.writeBody .request { bytes := str "c" })).2 = .panicked ∧
      (call .plain (ctlBodyLimitWAF "10")
        (run .plain (ctlBodyLimitWAF "10")
          ((ctlBodyLimitObject "10").newTransaction ⟨str "a", 0⟩ 1) bodyAhead)
        (.writeBody .request { bytes := str "cde" })).2 =
          .returned { err := some BodyBuffer.errLimitReached } := by
  have panicked : (call .plain (ctlBodyLimitWAF "1")
      (run .plain (ctlBodyLimitWAF "1")
        ((ctlBodyLimitObject "1").newTransaction ⟨str "a", 0⟩ 1) bodyAhead)
      (.writeBody .request { bytes := str "c" })).2 = .panicked := by decide
  refine ⟨fun every => ?_, panicked, by decide⟩
  obtain ⟨_, _, ⟨_, next, reply, answered, _⟩, _⟩ := every
  cases panicked.symm.trans (congr_arg Prod.snd answered)

end Obsidian
