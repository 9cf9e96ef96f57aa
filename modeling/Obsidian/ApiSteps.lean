import Obsidian.Api
import Obsidian.RuleSteps

namespace Obsidian

open Obsidian.Data Relation

/-! # What a call can do

`ApiStep` lists the ways in which a call changes the transaction outside of rule
evaluation, and the conditions under which it evaluates a phase.  Every call is a
sequence of such steps.
-/

/-- What the entry points check before they evaluate a phase. -/
def Due : RulePhase → Transaction → Prop
  | .unknown, _ => False
  | .requestHeaders, tx => ¬ .requestHeaders ≤ tx.lastPhase ∧ tx.interruption = none
  | .requestBody, tx => tx.lastPhase = .requestHeaders ∧ tx.interruption = none
  | .responseHeaders, tx => ¬ .responseHeaders ≤ tx.lastPhase ∧ tx.interruption = none
  | .responseBody, tx => tx.lastPhase = .responseHeaders ∧ tx.interruption = none
  | .logging, _ => True

instance (phase : RulePhase) (tx : Transaction) : Decidable (Due phase tx) := by
  cases phase <;> simp only [Due] <;> infer_instance

structure BodyBuffer.Grows (disk : Disk) (before after : BodyBuffer) : Prop where
  options : after.options = before.options
  isInt64 : IsInt64 before.length → IsInt64 after.length
  sound : disk.Reliable → IsInt64 before.options.limit → before.Sound → after.Sound

/-- `rejects` says when the call may reject a body at its limit. -/
inductive ApiStep (host : Host) (waf : WAF) (rejects : Transaction → Prop) :
    Transaction → Transaction → Prop
  | feed (tx : Transaction) (v : TransactionVariables) (ticks : Nat) :
      ApiStep host waf rejects tx { tx with vars := v, ticks }
  | buffer (tx : Transaction) (d : Direction) (buffer : BodyBuffer)
      (grows : (tx.bodyBuffer d).Grows host.disk buffer) :
      ApiStep host waf rejects tx (tx.setBodyBuffer buffer d)
  | reject (tx : Transaction) (d : Direction) (rejected : rejects tx) :
      ApiStep host waf rejects tx (tx.interruptBodyLimit d)
  | eval (tx : Transaction) (phase : RulePhase) (running : tx.ruleEngine ≠ .off)
      (due : Due phase tx) : ApiStep host waf rejects tx ((waf.engine host).eval phase tx)

abbrev ApiSteps (host : Host) (waf : WAF) (rejects : Transaction → Prop) :
    Transaction → Transaction → Prop :=
  ReflTransGen (ApiStep host waf rejects)

/-! ## Lengths -/

structure Fits (tx : Transaction) : Prop where
  length : ∀ d, IsInt64 (tx.bodyBuffer d).length
  limit : ∀ d, IsInt64 (tx.bodyLimit d)

def Transaction.ReachesLimit (tx : Transaction) (d : Direction) (len : Nat) : Prop :=
  tx.ruleEngine ≠ .off ∧ tx.bodyAccess d = true ∧ tx.bodyLimit d ≠ (tx.bodyBuffer d).length ∧
    tx.bodyLimit d ≤ (tx.bodyBuffer d).length + len

def Call.Rejected (waf : WAF) (tx : Transaction) : Call → Prop
  | .writeBody d b => waf.limitAction d = .reject ∧ tx.ReachesLimit d b.bytes.length
  | .readBodyFrom d r => waf.limitAction d = .reject ∧ tx.ReachesLimit d r.len
  | _ => False

namespace BodyBuffer

theorem Grows.readers (disk : Disk) (br : BodyBuffer) (readers : Nat) :
    br.Grows disk { br with readers } :=
  ⟨rfl, id, fun _ _ sound => ⟨sound.within, sound.holds.content, sound.holds.length,
    sound.holds.spilled⟩⟩

theorem Grows.reader (disk : Disk) (br : BodyBuffer) : br.Grows disk br.reader :=
  .readers disk br _

theorem Grows.write (disk : Disk) (br : BodyBuffer) {data : Bytes}
    (small : (data.length : Int) < 2 ^ 63) : br.Grows disk (br.write disk data).1 :=
  ⟨br.write_options disk data, br.write_isInt64 disk data,
    fun reliable fits sound => sound.write reliable fits small⟩

theorem Grows.copyN (disk : Disk) (br : BodyBuffer) (r : Reader) {n : Int} (fits : IsInt64 n) :
    br.Grows disk (copyN disk br r n).1 where
  options := copyN_keeps disk (P := fun after => after.options = br.options)
    (fun after piece _ same => (after.write_options disk piece).trans same) r rfl
  isInt64 := copyN_keeps disk (fun after piece _ => after.write_isInt64 disk piece) r
  sound reliable fitsLimit sound := by
    have start : br.options = br.options ∧ br.Sound := ⟨rfl, sound⟩
    have kept := copyN_keeps disk (n := n)
      (P := fun after => after.options = br.options ∧ after.Sound)
      (fun after piece short holds => ⟨(after.write_options disk piece).trans holds.1,
        holds.2.write reliable (by rw [holds.1]; exact fitsLimit)
          (by simp only [IsInt64] at fits; omega)⟩) r start
    exact kept.2

end BodyBuffer

/-! ## Processing -/

section

variable {host : Host} {waf : WAF} {rejects : Transaction → Prop}

theorem ApiSteps.weaken {weaker : Transaction → Prop} (implied : ∀ {tx}, rejects tx → weaker tx)
    {tx next : Transaction}
    (steps : ApiSteps host waf rejects tx next) : ApiSteps host waf weaker tx next := by
  refine ReflTransGen.mono (fun _ _ step => ?_) _ _ steps
  cases step with
  | feed v ticks => exact .feed _ v ticks
  | buffer d buffer grows => exact .buffer _ d buffer grows
  | reject d rejected => exact .reject _ d (implied rejected)
  | eval phase running due => exact .eval _ phase running due

theorem feed_steps (tx : Transaction) (v : TransactionVariables) :
    ApiSteps host waf rejects tx { tx with vars := v } := .single (.feed tx v tx.ticks)

theorem processRequestHeaders_steps (tx : Transaction) :
    ApiSteps host waf rejects tx (processRequestHeaders host waf tx).1 := by
  simp only [processRequestHeaders]
  split
  · exact .refl
  · split
    · exact .refl
    · split
      · exact .refl
      · next running early fresh =>
          exact .single (.eval tx .requestHeaders running ⟨early, by simpa using fresh⟩)

theorem generateResponseBodyError_steps (tx : Transaction) (err : GoError) :
    ApiSteps host waf rejects tx (tx.generateResponseBodyError err) := feed_steps tx _

theorem processResponseHeaders_steps (tx : Transaction) (code : Int) (proto : Bytes) :
    ApiSteps host waf rejects tx (processResponseHeaders host waf tx code proto).1 := by
  simp only [processResponseHeaders]
  split
  · exact .refl
  · split
    · exact .refl
    · split
      · exact .refl
      · next running early fresh =>
          exact .tail (feed_steps tx _)
            (.eval _ .responseHeaders running ⟨early, by simpa using fresh⟩)

theorem prepareRequestBody_cases (host : Host) (waf : WAF) (tx : Transaction) :
    ∃ v, prepareRequestBody host waf tx =
      { tx with requestBodyBuffer := tx.requestBodyBuffer.reader, vars := v } := by
  unfold prepareRequestBody
  dsimp only
  repeat' split
  all_goals exact ⟨_, rfl⟩

theorem processRequestBody_steps (tx : Transaction) :
    ApiSteps host waf rejects tx (processRequestBody host waf tx).1 := by
  simp only [processRequestBody]
  split
  · exact .refl
  · split
    · exact .refl
    · split
      · exact .refl
      · next running fresh headers =>
          have due : Due .requestBody tx := ⟨not_not.mp headers, by simpa using fresh⟩
          split
          · exact .single (.eval tx .requestBody running due)
          · obtain ⟨v, prepared⟩ := prepareRequestBody_cases host waf tx
            have read : ApiSteps host waf rejects tx (prepareRequestBody host waf tx) := by
              rw [prepared]
              exact .tail (.single (.buffer tx .request _ (.reader host.disk _))) (.feed _ v tx.ticks)
            refine read.tail (.eval _ .requestBody ?_ ?_)
            · rw [prepared]; exact running
            · rw [prepared]; exact due

theorem processResponseBody_steps (tx : Transaction) :
    ApiSteps host waf rejects tx (processResponseBody host waf tx).1 := by
  unfold processResponseBody
  split
  · exact .refl
  · split
    · exact .refl
    · split
      · exact .refl
      · next running fresh headers =>
          have due : Due .responseBody tx := ⟨not_not.mp headers, by simpa using fresh⟩
          split
          · exact .single (.eval tx .responseBody running due)
          · have read : ApiSteps host waf rejects tx
                { tx with responseBodyBuffer := tx.responseBodyBuffer.reader } :=
              .single (.buffer tx .response _ (.reader host.disk _))
            dsimp only
            split
            · split
              · exact (read.trans (generateResponseBodyError_steps _ _)).tail
                  (.eval _ .responseBody running due)
              · split
                · exact ((read.trans (feed_steps _ _)).trans
                    (generateResponseBodyError_steps _ _)).tail (.eval _ .responseBody running due)
                · exact (read.trans (feed_steps _ _)).tail (.eval _ .responseBody running due)
            · split
              · exact read
              · exact (read.trans (feed_steps _ _)).tail (.eval _ .responseBody running due)

theorem processBody_steps (d : Direction) (tx : Transaction) :
    ApiSteps host waf rejects tx (processBody host waf d tx).1 := by
  cases d with
  | request => exact processRequestBody_steps tx
  | response => exact processResponseBody_steps tx

theorem writeAuditLog_steps (tx : Transaction) :
    ApiSteps host waf rejects tx (writeAuditLog waf tx) := by
  simp only [writeAuditLog]
  split
  · exact .single (.buffer tx .request _ (.readers host.disk _ _))
  · exact .refl

theorem processLogging_steps (tx : Transaction) :
    ApiSteps host waf rejects tx (processLogging host waf tx) := by
  refine .trans ?_ (writeAuditLog_steps _)
  split
  · next running => exact .single (.eval tx .logging running trivial)
  · exact .refl

/-! ## Body writes -/

theorem finishWrite_steps (d : Direction) (runProcessBody : Bool) (written : Nat)
    (tx : Transaction) :
    ApiSteps host waf rejects tx (finishWrite host waf d runProcessBody written tx).1 := by
  simp only [finishWrite]
  split
  · exact processBody_steps d tx
  · exact .refl

theorem rejectBody_steps (d : Direction) (tx : Transaction)
    (rejected : rejects (tx.flagDataError d)) :
    ApiSteps host waf rejects tx (rejectBody d tx).1 :=
  .tail (feed_steps tx _) (.reject _ d rejected)

theorem storeSlice_steps (d : Direction) (b : Chunk) (writingBytes : Int) (runProcessBody : Bool)
    (tx : Transaction) :
    ApiSteps host waf rejects tx
      (storeSlice host waf d b.bytes writingBytes runProcessBody tx).1 := by
  simp only [storeSlice]
  split
  · exact .refl
  · have cut := List.length_take_le' writingBytes.toNat b.bytes
    have small : ((b.bytes.take writingBytes.toNat).length : Int) < 2 ^ 63 := by
      have := b.bounded
      simp only [maxAlloc] at this
      omega
    have stored : ApiSteps host waf rejects tx (tx.setBodyBuffer
        ((tx.bodyBuffer d).write host.disk (b.bytes.take writingBytes.toNat)).1 d) :=
      .single (.buffer tx d _ (.write host.disk _ small))
    revert stored
    rcases (tx.bodyBuffer d).write host.disk (b.bytes.take writingBytes.toNat)
      with ⟨buffer, w, _ | err⟩ <;> intro stored
    · exact stored.trans (finishWrite_steps d _ _ _)
    · exact stored

theorem storeCopy_steps (d : Direction) (r : Reader) {writingBytes : Int} (runProcessBody : Bool)
    (tx : Transaction) (fits : IsInt64 writingBytes)
    (rejected : ∀ buffer, waf.limitAction d = .reject →
      (copyN host.disk (tx.bodyBuffer d) r writingBytes).1.length = tx.bodyLimit d →
      rejects ((tx.setBodyBuffer buffer d).flagDataError d)) :
    ApiSteps host waf rejects tx (storeCopy host waf d r writingBytes runProcessBody tx).1 := by
  have stored : ApiSteps host waf rejects tx (tx.setBodyBuffer
      (copyN host.disk (tx.bodyBuffer d) r writingBytes).1 d) :=
    .single (.buffer tx d _ (.copyN host.disk _ r fits))
  simp only [storeCopy]
  revert stored rejected
  rcases copyN host.disk (tx.bodyBuffer d) r writingBytes with ⟨buffer, w, _ | err⟩ <;>
    intro rejected stored
  · dsimp only
    simp only [finishCopy]
    rw [Transaction.setBodyBuffer_bodyBuffer]
    split
    · next full =>
        split
        · next action =>
            rw [Transaction.setBodyBuffer_bodyLimit] at full
            exact stored.trans (rejectBody_steps d _ (rejected buffer action full))
        · exact (stored.trans (feed_steps _ _)).trans (finishWrite_steps d _ _ _)
    · exact stored.trans (finishWrite_steps d _ _ _)
  · exact stored

theorem Fits.reaches {tx : Transaction} (fits : Fits tx) {d : Direction} {len : Nat}
    (reached : tx.bodyLimit d ≤ wrap64 ((tx.bodyBuffer d).length + len)) :
    tx.bodyLimit d ≤ (tx.bodyBuffer d).length + len := by
  by_contra below
  have length := fits.length d
  have limit := fits.limit d
  simp only [IsInt64] at length limit
  rw [wrap64_eq_self (by simp only [IsInt64]; omega)] at reached
  exact below reached

theorem Fits.copy_reaches {tx : Transaction} (fits : Fits tx) {d : Direction} {r : Reader}
    {n : Int} {disk : Disk} (full : (copyN disk (tx.bodyBuffer d) r n).1.length = tx.bodyLimit d) :
    tx.bodyLimit d ≤ (tx.bodyBuffer d).length + r.len := by
  by_contra below
  have limit := fits.limit d
  simp only [IsInt64] at limit
  have := copyN_length_le disk r n (fits.length d) (by omega)
  omega

theorem planWrite_reject {d : Direction} {len : Option Nat} {tx : Transaction}
    (planned : planWrite waf d len tx = .reject) :
    ∃ n, len = some n ∧ waf.limitAction d = .reject ∧
      tx.bodyLimit d ≤ wrap64 ((tx.bodyBuffer d).length + n) := by
  unfold planWrite at planned
  split at planned
  · cases planned
  · next n =>
      dsimp only at planned
      split at planned
      · cases planned
      · split at planned
        · next reached =>
            split at planned
            · next action => exact ⟨n, rfl, action, reached⟩
            · cases planned
        · cases planned

theorem planWrite_isInt64 {d : Direction} {len : Option Nat} {tx : Transaction} {n : Int}
    {runProcessBody : Bool} (bounded : ∀ known, len = some known → known ≤ maxAlloc)
    (planned : planWrite waf d len tx = .store n runProcessBody) : IsInt64 n := by
  have room : IsInt64 (tx.bodyRoom d) := wrap64_isInt64 _
  unfold planWrite at planned
  split at planned
  · cases planned
    exact room
  · next known =>
      have small := bounded known rfl
      simp only [maxAlloc] at small
      dsimp only at planned
      repeat' split at planned
      all_goals cases planned
      · exact room
      · simp only [IsInt64]
        omega

theorem writeWith_steps {d : Direction} {len : Option Nat}
    {store : Int → Bool → Transaction → Transaction × Outcome} {tx : Transaction}
    (rejected : tx.ruleEngine ≠ .off → tx.bodyAccess d = true →
      tx.bodyLimit d ≠ (tx.bodyBuffer d).length → planWrite waf d len tx = .reject →
      rejects (tx.flagDataError d))
    (stored : tx.ruleEngine ≠ .off → tx.bodyAccess d = true →
      tx.bodyLimit d ≠ (tx.bodyBuffer d).length → ∀ n runProcessBody,
        planWrite waf d len tx = .store n runProcessBody →
        ApiSteps host waf rejects tx (store n runProcessBody tx).1 ∧
        ApiSteps host waf rejects (tx.flagDataError d)
          (store n runProcessBody (tx.flagDataError d)).1) :
    ApiSteps host waf rejects tx (writeWith waf d len store tx).1 := by
  simp only [writeWith]
  split
  · exact .refl
  · split
    · exact .refl
    · split
      · exact .refl
      · next running access room =>
          have access : tx.bodyAccess d = true := by simpa using access
          split
          · exact .refl
          · next planned => exact rejectBody_steps d tx (rejected running access room planned)
          · next n planned => exact (stored running access room n false planned).1
          · next n planned =>
              exact (feed_steps tx _).trans (stored running access room n true planned).2

/-- What is true when a call rejects a body: the engine has not changed since the
call began, and the call is a body write that reaches its limit. -/
def Call.MayReject (waf : WAF) (tx : Transaction) (c : Call) (now : Transaction) : Prop :=
  now.ruleEngine = tx.ruleEngine ∧ (Fits tx → c.Rejected waf tx)

theorem writeBody_steps (d : Direction) (b : Chunk) (tx : Transaction) :
    ApiSteps host waf ((Call.writeBody d b).MayReject waf tx) tx
      (writeBody host waf d b tx).1 := by
  refine writeWith_steps (fun running access room planned => ⟨rfl, fun fits => ?_⟩)
    fun _ _ _ n run _ => ⟨storeSlice_steps d b n run tx, storeSlice_steps d b n run _⟩
  obtain ⟨len, known, action, reached⟩ := planWrite_reject planned
  cases known
  exact ⟨action, running, access, room, fits.reaches reached⟩

theorem readBodyFrom_steps (d : Direction) (r : Reader) (tx : Transaction) :
    ApiSteps host waf ((Call.readBodyFrom d r).MayReject waf tx) tx
      (readBodyFrom host waf d r tx).1 := by
  refine writeWith_steps (fun running access room planned => ⟨rfl, fun fits => ?_⟩)
    fun running access room n run planned => ?_
  · obtain ⟨len, known, action, reached⟩ := planWrite_reject planned
    split at known <;> cases known
    exact ⟨action, running, access, room, fits.reaches reached⟩
  · have small : IsInt64 n := by
      refine planWrite_isInt64 (fun known isKnown => ?_) planned
      split at isKnown <;> cases isKnown
      exact r.bounded ‹_›
    refine ⟨storeCopy_steps d r run tx small fun buffer action full =>
        ⟨by cases d <;> rfl, fun fits => ?_⟩,
      storeCopy_steps d r run _ small fun buffer action full =>
        ⟨by cases d <;> rfl, fun fits => ?_⟩⟩
    · exact ⟨action, running, access, room, fits.copy_reaches full⟩
    · simp only [Transaction.flagDataError_bodyBuffer, Transaction.flagDataError_bodyLimit] at full
      exact ⟨action, running, access, room, fits.copy_reaches full⟩

/-! ## Every call -/

/-- Only variables have changed, and what the runtime was asked for them. -/
def Fed (tx next : Transaction) : Prop :=
  ∃ v ticks, next = { tx with vars := v, ticks := ticks }

namespace Fed

theorem refl (tx : Transaction) : Fed tx tx := ⟨tx.vars, tx.ticks, rfl⟩

theorem trans {first second third : Transaction} (left : Fed first second)
    (right : Fed second third) : Fed first third := by
  obtain ⟨_, _, rfl⟩ := left
  obtain ⟨v, ticks, rfl⟩ := right
  exact ⟨v, ticks, rfl⟩

theorem foldl {α : Type} {round : Transaction → α → Transaction}
    (fed : ∀ tx a, Fed tx (round tx a)) (list : List α) (tx : Transaction) :
    Fed tx (list.foldl round tx) := by
  induction list generalizing tx with
  | nil => exact .refl tx
  | cons a rest ih => exact (fed tx a).trans (ih _)

theorem bodyBuffer {tx next : Transaction} (fed : Fed tx next) (d : Direction) :
    next.bodyBuffer d = tx.bodyBuffer d := by
  obtain ⟨v, ticks, rfl⟩ := fed
  cases d <;> rfl

theorem steps {tx next : Transaction} (fed : Fed tx next) : ApiSteps host waf rejects tx next := by
  obtain ⟨v, ticks, rfl⟩ := fed
  exact .single (.feed tx v ticks)

end Fed

theorem addRequestHeader_fed (host : Host) (tx : Transaction) (key : GoString) (value : Bytes) :
    Fed tx (addRequestHeader host tx key value) := by
  simp only [addRequestHeader]
  repeat' split
  all_goals exact ⟨_, _, rfl⟩

theorem addResponseHeader_fed (host : Host) (tx : Transaction) (key : GoString) (value : Bytes) :
    Fed tx (addResponseHeader host tx key value) := by
  simp only [addResponseHeader]
  repeat' split
  all_goals exact ⟨_, _, rfl⟩

/-- A call is a sequence of steps, and rejects a body only if it is a body write
that reaches its limit. -/
theorem step_steps (tx : Transaction) (c : Call) :
    ApiSteps host waf (c.MayReject waf tx) tx (step host waf tx c) := by
  cases c with
  | addRequestHeader key value => exact (addRequestHeader_fed host tx key value).steps
  | addResponseHeader key value => exact (addResponseHeader_fed host tx key value).steps
  | addGetRequestArgument | addPostRequestArgument | addPathRequestArgument
  | addResponseArgument | processConnection | setServerName => exact feed_steps tx _
  | processURI uri method httpVersion => exact .single (.feed tx _ _)
  | processRequestHeaders => exact processRequestHeaders_steps tx
  | processResponseHeaders code proto => exact processResponseHeaders_steps tx code proto
  | writeBody d b => exact writeBody_steps d b tx
  | readBodyFrom d r => exact readBodyFrom_steps d r tx
  | processBody d => exact processBody_steps d tx
  | processLogging => exact processLogging_steps tx

theorem run_keeps {P : Transaction → Prop}
    (kept : ∀ {a b}, ApiStep host waf (fun _ => True) a b → P a → P b) {tx : Transaction} (holds : P tx)
    (calls : List Call) : P (run host waf tx calls) := by
  induction calls generalizing tx with
  | nil => exact holds
  | cons c rest ih => exact ih (Steps.keeps kept ((step_steps tx c).weaken fun _ => trivial) holds)

end

/-! ## A phase -/

section

variable {host : Host} {waf : WAF}

theorem engine_quiet : (waf.engine host).Quiet := transformArg_quiet host.toRuntime waf

theorem eval_keeps {P : Transaction → Prop} {phase : RulePhase} {tx : Transaction}
    (begun : P (Engine.beginPhase phase tx))
    (step : ∀ {a b}, LoopStep phase a b → P a → P b)
    (ended : ∀ {tx started}, P tx → P ((waf.engine host).endPhase phase started tx)) :
    P ((waf.engine host).eval phase tx) :=
  ended (Steps.keeps step (Engine.rulesLoop_steps engine_quiet phase ..) begun)

/-! ### What the loop keeps -/

section

variable {phase : RulePhase} {a b : Transaction}

theorem LoopStep.lastPhase (step : LoopStep phase a b) : b.lastPhase = a.lastPhase := by
  cases step with
  | rule step => cases step <;> rfl
  | record | flow => rfl

theorem LoopStep.bodyBuffer (step : LoopStep phase a b) (d : Direction) :
    b.bodyBuffer d = a.bodyBuffer d := by
  cases step with
  | rule step => cases step <;> cases d <;> rfl
  | record | flow => cases d <;> rfl

/-- Access to a body and its limit change only while `ctl` may change them. -/
theorem LoopStep.body (step : LoopStep phase a b) (d : Direction) :
    (b.bodyAccess d = a.bodyAccess d ∧ b.bodyLimit d = a.bodyLimit d) ∨
      a.lastPhase ≤ d.headersPhase ∧ (IsInt64 (a.bodyLimit d) → IsInt64 (b.bodyLimit d)) := by
  cases step with
  | record | flow => cases d <;> exact .inl ⟨rfl, rfl⟩
  | rule step =>
    cases step
    case requestBody access limit early fits =>
        cases d with
        | request =>
          refine .inr ⟨early, fun old => ?_⟩
          rcases fits with same | fits
          · exact same ▸ old
          · exact fits
        | response => exact .inl ⟨rfl, rfl⟩
    case responseBody access limit early fits =>
        cases d with
        | request => exact .inl ⟨rfl, rfl⟩
        | response =>
          refine .inr ⟨early, fun old => ?_⟩
          rcases fits with same | fits
          · exact same ▸ old
          · exact fits
    all_goals cases d <;> exact .inl ⟨rfl, rfl⟩

end

theorem eval_bodyBuffer (phase : RulePhase) (tx : Transaction) (d : Direction) :
    ((waf.engine host).eval phase tx).bodyBuffer d = tx.bodyBuffer d :=
  eval_keeps (P := fun next => next.bodyBuffer d = tx.bodyBuffer d) (by cases d <;> rfl)
    (fun step same => (step.bodyBuffer d).trans same) fun same => by cases d <;> exact same

/-! ## Lengths along a run -/

theorem Fits.loopStep {phase : RulePhase} {a b : Transaction} (step : LoopStep phase a b)
    (fits : Fits a) : Fits b where
  length d := by
    rw [step.bodyBuffer d]
    exact fits.length d
  limit d := by
    rcases step.body d with ⟨_, same⟩ | ⟨_, kept⟩
    · rw [same]
      exact fits.limit d
    · exact kept (fits.limit d)

theorem Fits.of_same {a b : Transaction} (buffer : ∀ d, b.bodyBuffer d = a.bodyBuffer d)
    (limit : ∀ d, b.bodyLimit d = a.bodyLimit d) (fits : Fits a) : Fits b :=
  ⟨fun d => buffer d ▸ fits.length d, fun d => limit d ▸ fits.limit d⟩

theorem Fits.apiStep {a b : Transaction} (step : ApiStep host waf (fun _ => True) a b) (fits : Fits a) :
    Fits b := by
  cases step with
  | feed v ticks => exact fits.of_same (fun d => by cases d <;> rfl) fun d => by cases d <;> rfl
  | buffer d buffer grows =>
    refine ⟨fun other => ?_, fun other => ?_⟩
    · have grown := grows.isInt64 (fits.length d)
      cases d <;> cases other <;>
        first | exact grown | exact fits.length .request | exact fits.length .response
    · rw [Transaction.setBodyBuffer_bodyLimit]
      exact fits.limit other
  | reject d => exact fits.of_same (fun d => by cases d <;> rfl) fun d => by cases d <;> rfl
  | eval phase =>
    refine eval_keeps ?_ Fits.loopStep fun fits => ?_
    · exact fits.of_same (fun d => by cases d <;> rfl) fun d => by cases d <;> rfl
    · exact fits.of_same (fun d => by cases d <;> rfl) fun d => by cases d <;> rfl

theorem Fits.run (host : Host) (waf : WAF) {tx : Transaction} (fits : Fits tx) (calls : List Call) :
    Fits (run host waf tx calls) := run_keeps Fits.apiStep fits calls

/-! ## The buffers of a transaction -/

def OwnBuffers (waf : WAF) (tx : Transaction) : Prop :=
  ∀ d, (tx.bodyBuffer d).options = waf.bodyOptions d

theorem OwnBuffers.apiStep {a b : Transaction} (step : ApiStep host waf (fun _ => True) a b)
    (own : OwnBuffers waf a) : OwnBuffers waf b := by
  intro d
  cases step with
  | feed v ticks => cases d <;> first | exact own .request | exact own .response
  | buffer other buffer grows =>
    have same := grows.options.trans (own other)
    cases other <;> cases d <;>
      first | exact same | exact own .request | exact own .response
  | reject other => cases d <;> first | exact own .request | exact own .response
  | eval phase => exact (congr_arg BodyBuffer.options (eval_bodyBuffer phase a d)).trans (own d)

theorem OwnBuffers.run (host : Host) {tx : Transaction} (own : OwnBuffers waf tx) (calls : List Call) :
    OwnBuffers waf (run host waf tx calls) := run_keeps OwnBuffers.apiStep own calls

theorem BodyBuffer.reset_eq_new {br : BodyBuffer} {options : BodyBufferOptions}
    (own : br.options = options) : br.reset = .new options := by
  subst own
  rfl

theorem Pooled.bodyBuffer {pooled : Option Transaction} (origin : Pooled host waf pooled)
    (opts : Options) (now : Int) (d : Direction) :
    (waf.newTransaction host opts now pooled).bodyBuffer d = .new (waf.bodyOptions d) := by
  induction origin generalizing opts now d with
  | new => cases d <;> rfl
  | closed opts₀ now₀ calls _ ih =>
    have own : OwnBuffers waf _ :=
      OwnBuffers.run host (fun d => congr_arg BodyBuffer.options (ih opts₀ now₀ d)) calls
    cases d with
    | request => exact BodyBuffer.reset_eq_new (own .request)
    | response => exact BodyBuffer.reset_eq_new (own .response)

theorem PoolObject.bodyBuffer (object : PoolObject host waf) (opts : Options) (now : Int)
    (d : Direction) :
    (object.newTransaction opts now).bodyBuffer d = .new (waf.bodyOptions d) :=
  object.pooled.bodyBuffer opts now d

theorem PoolObject.ownBuffers (object : PoolObject host waf) (opts : Options) (now : Int) :
    OwnBuffers waf (object.newTransaction opts now) :=
  fun d => congr_arg BodyBuffer.options (object.bodyBuffer opts now d)

theorem PoolObject.fits (object : PoolObject host waf) (opts : Options) (now : Int) :
    Fits (object.newTransaction opts now) where
  length d := by
    rw [object.bodyBuffer opts now d]
    show IsInt64 0
    decide
  limit d := by
    cases d with
    | request => exact waf.requestBodyLimit_fits
    | response => exact waf.responseBodyLimit_fits

end

end Obsidian
