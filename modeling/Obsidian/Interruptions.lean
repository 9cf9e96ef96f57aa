import Obsidian.ApiSteps

namespace Obsidian

open Obsidian.Data Relation

/-! # Interruptions

What sets an interruption, in which mode of the engine, and what becomes of it
in later calls.
-/

/-! ## Detection only -/

/-- The interruption is the last one recorded, and none was recorded while the
engine only detects. -/
structure Undisrupted (tx : Transaction) : Prop where
  recorded : tx.interruption = tx.history.interruptions.getLast?.map Prod.snd
  never : ∀ entry ∈ tx.history.interruptions, entry.1 ≠ .detectionOnly

section

variable {host : Host} {waf : WAF} {phase : RulePhase} {a b : Transaction}

theorem Undisrupted.of_same (undisrupted : Undisrupted a)
    (interruption : b.interruption = a.interruption)
    (interruptions : b.history.interruptions = a.history.interruptions) : Undisrupted b := by
  obtain ⟨recorded, never⟩ := undisrupted
  exact ⟨by rw [interruption, interruptions, recorded], by rwa [interruptions]⟩

theorem Undisrupted.setInterruption {tx : Transaction} (undisrupted : Undisrupted tx)
    (active : tx.ruleEngine ≠ .detectionOnly) (interruption : Interruption) :
    Undisrupted (tx.setInterruption interruption) where
  recorded := by simp [Transaction.setInterruption]
  never entry found := by
    simp only [Transaction.setInterruption, List.mem_append, List.mem_singleton] at found
    rcases found with old | rfl
    · exact undisrupted.never entry old
    · exact active

theorem Undisrupted.loopStep (step : LoopStep phase a b) (undisrupted : Undisrupted a) :
    Undisrupted b := by
  cases step with
  | record | flow => exact undisrupted.of_same rfl rfl
  | rule step =>
    cases step
    case interrupt interruption on =>
        exact undisrupted.setInterruption (by rw [on]; decide) interruption
    all_goals exact undisrupted.of_same rfl rfl

theorem Undisrupted.apiStep {rejects : Transaction → Prop}
    (active : ∀ {tx}, rejects tx → tx.ruleEngine ≠ .detectionOnly)
    (step : ApiStep host waf rejects a b) (undisrupted : Undisrupted a) : Undisrupted b := by
  cases step with
  | feed v ticks => exact undisrupted.of_same rfl rfl
  | buffer d buffer grows => cases d <;> exact undisrupted.of_same rfl rfl
  | reject d rejected => exact undisrupted.setInterruption (active rejected) _
  | eval phase =>
    exact eval_keeps (undisrupted.of_same rfl rfl) Undisrupted.loopStep fun undisrupted =>
      undisrupted.of_same rfl rfl

/-- While the engine only detects, no body write reaches its limit under Reject. -/
def BelowLimit (waf : WAF) (tx : Transaction) (c : Call) : Prop :=
  tx.ruleEngine = .detectionOnly → ¬ c.Rejected waf tx

theorem Undisrupted.run {tx : Transaction} {calls : List Call} (fits : Fits tx)
    (below : EveryCall host waf (BelowLimit waf) tx calls) (undisrupted : Undisrupted tx) :
    Undisrupted (run host waf tx calls) := by
  induction calls generalizing tx with
  | nil => exact undisrupted
  | cons c rest ih =>
    apply ih (fits.run host waf [c]) below.2
    refine Steps.keeps (Undisrupted.apiStep fun mayReject => ?_) (step_steps tx c) undisrupted
    rw [mayReject.1]
    exact fun detects => below.1 detects (mayReject.2 fits)

end

/-- In a run whose body writes stay below a rejecting limit while the engine only
detects, no interruption is ever set in that mode. -/
theorem detectionOnly_undisrupted (host : Host) (waf : WAF) (object : PoolObject host waf)
    (opts : Options) (now : Int) (calls : List Call)
    (below : EveryCall host waf (BelowLimit waf) (object.newTransaction opts now) calls) :
    Undisrupted (run host waf (object.newTransaction opts now) calls) :=
  Undisrupted.run (object.fits opts now) below ⟨rfl, fun _ found => by cases found⟩

def denyWAF (mode : RuleEngineStatus) : WAF :=
  let denying : Rule := { id := 1, phase := .requestHeaders, actions := [⟨str "deny", .deny⟩] }
  { smallBodyWAF .reject [{ head := denying }] with ruleEngine := mode }

def denied : Interruption := { status := 403, ruleID := 1, action := str "deny" }

def denyRun (mode : RuleEngineStatus) (calls : List Call) : Transaction :=
  run .plain (denyWAF mode) ((PoolObject.new .plain (denyWAF mode)).newTransaction ⟨str "a", 0⟩ 1)
    calls

theorem detectionOnly_undisrupted_denied :
    Undisrupted
      (denyRun .detectionOnly
        [.processRequestHeaders, .writeBody .request ⟨str "abc", by decide⟩]) :=
  detectionOnly_undisrupted .plain (denyWAF .detectionOnly) (.new .plain _) ⟨str "a", 0⟩ 1 _
    ⟨fun _ => id, fun _ ⟨_, _, _, _, reached⟩ => absurd reached (by decide), trivial⟩

/-- The body limit interrupts a transaction that should only be looked at. -/
theorem detectionOnly_disrupted :
    (denyRun .detectionOnly [.writeBody .request ⟨str "abcd", by decide⟩]).ruleEngine =
        .detectionOnly ∧
      (denyRun .detectionOnly [.writeBody .request ⟨str "abcd", by decide⟩]).interruption =
        some { status := 413, action := str "deny" } := by
  decide

/-! ## The first interruption -/

section

variable {host : Host} {waf : WAF} {tx : Transaction} {i : Interruption}

theorem processBody_interrupted (set : tx.interruption = some i) (d : Direction) :
    processBody host waf d tx =
      (tx, { interruption := if tx.ruleEngine = .off then none else some i }) := by
  cases d <;> simp only [processBody, processRequestBody, processResponseBody, set] <;>
    split <;> simp_all

theorem processRequestHeaders_interrupted (set : tx.interruption = some i) :
    processRequestHeaders host waf tx =
      (tx, { interruption := if tx.ruleEngine = .off then none else some i }) := by
  simp only [processRequestHeaders, set]
  repeat' split
  all_goals simp_all

theorem processResponseHeaders_interrupted (set : tx.interruption = some i) (code : Int)
    (proto : Bytes) :
    processResponseHeaders host waf tx code proto =
      (tx, { interruption := if tx.ruleEngine = .off then none else some i }) := by
  simp only [processResponseHeaders, set]
  repeat' split
  all_goals simp_all

def Answers (i : Interruption) (result : Transaction × Outcome) : Prop :=
  result.1.interruption = some i ∧ ∀ reply, result.2 = .returned reply →
    reply.interruption = if reply.err.isSome then none else some i

theorem finishWrite_answers (set : tx.interruption = some i) (d : Direction)
    (runProcessBody : Bool) (written : Nat) :
    Answers i (finishWrite host waf d runProcessBody written tx) := by
  simp only [finishWrite]
  split
  · rw [processBody_interrupted set]
    exact ⟨set, fun reply returned => by cases returned; simp [set]⟩
  · exact ⟨set, fun reply returned => by cases returned; simp [set]⟩

theorem storeSlice_answers (set : tx.interruption = some i) (d : Direction) (b : Bytes) (n : Int)
    (runProcessBody : Bool) : Answers i (storeSlice host waf d b n runProcessBody tx) := by
  simp only [storeSlice]
  split
  · exact ⟨set, fun reply returned => by cases returned⟩
  · split
    · exact ⟨by simp [set], fun reply returned => by cases returned; rfl⟩
    · exact finishWrite_answers (by simp [set]) d runProcessBody _

theorem storeCopy_answers (set : tx.interruption = some i) (d : Direction) (r : Reader) (n : Int)
    (runProcessBody : Bool)
    (short : waf.limitAction d = .reject →
      (copyN host.disk (tx.bodyBuffer d) r n).1.length ≠ tx.bodyLimit d) :
    Answers i (storeCopy host waf d r n runProcessBody tx) := by
  simp only [storeCopy]
  revert short
  rcases copyN host.disk (tx.bodyBuffer d) r n with ⟨buffer, w, _ | err⟩ <;> intro short
  · dsimp only
    simp only [finishCopy]
    rw [Transaction.setBodyBuffer_bodyBuffer]
    split
    · next full =>
        rw [Transaction.setBodyBuffer_bodyLimit] at full
        split
        · next action => exact absurd full (short action)
        · exact finishWrite_answers (by simp [set, Transaction.flagDataError]) d true w
    · exact finishWrite_answers (by simp [set]) d runProcessBody w
  · exact ⟨by simp [set], fun reply returned => by cases returned; rfl⟩

/-- A body write that hands back no interruption, whichever is set: the body is not
looked at, there is an error to hand back, or the limit was reached before and the
rest is dropped. -/
def Transaction.silent (waf : WAF) (tx : Transaction) (d : Direction) (reply : Reply) : Bool :=
  tx.bodyAccess d = false ∨ reply.err.isSome ∨
    waf.limitAction d = .processPartial ∧ tx.bodyLimit d = (tx.bodyBuffer d).length

def Reports (waf : WAF) (tx : Transaction) (d : Direction) (i : Interruption)
    (result : Transaction × Outcome) : Prop :=
  result.1.interruption = some i ∧ ∀ reply, result.2 = .returned reply →
    reply.interruption = if tx.ruleEngine = .off ∨ tx.silent waf d reply then none else some i

theorem Answers.reports {d : Direction} {result : Transaction × Outcome}
    (answers : Answers i result) (running : tx.ruleEngine ≠ .off) (access : tx.bodyAccess d = true)
    (room : tx.bodyLimit d ≠ (tx.bodyBuffer d).length) : Reports waf tx d i result := by
  refine ⟨answers.1, fun reply returned => ?_⟩
  rw [answers.2 reply returned]
  simp [Transaction.silent, running, access, room]

theorem replyAtLimit_reports (set : tx.interruption = some i) {d : Direction}
    (running : tx.ruleEngine ≠ .off) (access : tx.bodyAccess d = true)
    (full : tx.bodyLimit d = (tx.bodyBuffer d).length) :
    Reports waf tx d i (tx, replyAtLimit waf d tx) := by
  refine ⟨set, fun reply returned => ?_⟩
  dsimp only [replyAtLimit] at returned
  split at returned
  · next action =>
      cases returned
      simp [Transaction.silent, running, access, action, set]
  · next action =>
      cases returned
      simp [Transaction.silent, running, access, action, full]

theorem writeWith_reports (set : tx.interruption = some i) {d : Direction} {len : Option Nat}
    {store : Int → Bool → Transaction → Transaction × Outcome}
    (kept : tx.ruleEngine ≠ .off → tx.bodyAccess d = true →
      tx.bodyLimit d ≠ (tx.bodyBuffer d).length → planWrite waf d len tx ≠ .reject)
    (stored : tx.ruleEngine ≠ .off → tx.bodyAccess d = true →
      tx.bodyLimit d ≠ (tx.bodyBuffer d).length → ∀ n runProcessBody,
        Answers i (store n runProcessBody tx) ∧
        Answers i (store n runProcessBody (tx.flagDataError d))) :
    Reports waf tx d i (writeWith waf d len store tx) := by
  simp only [writeWith]
  split
  · next off => exact ⟨set, fun reply returned => by cases returned; simp [off]⟩
  · next running =>
      split
      · next closed =>
          exact ⟨set, fun reply returned => by cases returned; simp [Transaction.silent, closed]⟩
      · next opened =>
          have access : tx.bodyAccess d = true := by simpa using opened
          split
          · next full => exact replyAtLimit_reports set running access full
          · next room =>
              split
              · refine Answers.reports ⟨set, fun reply returned => ?_⟩ running access room
                cases returned
                rfl
              · next planned => exact absurd planned (kept running access room)
              · next n _ =>
                  exact (stored running access room n false).1.reports running access room
              · next n _ =>
                  exact (stored running access room n true).2.reports running access room

theorem writeBody_reports (set : tx.interruption = some i) (fits : Fits tx) {d : Direction}
    {b : Chunk} (kept : ¬ (Call.writeBody d b).Rejected waf tx) :
    Reports waf tx d i (writeBody host waf d b tx) := by
  have flagged : (tx.flagDataError d).interruption = some i := set
  refine writeWith_reports set (fun running access room planned => kept ?_) fun _ _ _ n run =>
    ⟨storeSlice_answers set d _ n run, storeSlice_answers flagged d _ n run⟩
  obtain ⟨len, known, action, reached⟩ := planWrite_reject planned
  cases known
  exact ⟨action, running, access, room, fits.reaches reached⟩

theorem readBodyFrom_reports (set : tx.interruption = some i) (fits : Fits tx) {d : Direction}
    {r : Reader} (kept : ¬ (Call.readBodyFrom d r).Rejected waf tx) :
    Reports waf tx d i (readBodyFrom host waf d r tx) := by
  refine writeWith_reports set (fun running access room planned => kept ?_)
    fun running access room n run => ?_
  · obtain ⟨len, known, action, reached⟩ := planWrite_reject planned
    split at known <;> cases known
    exact ⟨action, running, access, room, fits.reaches reached⟩
  · have short : waf.limitAction d = .reject →
        (copyN host.disk (tx.bodyBuffer d) r n).1.length ≠ tx.bodyLimit d := fun action full =>
      kept ⟨action, running, access, room, fits.copy_reaches full⟩
    have flagged : (tx.flagDataError d).interruption = some i := set
    refine ⟨storeCopy_answers set d r n run short, storeCopy_answers flagged d r n run ?_⟩
    rwa [Transaction.flagDataError_bodyBuffer, Transaction.flagDataError_bodyLimit]

def Call.asks : Call → Bool
  | .processRequestHeaders | .processResponseHeaders _ _ | .processBody _
  | .writeBody _ _ | .readBodyFrom _ _ => true
  | _ => false

def Call.silent (waf : WAF) (tx : Transaction) (reply : Reply) : Call → Bool
  | .writeBody d _ | .readBodyFrom d _ => tx.silent waf d reply
  | _ => false

def Later (waf : WAF) (tx : Transaction) (c : Call) : Prop :=
  c ≠ .processLogging ∧ ¬ c.Rejected waf tx

theorem call_interrupted (set : tx.interruption = some i) (fits : Fits tx) {c : Call}
    (later : Later waf tx c) :
    (call host waf tx c).1.interruption = some i ∧
      ∀ reply, c.asks → (call host waf tx c).2 = .returned reply →
        reply.interruption =
          if tx.ruleEngine = .off ∨ c.silent waf tx reply then none else some i := by
  cases c with
  | processLogging => exact absurd rfl later.1
  | writeBody d b =>
    have reports : Reports waf tx d i (writeBody host waf d b tx) :=
      writeBody_reports set fits later.2
    exact ⟨reports.1, fun reply _ => reports.2 reply⟩
  | readBodyFrom d r =>
    have reports : Reports waf tx d i (readBodyFrom host waf d r tx) :=
      readBodyFrom_reports set fits later.2
    exact ⟨reports.1, fun reply _ => reports.2 reply⟩
  | processRequestHeaders =>
    simp only [call, processRequestHeaders_interrupted set]
    exact ⟨set, fun reply _ returned => by cases returned; simp [Call.silent]⟩
  | processResponseHeaders code proto =>
    simp only [call, processResponseHeaders_interrupted set]
    exact ⟨set, fun reply _ returned => by cases returned; simp [Call.silent]⟩
  | processBody d =>
    simp only [call, processBody_interrupted set]
    exact ⟨set, fun reply _ returned => by cases returned; simp [Call.silent]⟩
  | addRequestHeader key value =>
    refine ⟨?_, fun _ asks => by cases asks⟩
    dsimp only [call, addRequestHeader]
    repeat' split
    all_goals exact set
  | addResponseHeader key value =>
    refine ⟨?_, fun _ asks => by cases asks⟩
    dsimp only [call, addResponseHeader]
    repeat' split
    all_goals exact set
  | _ => exact ⟨set, fun _ asks => by cases asks⟩

theorem run_interrupted {calls : List Call} (set : tx.interruption = some i) (fits : Fits tx)
    (later : EveryCall host waf (Later waf) tx calls) :
    (run host waf tx calls).interruption = some i := by
  induction calls generalizing tx with
  | nil => exact set
  | cons c rest ih =>
    exact ih (call_interrupted set fits later.1).1 (fits.run host waf [c]) later.2

end

/-- The interruption `i` is set, and every later call that is not silent hands it back. -/
structure Stays (host : Host) (waf : WAF) (i : Interruption) (tx : Transaction) : Prop where
  interruption : tx.interruption = some i
  replies : ∀ c reply, Later waf tx c → c.asks → tx.ruleEngine ≠ .off →
    (call host waf tx c).2 = .returned reply →
    reply.interruption = if c.silent waf tx reply then none else some i

/-- Up to logging an interruption stays, as long as no body is rejected at its
limit. -/
theorem interruption_stays (host : Host) (waf : WAF) (object : PoolObject host waf)
    (opts : Options) (now : Int) (before after : List Call) (i : Interruption)
    (set : (run host waf (object.newTransaction opts now) before).interruption = some i)
    (later : EveryCall host waf (Later waf)
      (run host waf (object.newTransaction opts now) before) after) :
    Stays host waf i (run host waf (object.newTransaction opts now) (before ++ after)) := by
  have fits := (object.fits opts now).run host waf before
  have joined : run host waf (object.newTransaction opts now) (before ++ after) =
      run host waf (run host waf (object.newTransaction opts now) before) after :=
    List.foldl_append ..
  rw [joined]
  have stays := run_interrupted set fits later
  refine ⟨stays, fun c reply allowed asks running returned => ?_⟩
  rw [(call_interrupted stays (fits.run host waf after) allowed).2 reply asks returned]
  simp [running]

theorem interruption_stays_denied :
    Stays .plain (denyWAF .on) denied
      (denyRun .on ([.processRequestHeaders] ++ [.writeBody .request ⟨str "abc", by decide⟩])) :=
  interruption_stays .plain (denyWAF .on) (.new .plain _) ⟨str "a", 0⟩ 1 _ _ denied (by decide)
    ⟨⟨nofun, fun ⟨_, _, _, _, reached⟩ => absurd reached (by decide)⟩, trivial⟩

/-- A body write without access to the body does not hand back the interruption, and
one that is rejected replaces it. -/
theorem interruption_replaced :
    (denyRun .on [.processRequestHeaders]).interruption = some denied ∧
      (call .plain (denyWAF .on) (denyRun .on [.processRequestHeaders])
        (.writeBody .response ⟨str "abc", by decide⟩)).2 = .returned {} ∧
      (denyRun .on
        [.processRequestHeaders, .writeBody .request ⟨str "abcd", by decide⟩]).interruption =
        some { status := 413, action := str "deny" } := by
  decide

end Obsidian
