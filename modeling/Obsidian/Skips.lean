import Obsidian.Phases

namespace Obsidian

open Obsidian.Data Relation

/-! # Skipping rules

`skip` and `skipAfter` are meant to act in the phase that executes them.  `Skip`
is reset at the end of a phase, `SkipAfter` only where its marker is found.
-/

def Flow.Unskipped (flow : Flow) : Prop := flow.skip = 0 ∧ flow.skipAfter = []

/-- The rule is the marker that `SkipAfter` waits for, and the loop does not pass it by. -/
def Flow.EndsAt (flow : Flow) (phase : RulePhase) (r : Rule) : Prop :=
  (r.phase = .unknown ∨ r.phase = phase) ∧ r.id ∉ flow.removed ∧ r.secMark = flow.skipAfter

instance (flow : Flow) (phase : RulePhase) (r : Rule) : Decidable (flow.EndsAt phase r) :=
  inferInstanceAs (Decidable (_ ∧ _ ∧ _))

instance (flow : Flow) : Decidable flow.Unskipped := inferInstanceAs (Decidable (_ ∧ _))

def Flow.Ends (flow : Flow) (phase : RulePhase) (rules : List RuleChain) : Prop :=
  (flow.interrupted → phase = .logging) ∧ ∃ r ∈ rules, flow.EndsAt phase r.head

instance (flow : Flow) (phase : RulePhase) (rules : List RuleChain) :
    Decidable (flow.Ends phase rules) := inferInstanceAs (Decidable ((_ → _) ∧ ∃ r ∈ rules, _))

/-- Whenever a rule is reached, or the end of the list, with a `SkipAfter` pending,
the marker is still ahead. -/
def MarkersAhead (waf : WAF) (tx : Transaction) : Prop :=
  ∀ round ∈ tx.history.rounds, round.flow.skipAfter ≠ [] →
    round.flow.Ends round.phase (waf.rules.drop round.position)

instance (waf : WAF) (tx : Transaction) : Decidable (MarkersAhead waf tx) :=
  inferInstanceAs (Decidable (∀ round ∈ tx.history.rounds, _))

/-- No phase started with something left to be skipped, and nothing is left now. -/
def SkipsConfined (tx : Transaction) : Prop :=
  (∀ start ∈ tx.history.phases, start.flow.Unskipped) ∧ tx.flow.Unskipped

instance (tx : Transaction) : Decidable (SkipsConfined tx) :=
  inferInstanceAs (Decidable ((∀ start ∈ tx.history.phases, _) ∧ _))

/-- A rule, and no marker, that only `SkipAfter` keeps from being evaluated. -/
def Flow.Withholds (flow : Flow) (phase : RulePhase) (r : Rule) : Prop :=
  r.secMark = [] ∧ (reach phase r { flow with skipAfter := [] }).1 = .run

instance (flow : Flow) (phase : RulePhase) (r : Rule) : Decidable (flow.Withholds phase r) :=
  inferInstanceAs (Decidable (_ ∧ _))

/-- In front of the marker stands no rule that would be evaluated. -/
def Flow.SkipsNothing (flow : Flow) (phase : RulePhase) (rules : List RuleChain) : Prop :=
  flow.skipAfter ≠ [] →
    ∀ r ∈ rules.takeWhile (¬ flow.EndsAt phase ·.head), ¬ flow.Withholds phase r.head

instance (flow : Flow) (phase : RulePhase) (rules : List RuleChain) :
    Decidable (flow.SkipsNothing phase rules) := inferInstanceAs (Decidable (_ → _))

def stillPending (rounds : List LoopRound) : List LoopRound :=
  rounds.takeWhile (·.flow.skipAfter ≠ [])

/-- None of the rounds passes a rule that would be evaluated but for `SkipAfter`. -/
def PassNothing (rules : List RuleChain) (phase : RulePhase) (rounds : List LoopRound) : Prop :=
  ∀ round ∈ rounds, ∀ r ∈ rules[round.position]?, ¬ round.flow.Withholds phase r.head

/-- No rule is skipped in the phase for a `SkipAfter` that was pending before it. -/
def Engine.InheritsNoSkip (e : Engine) (phase : RulePhase) (tx : Transaction) : Prop :=
  PassNothing e.waf.rules phase
    (stillPending ((e.eval phase tx).history.rounds.drop tx.history.rounds.length))

/-! ## One round -/

section

variable (phase : RulePhase) (r : Rule) (flow : Flow)

theorem reach_pending (pending : flow.skipAfter ≠ []) :
    reach phase r flow =
      if flow.interrupted ∧ phase ≠ .logging then (.stop, flow)
      else (.pass, if flow.EndsAt phase r then { flow with skipAfter := [] } else flow) := by
  simp only [reach]
  simp only [pending, ne_eq, not_false_eq_true, if_true, Flow.EndsAt, List.contains_iff_mem]
  split
  · rfl
  · split
    · next other => simp [other.1, other.2]
    · next eligible =>
        have eligible : r.phase = .unknown ∨ r.phase = phase := by tauto
        split
        · next removed => simp [removed]
        · next kept => split <;> simp_all

theorem reach_unpending (unpending : flow.skipAfter = []) :
    (reach phase r flow).2.skipAfter = [] := by
  simp only [reach]
  repeat' split
  all_goals simp_all

end

/-! ## The loop -/

section

variable {e : Engine} {phase : RulePhase}

theorem MarkersAhead.earlier {a b : Transaction} (ahead : MarkersAhead e.waf b)
    (steps : LoopSteps phase a b) : MarkersAhead e.waf a :=
  fun round found => ahead round (steps.rounds.subset found)

theorem markersAhead_recordRound {tx : Transaction} {i : Nat} {verdict : Verdict} :
    MarkersAhead e.waf (tx.recordRound phase i verdict) ↔
      MarkersAhead e.waf tx ∧ (tx.skipAfter ≠ [] → tx.flow.Ends phase (e.waf.rules.drop i)) := by
  simp [MarkersAhead, Transaction.recordRound, Transaction.flow, or_imp, forall_and]

theorem rulesLoop_first (quiet : e.Quiet) (phase : RulePhase) (i : Nat) (rules : List RuleChain)
    (tx : Transaction) :
    ∃ verdict, LoopSteps phase (tx.recordRound phase i verdict) (e.rulesLoop phase i rules tx) := by
  cases rules with
  | nil => exact ⟨.stop, .refl⟩
  | cons r rest =>
    rcases reached : reach phase r.head tx.flow with ⟨_ | _ | _, flow⟩
    · rw [Engine.rulesLoop_stop reached]
      exact ⟨.stop, .single (.flow _ flow)⟩
    · rw [Engine.rulesLoop_pass reached]
      exact ⟨.pass, .head (.flow _ flow) (Engine.rulesLoop_steps quiet ..)⟩
    · rw [Engine.rulesLoop_run reached]
      exact ⟨.run, .head (.flow _ flow)
        ((Engine.evaluateReached_steps quiet r _).loop.trans (Engine.rulesLoop_steps quiet ..))⟩

theorem rulesLoop_stuck {rules : List RuleChain} {i : Nat} {tx : Transaction}
    (pending : tx.skipAfter ≠ []) (stuck : ¬ tx.flow.Ends phase rules) :
    (e.rulesLoop phase i rules tx).skipAfter ≠ [] := by
  induction rules generalizing i tx with
  | nil => exact pending
  | cons r rest ih =>
    have reached := reach_pending phase r.head tx.flow pending
    by_cases broken : tx.flow.interrupted ∧ phase ≠ .logging
    · rw [if_pos broken] at reached
      rw [Engine.rulesLoop_stop reached]
      exact pending
    · have through : tx.flow.interrupted → phase = .logging := by
        intro interrupted
        by_contra other
        exact broken ⟨interrupted, other⟩
      have elsewhere : ¬ tx.flow.EndsAt phase r.head := fun here =>
        stuck ⟨through, r, List.mem_cons_self .., here⟩
      rw [if_neg broken, if_neg elsewhere] at reached
      rw [Engine.rulesLoop_pass reached]
      refine ih pending fun ends => stuck ⟨through, ?_⟩
      obtain ⟨_, marker, found, here⟩ := ends
      exact ⟨marker, List.mem_cons_of_mem r found, here⟩

/-- The loop ends with nothing pending exactly if all markers were ahead. -/
theorem rulesLoop_markersAhead (quiet : e.Quiet) {rules : List RuleChain} {i : Nat}
    {tx : Transaction} (suffix : e.waf.rules.drop i = rules) (ahead : MarkersAhead e.waf tx) :
    MarkersAhead e.waf (e.rulesLoop phase i rules tx) ↔
      (e.rulesLoop phase i rules tx).skipAfter = [] := by
  induction rules generalizing i tx with
  | nil =>
    simp only [Engine.rulesLoop]
    rw [markersAhead_recordRound, suffix]
    have never : ¬ tx.flow.Ends phase [] := by
      rintro ⟨_, _, found, _⟩
      cases found
    simp only [ahead, never, true_and, imp_false, not_not]
    exact Iff.rfl
  | cons r rest ih =>
    have next := Engine.rules_next suffix
    by_cases pending : tx.skipAfter = []
    · have recorded (verdict : Verdict) :
          MarkersAhead e.waf (tx.recordRound phase i verdict) :=
        markersAhead_recordRound.mpr ⟨ahead, fun other => absurd pending other⟩
      have cleared := reach_unpending phase r.head tx.flow pending
      rcases reached : reach phase r.head tx.flow with ⟨_ | _ | _, flow⟩ <;> rw [reached] at cleared
      · rw [Engine.rulesLoop_stop reached]
        exact iff_of_true (recorded .stop) cleared
      · rw [Engine.rulesLoop_pass reached]
        exact ih next (recorded .pass)
      · rw [Engine.rulesLoop_run reached]
        apply ih next
        simp only [MarkersAhead]
        rw [(e.evaluateReached_steps quiet r _).rounds]
        exact recorded .run
    · by_cases ends : tx.flow.Ends phase (r :: rest)
      · have recorded : MarkersAhead e.waf (tx.recordRound phase i .pass) :=
          markersAhead_recordRound.mpr ⟨ahead, fun _ => by rwa [suffix]⟩
        have reached := reach_pending phase r.head tx.flow pending
        rw [if_neg fun broken => broken.2 (ends.1 broken.1)] at reached
        rw [Engine.rulesLoop_pass reached]
        exact ih next recorded
      · refine iff_of_false (fun later => ends ?_) (rulesLoop_stuck pending ends)
        obtain ⟨verdict, steps⟩ := rulesLoop_first quiet phase i (r :: rest) tx
        rw [← suffix]
        exact (markersAhead_recordRound.mp (later.earlier steps)).2 pending

theorem not_withholds_of_stop {flow : Flow} (broken : flow.interrupted ∧ phase ≠ .logging) (r : Rule) :
    ¬ flow.Withholds phase r := by
  rintro ⟨_, runs⟩
  rw [reach, if_pos broken] at runs
  cases runs

theorem passNothing_record {rules : List RuleChain} {tx after : Transaction}
    (pending : tx.skipAfter ≠ []) (i : Nat) (verdict : Verdict) (flow : Flow)
    (later : ((tx.recordRound phase i verdict).withFlow flow).history.rounds <+:
      after.history.rounds) :
    PassNothing rules phase (stillPending (after.history.rounds.drop tx.history.rounds.length)) ↔
      (∀ r ∈ (rules.drop i).head?, ¬ tx.flow.Withholds phase r.head) ∧
        PassNothing rules phase (stillPending (after.history.rounds.drop
          ((tx.recordRound phase i verdict).withFlow flow).history.rounds.length)) := by
  obtain ⟨rounds, same⟩ := later
  rw [← same, List.drop_left, List.head?_drop]
  simp only [Transaction.recordRound, Transaction.withFlow, List.append_assoc, List.drop_left]
  rw [List.singleton_append, stillPending, List.takeWhile_cons,
    if_pos (by exact decide_eq_true pending)]
  exact List.forall_mem_cons

theorem stillPending_rulesLoop (quiet : e.Quiet) {rules : List RuleChain} {i : Nat}
    {tx : Transaction} (unpending : tx.skipAfter = []) :
    stillPending ((e.rulesLoop phase i rules tx).history.rounds.drop tx.history.rounds.length) =
      [] := by
  obtain ⟨verdict, steps⟩ := rulesLoop_first quiet phase i rules tx
  obtain ⟨rounds, same⟩ := steps.rounds
  rw [← same, Transaction.recordRound, List.append_assoc, List.drop_left]
  exact List.takeWhile_cons_of_neg fun pending => of_decide_eq_true pending unpending

theorem passNothing_nil (rules : List RuleChain) : PassNothing rules phase [] :=
  fun _ found => absurd found List.not_mem_nil

/-- The rounds that pass rules for what was pending before the loop are those in front of the
marker. -/
theorem rulesLoop_inherits (quiet : e.Quiet) {rules : List RuleChain} {i : Nat} {tx : Transaction}
    (suffix : e.waf.rules.drop i = rules) (pending : tx.skipAfter ≠ []) :
    PassNothing e.waf.rules phase (stillPending
        ((e.rulesLoop phase i rules tx).history.rounds.drop tx.history.rounds.length)) ↔
      ∀ r ∈ rules.takeWhile (¬ tx.flow.EndsAt phase ·.head), ¬ tx.flow.Withholds phase r.head := by
  induction rules generalizing i tx with
  | nil =>
    have recorded : e.rulesLoop phase i [] tx = (tx.recordRound phase i .stop).withFlow tx.flow := rfl
    rw [recorded, passNothing_record pending i .stop tx.flow (List.prefix_refl _), suffix,
      List.drop_length]
    refine iff_of_true ⟨?_, passNothing_nil _⟩ (fun _ found => absurd found List.not_mem_nil)
    exact fun _ found => absurd found (Option.not_mem_none _)
  | cons r rest ih =>
    have reached := reach_pending phase r.head tx.flow pending
    by_cases broken : tx.flow.interrupted ∧ phase ≠ .logging
    · rw [if_pos broken] at reached
      rw [Engine.rulesLoop_stop reached,
        passNothing_record pending i .stop tx.flow (List.prefix_refl _), List.drop_length]
      exact iff_of_true ⟨fun r _ => not_withholds_of_stop broken r.head, passNothing_nil _⟩
        (fun r _ => not_withholds_of_stop broken r.head)
    · rw [if_neg broken] at reached
      rw [Engine.rulesLoop_pass reached,
        passNothing_record pending i .pass _ (Engine.rulesLoop_steps quiet ..).rounds, suffix]
      by_cases ends : tx.flow.EndsAt phase r.head
      · -- The marker is none of the rules that are passed, and after it nothing is pending.
        rw [if_pos ends, stillPending_rulesLoop quiet rfl, List.takeWhile_cons_of_neg (by simpa)]
        refine iff_of_true ⟨?_, passNothing_nil _⟩ (fun _ found => absurd found List.not_mem_nil)
        rintro _ ⟨⟩ ⟨unmarked, _⟩
        exact pending (ends.2.2.symm.trans unmarked)
      · rw [if_neg ends, List.takeWhile_cons_of_pos (by simpa), List.forall_mem_cons]
        refine and_congr (by simp) ?_
        exact ih (Engine.rules_next suffix) pending

end

/-! ## A run -/

section

variable {host : Host} {waf : WAF}

theorem eval_markersAhead {phase : RulePhase} {tx : Transaction} (ahead : MarkersAhead waf tx) :
    MarkersAhead waf ((waf.engine host).eval phase tx) ↔
      ((waf.engine host).eval phase tx).skipAfter = [] :=
  rulesLoop_markersAhead (e := waf.engine host) engine_quiet (i := 0) rfl ahead

theorem eval_skipsConfined (phase : RulePhase) (tx : Transaction) :
    SkipsConfined ((waf.engine host).eval phase tx) ↔
      SkipsConfined tx ∧ ((waf.engine host).eval phase tx).skipAfter = [] := by
  have ended : ((waf.engine host).eval phase tx).flow.Unskipped ↔
      ((waf.engine host).eval phase tx).skipAfter = [] := and_iff_right rfl
  simp only [SkipsConfined, eval_phases, ended, List.mem_append, List.mem_singleton, or_imp,
    forall_and, forall_eq]

/-- Between two calls no `skip` is pending, and skips were confined to their phases
exactly if all markers were ahead. -/
structure SkipsSettled (waf : WAF) (tx : Transaction) : Prop where
  skip : tx.skip = 0
  confined : SkipsConfined tx ↔ MarkersAhead waf tx

theorem SkipsSettled.apiStep {a b : Transaction} (step : ApiStep host waf (fun _ => True) a b)
    (settled : SkipsSettled waf a) : SkipsSettled waf b := by
  cases step with
  | feed v ticks => exact ⟨settled.skip, settled.confined⟩
  | buffer d buffer grows => cases d <;> exact ⟨settled.skip, settled.confined⟩
  | reject d => exact ⟨settled.skip, settled.confined⟩
  | eval phase =>
    refine ⟨rfl, ?_⟩
    rw [eval_skipsConfined, settled.confined]
    constructor
    · intro ⟨ahead, cleared⟩
      exact (eval_markersAhead ahead).mpr cleared
    · intro later
      have steps := Engine.rulesLoop_steps (e := waf.engine host) engine_quiet phase 0 waf.rules
        (Engine.beginPhase phase a)
      have ahead : MarkersAhead waf a := fun round found =>
        later round (steps.rounds.subset found)
      exact ⟨ahead, (eval_markersAhead ahead).mp later⟩

end

theorem eval_inheritsNoSkip (host : Host) (waf : WAF) (phase : RulePhase) (tx : Transaction) :
    (waf.engine host).InheritsNoSkip phase tx ↔ tx.flow.SkipsNothing phase waf.rules := by
  by_cases pending : (Engine.beginPhase phase tx).skipAfter = []
  · have none : stillPending (((waf.engine host).eval phase tx).history.rounds.drop
        tx.history.rounds.length) = [] :=
      stillPending_rulesLoop (e := waf.engine host) engine_quiet pending
    rw [Engine.InheritsNoSkip, none]
    exact iff_of_true (passNothing_nil _) fun other => absurd pending other
  · refine (rulesLoop_inherits (e := waf.engine host) (i := 0) engine_quiet rfl pending).trans ?_
    exact ⟨fun nothing _ => nothing, fun nothing => nothing pending⟩

/-- Nothing is left pending by a phase exactly if a pending `skipAfter` always has its marker ahead of
it in the phase.  What is left skips a rule of a later phase exactly if that rule stands in front of
the marker there. -/
theorem skipsConfined_iff (host : Host) (waf : WAF) (object : PoolObject host waf)
    (opts : Options) (now : Int) (calls : List Call) :
    (SkipsConfined (run host waf (object.newTransaction opts now) calls) ↔
      MarkersAhead waf (run host waf (object.newTransaction opts now) calls)) ∧
    (run host waf (object.newTransaction opts now) calls).skip = 0 ∧
    ∀ phase,
      (waf.engine host).InheritsNoSkip phase (run host waf (object.newTransaction opts now) calls) ↔
        (run host waf (object.newTransaction opts now) calls).flow.SkipsNothing phase waf.rules := by
  have start : SkipsSettled waf (object.newTransaction opts now) := by
    refine ⟨rfl, iff_of_true ⟨?_, rfl, rfl⟩ ?_⟩
    · intro _ found
      cases found
    · intro _ found
      cases found
  have settled : SkipsSettled waf (run host waf (object.newTransaction opts now) calls) :=
    run_keeps SkipsSettled.apiStep start calls
  exact ⟨settled.confined, settled.skip, fun phase => eval_inheritsNoSkip host waf phase _⟩

def skippingWAF (markers : List RuleChain) : WAF :=
  let skipping : Rule :=
    { id := 1, phase := .requestHeaders, actions := [⟨str "skipAfter", .skipAfter (str "END")⟩] }
  let denying : Rule := { id := 2, phase := .requestBody, actions := [⟨str "deny", .deny⟩] }
  { newWAF [] with rules := { head := skipping } :: markers ++ [{ head := denying }] }

def skippingRun (markers : List RuleChain) : Transaction :=
  run .plain (skippingWAF markers)
    ((PoolObject.new .plain (skippingWAF markers)).newTransaction ⟨str "a", 0⟩ 1)
    [.processRequestHeaders, .processBody .request]

def markedFirst : WAF :=
  { newWAF [] with rules := secMarker (str "END") :: (skippingWAF []).rules }

def markedFirstRun : Transaction :=
  run .plain markedFirst ((PoolObject.new .plain markedFirst).newTransaction ⟨str "a", 0⟩ 1)
    [.processRequestHeaders]

/-- With its marker behind the rule nothing is left pending; with its marker in front of all rules
it is left pending and skips no rule. -/
theorem skipsConfined_marked :
    SkipsConfined (skippingRun [secMarker (str "END")]) ∧
      ¬ SkipsConfined markedFirstRun ∧
      (markedFirst.engine .plain).InheritsNoSkip .requestBody markedFirstRun :=
  ⟨(skipsConfined_iff .plain _ (.new .plain _) ⟨str "a", 0⟩ 1 _).1.mpr (by decide), by decide,
    ((skipsConfined_iff .plain _ (.new .plain _) ⟨str "a", 0⟩ 1 _).2.2 _).mpr (by decide)⟩

/-- Without its marker the `skipAfter` of the first phase skips the rule of the second
one, which denies the request otherwise. -/
theorem skipsConfined_unmarked :
    ¬ SkipsConfined (skippingRun []) ∧ (skippingRun []).interruption = none ∧
      (skippingRun [secMarker (str "END")]).interruption =
        some { status := 403, ruleID := 2, action := str "deny" } := by
  decide

end Obsidian
