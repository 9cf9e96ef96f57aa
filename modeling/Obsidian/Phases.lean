import Obsidian.ApiSteps

namespace Obsidian

open Obsidian.Data Relation

/-! # Phase discipline

Which phases a transaction evaluates, in which order, and in which state.
-/

def Transaction.phases (tx : Transaction) : List RulePhase :=
  tx.history.phases.map PhaseStart.phase

section

variable {host : Host} {waf : WAF} {phase : RulePhase}

theorem LoopStep.phases {a b : Transaction} (step : LoopStep phase a b) :
    b.history.phases = a.history.phases := by
  cases step with
  | rule step => cases step <;> rfl
  | record | flow => rfl

theorem eval_phases (phase : RulePhase) (tx : Transaction) :
    ((waf.engine host).eval phase tx).history.phases = tx.history.phases ++ [⟨phase, tx.flow⟩] :=
  eval_keeps (P := fun next => next.history.phases = tx.history.phases ++ [⟨phase, tx.flow⟩]) rfl
    (fun step same => step.phases.trans same) id

theorem eval_lastPhase (phase : RulePhase) (tx : Transaction) :
    ((waf.engine host).eval phase tx).lastPhase = phase :=
  eval_keeps (P := fun next => next.lastPhase = phase) rfl
    (fun step same => step.lastPhase.trans same) id

theorem ApiStep.phases {rejects : Transaction → Prop} {a b : Transaction}
    (step : ApiStep host waf rejects a b) :
    (b.history.phases = a.history.phases ∧ b.lastPhase = a.lastPhase) ∨
      ∃ phase, Due phase a ∧ b.history.phases = a.history.phases ++ [⟨phase, a.flow⟩] ∧
        b.lastPhase = phase := by
  cases step with
  | feed v ticks => exact .inl ⟨rfl, rfl⟩
  | buffer d buffer grows => cases d <;> exact .inl ⟨rfl, rfl⟩
  | reject d => exact .inl ⟨rfl, rfl⟩
  | eval phase running due => exact .inr ⟨phase, due, eval_phases phase a, eval_lastPhase phase a⟩

/-! ## What is due -/

theorem Due.lastPhase_le {tx : Transaction} (due : Due phase tx) : tx.lastPhase ≤ phase := by
  cases phase with
  | unknown => exact due.elim
  | requestHeaders | responseHeaders =>
    have early := due.1
    simp only [RulePhase.le_def] at early ⊢
    omega
  | requestBody | responseBody =>
    rw [due.1]
    decide
  | logging => cases tx.lastPhase <;> decide

theorem Due.lastPhase_lt {tx : Transaction} (due : Due phase tx) (rules : phase ≠ .logging) :
    tx.lastPhase.number < phase.number := by
  cases phase with
  | unknown => exact due.elim
  | requestHeaders | responseHeaders =>
    have early := due.1
    simp only [RulePhase.le_def] at early
    omega
  | requestBody | responseBody =>
    rw [due.1]
    decide
  | logging => exact absurd rfl rules

theorem Due.uninterrupted {tx : Transaction} (due : Due phase tx) (rules : phase ≠ .logging) :
    tx.flow.interrupted = false := by
  have fresh : tx.interruption = none := by
    cases phase with
    | unknown => exact due.elim
    | logging => exact absurd rfl rules
    | _ => exact due.2
  simp [Transaction.flow, fresh]

/-! ## The invariant -/

def BodyAfterHeaders (d : Direction) (phases : List RulePhase) : Prop :=
  ∀ earlier later, phases = earlier ++ d.bodyPhase :: later → d.headersPhase ∈ earlier

structure PhaseDiscipline (tx : Transaction) : Prop where
  once : ∀ phase ≠ .logging, tx.phases.count phase ≤ 1
  ordered : ∀ d, BodyAfterHeaders d tx.phases
  uninterrupted : ∀ start ∈ tx.history.phases, start.phase ≠ .logging →
    start.flow.interrupted = false

/-- What the discipline rests on: the last phase is recorded and bounds the rest. -/
structure PhasesRecorded (tx : Transaction) : Prop extends PhaseDiscipline tx where
  last : tx.lastPhase ≠ .unknown → tx.lastPhase ∈ tx.phases
  bounded : ∀ phase ∈ tx.phases, phase ≤ tx.lastPhase

theorem BodyAfterHeaders.append {d : Direction} {phases : List RulePhase} {phase : RulePhase}
    (ordered : BodyAfterHeaders d phases) (due : phase = d.bodyPhase → d.headersPhase ∈ phases) :
    BodyAfterHeaders d (phases ++ [phase]) := by
  intro earlier later split
  rcases List.eq_nil_or_concat later with rfl | ⟨rest, last, rfl⟩
  · obtain ⟨rfl, same⟩ := List.append_inj' split rfl
    exact due (List.singleton_inj.mp same)
  · rw [List.concat_eq_append, ← List.cons_append, ← List.append_assoc] at split
    exact ordered earlier rest (List.append_inj' split rfl).1

theorem PhasesRecorded.evaluated {a b : Transaction} (recorded : PhasesRecorded a)
    (due : Due phase a) (phases : b.history.phases = a.history.phases ++ [⟨phase, a.flow⟩])
    (last : b.lastPhase = phase) : PhasesRecorded b := by
  have names : b.phases = a.phases ++ [phase] := by simp [Transaction.phases, phases]
  refine ⟨⟨fun other rules => ?_, fun d => ?_, fun start found rules => ?_⟩, fun _ => ?_,
    fun other found => ?_⟩
  · rw [names, List.count_append, List.count_singleton]
    split
    · next same =>
        obtain rfl : phase = other := by simpa using same
        have fresh : phase ∉ a.phases := fun found => by
          have := recorded.bounded phase found
          have := due.lastPhase_lt rules
          simp only [RulePhase.le_def] at *
          omega
        rw [List.count_eq_zero_of_not_mem fresh]
    · exact recorded.once other rules
  · rw [names]
    refine (recorded.ordered d).append fun isBody => ?_
    subst isBody
    have headers : a.lastPhase = d.headersPhase := by cases d <;> exact due.1
    rw [← headers]
    exact recorded.last (by rw [headers]; cases d <;> decide)
  · rw [phases, List.mem_append, List.mem_singleton] at found
    rcases found with old | rfl
    · exact recorded.uninterrupted start old rules
    · exact due.uninterrupted rules
  · rw [names, last]
    exact List.mem_append_right _ (List.mem_singleton_self _)
  · rw [names, List.mem_append, List.mem_singleton] at found
    rw [last]
    rcases found with old | rfl
    · exact RulePhase.le_trans (recorded.bounded other old) due.lastPhase_le
    · exact RulePhase.le_rfl

theorem PhasesRecorded.apiStep {a b : Transaction} (step : ApiStep host waf (fun _ => True) a b)
    (recorded : PhasesRecorded a) : PhasesRecorded b := by
  rcases step.phases with ⟨phases, last⟩ | ⟨phase, due, phases, last⟩
  · have names : b.phases = a.phases := congr_arg (List.map PhaseStart.phase) phases
    obtain ⟨⟨once, ordered, uninterrupted⟩, final, bounded⟩ := recorded
    refine ⟨⟨?_, ?_, ?_⟩, ?_, ?_⟩ <;> simp only [names, phases, last] <;> assumption
  · exact recorded.evaluated due phases last

theorem PhasesRecorded.start (host : Host) (waf : WAF) (opts : Options) (now : Int)
    (pooled : Option Transaction) :
    PhasesRecorded (waf.newTransaction host opts now pooled) where
  once _ _ := Nat.zero_le _
  ordered _ earlier later split := by
    exact absurd (congr_arg List.length split) (by simp [Transaction.phases, WAF.newTransaction])
  uninterrupted _ found := by cases found
  last unknown := absurd rfl unknown
  bounded _ found := by cases found

theorem step_lastPhase (host : Host) (waf : WAF) (tx : Transaction) (c : Call) :
    tx.lastPhase ≤ (step host waf tx c).lastPhase := by
  refine Steps.keeps (P := fun next => tx.lastPhase ≤ next.lastPhase) (fun step sofar => ?_)
    (step_steps tx c) RulePhase.le_rfl
  rcases step.phases with ⟨_, last⟩ | ⟨phase, due, _, last⟩
  · rwa [last]
  · rw [last]
    exact RulePhase.le_trans sofar due.lastPhase_le

theorem run_lastPhase (host : Host) (waf : WAF) (tx : Transaction) (calls : List Call) :
    tx.lastPhase ≤ (run host waf tx calls).lastPhase := by
  induction calls generalizing tx with
  | nil => exact RulePhase.le_rfl
  | cons c rest ih => exact RulePhase.le_trans (step_lastPhase host waf tx c) (ih _)

end

/-- In every run each of the phases 1 to 4 is evaluated at most once, a body phase
only after its headers phase, none of them after an interruption, and the last
phase never goes back. -/
theorem run_phaseDiscipline (host : Host) (waf : WAF) (opts : Options) (now : Int)
    (pooled : Option Transaction) (calls more : List Call) :
    PhaseDiscipline (run host waf (waf.newTransaction host opts now pooled) calls) ∧
      (run host waf (waf.newTransaction host opts now pooled) calls).lastPhase ≤
        (run host waf (waf.newTransaction host opts now pooled) (calls ++ more)).lastPhase := by
  refine ⟨(run_keeps PhasesRecorded.apiStep (.start host waf opts now pooled)
    calls).toPhaseDiscipline, ?_⟩
  simp only [run, List.foldl_append]
  exact run_lastPhase host waf _ more

end Obsidian
