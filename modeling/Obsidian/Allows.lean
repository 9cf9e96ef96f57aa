import Obsidian.Lockstep
import Obsidian.Phases

namespace Obsidian

open Obsidian.Data Relation

/-! # Allowing requests

What `allow`, `allow:phase` and `allow:request` suppress.  The source keeps the last
one executed in the single field `AllowType`; the documentation speaks of the
phases that follow it.
-/

def RulePhase.OfRequest (phase : RulePhase) : Prop :=
  phase = .requestHeaders ∨ phase = .requestBody

instance (phase : RulePhase) : Decidable phase.OfRequest := inferInstanceAs (Decidable (_ ∨ _))

def Given (type : AllowType) (allows : List Allow) : Prop := ∃ a ∈ allows, a.type = type

instance (type : AllowType) (allows : List Allow) : Decidable (Given type allows) :=
  inferInstanceAs (Decidable (∃ a ∈ allows, _))

/-! ## The documentation -/

/-- An `allow` of any kind suppresses the rest of its phase, `allow:request` the rest of
the request phases too, and a plain one all phases but logging. -/
def Suppressed (phase : RulePhase) (allowed : Bool) (allows : List Allow) : Prop :=
  allowed ∨ Given .request allows ∧ phase.OfRequest ∨ Given .all allows ∧ phase ≠ .logging

instance (phase : RulePhase) (allowed : Bool) (allows : List Allow) :
    Decidable (Suppressed phase allowed allows) := inferInstanceAs (Decidable (_ ∨ _ ∨ _))

/-- What is to be done with a rule: the same as without any `allow`, except that a
suppressed rule is not evaluated but ends the phase. -/
def LoopRound.documented (h : LoopRound) (r : Rule) : Verdict :=
  match (reach h.phase r { h.flow with allowType := .unset }).1 with
  | .run => if Suppressed h.phase h.allowed h.allows then .stop else .run
  | verdict => verdict

def AllowsDocumented (waf : WAF) (tx : Transaction) : Prop :=
  ∀ h ∈ tx.history.rounds, ∀ r ∈ waf.rules[h.position]?, h.verdict = h.documented r.head

instance (waf : WAF) (tx : Transaction) : Decidable (AllowsDocumented waf tx) :=
  inferInstanceAs (Decidable (∀ h ∈ tx.history.rounds, ∀ r ∈ waf.rules[h.position]?, _))

/-- Logging does not start after a plain `allow`, an `allow:request` is executed in a
request phase, and no phase executes a second `allow`. -/
structure AllowsRegular (tx : Transaction) : Prop where
  logging : ∀ start ∈ tx.history.phases, start.phase = .logging → start.flow.allowType ≠ .all
  request : ∀ a ∈ tx.history.allows, a.type = .request → a.phase.OfRequest
  once : ∀ a ∈ tx.history.allows, a.again = false

/-! ## The field -/

def AllowType.Blocks (type : AllowType) (phase : RulePhase) : Prop :=
  type = .phase ∨ type = .all ∨ type = .request ∧ phase.OfRequest

instance (type : AllowType) (phase : RulePhase) : Decidable (type.Blocks phase) :=
  inferInstanceAs (Decidable (_ ∨ _ ∨ _))

theorem reach_verdict (phase : RulePhase) (r : Rule) (flow : Flow) :
    (reach phase r flow).1 =
      match (reach phase r { flow with allowType := .unset }).1 with
      | .run => if flow.allowType.Blocks phase then .stop else .run
      | verdict => verdict := by
  unfold reach AllowType.Blocks RulePhase.OfRequest
  dsimp only
  split
  · rfl
  · split
    · rfl
    · split
      · rfl
      · split
        · split <;> rfl
        · split
          · rfl
          · cases flow.allowType <;> cases phase <;> rfl

theorem reach_allowType (phase : RulePhase) (r : Rule) (flow : Flow) :
    (reach phase r flow).2.allowType = flow.allowType ∨
      (reach phase r flow).1 = .stop ∧ phase = .requestBody ∧ flow.allowType = .request ∧
        (reach phase r flow).2.allowType = .unset := by
  simp only [reach]
  repeat' split
  all_goals simp_all

/-- During a phase the field says what the `allow`s executed so far suppress. -/
structure Tracked (phase : RulePhase) (tx : Transaction) : Prop where
  blocked : tx.history.allowed → tx.allowType.Blocks phase
  all : tx.allowType = .all ↔ Given .all tx.history.allows
  request : phase.OfRequest → Given .request tx.history.allows → tx.allowType = .request
  given : tx.allowType = .request → Given .request tx.history.allows
  rest : tx.allowType = .phase → tx.history.allowed
  logging : phase = .logging → tx.allowType = .all → tx.history.allowed

theorem Tracked.blocks_iff {phase : RulePhase} {tx : Transaction} (tracked : Tracked phase tx) :
    tx.allowType.Blocks phase ↔ Suppressed phase tx.history.allowed tx.history.allows := by
  constructor
  · rintro (isPhase | isAll | ⟨isRequest, ofRequest⟩)
    · exact .inl (tracked.rest isPhase)
    · by_cases logging : phase = .logging
      · exact .inl (tracked.logging logging isAll)
      · exact .inr (.inr ⟨tracked.all.mp isAll, logging⟩)
    · exact .inr (.inl ⟨tracked.given isRequest, ofRequest⟩)
  · rintro (allowed | ⟨given, ofRequest⟩ | ⟨given, _⟩)
    · exact tracked.blocked allowed
    · exact .inr (.inr ⟨tracked.request ofRequest given, ofRequest⟩)
    · exact .inr (.inl (tracked.all.mpr given))

/-! ## Evaluating a rule -/

inductive AllowsOnce (a b : Transaction) : Prop
  | none (allowed : b.history.allowed = a.history.allowed) (allowType : b.allowType = a.allowType)
      (allows : b.history.allows = a.history.allows)
  | one (type : AllowType) (given : type ≠ .unset) (allowed : b.history.allowed = true)
      (allowType : b.allowType = type)
      (allows : b.history.allows = a.history.allows ++ [⟨a.lastPhase, type, false⟩])
  | again (x : Allow) (found : x ∈ b.history.allows) (again : x.again = true)

theorem RuleSteps.allowsOnce {a b : Transaction} (fresh : a.history.allowed = false)
    (steps : RuleSteps a b) : AllowsOnce a b ∧ b.lastPhase = a.lastPhase := by
  refine Steps.keeps (P := fun next => AllowsOnce a next ∧ next.lastPhase = a.lastPhase)
    (fun {before after} step sofar => ⟨?_, (RuleSteps.lastPhase (.single step)).trans sofar.2⟩) steps
    ⟨.none rfl rfl rfl, rfl⟩
  obtain ⟨once, lastPhase⟩ := sofar
  cases step
  case allow type given on =>
      cases once with
      | none allowed allowType allows =>
        refine .one type given rfl rfl ?_
        simp only [allows, lastPhase, allowed, fresh]
      | one _ _ allowed => exact .again ⟨_, _, _⟩ (List.mem_append_right _ (.head _)) allowed
      | again x found again => exact .again x (List.mem_append_left _ found) again
  all_goals
    cases once with
    | none allowed allowType allows => exact .none allowed allowType allows
    | one type given allowed allowType allows => exact .one type given allowed allowType allows
    | again x found again => exact .again x found again

theorem given_append_one {type : AllowType} {allows : List Allow} {a : Allow} :
    Given type (allows ++ [a]) ↔ Given type allows ∨ a.type = type := by
  simp [Given, or_and_right, exists_or]

theorem Tracked.evaluate {phase : RulePhase} {a b : Transaction} (tracked : Tracked phase a)
    (last : a.lastPhase = phase) (unblocked : ¬ a.allowType.Blocks phase) (steps : RuleSteps a b)
    (regular : AllowsRegular b) : Tracked phase b := by
  subst last
  have fresh : a.history.allowed = false := by
    by_contra allowed
    exact unblocked (tracked.blocked (by simpa using allowed))
  have noneGiven : ¬ Given .all a.history.allows := fun given =>
    unblocked (.inr (.inl (tracked.all.mpr given)))
  have noRequest : a.lastPhase.OfRequest → ¬ Given .request a.history.allows := fun ofRequest given =>
    unblocked (.inr (.inr ⟨tracked.request ofRequest given, ofRequest⟩))
  cases (steps.allowsOnce fresh).1 with
  | none allowed allowType allows =>
    exact {
      blocked := by rw [allowed, allowType]; exact tracked.blocked
      all := by rw [allowType, allows]; exact tracked.all
      request := by rw [allowType, allows]; exact tracked.request
      given := by rw [allowType, allows]; exact tracked.given
      rest := by rw [allowType, allowed]; exact tracked.rest
      logging := by rw [allowType, allowed]; exact tracked.logging }
  | one type given allowed allowType allows =>
    have inRequest : type = .request → a.lastPhase.OfRequest :=
      regular.request ⟨a.lastPhase, type, false⟩ (by simp [allows])
    refine {
      blocked := fun _ => ?_
      all := ?_
      request := fun ofRequest => ?_
      given := ?_
      rest := fun _ => allowed
      logging := fun _ _ => allowed }
    · rw [allowType]
      cases type with
      | unset => exact absurd rfl given
      | phase => exact .inl rfl
      | all => exact .inr (.inl rfl)
      | request => exact .inr (.inr ⟨rfl, inRequest rfl⟩)
    · rw [allowType, allows, given_append_one]
      simp [noneGiven]
    · rw [allowType, allows, given_append_one]
      simp [noRequest ofRequest]
    · rw [allowType, allows, given_append_one]
      exact .inr
  | again x found again =>
    have once := regular.once x found
    rw [again] at once
    cases once

/-! ## The loop -/

structure Left (phase : RulePhase) (tx : Transaction) : Prop where
  all : tx.allowType = .all ↔ Given .all tx.history.allows
  request : phase = .requestHeaders → Given .request tx.history.allows → tx.allowType = .request
  given : tx.allowType = .request → Given .request tx.history.allows

theorem Tracked.left {phase : RulePhase} {tx : Transaction} (tracked : Tracked phase tx) :
    Left phase tx :=
  ⟨tracked.all, fun headers => tracked.request (.inl headers), tracked.given⟩

section

variable {phase : RulePhase} {a b tx : Transaction}

theorem AllowsRegular.earlier (regular : AllowsRegular b)
    (phases : a.history.phases <+: b.history.phases)
    (allows : a.history.allows <+: b.history.allows) : AllowsRegular a where
  logging start found := regular.logging start (phases.subset found)
  request x found := regular.request x (allows.subset found)
  once x found := regular.once x (allows.subset found)

theorem LoopSteps.allows (steps : LoopSteps phase a b) :
    a.history.allows <+: b.history.allows := by
  refine Steps.extends (·.history.allows) (fun step => ?_) steps
  cases step with
  | rule step =>
    cases step
    case allow => exact List.prefix_append ..
    all_goals exact List.prefix_refl _
  | record | flow => exact List.prefix_refl _

theorem AllowsRegular.loopSteps (regular : AllowsRegular b) (steps : LoopSteps phase a b) :
    AllowsRegular a := by
  refine regular.earlier ?_ steps.allows
  exact Steps.frame (·.history.phases) LoopStep.phases steps ▸ List.prefix_refl _

theorem allowsDocumented_recordRound {waf : WAF} {i : Nat} {r : RuleChain} {verdict : Verdict}
    {rest : List RuleChain} (tracked : Tracked phase tx) (here : waf.rules.drop i = r :: rest)
    (reached : (reach phase r.head tx.flow).1 = verdict) (sofar : AllowsDocumented waf tx) :
    AllowsDocumented waf (tx.recordRound phase i verdict) := by
  intro h found r' placed
  simp only [Transaction.recordRound, List.mem_append, List.mem_singleton] at found
  rcases found with old | rfl
  · exact sofar h old r' placed
  · have first : waf.rules[i]? = some r := by
      rw [← List.head?_drop, here, List.head?_cons]
    obtain rfl : r = r' := Option.some.inj (first.symm.trans placed)
    dsimp only [LoopRound.documented]
    rw [← reached, reach_verdict]
    simp only [← tracked.blocks_iff]
    rfl

theorem reach_unblocked {r : Rule} {flow next : Flow} (reached : reach phase r flow = (.run, next)) :
    ¬ flow.allowType.Blocks phase := by
  intro blocks
  have ran : (reach phase r flow).1 = .run := by rw [reached]
  rw [reach_verdict] at ran
  simp only [blocks, if_true] at ran
  split at ran
  · cases ran
  · exact absurd ran ‹_›

theorem reach_kept {r : Rule} {flow next : Flow} {verdict : Verdict}
    (reached : reach phase r flow = (verdict, next)) (goesOn : verdict ≠ .stop) :
    next.allowType = flow.allowType := by
  have cases := reach_allowType phase r flow
  rw [reached] at cases
  exact cases.resolve_right fun reset => goesOn reset.1

theorem Tracked.next {r : Rule} {flow : Flow} {verdict : Verdict} (tracked : Tracked phase tx)
    (reached : reach phase r tx.flow = (verdict, flow)) (goesOn : verdict ≠ .stop) (i : Nat) :
    Tracked phase ((tx.recordRound phase i verdict).withFlow flow) := by
  have same : flow.allowType = tx.allowType := reach_kept reached goesOn
  exact {
    blocked := by rw [Transaction.withFlow, same]; exact tracked.blocked
    all := by rw [Transaction.withFlow, same]; exact tracked.all
    request := by rw [Transaction.withFlow, same]; exact tracked.request
    given := by rw [Transaction.withFlow, same]; exact tracked.given
    rest := by rw [Transaction.withFlow, same]; exact tracked.rest
    logging := by rw [Transaction.withFlow, same]; exact tracked.logging }

theorem Tracked.stop {r : Rule} {flow : Flow} (tracked : Tracked phase tx)
    (reached : reach phase r tx.flow = (.stop, flow)) (i : Nat) :
    Left phase ((tx.recordRound phase i .stop).withFlow flow) := by
  have cases := reach_allowType phase r tx.flow
  rw [reached] at cases
  rcases cases with same | ⟨_, body, isRequest, unset⟩
  · exact {
      all := by rw [Transaction.withFlow, same]; exact tracked.all
      request := by rw [Transaction.withFlow, same]; exact tracked.left.request
      given := by rw [Transaction.withFlow, same]; exact tracked.given }
  · have isRequest : tx.allowType = .request := isRequest
    have unset : flow.allowType = .unset := unset
    refine ⟨?_, fun headers => ?_, ?_⟩
    · rw [Transaction.withFlow, unset]
      refine iff_of_false (by simp) fun given => ?_
      rw [tracked.all.mpr given] at isRequest
      cases isRequest
    · rw [body] at headers
      cases headers
    · rw [Transaction.withFlow, unset]
      simp

theorem rulesLoop_documented {e : Engine} (quiet : e.Quiet) {rules : List RuleChain} {i : Nat}
    (suffix : e.waf.rules.drop i = rules) (last : tx.lastPhase = phase)
    (tracked : Tracked phase tx) (sofar : AllowsDocumented e.waf tx)
    (regular : AllowsRegular (e.rulesLoop phase i rules tx)) :
    AllowsDocumented e.waf (e.rulesLoop phase i rules tx) ∧
      Left phase (e.rulesLoop phase i rules tx) := by
  induction rules generalizing i tx with
  | nil =>
    refine ⟨fun h found r placed => ?_, tracked.left.all, tracked.left.request, tracked.left.given⟩
    simp only [Engine.rulesLoop, Transaction.recordRound, List.mem_append, List.mem_singleton]
      at found
    rcases found with old | rfl
    · exact sofar h old r placed
    · rw [List.getElem?_eq_none (List.drop_eq_nil_iff.mp suffix)] at placed
      cases placed
  | cons r rest ih =>
    have next := Engine.rules_next suffix
    rcases reached : reach phase r.head tx.flow with ⟨_ | _ | _, flow⟩
    · rw [Engine.rulesLoop_stop reached]
      exact ⟨allowsDocumented_recordRound tracked suffix (by rw [reached]) sofar,
        tracked.stop reached i⟩
    · rw [Engine.rulesLoop_pass reached] at regular ⊢
      exact ih next last (tracked.next reached (by simp) i)
        (allowsDocumented_recordRound tracked suffix (by rw [reached]) sofar) regular
    · rw [Engine.rulesLoop_run reached] at regular ⊢
      have steps := e.evaluateReached_steps quiet r ((tx.recordRound phase i .run).withFlow flow)
      have unblocked : ¬ flow.allowType.Blocks phase := by
        rw [reach_kept reached (by simp)]
        exact reach_unblocked reached
      refine ih next ?_ ?_ ?_ regular
      · exact steps.lastPhase.trans last
      · exact (tracked.next reached (by simp) i).evaluate last unblocked steps
          (regular.loopSteps (Engine.rulesLoop_steps quiet ..))
      · simp only [AllowsDocumented]
        rw [steps.rounds]
        exact allowsDocumented_recordRound tracked suffix (by rw [reached]) sofar

end

/-! ## A run -/

structure AllowsSettled (waf : WAF) (tx : Transaction) : Prop where
  documented : AllowsDocumented waf tx
  ended : tx.allowType ≠ .phase
  all : tx.allowType = .all ↔ Given .all tx.history.allows
  request : tx.lastPhase ≤ .requestHeaders → Given .request tx.history.allows →
    tx.allowType = .request
  given : tx.allowType = .request → Given .request tx.history.allows

section

variable {host : Host} {waf : WAF} {phase : RulePhase} {tx : Transaction}

theorem AllowsSettled.begin (settled : AllowsSettled waf tx) (due : Due phase tx)
    (logging : phase = .logging → tx.allowType ≠ .all) :
    Tracked phase (Engine.beginPhase phase tx) where
  blocked allowed := by cases allowed
  all := settled.all
  request ofRequest := by
    apply settled.request
    have notLogging : phase ≠ .logging := by
      rintro rfl
      rcases ofRequest with same | same <;> cases same
    have early := due.lastPhase_lt notLogging
    rw [RulePhase.le_def]
    rcases ofRequest with rfl | rfl
    · exact Nat.le_of_lt early
    · exact Nat.le_of_lt_succ early
  given := settled.given
  rest isPhase := absurd isPhase settled.ended
  logging isLogging isAll := absurd isAll (logging isLogging)

theorem Left.end {e : Engine} {started : Int} (left : Left phase tx) (last : tx.lastPhase = phase)
    (due : phase ≠ .unknown) (documented : AllowsDocumented waf tx) :
    AllowsSettled waf (e.endPhase phase started tx) := by
  have headers : (e.endPhase phase started tx).lastPhase ≤ .requestHeaders →
      phase = .requestHeaders := by
    intro early
    have early : tx.lastPhase ≤ .requestHeaders := early
    rw [last] at early
    cases phase <;> first | rfl | exact absurd rfl due | exact absurd early (by decide)
  by_cases isPhase : tx.allowType = .phase
  · have unset : (e.endPhase phase started tx).allowType = .unset := if_pos isPhase
    refine ⟨documented, ?_, ?_, fun early given => ?_, ?_⟩
    · rw [unset]
      decide
    · rw [unset]
      refine iff_of_false (by decide) fun given => ?_
      have isAll := left.all.mpr given
      rw [isPhase] at isAll
      cases isAll
    · have isRequest := left.request (headers early) given
      rw [isPhase] at isRequest
      cases isRequest
    · rw [unset]
      intro isRequest
      cases isRequest
  · have same : (e.endPhase phase started tx).allowType = tx.allowType := if_neg isPhase
    refine ⟨documented, ?_, ?_, fun early => ?_, ?_⟩
    · rwa [same]
    · rw [same]
      exact left.all
    · rw [same]
      exact left.request (headers early)
    · rw [same]
      exact left.given

theorem AllowsSettled.apiStep {a b : Transaction} (step : ApiStep host waf (fun _ => True) a b)
    (settled : AllowsRegular a → AllowsSettled waf a) (regular : AllowsRegular b) :
    AllowsSettled waf b := by
  cases step with
  | feed v ticks =>
    have before := settled ⟨regular.logging, regular.request, regular.once⟩
    exact ⟨before.documented, before.ended, before.all, before.request, before.given⟩
  | buffer d buffer grows =>
    cases d <;>
    · have before := settled ⟨regular.logging, regular.request, regular.once⟩
      exact ⟨before.documented, before.ended, before.all, before.request, before.given⟩
  | reject d =>
    have before := settled ⟨regular.logging, regular.request, regular.once⟩
    exact ⟨before.documented, before.ended, before.all, before.request, before.given⟩
  | eval phase running due =>
    have steps := Engine.rulesLoop_steps (e := waf.engine host) engine_quiet phase 0 waf.rules
      (Engine.beginPhase phase a)
    have phases : ((waf.engine host).eval phase a).history.phases = _ := eval_phases phase a
    have before := settled (regular.earlier (phases ▸ List.prefix_append ..) steps.allows)
    have tracked := before.begin due fun logging =>
      regular.logging ⟨phase, a.flow⟩ (by rw [phases]; simp) logging
    have looped : AllowsRegular
        ((waf.engine host).rulesLoop phase 0 waf.rules (Engine.beginPhase phase a)) :=
      ⟨regular.logging, regular.request, regular.once⟩
    have sofar : AllowsDocumented waf (Engine.beginPhase phase a) := before.documented
    obtain ⟨documented, left⟩ := rulesLoop_documented engine_quiet rfl rfl tracked sofar looped
    refine left.end (Steps.frame (·.lastPhase) LoopStep.lastPhase steps) ?_ documented
    rintro rfl
    exact due

end

/-! ## Evaluation does not look at the field -/

def allowLock : Lockstep transformArg transformArg where
  tied cache tx := cache = tx.transformationCache
  synced := False
  apart _ _ := False
  tied_of_mask tied same := tied.trans (congr_arg Mask.cache same).symm
  tied_allow _ tied := tied
  apart_stays apart _ _ := apart
  left_quiet := transformArg_quiet
  right_quiet := transformArg_quiet
  transform r arg argIdx {cache tx} type tied := by
    subst tied
    exact .inr ⟨_, rfl, rfl, rfl⟩

theorem evaluateReached_allowType (e : Engine) (cached : e.transform = transformArg) (r : RuleChain)
    (tx : Transaction) (type : AllowType) :
    ∃ type', e.evaluateReached r { tx with allowType := type } =
      { e.evaluateReached r tx with allowType := type' } := by
  obtain ⟨rt, waf, transform⟩ := e
  obtain rfl : transform = transformArg := cached
  have live : allowLock.Live { tx with allowType := type } tx :=
    ⟨tx.transformationCache, type, rfl, fun synced => synced.elim, rfl⟩
  rcases Lockstep.evaluateReached rt waf live r with apart | ⟨cache, type', tied, _, inStep⟩
  · exact apart.elim
  · obtain rfl : cache = _ := tied
    exact ⟨type', inStep⟩

/-- In a regular run every rule that is reached is treated as documented, and the
evaluation of a rule does not depend on what was allowed. -/
theorem allowsRegular_documented (host : Host) (waf : WAF) (object : PoolObject host waf)
    (opts : Options) (now : Int) (calls : List Call)
    (regular : AllowsRegular (run host waf (object.newTransaction opts now) calls)) :
    AllowsDocumented waf (run host waf (object.newTransaction opts now) calls) ∧
      ∀ r tx type, ∃ type', (waf.engine host).evaluateReached r { tx with allowType := type } =
        { (waf.engine host).evaluateReached r tx with allowType := type' } := by
  refine ⟨?_, evaluateReached_allowType _ rfl⟩
  refine (run_keeps (P := fun tx => AllowsRegular tx → AllowsSettled waf tx)
    AllowsSettled.apiStep (fun _ => ?_) calls regular).documented
  refine ⟨fun _ found => ?_, nofun, iff_of_false nofun ?_, fun _ given => ?_, nofun⟩
  · cases found
  · rintro ⟨_, found, _⟩
    cases found
  · obtain ⟨_, found, _⟩ := given
    cases found

def allowWAF (action : Action) (phase later : RulePhase) : WAF :=
  { newWAF [] with rules := [
      { head := { id := 1, phase, actions := [⟨str "allow", action⟩] } },
      { head := { id := 2, phase := later, actions := [⟨str "deny", .deny⟩] } }] }

def allowRun (action : Action) (phase later : RulePhase) (calls : List Call) : Transaction :=
  run .plain (allowWAF action phase later)
    ((PoolObject.new .plain (allowWAF action phase later)).newTransaction ⟨str "a", 0⟩ 1) calls

theorem allowsRegular_documented_request :
    AllowsDocumented (allowWAF (.allow .request (by decide)) .requestHeaders .requestBody)
      (allowRun (.allow .request (by decide)) .requestHeaders .requestBody
        [.processRequestHeaders, .processBody .request, .processLogging]) :=
  (allowsRegular_documented .plain _ (.new .plain _) ⟨str "a", 0⟩ 1 _
    ⟨by decide, by decide, by decide⟩).1

/-- A plain `allow` suppresses the rules of the logging phase too, and an
`allow:request` in a response phase suppresses nothing. -/
theorem allows_undocumented :
    ¬ AllowsDocumented (allowWAF (.allow .all (by decide)) .requestHeaders .logging)
        (allowRun (.allow .all (by decide)) .requestHeaders .logging
          [.processRequestHeaders, .processLogging]) ∧
      (allowRun (.allow .all (by decide)) .requestHeaders .logging
        [.processRequestHeaders, .processLogging]).matchedRules.map (·.rule.id) = [1] ∧
      ¬ AllowsDocumented (allowWAF (.allow .request (by decide)) .responseHeaders .responseHeaders)
        (allowRun (.allow .request (by decide)) .responseHeaders .responseHeaders
          [.processResponseHeaders 200 (str "HTTP/1.1")]) ∧
      (allowRun (.allow .request (by decide)) .responseHeaders .responseHeaders
        [.processResponseHeaders 200 (str "HTTP/1.1")]).interruption =
        some { status := 403, ruleID := 2, action := str "deny" } := by
  decide

end Obsidian
