import Obsidian.EvaluationFrames

namespace Obsidian

open Obsidian.Data Relation

/-! # What evaluating a rule can do

`RuleStep` lists every way in which the evaluation of a rule changes the
transaction, with the condition under which it does.  Evaluation is a sequence
of such steps, so what all of them keep, evaluation keeps.
-/

structure Settings where
  auditEngine : AuditEngineStatus
  auditLogParts : Bytes
  forceRequestBodyVariable : Bool
  forceResponseBodyVariable : Bool
  debugLogLevel : Int
  ruleRemoveByID : List Int
  ruleRemoveTargetByID : List (Int × RuleVariableParams)

def Transaction.withSettings (tx : Transaction) (s : Settings) : Transaction :=
  { tx with
    auditEngine := s.auditEngine
    auditLogParts := s.auditLogParts
    forceRequestBodyVariable := s.forceRequestBodyVariable
    forceResponseBodyVariable := s.forceResponseBodyVariable
    debugLogLevel := s.debugLogLevel
    ruleRemoveByID := s.ruleRemoveByID
    ruleRemoveTargetByID := s.ruleRemoveTargetByID }

inductive RuleStep : Transaction → Transaction → Prop
  | vars (tx : Transaction) (v : TransactionVariables) (ticks : Nat) :
      RuleStep tx { tx with vars := v, ticks }
  | note (tx : Transaction) (event : Event) : RuleStep tx (tx.note event)
  | capture (tx : Transaction) (capture : Bool) : RuleStep tx { tx with capture }
  | lookup (tx : Transaction) (cache : TransformationCache) (lookup : Lookup) :
      RuleStep tx ({ tx with transformationCache := cache }.recordLookup lookup)
  | logMatch (tx : Transaction) (audit : Bool) (matchedRules : List MatchedRule)
      (v : TransactionVariables) : RuleStep tx { tx with audit, matchedRules, vars := v }
  | settings (tx : Transaction) (s : Settings) : RuleStep tx (tx.withSettings s)
  | engine (tx : Transaction) (status : RuleEngineStatus) :
      RuleStep tx { tx with ruleEngine := status }
  | requestBody (tx : Transaction) (access : Bool) (limit : Int)
      (early : tx.lastPhase ≤ .requestHeaders)
      (fits : limit = tx.requestBodyLimit ∨ IsInt64 limit) :
      RuleStep tx { tx with requestBodyAccess := access, requestBodyLimit := limit }
  | responseBody (tx : Transaction) (access : Bool) (limit : Int)
      (early : tx.lastPhase ≤ .responseHeaders)
      (fits : limit = tx.responseBodyLimit ∨ IsInt64 limit) :
      RuleStep tx { tx with responseBodyAccess := access, responseBodyLimit := limit }
  | interrupt (tx : Transaction) (interruption : Interruption) (on : tx.ruleEngine = .on) :
      RuleStep tx (tx.setInterruption interruption)
  | allow (tx : Transaction) (type : AllowType) (given : type ≠ .unset)
      (on : tx.ruleEngine = .on) :
      RuleStep tx
        { tx with
          allowType := type
          history := { tx.history with
            allows := tx.history.allows ++ [⟨tx.lastPhase, type, tx.history.allowed⟩]
            allowed := true } }
  | skip (tx : Transaction) (count : Int) : RuleStep tx { tx with skip := count }
  | skipAfter (tx : Transaction) (marker : Bytes) : RuleStep tx { tx with skipAfter := marker }

abbrev RuleSteps : Transaction → Transaction → Prop := ReflTransGen RuleStep

/-! ## Actions -/

structure SilentStep (a b : Transaction) : Prop where
  step : RuleStep a b
  events : b.history.events = a.history.events
  capture : b.capture = a.capture

abbrev SilentSteps : Transaction → Transaction → Prop := ReflTransGen SilentStep

namespace SilentSteps

theorem one {a b : Transaction} (step : RuleStep a b)
    (events : b.history.events = a.history.events) (capture : b.capture = a.capture := by rfl) :
    SilentSteps a b := .single ⟨step, events, capture⟩

theorem rule {a b : Transaction} (steps : SilentSteps a b) : RuleSteps a b :=
  ReflTransGen.mono (fun _ _ silent => silent.step) _ _ steps

theorem events {a b : Transaction} (steps : SilentSteps a b) :
    b.history.events = a.history.events :=
  Steps.frame (·.history.events) (fun silent => silent.events) steps

theorem capture {a b : Transaction} (steps : SilentSteps a b) : b.capture = a.capture :=
  Steps.frame (·.capture) (fun silent => silent.capture) steps

theorem settings (tx : Transaction) (s : Settings) : SilentSteps tx (tx.withSettings s) :=
  one (.settings tx s) rfl

theorem vars (tx : Transaction) (v : TransactionVariables) (ticks : Nat) :
    SilentSteps tx { tx with vars := v, ticks } := one (.vars tx v ticks) rfl

theorem removeTargets (a : CtlFn) (tx : Transaction) (ids : List Int) :
    SilentSteps tx (a.removeTargets tx ids) :=
  Steps.foldl id (fun tx _ _ => settings tx { tx with ruleRemoveTargetByID := _ }) tx

theorem removeRules (tx : Transaction) (ids : List Int) :
    SilentSteps tx (CtlFn.removeRules tx ids) :=
  Steps.foldl id (fun tx _ _ => settings tx { tx with ruleRemoveByID := _ }) tx

theorem ctl (rt : Runtime) (waf : WAF) (a : CtlFn) (tx : Transaction) :
    SilentSteps tx (a.evaluate rt waf tx) := by
  simp only [CtlFn.evaluate]
  split
  case h_1 => exact Steps.optional _ fun ids _ => removeTargets a tx ids
  case h_2 | h_3 => exact removeTargets a tx _
  case h_4 => exact Steps.optional _ fun ae _ => settings tx { tx with auditEngine := ae }
  case h_5 => exact Steps.optional _ fun p _ => settings tx { tx with auditLogParts := p }
  case h_6 =>
      exact Steps.optional _ fun b _ => settings tx { tx with forceRequestBodyVariable := b }
  case h_7 =>
      exact Steps.guarded fun early => Steps.optional _ fun b _ =>
        one (.requestBody tx b _ early (.inl rfl)) rfl
  case h_8 =>
      exact Steps.guarded fun early => Steps.optional _ fun limit parsed =>
        one (.requestBody tx _ limit early (.inr (parseInt_range parsed))) rfl
  case h_9 => exact Steps.guarded fun _ => vars tx _ _
  case h_10 => exact Steps.optional _ fun re _ => one (.engine tx re) rfl
  case h_11 =>
      split
      · exact Steps.optional _ fun ids _ => removeRules tx ids
      · exact Steps.optional _ fun id _ => settings tx { tx with ruleRemoveByID := _ }
  case h_12 | h_13 => exact removeRules tx _
  case h_14 =>
      exact Steps.guarded fun early => Steps.optional _ fun b _ =>
        one (.responseBody tx b _ early (.inl rfl)) rfl
  case h_15 =>
      exact Steps.guarded fun early => Steps.optional _ fun limit parsed =>
        one (.responseBody tx _ limit early (.inr (parseInt_range parsed))) rfl
  case h_16 =>
      exact Steps.optional _ fun b _ => settings tx { tx with forceResponseBodyVariable := b }
  case h_17 => exact Steps.guarded fun _ => vars tx _ _
  case h_18 | h_19 => exact .refl
  case h_20 => exact Steps.optional _ fun lvl _ => settings tx { tx with debugLogLevel := lvl }

theorem setvar (rt : Runtime) (key value : Macro) (isRemove : Bool) (tx : Transaction) :
    SilentSteps tx (evaluateSetvar rt key value isRemove tx) := by
  unfold evaluateSetvar
  dsimp only
  split
  · exact vars tx _ _
  · exact Steps.optional _ fun _ _ => vars tx _ _

theorem interrupt (tx : Transaction) (interruption : Interruption) :
    SilentSteps tx (tx.interrupt interruption) :=
  Steps.guarded fun on => one (.interrupt tx interruption on) rfl

theorem action (rt : Runtime) (waf : WAF) (r : Rule) (a : Action) (tx : Transaction)
    (on : a.type = .disruptive → tx.ruleEngine = .on) :
    SilentSteps tx (a.evaluate rt waf r tx) := by
  cases a
  case allow type given => exact one (.allow tx type given (on rfl)) rfl
  case deny | drop | redirect => exact interrupt tx _
  case skip count => exact one (.skip tx count) rfl
  case skipAfter marker => exact one (.skipAfter tx marker) rfl
  case ctl fn => exact ctl rt waf fn tx
  case setvar key value isRemove => exact setvar rt key value isRemove tx
  case setenv => exact vars tx _ _
  all_goals exact .refl

theorem executeOperator (rt : Runtime) (op : RuleOperatorParams) (data : Bytes)
    (tx : Transaction) : SilentSteps tx (Rule.executeOperator rt op data tx).2 := by
  refine Steps.foldl id (fun tx effect _ => ?_) tx
  cases effect with
  | captureField index value => exact Steps.guarded fun _ => vars tx _ _
  | setTX key values => exact vars tx _ _
  | setArgsPath key value => exact vars tx _ _

end SilentSteps

/-! ## The evaluation -/

namespace Engine

variable {e : Engine}

/-- Transforming an argument only touches the cache and the record of lookups. -/
def Quiet (e : Engine) : Prop :=
  ∀ r arg argIdx tx, ∃ cache lookup,
    (e.transform r arg argIdx tx).2 = { tx with transformationCache := cache }.recordLookup lookup

theorem Quiet.step (quiet : e.Quiet) (r : Rule) (arg : MatchData) (argIdx : Nat)
    (tx : Transaction) : RuleStep tx (e.transform r arg argIdx tx).2 := by
  obtain ⟨cache, lookup, same⟩ := quiet r arg argIdx tx
  rw [same]
  exact .lookup tx cache lookup

theorem ruleMoves (quiet : e.Quiet) : e.Moves (fun _ => True) RuleStep where
  note event tx := .single (.note tx event)
  action r _ a _ tx on := (SilentSteps.action e.rt e.waf r a.function tx on).rule
  operator _ _ op _ data tx := (SilentSteps.executeOperator e.rt op data tx).rule
  matchVariable _ tx := .single (.vars tx _ _)
  matchRule _ _ tx := .single (.logMatch tx _ _ _)
  transform r arg argIdx tx := .single (quiet.step r arg argIdx tx)
  visit tx := .single (.vars tx tx.vars _)
  announce r _ level tx :=
    .tail (.tail (.single (.capture tx r.capture)) (.vars _ (r.describe e.rt tx.vars) tx.ticks))
      (.note _ (.evaluatingRule level))
  clear tx := .single (.vars tx _ tx.ticks)
  release tx := .single (.capture tx false)

section

variable (quiet : e.Quiet) (r : Rule) (op : RuleOperatorParams) (level : Nat)
include quiet

theorem evaluateValue_steps (arg : MatchData) (state : Transaction × List MatchData)
    (carg : Bytes) : RuleSteps state.1 (e.evaluateValue r op level arg state carg).1 :=
  (ruleMoves quiet).evaluateValue trivial level
    (fun data tx => (SilentSteps.executeOperator e.rt op data tx).rule) arg state carg

theorem evaluateArgument_steps (state : Transaction × List MatchData) (arg : MatchData × Nat) :
    RuleSteps state.1 (e.evaluateArgument r op level state arg).1 :=
  (ruleMoves quiet).evaluateArgument trivial level
    (fun data tx => (SilentSteps.executeOperator e.rt op data tx).rule) state arg

theorem evaluateVariable_steps (ecol : List RuleVariableParams)
    (state : Transaction × List MatchData) (v : RuleVariableParams) :
    RuleSteps state.1 (e.evaluateVariable r op level ecol state v).1 :=
  (ruleMoves quiet).evaluateVariable trivial level
    (fun data tx => (SilentSteps.executeOperator e.rt op data tx).rule) ecol state v

end

theorem evaluateReached_steps (quiet : e.Quiet) (r : RuleChain) (tx : Transaction) :
    RuleSteps tx (e.evaluateReached r tx) :=
  (ruleMoves quiet).evaluateReached (fun _ _ => trivial) tx

end Engine

/-! ## The loop over the rules -/

/-- What the loop of `RuleGroup.Eval` can do: evaluate a rule, record a round, or
change the fields that steer it. -/
inductive LoopStep (phase : RulePhase) : Transaction → Transaction → Prop
  | rule {tx next : Transaction} (step : RuleStep tx next) : LoopStep phase tx next
  | record (tx : Transaction) (position : Nat) (verdict : Verdict) :
      LoopStep phase tx (tx.recordRound phase position verdict)
  | flow (tx : Transaction) (flow : Flow) : LoopStep phase tx (tx.withFlow flow)

abbrev LoopSteps (phase : RulePhase) : Transaction → Transaction → Prop :=
  ReflTransGen (LoopStep phase)

theorem RuleSteps.loop {phase : RulePhase} {tx next : Transaction} (steps : RuleSteps tx next) :
    LoopSteps phase tx next :=
  ReflTransGen.mono (fun _ _ step => LoopStep.rule step) _ _ steps

theorem round_steps (phase : RulePhase) (position : Nat) (r : Rule) (tx : Transaction) :
    LoopSteps phase tx (round phase position r tx).2 :=
  .tail (.single (.record tx position _)) (.flow _ _)

theorem Engine.rules_next {e : Engine} {i : Nat} {r : RuleChain} {rest : List RuleChain}
    (suffix : e.waf.rules.drop i = r :: rest) : e.waf.rules.drop (i + 1) = rest := by
  rw [← List.tail_drop, suffix, List.tail_cons]

theorem Engine.rulesLoop_steps {e : Engine} (quiet : e.Quiet) (phase : RulePhase) (i : Nat)
    (rules : List RuleChain) (tx : Transaction) :
    LoopSteps phase tx (e.rulesLoop phase i rules tx) := by
  induction rules generalizing i tx with
  | nil => exact .single (.record tx i .stop)
  | cons r rest ih =>
    have passed := round_steps phase i r.head tx
    revert passed
    simp only [rulesLoop]
    rcases round phase i r.head tx with ⟨_ | _ | _, next⟩ <;> intro passed
    · exact passed
    · exact passed.trans (ih (i + 1) next)
    · exact passed.trans ((e.evaluateReached_steps quiet r next).loop.trans (ih (i + 1) _))

theorem transformArg_quiet (rt : Runtime) (waf : WAF) :
    (Engine.mk rt waf transformArg).Quiet :=
  fun _ _ _ _ => ⟨_, _, rfl⟩

theorem transformUncached_quiet (rt : Runtime) (waf : WAF) :
    (Engine.mk rt waf transformUncached).Quiet :=
  fun _ _ _ tx => ⟨tx.transformationCache, _, rfl⟩

/-! ## What evaluation records -/

section

variable {phase : RulePhase} {a b : Transaction}

theorem RuleSteps.lastPhase (steps : RuleSteps a b) : b.lastPhase = a.lastPhase :=
  Steps.frame (·.lastPhase) (fun step => by cases step <;> rfl) steps

theorem RuleSteps.rounds (steps : RuleSteps a b) : b.history.rounds = a.history.rounds :=
  Steps.frame (·.history.rounds) (fun step => by cases step <;> rfl) steps

theorem LoopSteps.rounds (steps : LoopSteps phase a b) :
    a.history.rounds <+: b.history.rounds := by
  refine Steps.extends (·.history.rounds) (fun step => ?_) steps
  cases step with
  | rule step => exact RuleSteps.rounds (.single step) ▸ List.prefix_refl _
  | record => exact List.prefix_append ..
  | flow => exact List.prefix_refl _

end

end Obsidian
