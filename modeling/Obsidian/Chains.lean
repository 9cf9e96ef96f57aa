import Obsidian.Api
import Obsidian.RuleSteps

namespace Obsidian

open Obsidian.Data Relation

/-! # Chains

The traces that evaluating a chain leaves.  A rule of the chain is told from its
head by the id of its parent, which is the head's.
-/

/-! ## Traces

A trace tells what happens between two transactions: what is noted, and which matches
are found.
-/

abbrev Trace := Transaction → List Event → List MatchData → Transaction → Prop

inductive InTurn {ι : Type} (trace : ι → Trace) : List ι → Trace
  | nil (tx : Transaction) : InTurn trace [] tx [] [] tx
  | cons {i : ι} {rest : List ι} {tx mid after : Transaction} {events more : List Event}
      {found others : List MatchData} (first : trace i tx events found mid)
      (later : InTurn trace rest mid more others after) :
      InTurn trace (i :: rest) tx (events ++ more) (found ++ others) after

def RuleAction.concludeEvent (level : Nat) (mode : RuleEngineStatus) (a : RuleAction) :
    Option Event :=
  if a.function.type = .flow then some (.evaluatingFlowAction level a.name)
  else if a.function.type = .disruptive ∧ mode = .on then
    some (.executingDisruptiveAction level a.name)
  else none

namespace Rule

variable (r : Rule) (level : Nat)

def matchEvents : List Event :=
  .matchingRule level ::
    (r.actions.filter (·.function.type = .nondisruptive)).map (.evaluatingAction level ·.name)

/-- A rule without an id is not logged. -/
def concludeEvents (mode : RuleEngineStatus) : List Event :=
  r.actions.filterMap (RuleAction.concludeEvent level mode) ++
    if r.id ≠ noID then [.ruleMatched level] else []

def matchOf (arg : MatchData) (value : Bytes) : MatchData :=
  { var := arg.var, key := arg.key, value, chainLevel := level }

/-- The match as it is kept after the actions. -/
def keptMatch (acted : Transaction) (md : MatchData) : MatchData :=
  if r.parentID ≠ noID ∨ r.hasChain = false then r.expand acted md else md

end Rule

namespace Engine

variable (e : Engine) (r : Rule) (level : Nat)

/-- The operator on one value.  If it matches, the match is recorded and the
non-disruptive actions are executed. -/
inductive ValueTrace (op : RuleOperatorParams) (arg : MatchData) (value : Bytes) : Trace
  | missed {tx operated : Transaction}
      (result : Rule.executeOperator e.rt op value tx = (false, operated)) :
      ValueTrace op arg value tx [.evaluatingOperator level value false] []
        (operated.note (.evaluatingOperator level value false))
  | matched {tx operated acted : Transaction}
      (result : Rule.executeOperator e.rt op value tx = (true, operated))
      (actions : e.matchVariable r level operated (Rule.matchOf level arg value) = acted) :
      ValueTrace op arg value tx
        (r.matchEvents level ++ [.evaluatingOperator level value true])
        [r.keptMatch acted (Rule.matchOf level arg value)]
        (acted.note (.evaluatingOperator level value true))

/-- The operator gets the transformed value, or with `multiMatch` all its forms. -/
inductive ArgumentTrace (op : RuleOperatorParams) (arg : MatchData × Nat) : Trace
  | forms (multiMatch : r.multiMatch = true) {tx after : Transaction} {events : List Event}
      {found : List MatchData}
      (evaluated : InTurn (e.ValueTrace r level op arg.1)
        (r.executeTransformationsMultimatch arg.1.value).1 tx events found after) :
      ArgumentTrace op arg tx events found after
  | transformed (single : r.multiMatch = false) {tx mid after : Transaction} {events : List Event}
      {found : List MatchData} {value : TransformationValue}
      (transformed : e.transform r arg.1 arg.2 tx = (value, mid))
      (evaluated : e.ValueTrace r level op arg.1 value.1 mid events found after) :
      ArgumentTrace op arg tx events found after

/-- The values that a target selects, without those excluded from it. -/
inductive TargetTrace (op : RuleOperatorParams) (ecol : List RuleVariableParams)
    (v : RuleVariableParams) : Trace
  | visited {tx after : Transaction} {events : List Event} {found values : List MatchData}
      (selected : tx.getField e.rt { v with exceptions := v.exceptions ++
        (ecol.filter fun c => c.var = v.var).map fun c => ⟨c.keyStr.text, none⟩ } = values)
      (evaluated : InTurn (e.ArgumentTrace r level op) values.zipIdx
        ({ tx with ticks := tx.ticks + 1 }.note (.expandingArguments level v.var))
        events found after) :
      TargetTrace op ecol v tx (.expandingArguments level v.var :: events) found after

/-- One rule without its chain: each of its targets is visited once.  A rule without an
operator matches. -/
inductive OwnTrace : Trace
  | action (noOperator : r.operator = none) {tx announced : Transaction} {md : MatchData}
      (began : e.announce r level tx = announced)
      (found : md = if r.parentID ≠ noID ∨ r.multiMatch then r.expand announced {} else {}) :
      OwnTrace tx (.evaluatingRule level :: r.matchEvents level) [md]
        (e.matchVariable r level announced md)
  | targets {op : RuleOperatorParams} (operator : r.operator = some op)
      {tx announced after : Transaction} {events : List Event} {found : List MatchData}
      (began : e.announce r level tx = announced)
      (visited : InTurn (e.TargetTrace r level op
        ((announced.ruleRemoveTargetByID.filter (·.1 = r.id)).map Prod.snd)) r.vars announced
        events found after) :
      OwnTrace tx (.evaluatingRule level :: events) found after

/-- A chained rule that has matched; one whose parent has no id concludes itself. -/
def settle (state : Transaction × List MatchData) : Transaction × List MatchData :=
  if r.parentID = noID then e.conclude r level state.1 state.2 else state

def settleEvents (tx : Transaction) : List Event :=
  if r.parentID = noID then r.concludeEvents level tx.ruleEngine else []

/-- The rules chained to a head, from the first up to the first that does not match: then
there is no match of the chain. -/
inductive MembersTrace :
    List Rule → Nat → Transaction → List Event → Option (List MatchData) → Transaction → Prop
  | done {level : Nat} {tx : Transaction} : MembersTrace [] level tx [] (some []) tx
  | unmatched {r : Rule} {rest : List Rule} {level : Nat} {tx after : Transaction}
      {events : List Event} (own : e.OwnTrace r level tx events [] after) :
      MembersTrace (r :: rest) level tx events none after
  | matched {r : Rule} {rest : List Rule} {level : Nat} {tx mid settled after : Transaction}
      {events more : List Event} {found kept : List MatchData} {others : Option (List MatchData)}
      (own : e.OwnTrace r level tx events found mid) (hit : found ≠ [])
      (ended : e.settle r level (mid, found) = (settled, kept))
      (later : MembersTrace rest (level + 1) settled more others after) :
      MembersTrace (r :: rest) level tx (events ++ settleEvents r level mid ++ more)
        (others.map (kept ++ ·)) after

/-- A chain.  It is concluded, by the head's flow and disruptive actions and its log entry,
when all its rules have matched. -/
inductive ChainTrace (chain : RuleChain) (tx : Transaction) : List Event → Transaction → Prop
  | unmatched {after : Transaction} {events : List Event}
      (own : e.OwnTrace chain.head 0 tx events [] after) : ChainTrace chain tx events after
  | broken {mid after : Transaction} {events more : List Event} {found : List MatchData}
      (own : e.OwnTrace chain.head 0 tx events found mid) (hit : found ≠ [])
      (walked : e.MembersTrace chain.members 1 mid more none after) :
      ChainTrace chain tx (events ++ more) after
  | concluded {mid last : Transaction} {events more : List Event} {found chained : List MatchData}
      (own : e.OwnTrace chain.head 0 tx events found mid) (hit : found ≠ [])
      (walked : e.MembersTrace chain.members 1 mid more (some chained) last) :
      ChainTrace chain tx (events ++ more ++ chain.head.concludeEvents 0 last.ruleEngine)
        (e.conclude chain.head 0 last (found ++ chained)).1

end Engine

/-! ## The rule's own targets -/

/-- What a trace tells happened between two stages of an evaluation. -/
def Traced (trace : Trace) (before after : Transaction × List MatchData) : Prop :=
  ∃ events found, trace before.1 events found after.1 ∧
    after.1.history.events = before.1.history.events ++ events ∧ after.2 = before.2 ++ found

theorem Traced.inTurn {ι : Type} {trace : ι → Trace}
    {f : Transaction × List MatchData → ι → Transaction × List MatchData}
    (each : ∀ state i, Traced (trace i) state (f state i)) (items : List ι)
    (state : Transaction × List MatchData) :
    Traced (InTurn trace items) state (items.foldl f state) := by
  induction items generalizing state with
  | nil => exact ⟨[], [], .nil _, (List.append_nil _).symm, (List.append_nil _).symm⟩
  | cons i rest ih =>
    obtain ⟨events, found, first, noted, matched⟩ := each state i
    obtain ⟨more, others, later, noted', matched'⟩ := ih (f state i)
    refine ⟨events ++ more, found ++ others, .cons first later, ?_, ?_⟩
    · rw [List.foldl_cons, noted', noted, List.append_assoc]
    · rw [List.foldl_cons, matched', matched, List.append_assoc]

namespace Engine

variable {e : Engine} (r : Rule) (level : Nat)

theorem runActions_events (actions : List RuleAction) (tx : Transaction) :
    (actions.foldl (e.runAction r level) tx).history.events =
      tx.history.events ++ (actions.filter (·.function.type = .nondisruptive)).map
        (.evaluatingAction level ·.name) := by
  induction actions generalizing tx with
  | nil => simp
  | cons a rest ih =>
    rw [List.foldl_cons, ih]
    by_cases kind : a.function.type = .nondisruptive
    · have silent := (SilentSteps.action e.rt e.waf r a.function
        (tx.note (.evaluatingAction level a.name)) (by simp [kind])).events
      simp [runAction, kind, silent]
    · simp [runAction, kind]

theorem matchVariable_events (tx : Transaction) (m : MatchData) :
    (e.matchVariable r level tx m).history.events = tx.history.events ++ r.matchEvents level := by
  simp only [matchVariable]
  rw [runActions_events]
  simp [Transaction.matchVariable, Rule.matchEvents]

theorem evaluateValue_traced (op : RuleOperatorParams) (arg : MatchData)
    (state : Transaction × List MatchData) (value : Bytes) :
    Traced (e.ValueTrace r level op arg value) state
      (e.evaluateValue r op level arg state value) := by
  have silent := (SilentSteps.executeOperator e.rt op value state.1).events
  unfold evaluateValue
  dsimp only
  split
  · next found =>
      refine ⟨_, _, .matched (Prod.ext found rfl) rfl, ?_, rfl⟩
      simp [matchVariable_events, silent]
  · next missed =>
      refine ⟨_, _, .missed (Prod.ext (Bool.eq_false_iff.mpr missed) rfl), ?_,
        (List.append_nil _).symm⟩
      simp [silent]

theorem evaluateArgument_traced (quiet : e.Quiet) (op : RuleOperatorParams)
    (state : Transaction × List MatchData) (arg : MatchData × Nat) :
    Traced (e.ArgumentTrace r level op arg) state (e.evaluateArgument r op level state arg) := by
  simp only [evaluateArgument]
  split
  · next multiMatch =>
      obtain ⟨events, found, evaluated, noted⟩ := Traced.inTurn
        (e.evaluateValue_traced r level op arg.1) (r.executeTransformationsMultimatch arg.1.value).1
        state
      exact ⟨events, found, .forms multiMatch evaluated, noted⟩
  · next single =>
      obtain ⟨cache, lookup, same⟩ := quiet r arg.1 arg.2 state.1
      have unnoted : (e.transform r arg.1 arg.2 state.1).2.history.events =
          state.1.history.events := by
        rw [same]
        rfl
      obtain ⟨events, found, evaluated, noted, matched⟩ := e.evaluateValue_traced r level op arg.1
        ((e.transform r arg.1 arg.2 state.1).2, state.2) (e.transform r arg.1 arg.2 state.1).1.1
      refine ⟨events, found, .transformed (Bool.eq_false_iff.mpr single) rfl evaluated, ?_, matched⟩
      exact noted.trans (congr_arg (· ++ events) unnoted)

theorem evaluateVariable_traced (quiet : e.Quiet) (op : RuleOperatorParams)
    (ecol : List RuleVariableParams) (state : Transaction × List MatchData)
    (v : RuleVariableParams) :
    Traced (e.TargetTrace r level op ecol v) state (e.evaluateVariable r op level ecol state v) := by
  simp only [evaluateVariable]
  obtain ⟨events, found, evaluated, noted, matched⟩ :=
    Traced.inTurn (e.evaluateArgument_traced r level quiet op) _ _
  refine ⟨_, found, .visited rfl evaluated, ?_, matched⟩
  simp [noted]

theorem evaluateOwn_trace (quiet : e.Quiet) (tx : Transaction) :
    ∃ events, e.OwnTrace r level tx events (e.evaluateOwn r level tx).2
        (e.evaluateOwn r level tx).1 ∧
      (e.evaluateOwn r level tx).1.history.events = tx.history.events ++ events := by
  have announced : (e.announce r level tx).history.events =
      tx.history.events ++ [.evaluatingRule level] := rfl
  unfold evaluateOwn
  dsimp only
  split
  · next noOperator =>
      refine ⟨_, .action noOperator rfl rfl, ?_⟩
      rw [matchVariable_events, announced, List.append_assoc]
      rfl
  · next op operator =>
      obtain ⟨events, found, visited, noted, matched⟩ := Traced.inTurn
        (e.evaluateVariable_traced r level quiet op _) r.vars (e.announce r level tx, [])
      rw [matched]
      refine ⟨_, .targets operator rfl visited, ?_⟩
      rw [noted, announced, List.append_assoc]
      rfl

/-! ## The chain -/

theorem evaluate_ruleEngine {a : Action} (kind : a.type = .flow ∨ a.type = .disruptive)
    (tx : Transaction) : (a.evaluate e.rt e.waf r tx).ruleEngine = tx.ruleEngine := by
  have interrupt (i : Interruption) : (tx.interrupt i).ruleEngine = tx.ruleEngine := by
    simp only [Transaction.interrupt]
    split <;> rfl
  cases a
  case deny | drop | redirect => exact interrupt _
  case allow | block | pass | chain | skip | skipAfter => rfl
  all_goals simp [Action.type] at kind

theorem concludeAction_events (tx : Transaction) (a : RuleAction) :
    (e.concludeAction r level tx a).ruleEngine = tx.ruleEngine ∧
      (e.concludeAction r level tx a).history.events =
        tx.history.events ++ (a.concludeEvent level tx.ruleEngine).toList := by
  have acted (event : Event) (kind : a.function.type = .flow ∨ a.function.type = .disruptive)
      (on : a.function.type = .disruptive → tx.ruleEngine = .on) :
      (a.function.evaluate e.rt e.waf r (tx.note event)).ruleEngine = tx.ruleEngine ∧
        (a.function.evaluate e.rt e.waf r (tx.note event)).history.events =
          tx.history.events ++ [event] :=
    ⟨evaluate_ruleEngine r kind _,
      (SilentSteps.action e.rt e.waf r a.function (tx.note event) on).events⟩
  simp only [concludeAction, RuleAction.concludeEvent]
  split
  · next kind => exact acted _ (.inl kind) (by simp [kind])
  · split
    · next kind => exact acted _ (.inr kind.1) fun _ => kind.2
    · simp

theorem concludeActions_events (actions : List RuleAction) (tx : Transaction) :
    (actions.foldl (e.concludeAction r level) tx).ruleEngine = tx.ruleEngine ∧
      (actions.foldl (e.concludeAction r level) tx).history.events = tx.history.events ++
        actions.filterMap (RuleAction.concludeEvent level tx.ruleEngine) := by
  induction actions generalizing tx with
  | nil => simp
  | cons a rest ih =>
    obtain ⟨engine, events⟩ := e.concludeAction_events r level tx a
    obtain ⟨engine', events'⟩ := ih (e.concludeAction r level tx a)
    refine ⟨engine'.trans engine, ?_⟩
    rw [List.foldl_cons, events', events, engine, List.append_assoc]
    congr 1
    cases kind : a.concludeEvent level tx.ruleEngine <;>
      simp [kind]

theorem conclude_events (tx : Transaction) (matched : List MatchData) :
    (e.conclude r level tx matched).1.history.events =
      tx.history.events ++ r.concludeEvents level tx.ruleEngine := by
  obtain ⟨_, noted⟩ := e.concludeActions_events r level r.actions tx
  simp only [conclude, Rule.concludeEvents]
  split
  · calc (((r.actions.foldl (e.concludeAction r level) tx).note (.ruleMatched level)).matchRule
            e.rt r _).history.events
        = (r.actions.foldl (e.concludeAction r level) tx).history.events ++ [.ruleMatched level] :=
          rfl
      _ = _ := by rw [noted, List.append_assoc]
  · rw [noted, List.append_nil]

theorem settle_events (tx : Transaction) (found : List MatchData) :
    (e.settle r level (tx, found)).1.history.events =
      tx.history.events ++ settleEvents r level tx := by
  simp only [settle, settleEvents]
  split
  · exact e.conclude_events r level tx found
  · exact (List.append_nil _).symm

theorem settle_ne_nil {tx : Transaction} {found : List MatchData} (hit : found ≠ []) :
    (e.settle r level (tx, found)).2 ≠ [] := by
  obtain ⟨md, rest, rfl⟩ := List.exists_cons_of_ne_nil hit
  simp only [settle, conclude]
  split
  · dsimp only
    split <;> simp
  · exact hit

/-- A chained rule does not walk the chain if it knows its parent, and has nothing to walk
if it is the last. -/
theorem doEvaluate_member {rest : List Rule} (member : r.parentID ≠ noID ∨ rest = [])
    (tx : Transaction) :
    e.doEvaluate r rest level tx =
      if (e.evaluateOwn r level tx).2 = [] then e.evaluateOwn r level tx
      else e.settle r level (e.evaluateOwn r level tx) := by
  simp only [doEvaluate, doEvaluateWith, List.isEmpty_iff]
  by_cases unmatched : (e.evaluateOwn r level tx).2 = []
  · rw [if_pos unmatched, if_pos unmatched, ← unmatched]
  · rw [if_neg unmatched, if_neg unmatched]
    by_cases parent : r.parentID = noID
    · obtain rfl : rest = [] := member.resolve_left (not_not_intro parent)
      simp only [parent, if_true, chainLoop, settle, List.append_nil]
    · simp only [parent, if_false, settle]

/-- The rules of the chain know their parent, or there is only one. -/
def Linked (members : List Rule) : Prop :=
  (∀ member ∈ members, member.parentID ≠ noID) ∨ members.length ≤ 1

theorem chainLoop_trace (quiet : e.Quiet) {members : List Rule} (linked : Linked members)
    (tx : Transaction) (matched : List MatchData) :
    ∃ events chained, (e.chainLoop members level tx matched).1.history.events =
        tx.history.events ++ events ∧
      (e.chainLoop members level tx matched).2 = chained.map (matched ++ ·) ∧
      e.MembersTrace members (level + 1) tx events chained
        (e.chainLoop members level tx matched).1 := by
  induction members generalizing level tx matched with
  | nil => exact ⟨[], some [], by simp [chainLoop], by simp [chainLoop], .done⟩
  | cons nr rest ih =>
    have member : nr.parentID ≠ noID ∨ rest = [] :=
      linked.imp (fun known => known nr (List.mem_cons_self ..)) (by simp)
    have linked' : Linked rest :=
      linked.imp (fun known member found => known member (List.mem_cons_of_mem nr found))
        fun single => Nat.le_of_succ_le single
    rw [chainLoop_cons, doEvaluate_member nr (level + 1) member]
    obtain ⟨events, own, noted⟩ := e.evaluateOwn_trace nr (level + 1) quiet tx
    by_cases unmatched : (e.evaluateOwn nr (level + 1) tx).2 = []
    · rw [if_pos unmatched, if_pos (List.isEmpty_iff.mpr unmatched)]
      rw [unmatched] at own
      exact ⟨events, none, noted, rfl, .unmatched own⟩
    · rw [if_neg unmatched, if_neg (mt List.isEmpty_iff.mp (settle_ne_nil nr _ unmatched))]
      have ended := e.settle_events nr (level + 1) (e.evaluateOwn nr (level + 1) tx).1
        (e.evaluateOwn nr (level + 1) tx).2
      revert ended
      generalize settled : e.settle nr (level + 1) (e.evaluateOwn nr (level + 1) tx) = state
      intro ended
      obtain ⟨more, chained, noted', kept, later⟩ := ih (level + 1) linked' state.1
        (matched ++ state.2)
      refine ⟨_, _, ?_, ?_, .matched own unmatched settled later⟩
      · rw [noted', ended, noted, List.append_assoc, List.append_assoc, List.append_assoc]
      · rw [kept, Option.map_map]
        simp [Function.comp_def]

theorem evaluate_trace (quiet : e.Quiet) {chain : RuleChain} (parent : chain.head.parentID = noID)
    (linked : Linked chain.members) (tx : Transaction) :
    ∃ events, (e.evaluate chain tx).history.events = tx.history.events ++ events ∧
      e.ChainTrace chain tx events (e.evaluate chain tx) := by
  obtain ⟨events, own, noted⟩ := e.evaluateOwn_trace chain.head 0 quiet tx
  unfold evaluate doEvaluate doEvaluateWith
  dsimp only
  by_cases unmatched : (e.evaluateOwn chain.head 0 tx).2 = []
  · rw [if_pos (List.isEmpty_iff.mpr unmatched)]
    rw [unmatched] at own
    exact ⟨events, noted, .unmatched own⟩
  · rw [if_neg (mt List.isEmpty_iff.mp unmatched), if_pos parent]
    obtain ⟨more, chained, noted', kept, walked⟩ :=
      e.chainLoop_trace 0 quiet linked (e.evaluateOwn chain.head 0 tx).1 []
    revert noted' kept walked
    rcases e.chainLoop chain.members 0 (e.evaluateOwn chain.head 0 tx).1 [] with ⟨last, result⟩
    intro noted' kept walked
    cases chained with
    | none =>
      obtain rfl : result = none := kept
      exact ⟨events ++ more, by rw [noted', noted, List.append_assoc],
        .broken own unmatched walked⟩
    | some chained =>
      obtain rfl : result = some chained := kept
      refine ⟨_, ?_, .concluded own unmatched walked⟩
      rw [conclude_events, noted', noted, List.append_assoc, List.append_assoc,
        List.append_assoc]

end Engine

/-- Evaluating a compiled chain visits the targets of each rule at most once, a rule only
after all rules before it have matched, executes the non-disruptive actions of a rule for
each value its operator matches, and concludes the head exactly if all rules have matched.
The head has an id, or at most one rule is chained to it. -/
theorem compiled_chain_trace (rt : Runtime) (waf : WAF) (head : Rule) (rules : List Rule)
    (known : head.id ≠ noID ∨ (RuleChain.compile head rules).members.length ≤ 1)
    (tx : Transaction) :
    let e := Engine.mk rt waf transformArg
    let chain := RuleChain.compile head rules
    ∃ events, (e.evaluate chain tx).history.events = tx.history.events ++ events ∧
      e.ChainTrace chain tx events (e.evaluate chain tx) := by
  refine Engine.evaluate_trace (transformArg_quiet rt waf) ?_ (known.imp_left ?_) tx
  · rw [RuleChain.compile_head]
  · intro named member found
    rw [RuleChain.compile_parentID found]
    exact named

def methodChain (id : Int) : RuleChain :=
  let anyMethod : Rule :=
    { id, phase := .requestHeaders, hasChain := true, vars := [{ var := .requestMethod }]
      operator := some { operator := ⟨fun _ _ => (true, [])⟩ } }
  let last := { anyMethod with id := noID, hasChain := false }
  .compile { anyMethod with actions := [⟨str "deny", .deny⟩, ⟨str "chain", .chain⟩] }
    [{ anyMethod with id := noID }, last]

def methodChainRun (id : Int) (mode : RuleEngineStatus) : Transaction :=
  let waf := { newWAF [] with ruleEngine := mode }
  (Engine.mk Host.plain.toRuntime waf transformArg).evaluate (methodChain id)
    (waf.newTransaction .plain ⟨str "a", 0⟩ 1 none)

theorem compiled_chain_trace_named :
    let waf := newWAF []
    let e := Engine.mk Host.plain.toRuntime waf transformArg
    let tx := waf.newTransaction .plain ⟨str "a", 0⟩ 1 none
    let pair := RuleChain.compile (methodChain 0).head [{}]
    (∃ events, (e.evaluate (methodChain 1) tx).history.events = tx.history.events ++ events ∧
      e.ChainTrace (methodChain 1) tx events (e.evaluate (methodChain 1) tx)) ∧
    ∃ events, (e.evaluate pair tx).history.events = tx.history.events ++ events ∧
      e.ChainTrace pair tx events (e.evaluate pair tx) :=
  ⟨compiled_chain_trace Host.plain.toRuntime _ _ _ (.inl (by decide)) _,
    compiled_chain_trace Host.plain.toRuntime _ _ _ (.inr (by decide)) _⟩

/-- Without an id on its head the chain is walked twice from the second rule on and
leaves no log; and no disruptive action is executed while the engine only detects. -/
theorem compiled_chain_untraced :
    (methodChainRun 0 .on).history.events.count (.expandingArguments 2 .requestMethod) = 2 ∧
      (methodChainRun 0 .on).matchedRules.length = 0 ∧
      (methodChainRun 1 .on).history.events.count (.expandingArguments 2 .requestMethod) = 1 ∧
      (methodChainRun 1 .detectionOnly).matchedRules.length = 1 ∧
      Event.executingDisruptiveAction 0 (str "deny") ∉
        (methodChainRun 1 .detectionOnly).history.events := by
  decide

end Obsidian
