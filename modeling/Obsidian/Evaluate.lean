import Obsidian.Actions

namespace Obsidian

open Obsidian.Data

/-! # Rule evaluation

`Rule.doEvaluate` and `RuleGroup.Eval`.  They are written over the way an
argument is transformed, so that evaluation with the transformation cache can be
compared with evaluation without it.
-/

abbrev TransformArg := Rule → MatchData → (argIdx : Nat) → Transaction →
  TransformationValue × Transaction

/-- What rule evaluation runs with besides the transaction. -/
structure Engine where
  rt : Runtime
  waf : WAF
  transform : TransformArg

/-! ## Transforming an argument -/

/-- The key under which `transformArg` caches, if it caches at all. -/
def Rule.cacheKey (r : Rule) (arg : MatchData) (argIdx : Nat) : Option TransformationKey :=
  if r.transformations.isEmpty then none
  else if arg.var.name = str "TX" then none
  else some {
    argKey := arg.key.addr
    argIndex := argIdx
    argVariable := arg.var
    transformationsID := r.transformationsID }

def Transaction.recordLookup (tx : Transaction) (lookup : Lookup) : Transaction :=
  { tx with history := { tx.history with lookups := tx.history.lookups ++ [lookup] } }

def transformArg : TransformArg := fun r arg argIdx tx =>
  let outcome := r.executeTransformations arg.value
  let key := r.cacheKey arg argIdx
  let cached := key.bind fun key => tx.transformationCache.lookup key
  let handed := cached.getD outcome
  let cache :=
    match key, cached with
    | some key, none => tx.transformationCache.insert key outcome
    | _, _ => tx.transformationCache
  (handed, { tx with transformationCache := cache }.recordLookup { key, outcome, handed })

def transformUncached : TransformArg := fun r arg argIdx tx =>
  let outcome := r.executeTransformations arg.value
  (outcome, tx.recordLookup { key := r.cacheKey arg argIdx, outcome, handed := outcome })

/-! ## One rule -/

namespace Rule

def expand (r : Rule) (tx : Transaction) (md : MatchData) : MatchData :=
  { md with
    message := r.msg.elim md.message (·.expand tx.vars)
    data := r.logData.elim md.data (·.expand tx.vars) }

def executeOperator (rt : Runtime) (op : RuleOperatorParams) (data : Bytes) (tx : Transaction) :
    Bool × Transaction :=
  let (result, effects) := op.operator.evaluate tx.state data
  (xor result op.negation, effects.foldl (fun tx effect => tx.applyEffect rt effect) tx)

def describe (rt : Runtime) (r : Rule) (v : TransactionVariables) : TransactionVariables :=
  let set (v : TransactionVariables) (key : String) (value : Bytes) : TransactionVariables :=
    v.mapSetIndex rt .rule (.lit key) 0 value
  let v := set v "id" r.logID
  let v := r.msg.elim v fun msg => set v "msg" msg.string
  let v := set v "rev" r.rev
  let v := r.logData.elim v fun logData => set v "logdata" logData.string
  set v "severity" (severityName r.severity)

end Rule

namespace Engine

variable (e : Engine)

def runAction (r : Rule) (level : Nat) (tx : Transaction) (a : RuleAction) : Transaction :=
  if a.function.type = .nondisruptive then
    a.function.evaluate e.rt e.waf r (tx.note (.evaluatingAction level a.name))
  else tx

def matchVariable (r : Rule) (level : Nat) (tx : Transaction) (m : MatchData) : Transaction :=
  let tx := (tx.note (.matchingRule level)).matchVariable e.rt m
  r.actions.foldl (e.runAction r level) tx

def evaluateValue (r : Rule) (op : RuleOperatorParams) (level : Nat) (arg : MatchData)
    (state : Transaction × List MatchData) (carg : Bytes) : Transaction × List MatchData :=
  let (found, tx) := Rule.executeOperator e.rt op carg state.1
  if found then
    let mr : MatchData := { var := arg.var, key := arg.key, value := carg, chainLevel := level }
    let tx := e.matchVariable r level tx mr
    -- the head of a chain expands its message once the whole chain has matched
    let mr := if r.parentID ≠ noID ∨ r.hasChain = false then r.expand tx mr else mr
    (tx.note (.evaluatingOperator level carg true), state.2 ++ [mr])
  else (tx.note (.evaluatingOperator level carg false), state.2)

def evaluateArgument (r : Rule) (op : RuleOperatorParams) (level : Nat)
    (state : Transaction × List MatchData) (arg : MatchData × Nat) :
    Transaction × List MatchData :=
  if r.multiMatch then
    (r.executeTransformationsMultimatch arg.1.value).1.foldl
      (e.evaluateValue r op level arg.1) state
  else
    let (transformed, tx) := e.transform r arg.1 arg.2 state.1
    e.evaluateValue r op level arg.1 (tx, state.2) transformed.1

def evaluateVariable (r : Rule) (op : RuleOperatorParams) (level : Nat)
    (ecol : List RuleVariableParams) (state : Transaction × List MatchData)
    (v : RuleVariableParams) : Transaction × List MatchData :=
  let removed := (ecol.filter fun c => c.var = v.var).map fun c =>
    ({ keyStr := c.keyStr.text, keyRx := none } : RuleVariableException)
  let values := state.1.getField e.rt { v with exceptions := v.exceptions ++ removed }
  let tx := { state.1 with ticks := state.1.ticks + 1 }.note (.expandingArguments level v.var)
  values.zipIdx.foldl (e.evaluateArgument r op level) (tx, state.2)

def announce (r : Rule) (level : Nat) (tx : Transaction) : Transaction :=
  { tx with capture := r.capture, vars := r.describe e.rt tx.vars }.note (.evaluatingRule level)

def evaluateOwn (r : Rule) (level : Nat) (tx : Transaction) : Transaction × List MatchData :=
  let tx := e.announce r level tx
  match r.operator with
  | none =>
    let md : MatchData := {}
    let md := if r.parentID ≠ noID ∨ r.multiMatch then r.expand tx md else md
    (e.matchVariable r level tx md, [md])
  | some op =>
    let ecol := (tx.ruleRemoveTargetByID.filter (·.1 = r.id)).map Prod.snd
    r.vars.foldl (e.evaluateVariable r op level ecol) (tx, [])

def concludeAction (r : Rule) (level : Nat) (tx : Transaction) (a : RuleAction) : Transaction :=
  if a.function.type = .flow then
    a.function.evaluate e.rt e.waf r (tx.note (.evaluatingFlowAction level a.name))
  else if a.function.type = .disruptive ∧ tx.ruleEngine = .on then
    a.function.evaluate e.rt e.waf r (tx.note (.executingDisruptiveAction level a.name))
  else tx

def conclude (r : Rule) (level : Nat) (tx : Transaction) (matched : List MatchData) :
    Transaction × List MatchData :=
  let matched :=
    if r.hasChain ∨ r.operator.isNone then matched.modifyHead (r.expand tx) else matched
  let tx := r.actions.foldl (e.concludeAction r level) tx
  let tx :=
    if r.id ≠ noID then (tx.note (.ruleMatched level)).matchRule e.rt r matched else tx
  (tx, matched)

/-- `Rule.doEvaluate`, given the loop over the rules chained to `r`.  The loop
answers `none` when one of them did not match. -/
def doEvaluateWith (chain : Nat → Transaction → Transaction × Option (List MatchData))
    (r : Rule) (level : Nat) (tx : Transaction) : Transaction × List MatchData :=
  let (tx, matched) := e.evaluateOwn r level tx
  if matched.isEmpty then (tx, [])
  else if r.parentID = noID then
    match chain level tx with
    | (tx, none) => (tx, [])
    | (tx, some chained) => e.conclude r level tx (matched ++ chained)
  else (tx, matched)

/-- The loop over `Chain`.  Each rule evaluated in it is handed the rest of the
chain and walks that too if it takes itself for a parent. -/
def chainLoop : List Rule → Nat → Transaction → List MatchData →
    Transaction × Option (List MatchData)
  | [], _, tx, matched => (tx, some matched)
  | nr :: rest, level, tx, matched =>
    let (tx, found) :=
      e.doEvaluateWith (fun level tx => chainLoop rest level tx []) nr (level + 1) tx
    if found.isEmpty then (tx, none) else chainLoop rest (level + 1) tx (matched ++ found)

def doEvaluate (r : Rule) (chain : List Rule) (level : Nat) (tx : Transaction) :
    Transaction × List MatchData :=
  e.doEvaluateWith (fun level tx => e.chainLoop chain level tx []) r level tx

theorem chainLoop_cons (nr : Rule) (rest : List Rule) (level : Nat) (tx : Transaction)
    (matched : List MatchData) :
    e.chainLoop (nr :: rest) level tx matched =
      if (e.doEvaluate nr rest (level + 1) tx).2.isEmpty then
        ((e.doEvaluate nr rest (level + 1) tx).1, none)
      else
        e.chainLoop rest (level + 1) (e.doEvaluate nr rest (level + 1) tx).1
          (matched ++ (e.doEvaluate nr rest (level + 1) tx).2) := rfl

def evaluate (r : RuleChain) (tx : Transaction) : Transaction :=
  (e.doEvaluate r.head r.members 0 tx).1

end Engine

/-! ## A phase -/

/-- The tests of `RuleGroup.Eval` in front of `Rule.Evaluate`, in their order. -/
def reach (phase : RulePhase) (r : Rule) (flow : Flow) : Verdict × Flow :=
  if flow.interrupted ∧ phase ≠ .logging then (.stop, flow)
  else if r.phase ≠ .unknown ∧ r.phase ≠ phase then (.pass, flow)
  else if flow.removed.contains r.id then (.pass, flow)
  else if flow.skipAfter ≠ [] then
    if r.secMark = flow.skipAfter then (.pass, { flow with skipAfter := [] }) else (.pass, flow)
  else if flow.skip > 0 then (.pass, { flow with skip := flow.skip - 1 })
  else
    match flow.allowType with
    | .unset => (.run, flow)
    | .phase => (.stop, flow)
    | .request =>
      if phase = .requestHeaders then (.stop, flow)
      else if phase = .requestBody then (.stop, { flow with allowType := .unset })
      else (.run, flow)
    | .all => (.stop, flow)

def round (phase : RulePhase) (position : Nat) (r : Rule) (tx : Transaction) :
    Verdict × Transaction :=
  let (verdict, flow) := reach phase r tx.flow
  (verdict, (tx.recordRound phase position verdict).withFlow flow)

namespace Engine

variable (e : Engine)

def evaluateReached (r : RuleChain) (tx : Transaction) : Transaction :=
  let tx := { tx with vars := tx.vars.setMap .matchedVars ∅ }
  { e.evaluate r tx with capture := false }

def rulesLoop (phase : RulePhase) : (i : Nat) → List RuleChain → Transaction → Transaction
  | i, [], tx => tx.recordRound phase i .stop
  | i, r :: rest, tx =>
    match round phase i r.head tx with
    | (.stop, tx) => tx
    | (.pass, tx) => rulesLoop phase (i + 1) rest tx
    | (.run, tx) => rulesLoop phase (i + 1) rest (e.evaluateReached r tx)

section

variable {e} {phase : RulePhase} {r : RuleChain} {tx : Transaction} {flow : Flow}

theorem rulesLoop_stop (reached : reach phase r.head tx.flow = (.stop, flow)) (i : Nat)
    (rest : List RuleChain) :
    e.rulesLoop phase i (r :: rest) tx = (tx.recordRound phase i .stop).withFlow flow := by
  simp [rulesLoop, round, reached]

theorem rulesLoop_pass (reached : reach phase r.head tx.flow = (.pass, flow)) (i : Nat)
    (rest : List RuleChain) :
    e.rulesLoop phase i (r :: rest) tx =
      e.rulesLoop phase (i + 1) rest ((tx.recordRound phase i .pass).withFlow flow) := by
  simp [rulesLoop, round, reached]

theorem rulesLoop_run (reached : reach phase r.head tx.flow = (.run, flow)) (i : Nat)
    (rest : List RuleChain) :
    e.rulesLoop phase i (r :: rest) tx =
      e.rulesLoop phase (i + 1) rest
        (e.evaluateReached r ((tx.recordRound phase i .run).withFlow flow)) := by
  simp [rulesLoop, round, reached]

end

def beginPhase (phase : RulePhase) (tx : Transaction) : Transaction :=
  { tx with
    lastPhase := phase
    transformationCache := ∅
    history := { tx.history with
      phases := tx.history.phases ++ [⟨phase, tx.flow⟩]
      allowed := false
      lookups := [] } }

/-- `RuleGroup.Eval` after the loop; `SkipAfter` is not touched. -/
def endPhase (phase : RulePhase) (started : Int) (tx : Transaction) : Transaction :=
  { tx with
    allowType := if tx.allowType = .phase then .unset else tx.allowType
    skip := 0
    stopWatches := Function.update tx.stopWatches phase (wrap64 (e.rt.now tx.ticks - started))
    ticks := tx.ticks + 1 }

def eval (phase : RulePhase) (tx : Transaction) : Transaction :=
  let started := e.rt.now tx.ticks
  e.endPhase phase started (e.rulesLoop phase 0 e.waf.rules (beginPhase phase tx))

end Engine

end Obsidian
