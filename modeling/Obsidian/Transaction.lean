import Obsidian.BodyBuffer
import Obsidian.Rule

namespace Obsidian

open Obsidian.Data

/-! # Transactions

The state of one request and the operations on it that rules use.  `History`
has no counterpart in the source: it records what the source only logs, and no
function reads it.
-/

structure WAF where
  rules : List RuleChain
  requestBodyAccess : Bool
  requestBodyLimit : Int
  requestBodyInMemoryLimit : Option Int
  responseBodyAccess : Bool
  responseBodyLimit : Int
  ruleEngine : RuleEngineStatus
  responseBodyMimeTypes : List Bytes
  tmpDir : Bytes
  uploadDir : Bytes
  requestBodyLimitAction : BodyLimitAction
  responseBodyLimitAction : BodyLimitAction
  auditEngine : AuditEngineStatus
  auditLogParts : Bytes
  auditLogFormat : Bytes
  auditLogRelevantStatus : Option Regexp
  argumentLimit : Int
  debugLogLevel : Int
  requestBodyLimit_fits : IsInt64 requestBodyLimit := by decide
  responseBodyLimit_fits : IsInt64 responseBodyLimit := by decide

def gib : Int := 1073741824

def WAF.validate (w : WAF) : Option GoError :=
  if w.requestBodyLimit ≤ 0 then some (str "request body limit should be bigger than 0")
  else if w.requestBodyLimit > gib then some (str "request body limit should be at most 1GiB")
  else if w.requestBodyInMemoryLimit.any (· ≤ 0) then
    some (str "request body memory limit should be bigger than 0")
  else if w.requestBodyInMemoryLimit.any (w.requestBodyLimit < ·) then
    some (str "request body limit should be at least the memory limit")
  else if w.responseBodyLimit ≤ 0 then some (str "response body limit should be bigger than 0")
  else if w.responseBodyLimit > gib then some (str "response body limit should be at most 1GiB")
  else if w.argumentLimit ≤ 0 then some (str "argument limit should be bigger than 0")
  else none

theorem WAF.validate_limits {w : WAF} (valid : w.validate = none) :
    (0 < w.requestBodyLimit ∧ w.requestBodyLimit ≤ gib) ∧
      0 < w.responseBodyLimit ∧ w.responseBodyLimit ≤ gib := by
  simp only [WAF.validate] at valid
  repeat' split at valid
  all_goals first | omega | cases valid

/-! ## Matched rules -/

inductive DisruptiveAction where
  | unknown | allow | deny | drop | pass | redirect
deriving DecidableEq, Repr

def disruptiveAction (name : Bytes) : DisruptiveAction :=
  if name = str "allow" then .allow
  else if name = str "deny" then .deny
  else if name = str "drop" then .drop
  else if name = str "pass" then .pass
  else if name = str "redirect" then .redirect
  else .unknown

structure MatchedRule where
  message : Bytes := []
  data : Bytes := []
  uri : Bytes
  transactionID : Bytes
  disruptive : Bool := false
  disruptiveAction : DisruptiveAction := .unknown
  serverIPAddress : Bytes
  clientIPAddress : Bytes
  matchedDatas : List MatchData
  rule : RuleMetadata
  log : Bool
  context : Nat
deriving DecidableEq, Repr

/-! ## The transformation cache -/

structure TransformationKey where
  argKey : Addr
  argIndex : Nat
  argVariable : RuleVariable
  transformationsID : Nat
deriving DecidableEq, Repr

abbrev TransformationValue := Bytes × List GoError

abbrev TransformationCache := AList fun _ : TransformationKey => TransformationValue

/-! ## History -/

/-- What one rule did, `level` being its place in the chain. -/
inductive Event where
  | evaluatingRule (level : Nat)
  | expandingArguments (level : Nat) (var : RuleVariable)
  | evaluatingOperator (level : Nat) (value : Bytes) (matched : Bool)
  | matchingRule (level : Nat)
  | evaluatingAction (level : Nat) (name : Bytes)
  | evaluatingFlowAction (level : Nat) (name : Bytes)
  | executingDisruptiveAction (level : Nat) (name : Bytes)
  | ruleMatched (level : Nat)
deriving DecidableEq, Repr

/-- One call of `transformArg`: the cache key if the cache was consulted, what
the transformations make of the value, and what the operator was given. -/
structure Lookup where
  key : Option TransformationKey
  outcome : TransformationValue
  handed : TransformationValue
deriving DecidableEq, Repr

structure Flow where
  interrupted : Bool
  removed : List Int
  skipAfter : Bytes
  skip : Int
  allowType : AllowType
deriving DecidableEq, Repr

structure PhaseStart where
  phase : RulePhase
  flow : Flow
deriving DecidableEq, Repr

/-- An `allow` that was executed, and whether it was not the first of its phase. -/
structure Allow where
  phase : RulePhase
  type : AllowType
  again : Bool
deriving DecidableEq, Repr

/-- What the loop of `RuleGroup.Eval` does with a rule it has reached: break off,
go on to the next rule, or evaluate it first. -/
inductive Verdict where
  | stop | pass | run
deriving DecidableEq, Repr

/-- One round of the loop over the rules: the rule's place in the list, the
state in front of it, and what is done with the rule.  A loop that is not broken
off ends with a round past the list. -/
structure LoopRound where
  phase : RulePhase
  position : Nat
  flow : Flow
  allows : List Allow
  allowed : Bool
  verdict : Verdict
deriving DecidableEq, Repr

structure History where
  phases : List PhaseStart := []
  rounds : List LoopRound := []
  /-- Every interruption set, with the engine's mode at that moment. -/
  interruptions : List (RuleEngineStatus × Interruption) := []
  allows : List Allow := []
  allowed : Bool := false
  events : List Event := []
  lookups : List Lookup := []
deriving DecidableEq, Repr

/-! ## The transaction -/

structure Transaction where
  id : Bytes
  context : Nat
  matchedRules : List MatchedRule
  interruption : Option Interruption
  logdata : Bytes
  skipAfter : Bytes
  allowType : AllowType
  auditEngine : AuditEngineStatus
  auditLogParts : Bytes
  auditLogFormat : Bytes
  forceRequestBodyVariable : Bool
  requestBodyAccess : Bool
  requestBodyLimit : Int
  forceResponseBodyVariable : Bool
  responseBodyAccess : Bool
  responseBodyLimit : Int
  ruleEngine : RuleEngineStatus
  hashEngine : Bool
  hashEnforcement : Bool
  lastPhase : RulePhase
  requestBodyBuffer : BodyBuffer
  responseBodyBuffer : BodyBuffer
  ruleRemoveByID : List Int
  ruleRemoveTargetByID : List (Int × RuleVariableParams)
  skip : Int
  capture : Bool
  stopWatches : RulePhase → Int
  debugLogLevel : Int
  timestamp : Int
  audit : Bool
  vars : TransactionVariables
  transformationCache : TransformationCache
  /-- How often the runtime's choices were consulted so far. -/
  ticks : Nat
  history : History

namespace Transaction

def flow (tx : Transaction) : Flow :=
  { interrupted := tx.interruption.isSome
    removed := tx.ruleRemoveByID
    skipAfter := tx.skipAfter
    skip := tx.skip
    allowType := tx.allowType }

def withFlow (tx : Transaction) (flow : Flow) : Transaction :=
  { tx with skipAfter := flow.skipAfter, skip := flow.skip, allowType := flow.allowType }

def recordRound (tx : Transaction) (phase : RulePhase) (position : Nat) (verdict : Verdict) :
    Transaction :=
  let record : LoopRound := {
    phase, position, verdict
    flow := tx.flow
    allows := tx.history.allows
    allowed := tx.history.allowed }
  { tx with history := { tx.history with rounds := tx.history.rounds ++ [record] } }

def note (tx : Transaction) (event : Event) : Transaction :=
  { tx with history := { tx.history with events := tx.history.events ++ [event] } }

@[simp] theorem note_events (tx : Transaction) (event : Event) :
    (tx.note event).history.events = tx.history.events ++ [event] := rfl

def setInterruption (tx : Transaction) (interruption : Interruption) : Transaction :=
  { tx with
    interruption := some interruption
    history := { tx.history with
      interruptions := tx.history.interruptions ++ [(tx.ruleEngine, interruption)] } }

def interrupt (tx : Transaction) (interruption : Interruption) : Transaction :=
  if tx.ruleEngine = .on then tx.setInterruption interruption else tx

def state (tx : Transaction) : TransactionState :=
  { vars := tx.vars, capturing := tx.capture, lastPhase := tx.lastPhase }

def captureField (rt : Runtime) (tx : Transaction) (index : Nat) (value : Bytes) : Transaction :=
  if tx.capture then
    let key := itoa index
    { tx with vars := tx.vars.mapSetIndex rt .tx ⟨.literal key, key⟩ 0 value }
  else tx

def applyEffect (rt : Runtime) (tx : Transaction) : OperatorEffect → Transaction
  | .captureField index value => tx.captureField rt index value
  | .setTX key values => { tx with vars := tx.vars.mapSet rt .tx key values }
  | .setArgsPath key value => { tx with vars := tx.vars.mapSetIndex rt .argsPath key 0 value }

def selectField (rt : Runtime) (tx : Transaction) (rv : RuleVariableParams) : List MatchData :=
  let col := rv.var.collection
  let found :=
    match rv.keyRx with
    | some rx => if col.keyed then tx.vars.findRegex rt tx.ticks rx col else []
    | none =>
      if rv.keyStr.text ≠ [] then
        if col.keyed then tx.vars.findString rt rv.keyStr.text col else []
      else tx.vars.findAll rt tx.ticks col
  found.filter fun c =>
    let lkey := rt.toLower c.key.text
    !rv.exceptions.any fun ex =>
      ex.keyRx.any (·.matchString lkey) || rt.toLower ex.keyStr == lkey

def getField (rt : Runtime) (tx : Transaction) (rv : RuleVariableParams) : List MatchData :=
  if rv.var.collection = .absent then []
  else
    let found := tx.selectField rt rv
    if rv.count then [{ var := rv.var, key := rv.keyStr, value := itoa found.length }] else found

def matchVariable (rt : Runtime) (tx : Transaction) (m : MatchData) : Transaction :=
  let name := m.var.name
  let varName : GoString :=
    if m.key.text ≠ [] then ⟨rt.alloc tx.ticks, name ++ 58 :: m.key.text⟩
    else ⟨.literal name, name⟩
  let vars := (tx.vars.mapAdd rt .matchedVars varName m.value).setSingle .matchedVar m.value
  { tx with vars := vars.setSingle .matchedVarName varName.text, ticks := tx.ticks + 1 }

def matchRule (rt : Runtime) (tx : Transaction) (r : Rule) (mds : List MatchData) : Transaction :=
  let maxSeverity := parseRuleSeverity rt.unicodeLower (tx.vars.single .highestSeverity)
  let vars :=
    if r.severity > maxSeverity then tx.vars.setSingle .highestSeverity (itoa r.severity)
    else tx.vars
  let disruptive :=
    if tx.ruleEngine = .on then r.actions.find? (·.function.type = .disruptive) else none
  let first := mds.find? (·.message ≠ [])
  let mr : MatchedRule := {
    uri := vars.single .requestURI
    transactionID := tx.id
    serverIPAddress := vars.single .serverAddr
    clientIPAddress := vars.single .remoteAddr
    rule := r.toRuleMetadata
    log := r.log
    matchedDatas := mds
    context := tx.context
    disruptive := disruptive.isSome
    disruptiveAction := disruptive.elim .unknown fun a => Obsidian.disruptiveAction a.name
    message := first.elim [] (·.message)
    data := first.elim [] (·.data) }
  { tx with audit := tx.audit || r.audit, vars, matchedRules := tx.matchedRules ++ [mr] }

def removeRuleTargetByID (tx : Transaction) (id : Int) (var : RuleVariable) (key : Bytes) :
    Transaction :=
  let c : RuleVariableParams := { var, keyStr := ⟨.literal key, key⟩ }
  { tx with ruleRemoveTargetByID := tx.ruleRemoveTargetByID ++ [(id, c)] }

def removeRuleByID (tx : Transaction) (id : Int) : Transaction :=
  { tx with ruleRemoveByID := tx.ruleRemoveByID ++ [id] }

end Transaction

/-- Equal but for the transformation cache, which every phase empties first. -/
def SameButCache (a b : Transaction) : Prop :=
  a = { b with transformationCache := a.transformationCache }

end Obsidian
