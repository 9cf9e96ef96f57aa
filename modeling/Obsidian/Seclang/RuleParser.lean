import Obsidian.Seclang.Compiled
import Mathlib.Logic.Function.Basic

namespace Obsidian

open Obsidian.Data

/-! # The rule parser

`rule_parser.go`: from the text of a `SecRule` or `SecAction` to a compiled rule.
-/

variable (host : SeclangHost)

/-! ## Action lists -/

/-- The keys and values of an action list.  A comma ends an item and the first colon
its key, unless a backslash precedes them or quotes are open. -/
def splitActionsFrom (previous : UInt8) (inQuotes : Bool) (key : Bytes) (value : Option Bytes) :
    Bytes → List (Bytes × Bytes)
  | [] => [(key, value.getD [])]
  | c :: rest =>
    let (longerKey, longerValue) := match value with
      | none => (key ++ [c], none)
      | some value => (key, some (value ++ [c]))
    if previous = byte '\\' then splitActionsFrom c inQuotes longerKey longerValue rest
    else if c = 39 then splitActionsFrom c (!inQuotes) longerKey longerValue rest
    else if inQuotes then splitActionsFrom c inQuotes longerKey longerValue rest
    else if c = byte ':' ∧ value = none then splitActionsFrom c inQuotes key (some []) rest
    else if c = byte ',' then (key, value.getD []) :: splitActionsFrom c inQuotes [] none rest
    else splitActionsFrom c inQuotes longerKey longerValue rest

/-- The loop of `parseActions` starts at the second byte. -/
def splitActions : Bytes → List (Bytes × Bytes)
  | [] => [([], [])]
  | first :: rest => splitActionsFrom first false [first] none rest

namespace SeclangHost

def actionKey (key : Bytes) : Bytes := host.toLower (trimSpace key)

def ruleAction (pair : Bytes × Bytes) : Except GoError ActionItem :=
  let key := host.actionKey pair.1
  match ActionName.get key with
  | some name => .ok { name := name, value := maybeRemoveQuotes (trimSpace pair.2) }
  | none => .error (str "invalid action " ++ host.quote key)

def appendItem (state : List ActionItem × Option Nat) (item : ActionItem) :
    List ActionItem × Option Nat :=
  match item.disruptive, state.2 with
  | true, some index => (state.1.set index item, some index)
  | true, none => (state.1 ++ [item], some state.1.length)
  | false, index => (state.1 ++ [item], index)

def appendRuleAction (state : List ActionItem × Option Nat) (pair : Bytes × Bytes) :
    Except GoError (List ActionItem × Option Nat) :=
  (host.ruleAction pair).map (appendItem state)

def parseActions (actions : Bytes) : Except GoError (List ActionItem) :=
  ((splitActions actions).foldlM host.appendRuleAction ([], none)).map (·.1)

end SeclangHost

def mergeActions (origin defaults : List ActionItem) : List ActionItem :=
  let res := defaults.filter fun action =>
    action.name.type ≠ .disruptive ∧ action.name.type ≠ .metadata
  -- `ParseDefaultActions` has made sure that there is a disruptive default
  let da := (defaults.filter (·.disruptive)).getLast?
  let own := origin.filter fun action => action.disruptive → action.name ≠ .block
  if own.any (·.disruptive) then res ++ own else res ++ own ++ da.toList

/-! ## Default actions -/

abbrev DefaultActions := RulePhase → Option (List ActionItem)

namespace SeclangHost

/-- The loop of `ParseDefaultActions`: the phase and whether a disruptive action was
seen. -/
def checkDefaultAction (actions : Bytes) (seen : RulePhase × Bool) (action : ActionItem) :
    Except GoError (RulePhase × Bool) :=
  if action.name = .phase then (parseRulePhase action.value).map fun phase => (phase, seen.2)
  else if action.name.type = .metadata then
    .error (str "SecDefaultAction must not contain metadata actions: " ++ actions)
  else if action.name = .t then
    .error (str "SecDefaultAction must not contain transformation actions: " ++ actions)
  else .ok (seen.1, seen.2 || action.disruptive)

def parseDefaultActions (defaults : DefaultActions) (actions : Bytes) :
    Except GoError DefaultActions := do
  let act ← host.parseActions actions
  let (phase, disruptive) ← act.foldlM (checkDefaultAction actions) (.unknown, false)
  if phase = .unknown then .error (str "SecDefaultAction must contain a phase")
  else if ¬disruptive then
    .error (str "SecDefaultAction must contain a disruptive action: " ++ actions)
  else if (defaults phase).isSome then
    .error (str "SecDefaultAction already defined for this phase: " ++ actions)
  else .ok (Function.update defaults phase (some act))

def defaultActionsPhase2 : Bytes := str "phase:2,log,auditlog,pass"

/-- The defaults `ParseRule` sets up: those declared, and the hard-coded ones if
none were declared for phase 2. -/
def defaultActions (declared : List Bytes) : Except GoError DefaultActions := do
  let defaults ← declared.foldlM host.parseDefaultActions fun _ => none
  match defaults .requestBody with
  | some _ => .ok defaults
  | none => host.parseDefaultActions defaults defaultActionsPhase2

/-! ## ParseActions -/

def initMetadata (r : CompiledRule) (action : ActionItem) : Except GoError CompiledRule :=
  if action.name.type = .metadata then
    match host.init action.name action.value r with
    | .ok r => .ok r
    | .error err => .error (str "failed to init action " ++ action.name.key ++ str ": " ++ err)
  else .ok r

def initAction (r : CompiledRule) (action : ActionItem) : Except GoError CompiledRule :=
  if action.name.type = .metadata then .ok r
  else (host.init action.name action.value r).map fun r =>
    { r with actions := r.actions ++ [action] }

/-- The disruptive actions as they are written in an action list, also those that
a later one replaces. -/
def writtenDisruptive (actions : Bytes) : List ActionItem :=
  ((splitActions actions).filterMap fun pair => (host.ruleAction pair).toOption).filter
    (·.disruptive)

def recordActions (actions : Bytes) (defaults : Option (List ActionItem)) (r : CompiledRule) :
    CompiledRule :=
  { r with origin := { r.origin with
      written := r.origin.written ++ host.writtenDisruptive actions
      inherited := match defaults with
        | some defaults => (defaults.filter (·.disruptive)).getLast?
        | none => r.origin.inherited } }

/-- One of the loops of `ParseActions`.  What it did before an error stays done. -/
def initAll (init : CompiledRule → ActionItem → Except GoError CompiledRule) :
    List ActionItem → CompiledRule → CompiledRule × Option GoError
  | [], r => (r, none)
  | action :: rest, r =>
    match init r action with
    | .ok r => initAll init rest r
    | .error err => (r, some err)

/-- `RuleParser.ParseActions` on the rule `r`. -/
def parseRuleActions (disabledActions : List Bytes) (defaultActions : DefaultActions)
    (actions : Bytes) (r : CompiledRule) : CompiledRule × Option GoError :=
  match host.parseActions actions with
  | .error err => (r, some err)
  | .ok act =>
    match act.find? fun a => disabledActions.contains a.name.key with
    | some a => (r, some (a.name.key ++ str " rule action is disabled"))
    | none =>
      match initAll host.initMetadata act r with
      | (r, some err) => (r, some err)
      | (r, none) =>
        let defaults := defaultActions r.phase
        let act := match defaults with
          | some defaults => mergeActions act defaults
          | none => act
        match initAll host.initAction act r with
        | (r, some err) => (r, some err)
        | (r, none) => (host.recordActions actions defaults r, none)

end SeclangHost

/-! ## Variables -/

def hasRegex (key : Bytes) : Option Bytes :=
  if 2 < key.length ∧ key.head? = some (byte '/') ∧ key.getLast? = some (byte '/') then
    some key.tail.dropLast
  else none

def caseSensitiveVariable : RuleVariable → Bool
  | .args | .argsNames | .argsGet | .argsPost | .argsGetNames | .argsPostNames => true
  | _ => false

/-- A call of `AddVariable` or `AddVariableNegation`. -/
inductive VariableOp where
  | add (params : VariableParams)
  | negate (var : RuleVariable) (exception : RuleVariableException)

namespace SeclangHost

def keyRegexp (key : Bytes) : Except GoError (Option Regexp) :=
  match hasRegex key with
  | some rx => (host.compileRegexp rx).map some
  | none => .ok none

def variableOp (isNegation isCount : Bool) (v : RuleVariable) (key : Bytes) :
    Except GoError VariableOp :=
  (host.keyRegexp key).map fun re =>
    if isNegation then .negate v { keyStr := key, keyRx := re }
    else .add
      { count := isCount, var := v, keyRx := re
        keyStr := if caseSensitiveVariable v then key else host.toLower key }

end SeclangHost

/-- Where `ParseVariables` is: in a name, in a key, inside a regular expression or
inside an XPath. -/
inductive VariableMode where
  | name | key | regex | xpath
deriving DecidableEq, Repr

structure VariableScan where
  curr : VariableMode := .name
  isNegation : Bool := false
  isCount : Bool := false
  curVar : Bytes := []
  curKey : Bytes := []
  isEscaped : Bool := false
  isquoted : Bool := false
deriving DecidableEq, Repr

namespace VariableScan

def ends (st : VariableScan) (c : UInt8) (rest : Bytes) : Bool :=
  (c = byte '|' ∧ st.curr ≠ .regex) ∨ rest = [] ∨
    (st.curr = .regex ∧ c = byte '/' ∧ st.isEscaped = false)

def takeLast (st : VariableScan) (c : UInt8) : VariableScan :=
  if c = byte '|' then st
  else if st.curr = .name then { st with curVar := st.curVar ++ [c] }
  else if st.curr ≠ .regex ∧ c ≠ byte '/' then { st with curKey := st.curKey ++ [c] }
  else st

def advance (st : VariableScan) (c : UInt8) : VariableScan :=
  match st.curr with
  | .name =>
    if c = byte '!' then { st with isNegation := true }
    else if c = byte '&' then { st with isCount := true }
    else if c = byte ':' then { st with curr := .key }
    else { st with curVar := st.curVar ++ [c] }
  | .key =>
    if st.curKey = [] ∧ (st.curVar = str "XML" ∨ st.curVar = str "JSON") then
      { st with curr := .xpath, curKey := st.curKey ++ [c] }
    else if c = byte '/' then { st with curr := .regex }
    else if c = 39 then { st with isquoted := true }
    else { st with curKey := st.curKey ++ [c] }
  | .regex =>
    if c = byte '/' ∧ st.isEscaped = false then { st with curr := .key }
    else if c = byte '\\' then
      { st with curKey := st.curKey ++ [c], isEscaped := !st.isEscaped }
    else { st with curKey := st.curKey ++ [c], isEscaped := false }
  | .xpath => { st with curKey := st.curKey ++ [c] }

/-- The bytes skipped after a variable, or none if its quote is not closed. -/
def skips (st : VariableScan) (c : UInt8) (rest : Bytes) : Option Nat :=
  if st.isquoted then
    if rest.head? ≠ some 39 ∧ c ≠ 39 then none else some 2
  else if st.curr = .regex then some 1
  else some 0

end VariableScan

namespace SeclangHost

/-- The variable that ends at `c`. -/
def endVariable (st : VariableScan) (c : UInt8) (rest : Bytes) :
    Except GoError (VariableOp × Nat) := do
  let st := st.takeLast c
  let v ← RuleVariable.parse host.toRuntime st.curVar
  if st.curr = .key ∧ v.canBeSelected = false then
    .error (str "attempting to select a value inside a non-selectable collection: " ++ st.curVar)
  else
    match st.skips c rest with
    | none => .error (str "unclosed quote: " ++ host.quote st.curKey)
    | some skip =>
      let key := if st.curr = .regex then byte '/' :: st.curKey ++ [byte '/'] else st.curKey
      (host.variableOp st.isNegation st.isCount v key).map fun op => (op, skip)

/-- The loop of `ParseVariables`: the calls it makes before it ends or fails.  `skip`
bytes are still to be jumped over. -/
def parseVariablesLoop : Nat → VariableScan → Bytes → List VariableOp × Option GoError
  | _, _, [] => ([], none)
  | skip + 1, st, _ :: rest => parseVariablesLoop skip st rest
  | 0, st, c :: rest =>
    if st.ends c rest then
      match host.endVariable st c rest with
      | .error err => ([], some err)
      | .ok (op, skip) =>
        let (ops, err) := parseVariablesLoop skip { isEscaped := st.isEscaped } rest
        (op :: ops, err)
    else parseVariablesLoop 0 (st.advance c) rest

def parseVariables (vars : Bytes) : List VariableOp × Option GoError :=
  host.parseVariablesLoop 0 {} vars

end SeclangHost

def VariableParams.negate (v : RuleVariable) (exception : RuleVariableException)
    (params : VariableParams) : VariableParams :=
  if params.var = v then { params with exceptions := params.exceptions ++ [exception] } else params

namespace SeclangHost

def applyVariableOp (r : CompiledRule) : VariableOp → CompiledRule
  | .add params =>
    { r with
      vars := r.vars ++ [params]
      room := if r.room = 0 then host.grow (r.vars.length + 1) else r.room - 1 }
  | .negate v exception => { r with vars := r.vars.map (VariableParams.negate v exception) }

/-- `RuleParser.ParseVariables` on the rule `r`.  What it did before an error
stays done. -/
def parseRuleVariables (vars : Bytes) (r : CompiledRule) : CompiledRule × Option GoError :=
  let (ops, err) := host.parseVariables vars
  (ops.foldl host.applyVariableOp r, err)

end SeclangHost

/-! ## Operators -/

structure OperatorCall where
  negation : Bool
  name : Bytes
  data : Bytes
deriving DecidableEq, Repr

def splitOperator (operator : Bytes) : OperatorCall :=
  let operator :=
    match operator with
    | [] => str "@rx "
    | c :: rest =>
      if c ≠ byte '@' ∧ c ≠ byte '!' then str "@rx " ++ operator
      else if operator = str "!" then str "!@rx"
      else if c = byte '!' ∧ rest.head? ≠ some (byte '@') then str "!@rx " ++ rest
      else operator
  let (opRaw, opdataRaw) := (cut (byte ' ') operator).getD (operator, [])
  let op := trimSpace opRaw
  let op :=
    if op.head? = some (byte '@') then op.tail
    else if 2 < op.length ∧ op.take 2 = str "!@" then op.drop 2
    else op
  { negation := opRaw.head? = some (byte '!'), name := op, data := trimSpace opdataRaw }

/-! ## Rules -/

/-- `cutQuotedString` after the opening quote: what is up to the closing one, and what
follows. -/
def cutQuotedFrom (escapes : Nat) : Bytes → Option (Bytes × Bytes)
  | [] => none
  | c :: rest =>
    if c ≠ 34 then
      (cutQuotedFrom (if c = byte '\\' then escapes + 1 else 0) rest).map fun (cut, rest) =>
        (c :: cut, rest)
    else if escapes % 2 = 1 then
      (cutQuotedFrom 0 rest).map fun (cut, rest) => (c :: cut, rest)
    else some ([c], rest)

structure RuleText where
  vars : Bytes
  operator : Bytes
  actions : Bytes
deriving DecidableEq, Repr

namespace SeclangHost

def cutQuotedString (s : Bytes) : Except GoError (Bytes × Bytes) :=
  match s with
  | 34 :: rest =>
    match cutQuotedFrom 0 rest with
    | some (cut, rest) => .ok (34 :: cut, rest)
    | none => .error (str "expected terminating quote: " ++ host.quote s)
  | _ => .error (str "expected quoted string: " ++ host.quote s)

def parseActionOperator (data : Bytes) : Except GoError RuleText := do
  let data := trim [byte ' '] data
  match cut (byte ' ') data with
  | none => .error (str "invalid format for rule with operator: " ++ host.quote data)
  | some (vars, rest) =>
    let rest := trimLeft [byte ' '] rest
    if rest.head? ≠ some 34 then
      .error (str "invalid operator for rule with operator: " ++ host.quote data)
    else
      let (op, rest) ← host.cutQuotedString rest
      let op := maybeRemoveQuotes op
      let rest := trimLeft [byte ' '] rest
      if rest = [] then .ok { vars := vars, operator := op, actions := [] }
      else if rest.length < 2 ∨ rest.head? ≠ some 34 ∨ rest.getLast? ≠ some 34 then
        .error (str "invalid actions for rule with operator: " ++ host.quote data)
      else .ok { vars := vars, operator := op, actions := maybeRemoveQuotes rest }

end SeclangHost

/-- The part of `ParserConfig` that directives set. -/
structure ParserConfig where
  disabledRuleActions : List Bytes := []
  disabledRuleOperators : List Bytes := []
  ruleDefaultActions : List Bytes := []
  hasRuleDefaultActions : Bool := false
  ignoreRuleCompilationErrors : Bool := false
deriving DecidableEq, Repr

/-- The raw default actions `ParseRule` parses. -/
def ParserConfig.declared (config : ParserConfig) : List Bytes :=
  if config.hasRuleDefaultActions then config.ruleDefaultActions else []

structure RuleOptions where
  withOperator : Bool
  config : ParserConfig
  lastLine : Nat
  configFile : Bytes
  configDir : Bytes
  workingDir : Bytes
  raw : Bytes
  data : Bytes
  datasets : List (Bytes × List Bytes)

namespace SeclangHost

def parseOperator (options : RuleOptions) (operator : Bytes) (r : CompiledRule) :
    Except GoError CompiledRule := do
  let call := splitOperator operator
  let path :=
    if options.workingDir = [] then [options.configDir] else [options.configDir, options.workingDir]
  let opfn ← host.getOperator call.name
    { arguments := call.data, path := path, datasets := options.datasets }
  .ok { r with operator := some { operator := opfn, negation := call.negation } }

def finishRule (options : RuleOptions) (r : CompiledRule) : CompiledRule :=
  { r with
    file := options.configFile, line := options.lastLine
    origin := { r.origin with id := r.id, phase := r.phase } }

def finished (options : RuleOptions) : CompiledRule × Option GoError → Except GoError CompiledRule
  | (_, some err) => .error err
  | (r, none) => .ok (finishRule options r)

/-- `ParseRule` up to the point where it looks for a chain to join. -/
def compileRule (options : RuleOptions) : Except GoError CompiledRule := do
  if trimSpace options.data = [] then .error (str "empty rule")
  else
    let defaults ← host.defaultActions options.config.declared
    if options.withOperator then
      let text ← host.parseActionOperator options.data
      if options.config.disabledRuleOperators.contains text.operator then
        .error (text.operator ++ str " rule operator is disabled")
      else
        match host.parseRuleVariables text.vars {} with
        | (_, some err) => .error err
        | (r, none) =>
          let r ← host.parseOperator options text.operator r
          if text.actions = [] then .ok (finishRule options r)
          else
            finished options
              (host.parseRuleActions options.config.disabledRuleActions defaults text.actions r)
    else
      finished options
        (host.parseRuleActions options.config.disabledRuleActions defaults
          (maybeRemoveQuotes options.data) {})

end SeclangHost

end Obsidian
