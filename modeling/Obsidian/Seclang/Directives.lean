import Obsidian.Seclang.Parser
import Obsidian.Seclang.RuleParser

namespace Obsidian

open Obsidian.Data

/-! # Directives on rules

`rulegroup.go` and the directives that add, update and remove rules.
-/

variable (host : SeclangHost)

/-! ## The rule group -/

abbrev RuleGroup := List StoredRule

namespace RuleGroup

def findByID (rules : RuleGroup) (id : Int) : Option Nat := rules.findIdx? (·.head.id = id)

def add (rules : RuleGroup) (rule : CompiledRule) : Except GoError RuleGroup :=
  let duplicated := .error (str "duplicated rule id " ++ itoa rule.id)
  if host.shouldDoMandatoryRuleIdCheck then
    if rule.secMark = [] then
      if rule.id = 0 then
        .error (str "rule id is missing, rule residing in file " ++ rule.file ++ str " at line " ++
          itoa rule.line)
      else if (rules.findByID rule.id).isSome then duplicated
      else .ok (rules ++ [{ head := rule }])
    else .ok (rules ++ [{ head := rule }])
  else if rule.id ≠ 0 ∧ (rules.findByID rule.id).isSome then duplicated
  else .ok (rules ++ [{ head := rule }])

def deleteByID (rules : RuleGroup) (id : Int) : RuleGroup := rules.eraseP (·.head.id = id)

def deleteByRange (rules : RuleGroup) (first last : Int) : RuleGroup :=
  rules.filter fun r => r.head.id < first ∨ last < r.head.id

/-- A rule without a message has a nil `Msg`, and asking for its text panics. -/
def deleteByMsg (rules : RuleGroup) (msg : Bytes) : Option RuleGroup :=
  if rules.any fun r => r.head.msg.isNone then none
  else some (rules.filter fun r => r.head.msg.map (·.string) ≠ some msg)

def deleteByTag (rules : RuleGroup) (tag : Bytes) : RuleGroup :=
  rules.filter fun r => ¬r.head.tags.contains tag

end RuleGroup

namespace StoredRule

def last (r : StoredRule) : CompiledRule := r.members.getLast?.getD r.head

/-- What `ParseRule` makes of a rule that continues the chain of `parent`. -/
def link (parent : StoredRule) (rule : CompiledRule) (raw : Bytes) : StoredRule :=
  let rule := { rule with
    parentID := parent.head.id, logID := parent.head.logID, phase := .unknown
    origin := { rule.origin with phase := .unknown } }
  { head := { parent.head with raw := parent.head.raw ++ str " \n" ++ raw }
    members := parent.members ++ [rule] }

end StoredRule

def RuleGroup.lastExpectingChain (rules : RuleGroup) : Option StoredRule :=
  rules.getLast?.filter (·.last.hasChain)

/-! ## Options -/

structure DirectiveOptions where
  rules : RuleGroup := []
  datasets : List (Bytes × List Bytes) := []
  parser : ParserConfig := {}

def errEmptyOptions : GoError := str "expected options"

abbrev DirectiveResult := DirectiveOptions × Option DirectiveFailure

namespace DirectiveOptions

def fail (options : DirectiveOptions) (err : GoError) : DirectiveResult :=
  (options, some (.error err))

/-- An error that `SecIgnoreRuleCompilationErrors` hides. -/
def failUnlessIgnored (options : DirectiveOptions) (err : GoError) : DirectiveResult :=
  if options.parser.ignoreRuleCompilationErrors then (options, none) else options.fail err

def withRules (options : DirectiveOptions) (rules : RuleGroup) : DirectiveResult :=
  ({ options with rules := rules }, none)

def ruleOptions (options : DirectiveOptions) (withOperator : Bool) (call : DirectiveCall) :
    RuleOptions where
  withOperator := withOperator
  config := options.parser
  lastLine := call.lastLine
  configFile := call.configFile
  configDir := call.configDir
  workingDir := call.workingDir
  raw := call.raw
  data := call.opts
  datasets := if withOperator then options.datasets else []

end DirectiveOptions

namespace SeclangHost

/-! ## SecRule, SecAction, SecMarker -/

/-- `ParseRule`: a rule that continues a chain is linked and not returned. -/
def parseRule (options : RuleOptions) (rules : RuleGroup) :
    Except GoError (RuleGroup × Option CompiledRule) :=
  (host.compileRule options).map fun rule =>
    match rules.lastExpectingChain with
    | some parent => (rules.dropLast ++ [parent.link rule options.raw], none)
    | none => (rules, some { rule with raw := options.raw })

def addParsed (rules : RuleGroup) : Option CompiledRule → Except GoError RuleGroup
  | none => .ok rules
  | some rule => rules.add host rule

def directiveSecRule (call : DirectiveCall) (options : DirectiveOptions) : DirectiveResult :=
  if call.opts = [] then options.fail errEmptyOptions
  else
    match host.parseRule (options.ruleOptions true call) options.rules with
    | .error err => options.failUnlessIgnored err
    | .ok (rules, rule) =>
      match host.addParsed rules rule with
      | .error err => options.failUnlessIgnored err
      | .ok rules => options.withRules rules

def directiveSecAction (call : DirectiveCall) (options : DirectiveOptions) : DirectiveResult :=
  if call.opts = [] then options.fail errEmptyOptions
  else
    match host.parseRule (options.ruleOptions false call) options.rules with
    | .error err => options.fail err
    | .ok (rules, rule) =>
      match host.addParsed rules rule with
      | .error err => options.fail err
      | .ok rules => options.withRules rules

def directiveSecMarker (call : DirectiveCall) (options : DirectiveOptions) : DirectiveResult :=
  if call.opts = [] then options.fail errEmptyOptions
  else
    let rule : CompiledRule :=
      { raw := str "SecMarker " ++ call.opts, secMark := call.opts, logID := str "0"
        phase := .unknown, line := call.lastLine, file := call.configFile
        origin := { phase := .unknown } }
    match options.rules.add host rule with
    | .error err => options.fail err
    | .ok rules => options.withRules rules

def directiveSecDefaultAction (call : DirectiveCall) (options : DirectiveOptions) :
    DirectiveResult :=
  if call.opts = [] then options.fail errEmptyOptions
  else
    ({ options with parser := { options.parser with
        ruleDefaultActions := options.parser.ruleDefaultActions ++ [call.opts]
        hasRuleDefaultActions := true } }, none)

def directiveSecIgnoreRuleCompilationErrors (call : DirectiveCall) (options : DirectiveOptions) :
    DirectiveResult :=
  let setTo (b : Bool) : DirectiveResult :=
    ({ options with parser := { options.parser with ignoreRuleCompilationErrors := b } }, none)
  if host.toLower call.opts = str "on" then setTo true
  else if host.toLower call.opts = str "off" then setTo false
  else options.fail (str "syntax error: [on/off]")

end SeclangHost

/-! ## Ids and ranges -/

inductive IDOrRange where
  | single (id : Int)
  | range (first last : Int)
deriving DecidableEq, Repr

namespace SeclangHost

def parseIDOrRange (directive : Bytes) (idOrRange : Bytes) : Except GoError IDOrRange := do
  match cut (byte '-') idOrRange with
  | none =>
    let id ← host.atoi idOrRange
    .ok (.single id)
  | some (first, last) =>
    if first = [] then .error (directive ++ str ": invalid negative id: " ++ idOrRange)
    else
      let first ← host.atoi first
      let last ← host.atoi last
      if last < first then .error (str "invalid range: " ++ idOrRange)
      else .ok (.range first last)

def removeByID : List Bytes → DirectiveOptions → DirectiveResult
  | [], options => (options, none)
  | idOrRange :: rest, options =>
    match host.parseIDOrRange (str "SecRuleRemoveById") idOrRange with
    | .error err => options.fail err
    | .ok (.single id) =>
      removeByID rest { options with rules := options.rules.deleteByID id }
    | .ok (.range first last) =>
      removeByID rest { options with rules := options.rules.deleteByRange first last }

def directiveSecRuleRemoveByID (call : DirectiveCall) (options : DirectiveOptions) :
    DirectiveResult :=
  if call.opts = [] then options.fail errEmptyOptions
  else host.removeByID (fields call.opts) options

def directiveSecRuleRemoveByTag (call : DirectiveCall) (options : DirectiveOptions) :
    DirectiveResult :=
  if call.opts = [] then options.fail errEmptyOptions
  else options.withRules (options.rules.deleteByTag call.opts)

def directiveSecRuleRemoveByMsg (call : DirectiveCall) (options : DirectiveOptions) :
    DirectiveResult :=
  if call.opts = [] then options.fail errEmptyOptions
  else
    match options.rules.deleteByMsg call.opts with
    | none => (options, some .panic)
    | some rules => options.withRules rules

end SeclangHost

/-- The variables of a copy while `ParseVariables` works on it: `stored` is what the
rule in the group shows meanwhile. -/
structure VariablesCopy where
  stored : List VariableParams
  own : List VariableParams
  room : Nat
  shared : Bool

namespace SeclangHost

def copyVariableOp (copy : VariablesCopy) : VariableOp → VariablesCopy
  | .add params =>
    if copy.room = 0 then
      { copy with
        own := copy.own ++ [params], room := host.grow (copy.own.length + 1), shared := false }
    else { copy with own := copy.own ++ [params], room := copy.room - 1 }
  | .negate v exception =>
    let negate := List.map (VariableParams.negate v exception)
    { copy with
      own := negate copy.own
      stored := if copy.shared then negate copy.stored else copy.stored }

/-- What `ParseVariables` on a copy does to the stored rule. -/
def touchVariables (ops : List VariableOp) (r : CompiledRule) : CompiledRule :=
  let copy := ops.foldl host.copyVariableOp
    { stored := r.vars, own := r.vars, room := r.room, shared := true }
  { r with vars := copy.stored }

def updateCopiesTargets (selected : CompiledRule → Bool) (vars : Bytes) :
    RuleGroup → RuleGroup × Option GoError
  | [] => ([], none)
  | r :: rest =>
    if selected r.head then
      let (ops, err) := host.parseVariables vars
      let r := { r with head := host.touchVariables ops r.head }
      match err with
      | some err => (r :: rest, some err)
      | none =>
        let (rest, err) := updateCopiesTargets selected vars rest
        (r :: rest, err)
    else
      let (rest, err) := updateCopiesTargets selected vars rest
      (r :: rest, err)

/-- `ParseActions` on copies: nothing it does to one is seen in the group, only its
error. -/
def updateCopiesActions (selected : CompiledRule → Bool) (actions : Bytes) (rules : RuleGroup) :
    Option GoError :=
  rules.findSome? fun r =>
    if selected r.head then (host.parseRuleActions [] (fun _ => none) actions r.head).2 else none

def updateSingle (directive : Bytes) (update : CompiledRule → CompiledRule × Option GoError)
    (id : Int) (rules : RuleGroup) : RuleGroup × Option GoError :=
  match rules.findByID id with
  | none => (rules, some (directive ++ str ": rule \"" ++ itoa id ++ str "\" not found"))
  | some index =>
    match rules[index]? with
    | none => (rules, none)
    | some r =>
      let (head, err) := update r.head
      (rules.set index { r with head := head }, err)

def unquoted (text : Bytes) : Bytes := trim [34] text

def updateTargetBySingleID (id : Int) (vars : Bytes) (rules : RuleGroup) :
    RuleGroup × Option GoError :=
  updateSingle (str "SecRuleUpdateTargetById") (host.parseRuleVariables (unquoted vars)) id rules

def updateActionBySingleID (id : Int) (actions : Bytes) (rules : RuleGroup) :
    RuleGroup × Option GoError :=
  updateSingle (str "SecRuleUpdateActionById")
    (host.parseRuleActions [] (fun _ => none) (unquoted actions)) id rules

def updateTargets (vars : Bytes) : List Bytes → RuleGroup → RuleGroup × Option GoError
  | [], rules => (rules, none)
  | idOrRange :: rest, rules =>
    match host.parseIDOrRange (str "SecRuleUpdateTargetById") idOrRange with
    | .error err => (rules, some err)
    | .ok (.single id) => host.updateTargetBySingleID id vars rules
    | .ok (.range first last) =>
      if first = last then host.updateTargetBySingleID first vars rules
      else
        match host.updateCopiesTargets (fun r => first ≤ r.id ∧ r.id ≤ last) (unquoted vars)
          rules with
        | (rules, some err) => (rules, some err)
        | (rules, none) => updateTargets vars rest rules

def updateActions (actions : Bytes) : List Bytes → RuleGroup → RuleGroup × Option GoError
  | [], rules => (rules, none)
  | idOrRange :: rest, rules =>
    match host.parseIDOrRange (str "SecRuleUpdateActionById") idOrRange with
    | .error err => (rules, some err)
    | .ok (.single id) => host.updateActionBySingleID id actions rules
    | .ok (.range first last) =>
      if first = last then host.updateActionBySingleID first actions rules
      else
        -- the source skips a rule before `first` and after `last`, which none is
        match host.updateCopiesActions (fun r => ¬(r.id < first ∧ last < r.id))
          (unquoted actions) rules with
        | some err => (rules, some err)
        | none => updateActions actions rest rules

end SeclangHost

def DirectiveOptions.updated (options : DirectiveOptions) :
    RuleGroup × Option GoError → DirectiveResult
  | (rules, err) => ({ options with rules := rules }, err.map .error)

namespace SeclangHost

def directiveSecRuleUpdateTargetByID (call : DirectiveCall) (options : DirectiveOptions) :
    DirectiveResult :=
  if call.opts = [] then options.fail errEmptyOptions
  else
    match (fields call.opts).getLast? with
    | some vars =>
      if (fields call.opts).length < 2 then
        options.fail (str "syntax error: SecRuleUpdateTargetById id \"VARIABLES\"")
      else options.updated (host.updateTargets vars (fields call.opts).dropLast options.rules)
    | none => options.fail (str "syntax error: SecRuleUpdateTargetById id \"VARIABLES\"")

def directiveSecRuleUpdateActionByID (call : DirectiveCall) (options : DirectiveOptions) :
    DirectiveResult :=
  if call.opts = [] then options.fail errEmptyOptions
  else
    match (fields call.opts).getLast? with
    | some actions =>
      if (fields call.opts).length < 2 then
        options.fail (str "syntax error: SecRuleUpdateActionById id \"ACTION1,ACTION2,...\"")
      else options.updated (host.updateActions actions (fields call.opts).dropLast options.rules)
    | none => options.fail (str "syntax error: SecRuleUpdateActionById id \"ACTION1,ACTION2,...\"")

def directiveSecRuleUpdateTargetByTag (call : DirectiveCall) (options : DirectiveOptions) :
    DirectiveResult :=
  match fields call.opts with
  | [tag, vars] =>
    options.updated (host.updateCopiesTargets (fun r => r.tags.contains (unquoted tag))
      (unquoted vars) options.rules)
  | _ => options.fail (str "syntax error: SecRuleUpdateTargetByTag tag \"VARIABLES\"")

end SeclangHost

def directiveUnsupported (_ : DirectiveCall) (options : DirectiveOptions) : DirectiveResult :=
  (options, none)

/-! ## The directive map -/

/-- The directives that work on rules. -/
inductive RuleDirective where
  | secRule | secAction | secMarker | secDefaultAction | secIgnoreRuleCompilationErrors
  | secRuleUpdateActionByID | secRuleUpdateTargetByID | secRuleUpdateTargetByTag
  | secRuleUpdateTargetByMsg | secRuleRemoveByID | secRuleRemoveByTag | secRuleRemoveByMsg
deriving DecidableEq, Repr

namespace RuleDirective

def function : RuleDirective → Directive DirectiveOptions
  | secRule => host.directiveSecRule
  | secAction => host.directiveSecAction
  | secMarker => host.directiveSecMarker
  | secDefaultAction => SeclangHost.directiveSecDefaultAction
  | secIgnoreRuleCompilationErrors => host.directiveSecIgnoreRuleCompilationErrors
  | secRuleUpdateActionByID => host.directiveSecRuleUpdateActionByID
  | secRuleUpdateTargetByID => host.directiveSecRuleUpdateTargetByID
  | secRuleUpdateTargetByTag => host.directiveSecRuleUpdateTargetByTag
  | secRuleUpdateTargetByMsg => directiveUnsupported
  | secRuleRemoveByID => host.directiveSecRuleRemoveByID
  | secRuleRemoveByTag => SeclangHost.directiveSecRuleRemoveByTag
  | secRuleRemoveByMsg => SeclangHost.directiveSecRuleRemoveByMsg

end RuleDirective

/-! ## Configurations -/

abbrev Configuration := List (RuleDirective × DirectiveCall)

/-- The options after a directive that is accepted. -/
def SeclangHost.apply (options : DirectiveOptions) (step : RuleDirective × DirectiveCall) :
    Option DirectiveOptions :=
  match step.1.function host step.2 options with
  | (options, none) => some options
  | (_, some _) => none

def SeclangHost.configure (steps : Configuration) (options : DirectiveOptions) :
    Option DirectiveOptions :=
  steps.foldlM host.apply options

end Obsidian
