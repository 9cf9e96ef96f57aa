import Obsidian.Transformations.Registry
import Obsidian.Data.Lines

namespace Obsidian

open Obsidian.Data

/-! # Compiled rules

Rules as the `seclang` parser leaves them in the rule group, and the `Init` of the
registered actions.
-/

/-! ## Actions -/

inductive ActionName where
  | allow | auditlog | block | capture | chain | ctl | deny | drop | exec | expirevar | id | initcol
  | log | logdata | maturity | msg | multiMatch | noauditlog | nolog | pass | phase | redirect | rev
  | setenv | setvar | severity | skip | skipAfter | status | t | tag | ver
deriving DecidableEq, Repr

namespace ActionName

def all : List ActionName :=
  [allow, auditlog, block, capture, chain, ctl, deny, drop, exec, expirevar, id, initcol, log,
    logdata, maturity, msg, multiMatch, noauditlog, nolog, pass, phase, redirect, rev, setenv,
    setvar, severity, skip, skipAfter, status, t, tag, ver]

def key : ActionName → Bytes
  | allow => str "allow"
  | auditlog => str "auditlog"
  | block => str "block"
  | capture => str "capture"
  | chain => str "chain"
  | ctl => str "ctl"
  | deny => str "deny"
  | drop => str "drop"
  | exec => str "exec"
  | expirevar => str "expirevar"
  | id => str "id"
  | initcol => str "initcol"
  | log => str "log"
  | logdata => str "logdata"
  | maturity => str "maturity"
  | msg => str "msg"
  | multiMatch => str "multimatch"
  | noauditlog => str "noauditlog"
  | nolog => str "nolog"
  | pass => str "pass"
  | phase => str "phase"
  | redirect => str "redirect"
  | rev => str "rev"
  | setenv => str "setenv"
  | setvar => str "setvar"
  | severity => str "severity"
  | skip => str "skip"
  | skipAfter => str "skipafter"
  | status => str "status"
  | t => str "t"
  | tag => str "tag"
  | ver => str "ver"

def type : ActionName → ActionType
  | allow | block | deny | drop | pass | redirect => .disruptive
  | chain | skip | skipAfter => .flow
  | id | maturity | msg | phase | rev | severity | tag | ver => .metadata
  | status => .data
  | _ => .nondisruptive

def get (name : Bytes) : Option ActionName := all.find? (·.key = name)

end ActionName

/-- An action of a rule: its name and the argument its `Init` was given, which
determine the function `AddAction` stores. -/
structure ActionItem where
  name : ActionName
  value : Bytes
deriving DecidableEq, Repr

def ActionItem.disruptive (item : ActionItem) : Bool := item.name.type = .disruptive

/-! ## Rules -/

/-- A `ruleVariableParams` of a compiled rule. -/
structure VariableParams where
  count : Bool
  var : RuleVariable
  keyStr : Bytes
  keyRx : Option Regexp
  exceptions : List RuleVariableException := []

/-- What the configuration says about a rule, kept to compare the rule with: its id
and phase when it was defined, the disruptive actions written for it in order, and
the one it inherited.  The source keeps none of it. -/
structure RuleOrigin where
  id : Int := 0
  phase : RulePhase := .requestBody
  written : List ActionItem := []
  inherited : Option ActionItem := none
deriving DecidableEq, Repr

/-- `corazawaf.Rule` before it is linked into a chain.  `room` is the capacity of
`variables` beyond its length. -/
structure CompiledRule extends RuleMetadata where
  file : Bytes := []
  line : Nat := 0
  raw : Bytes := []
  version : Bytes := []
  maturity : Int := 0
  vars : List VariableParams := []
  room : Nat := 0
  operator : Option RuleOperatorParams := none
  transformations : List Transformation := []
  transformationsID : Nat := 0
  actions : List ActionItem := []
  capture : Bool := false
  disruptiveStatus : Int := 0
  msg : Option Macro := none
  logData : Option Macro := none
  log : Bool := false
  audit : Bool := false
  multiMatch : Bool := false
  hasChain : Bool := false
  origin : RuleOrigin := {}

/-- An entry of `RuleGroup.rules` with the rules its `Chain` leads to. -/
structure StoredRule where
  head : CompiledRule
  members : List CompiledRule := []

structure OperatorOptions where
  arguments : Bytes
  path : List Bytes
  datasets : List (Bytes × List Bytes)

/-- What the compiler leaves to other packages, to the Go runtime and to the build:
macros, operators, regular expressions, `%q`, the ids of transformation lists, which
never change once given, the capacity `append` chooses, and the
`coraza.rule.mandatory_rule_id_check` build tag. -/
structure SeclangHost extends Runtime where
  unescapeString : Bytes → Bytes
  newMacro : Bytes → Except GoError Macro
  getOperator : Bytes → OperatorOptions → Except GoError Operator
  compileRegexp : Bytes → Except GoError Regexp
  quote : Bytes → Bytes
  transformationID : (currentID : Nat) → Bytes → Nat
  grow : (length : Nat) → Nat
  shouldDoMandatoryRuleIdCheck : Bool

/-- A host on which every macro, operator but `missing` and regular expression
compiles. -/
def SeclangHost.plain : SeclangHost where
  unicodeLower := id
  unicodeUpper := id
  mapOrder := fun _ _ keys => keys
  mapOrder_perm := fun _ _ keys => List.Perm.refl keys
  alloc := .heap
  now := fun _ => 0
  shouldUseCaseSensitiveNamedCollection := false
  unescapeString := id
  newMacro := fun text => .ok { expand := fun _ => text, string := text }
  getOperator := fun name _ =>
    if name = str "missing" then .error (str "operator missing not found")
    else .ok { evaluate := fun _ _ => (false, []) }
  compileRegexp := fun _ => .ok { matchString := fun _ => false }
  quote := fun text => 34 :: text ++ [34]
  transformationID := fun _ _ => 0
  grow := fun _ => 0
  shouldDoMandatoryRuleIdCheck := false

/-! ## Init -/

def errUnexpectedArguments : GoError := str "unexpected arguments"

def errMissingArguments : GoError := str "missing arguments"

def errInvalidKVArguments : GoError :=
  str "invalid arguments, expected syntax \x7baction\x7d:\x7bkey\x7d=\x7bvalue\x7d"

def maybeRemoveQuotes (s : Bytes) : Bytes :=
  if s.length < 2 then s
  else if (s.head? = some 34 ∧ s.getLast? = some 34) ∨ (s.head? = some 39 ∧ s.getLast? = some 39) then
    s.tail.dropLast
  else s

def parseRulePhase (phase : Bytes) : Except GoError RulePhase :=
  if phase = str "request" then .ok .requestBody
  else if phase = str "response" then .ok .responseBody
  else if phase = str "logging" then .ok .logging
  else
    match (atoi phase).getD 0 with
    | 1 => .ok .requestHeaders
    | 2 => .ok .requestBody
    | 3 => .ok .responseHeaders
    | 4 => .ok .responseBody
    | 5 => .ok .logging
    | _ => .error (str "invalid phase " ++ phase)

def RuleVariable.all : List RuleVariable :=
  [.unknown, .responseContentType, .uniqueID, .argsCombinedSize, .filesCombinedSize,
    .fullRequestLength, .inboundDataError, .matchedVar, .matchedVarName, .multipartDataAfter,
    .outboundDataError, .queryString, .remoteAddr, .remoteHost, .remotePort, .reqbodyError,
    .reqbodyErrorMsg, .reqbodyProcessorError, .reqbodyProcessorErrorMsg, .reqbodyProcessor,
    .requestBasename, .requestBody, .requestBodyLength, .requestFilename, .requestLine,
    .requestMethod, .requestProtocol, .requestURI, .requestURIRaw, .responseBody,
    .responseContentLength, .responseProtocol, .responseStatus, .serverAddr, .serverName,
    .serverPort, .highestSeverity, .statusLine, .duration, .responseHeadersNames,
    .requestHeadersNames, .args, .argsGet, .argsPost, .argsPath, .filesSizes, .filesNames,
    .filesTmpContent, .multipartFilename, .multipartName, .matchedVarsNames, .matchedVars, .files,
    .requestCookies, .requestHeaders, .responseHeaders, .resBodyProcessor, .geo,
    .requestCookiesNames, .filesTmpNames, .argsNames, .argsGetNames, .argsPostNames, .tx, .rule,
    .json, .env, .urlencodedError, .responseArgs, .responseXML, .requestXML, .xml,
    .multipartPartHeaders, .authType, .fullRequest, .multipartBoundaryQuoted,
    .multipartBoundaryWhitespace, .multipartCrlfLfLines, .multipartDataBefore,
    .multipartFileLimitExceeded, .multipartHeaderFolding, .multipartInvalidHeaderFolding,
    .multipartInvalidPart, .multipartInvalidQuoting, .multipartLfLine, .multipartMissingSemicolon,
    .multipartStrictError, .multipartUnmatchedBoundary, .pathInfo, .sessionid, .userid, .ip,
    .resBodyError, .resBodyErrorMsg, .resBodyProcessorError, .resBodyProcessorErrorMsg, .time,
    .timeDay, .timeEpoch, .timeHour, .timeMin, .timeMon, .timeSec, .timeWday, .timeYear]

def RuleVariable.parse (rt : Runtime) (name : Bytes) : Except GoError RuleVariable :=
  match RuleVariable.all.find? (·.name = rt.toUpper name) with
  | some v => .ok v
  | none => .error (str "unknown variable")

theorem RuleVariable.name_plain : ∀ v ∈ RuleVariable.all,
    v.name.all isSolid = true ∧ byte ':' ∉ v.name ∧ byte '.' ∉ v.name ∧
      v.name.map upperByte = v.name ∧ RuleVariable.all.find? (·.name = v.name) = some v := by
  decide +kernel

def RuleVariable.canBeSelected : RuleVariable → Bool
  | .responseHeadersNames | .requestHeadersNames | .args | .argsGet | .argsPost | .argsPath
  | .filesSizes | .filesNames | .filesTmpContent | .multipartFilename | .multipartName
  | .matchedVarsNames | .matchedVars | .files | .requestCookies | .requestHeaders
  | .responseHeaders | .geo | .requestCookiesNames | .filesTmpNames | .argsNames | .argsGetNames
  | .argsPostNames | .tx | .rule | .json | .env | .responseArgs | .responseXML | .requestXML
  | .xml | .multipartPartHeaders => true
  | _ => false

namespace SeclangHost

variable (host : SeclangHost)

/-- `strconv.Atoi` with its error. -/
def atoi (text : Bytes) : Except GoError Int :=
  match Data.atoi text with
  | some n => .ok n
  | none =>
    let digits := match text with
      | 43 :: rest | 45 :: rest => rest
      | _ => text
    let reason := if outOfRange digits then "value out of range" else "invalid syntax"
    .error (str "strconv.Atoi: parsing " ++ host.quote text ++ str ": " ++ str reason)

def parseRuleSeverity (input : Bytes) : Except GoError Int :=
  if input.length = 1 then do
    let s ← host.atoi input
    if s < 0 ∨ 7 < s then .error (str "invalid severity: " ++ itoa s) else .ok s
  else
    match (List.range 8).find? fun n => severityName (Int.ofNat n) = host.toLower input with
    | some n => .ok (Int.ofNat n)
    | none => .error (str "unknown severity: " ++ input)

def noArguments (data : Bytes) (r : CompiledRule) : Except GoError CompiledRule :=
  if data = [] then .ok r else .error errUnexpectedArguments

def someArguments (data : Bytes) (init : Except GoError CompiledRule) :
    Except GoError CompiledRule :=
  if data = [] then .error errMissingArguments else init

def ctlActions : List String :=
  ["auditEngine", "auditLogParts", "requestBodyAccess", "requestBodyLimit", "requestBodyProcessor",
    "forceRequestBodyVariable", "responseBodyProcessor", "responseBodyAccess", "responseBodyLimit",
    "forceResponseBodyVariable", "ruleEngine", "ruleRemoveById", "ruleRemoveByMsg",
    "ruleRemoveByTag", "ruleRemoveTargetById", "ruleRemoveTargetByMsg", "ruleRemoveTargetByTag",
    "hashEngine", "hashEnforcement", "debugLogLevel"]

def initCtl (data : Bytes) (r : CompiledRule) : Except GoError CompiledRule :=
  match cut (byte '=') data with
  | none => .error (str "invalid syntax")
  | some (action, _) =>
    if ctlActions.any (str · = action) then .ok r
    else .error (str "unknown ctl action " ++ host.quote action)

def initSetenv (data : Bytes) (r : CompiledRule) : Except GoError CompiledRule :=
  match cut (byte '=') data with
  | none => .error errInvalidKVArguments
  | some (key, val) =>
    if key = [] then .error (str "missing env key")
    else if val = [] then .error (str "missing env value")
    else (host.newMacro val).map fun _ => r

def initSetvar (data : Bytes) (r : CompiledRule) : Except GoError CompiledRule :=
  let data := if data.head? = some (byte '!') then data.tail else data
  let (key, val) := ((cut (byte '=') data).map fun (key, val) => (key, some val)).getD (data, none)
  let (colKey, colVal) := (cut (byte '.') key).getD (key, [])
  if host.toUpper colKey ≠ str "TX" then
    .error (str "invalid arguments, expected collection TX")
  else if trimSpace colVal = [] then
    .error (str "invalid arguments, expected syntax TX.\x7bkey\x7d=\x7bvalue\x7d")
  else do
    let _ ← host.newMacro colVal
    match val with
    | some val => (host.newMacro val).map fun _ => r
    | none => .ok r

def initT (data : Bytes) (r : CompiledRule) : Except GoError CompiledRule :=
  if data = str "none" then .ok { r with transformations := [] }
  else
    match getTransformation host.toRuntime host.unescapeString data with
    | none => .error (str "invalid transformation name " ++ host.quote data)
    | some t =>
      .ok { r with
        transformations := r.transformations ++ [t]
        transformationsID := host.transformationID r.transformationsID data }

/-- The `Init` of an action: what it makes of the rule, or its error. -/
def init (name : ActionName) (data : Bytes) (r : CompiledRule) : Except GoError CompiledRule :=
  match name with
  | .allow =>
    if data = str "phase" ∨ data = str "request" ∨ data = [] then .ok r
    else .error (str "invalid argument " ++ host.quote data)
  | .auditlog => noArguments data { r with audit := true }
  | .block | .deny | .drop | .exec | .pass => noArguments data r
  | .capture => noArguments data { r with capture := true }
  | .chain => noArguments data { r with hasChain := true }
  | .ctl => host.initCtl data r
  | .expirevar => .ok r
  | .id => someArguments data do
      let i ← host.atoi data
      if i ≤ 0 then .error (str "invalid id argument, " ++ itoa i ++ str " must be positive")
      else .ok { r with id := i, logID := itoa i }
  | .initcol => if (cut (byte '=') data).isSome then .ok r else .error errInvalidKVArguments
  | .log => noArguments data { r with log := true, audit := true }
  | .logdata => someArguments data do
      let m ← host.newMacro data
      .ok { r with logData := some m }
  | .maturity => do
      let m ← host.atoi data
      if m < 1 ∨ 9 < m then
        .error (str "invalid argument, " ++ itoa m ++ str " should be between 1 and 9")
      else .ok { r with maturity := m }
  | .msg =>
    let data := maybeRemoveQuotes data
    someArguments data do
      let m ← host.newMacro data
      .ok { r with msg := some m }
  | .multiMatch => noArguments data { r with multiMatch := true }
  | .noauditlog => noArguments data { r with audit := false }
  | .nolog => noArguments data { r with log := false, audit := false }
  | .phase => someArguments data do
      let p ← parseRulePhase data
      .ok { r with phase := p }
  | .redirect => someArguments data (.ok r)
  | .rev => someArguments data (.ok { r with rev := data })
  | .setenv => someArguments data (host.initSetenv data r)
  | .setvar => someArguments data (host.initSetvar data r)
  | .severity => someArguments data do
      let sev ← host.parseRuleSeverity data
      .ok { r with severity := sev }
  | .skip => someArguments data do
      let i ← host.atoi data
      if i < 1 then .error (str "invalid argument, " ++ itoa i ++ str " must be greater than 1")
      else .ok r
  | .skipAfter => someArguments (maybeRemoveQuotes data) (.ok r)
  | .status => someArguments data
      (match host.atoi data with
      | .ok status => .ok { r with disruptiveStatus := status }
      | .error err => .error (str "invalid argument: " ++ err))
  | .t => host.initT data r
  | .tag => someArguments data (.ok { r with tags := r.tags ++ [data] })
  | .ver => someArguments data (.ok { r with version := data })

end SeclangHost

end Obsidian
