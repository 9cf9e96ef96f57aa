import Obsidian.Transaction

namespace Obsidian

open Obsidian.Data

/-! # Actions

`Evaluate` of every registered action.
-/

/-! ## `ctl` -/

def rangeToInts (rules : List RuleChain) (input : Bytes) : Option (List Int) :=
  if input = [] then none
  else
    let (in0, in1) := input.span (· ≠ 45)
    let bounds : Option (Int × Int) :=
      match in1 with
      | _ :: in1 => (atoi in0).bind fun start => (atoi in1).bind fun stop =>
        if start > stop then none else some (start, stop)
      | [] => (atoi input).map fun id => (id, id)
    bounds.map fun (start, stop) =>
      (rules.map (·.head.id)).filter fun id => start ≤ id ∧ id ≤ stop

def parseOnOff (rt : Runtime) (text : Bytes) : Option Bool :=
  let text := rt.toLower text
  if text = str "on" then some true else if text = str "off" then some false else none

namespace CtlFn

def idsByTag (waf : WAF) (tag : Bytes) : List Int :=
  (waf.rules.filter fun r => r.head.tags.contains tag).map (·.head.id)

def idsByMsg (waf : WAF) (msg : Bytes) : List Int :=
  (waf.rules.filter fun r => r.head.msg.any (·.string = msg)).map (·.head.id)

def removeTargets (a : CtlFn) (tx : Transaction) (ids : List Int) : Transaction :=
  ids.foldl (fun tx id => tx.removeRuleTargetByID id a.collection a.colKey) tx

def removeRules (tx : Transaction) (ids : List Int) : Transaction :=
  ids.foldl (fun tx id => tx.removeRuleByID id) tx

/-- `ctlFn.Evaluate`.  A value that does not parse, or a control that comes too
late, changes nothing. -/
def evaluate (rt : Runtime) (waf : WAF) (a : CtlFn) (tx : Transaction) : Transaction :=
  match a.action with
  | .ruleRemoveTargetByID => (rangeToInts waf.rules a.value).elim tx (a.removeTargets tx)
  | .ruleRemoveTargetByTag => a.removeTargets tx (idsByTag waf a.value)
  | .ruleRemoveTargetByMsg => a.removeTargets tx (idsByMsg waf a.value)
  | .auditEngine =>
    (parseAuditEngineStatus rt.unicodeLower a.value).elim tx fun ae =>
      { tx with auditEngine := ae }
  | .auditLogParts =>
    (parseAuditLogParts a.value).elim tx fun parts => { tx with auditLogParts := parts }
  | .forceRequestBodyVariable =>
    (parseOnOff rt a.value).elim tx fun val => { tx with forceRequestBodyVariable := val }
  | .requestBodyAccess =>
    if tx.lastPhase ≤ .requestHeaders then
      (parseOnOff rt a.value).elim tx fun val => { tx with requestBodyAccess := val }
    else tx
  | .requestBodyLimit =>
    if tx.lastPhase ≤ .requestHeaders then
      (parseInt 64 a.value).elim tx fun limit => { tx with requestBodyLimit := limit }
    else tx
  | .requestBodyProcessor =>
    if tx.lastPhase ≤ .requestHeaders then
      { tx with vars := tx.vars.setSingle .reqbodyProcessor (rt.toUpper a.value) }
    else tx
  | .ruleEngine =>
    (parseRuleEngineStatus rt.unicodeLower a.value).elim tx fun re => { tx with ruleEngine := re }
  | .ruleRemoveByID =>
    if a.value.contains 45 then (rangeToInts waf.rules a.value).elim tx (removeRules tx)
    else (atoi a.value).elim tx tx.removeRuleByID
  | .ruleRemoveByMsg => removeRules tx (idsByMsg waf a.value)
  | .ruleRemoveByTag => removeRules tx (idsByTag waf a.value)
  | .responseBodyAccess =>
    if tx.lastPhase ≤ .responseHeaders then
      (parseOnOff rt a.value).elim tx fun val => { tx with responseBodyAccess := val }
    else tx
  | .responseBodyLimit =>
    if tx.lastPhase ≤ .responseHeaders then
      (parseInt 64 a.value).elim tx fun limit => { tx with responseBodyLimit := limit }
    else tx
  | .forceResponseBodyVariable =>
    (parseOnOff rt a.value).elim tx fun val => { tx with forceResponseBodyVariable := val }
  | .responseBodyProcessor =>
    if tx.lastPhase ≤ .responseHeaders then
      { tx with vars := tx.vars.setSingle .resBodyProcessor (rt.toUpper a.value) }
    else tx
  | .hashEngine | .hashEnforcement => tx
  | .debugLogLevel => (parseInt 8 a.value).elim tx fun lvl => { tx with debugLogLevel := lvl }

end CtlFn

/-! ## `setvar` -/

/-- The value `setvarFn.evaluateTxCollection` stores, given the current one;
`none` leaves the collection alone. -/
def setvarValue (currentVal value : Bytes) : Option Bytes :=
  match value with
  | [] => some []
  | sign :: rest =>
    if sign = 43 ∨ sign = 45 then
      match if rest = [] then some 0 else atoi rest with
      | none => if (str "tx.").isPrefixOf rest then none else some value
      | some val =>
        (if currentVal = [] then some 0 else atoi currentVal).map fun current =>
          itoa (wrap64 (if sign = 43 then current + val else current - val))
    else some value

def evaluateSetvar (rt : Runtime) (key value : Macro) (isRemove : Bool) (tx : Transaction) :
    Transaction :=
  let key := rt.toLower (key.expand tx.vars)
  let value := value.expand tx.vars
  if isRemove then { tx with vars := tx.vars.mapRemove rt .tx key }
  else
    let currentVal := ((tx.vars.mapGet rt .tx key).head?).getD []
    (setvarValue currentVal value).elim tx fun stored =>
      { tx with
        vars := tx.vars.mapSet rt .tx ⟨rt.alloc tx.ticks, key⟩ [stored]
        ticks := tx.ticks + 1 }

/-! ## Evaluation -/

def Rule.reportedID (r : Rule) : Int := if r.id = noID then r.parentID else r.id

def Action.evaluate (rt : Runtime) (waf : WAF) (r : Rule) (tx : Transaction) :
    Action → Transaction
  | .allow type _ =>
    { tx with
      allowType := type
      history := { tx.history with
        allows := tx.history.allows ++ [⟨tx.lastPhase, type, tx.history.allowed⟩]
        allowed := true } }
  | .deny =>
    let status := if r.disruptiveStatus = 0 then 403 else r.disruptiveStatus
    tx.interrupt { status, ruleID := r.reportedID, action := str "deny" }
  | .drop =>
    tx.interrupt { status := r.disruptiveStatus, ruleID := r.reportedID, action := str "drop" }
  | .redirect target =>
    let status :=
      if r.disruptiveStatus ∈ [301, 302, 303, 307] then r.disruptiveStatus else 302
    tx.interrupt
      { status, ruleID := r.reportedID, action := str "redirect", data := target }
  | .skip count => { tx with skip := count }
  | .skipAfter marker => { tx with skipAfter := marker }
  | .ctl fn => fn.evaluate rt waf tx
  | .setvar key value isRemove => evaluateSetvar rt key value isRemove tx
  | .setenv key value => { tx with vars := tx.vars.mapSet rt .env key [value.expand tx.vars] }
  | _ => tx

end Obsidian
