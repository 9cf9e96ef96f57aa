import Obsidian.Variables

namespace Obsidian

open Obsidian.Data

/-! # Rules

A compiled rule as `rule.go` stores it, with the interfaces it holds.  A chain
is a head and its members; the `Chain` pointer of a member is the rest of the
list.
-/

structure RuleVariableException where
  keyStr : Bytes
  keyRx : Option Regexp

structure RuleVariableParams where
  count : Bool := false
  var : RuleVariable
  keyRx : Option Regexp := none
  keyStr : GoString := .zero
  exceptions : List RuleVariableException := []

structure Macro where
  expand : TransactionVariables → Bytes
  string : Bytes

structure TransactionState where
  vars : TransactionVariables
  capturing : Bool
  lastPhase : RulePhase

/-- What an operator may do to the transaction besides reporting a match. -/
inductive OperatorEffect where
  | captureField (index : Nat) (value : Bytes)
  | setTX (key : GoString) (values : List Bytes)
  | setArgsPath (key : GoString) (value : Bytes)
deriving DecidableEq, Repr

structure Operator where
  evaluate : TransactionState → Bytes → Bool × List OperatorEffect

structure RuleOperatorParams where
  operator : Operator
  negation : Bool := false

abbrev Transformation := Bytes → Bytes × Bool × Option GoError

/-! ## Actions -/

inductive CtlFunction where
  | ruleRemoveTargetByID | ruleRemoveTargetByTag | ruleRemoveTargetByMsg
  | auditEngine | auditLogParts | forceRequestBodyVariable | requestBodyAccess
  | requestBodyLimit | ruleEngine | ruleRemoveByID | ruleRemoveByMsg | ruleRemoveByTag
  | hashEngine | hashEnforcement | requestBodyProcessor | forceResponseBodyVariable
  | responseBodyProcessor | responseBodyAccess | responseBodyLimit | debugLogLevel
deriving DecidableEq, Repr

structure CtlFn where
  action : CtlFunction
  value : Bytes := []
  collection : RuleVariable := .unknown
  colKey : Bytes := []
deriving DecidableEq, Repr

/-- The registered actions with what their `Init` stores.  A `setvar` without
`=` is left out: `Init` gives it no value macro and its `Evaluate` panics. -/
inductive Action where
  | allow (type : AllowType) (given : type ≠ .unset)
  | auditlog | block | capture | chain
  | ctl (fn : CtlFn)
  | deny | drop | exec | expirevar | id | initcol | log | logdata | maturity | msg
  | multiMatch | noauditlog | nolog | pass | phase
  | redirect (target : Bytes)
  | rev
  | setenv (key : GoString) (value : Macro)
  | setvar (key value : Macro) (isRemove : Bool)
  | severity
  | skip (count : Int)
  | skipAfter (marker : Bytes)
  | status | t | tag | ver

def Action.type : Action → ActionType
  | .allow _ _ | .block | .deny | .drop | .pass | .redirect _ => .disruptive
  | .chain | .skip _ | .skipAfter _ => .flow
  | .id | .maturity | .msg | .phase | .rev | .severity | .tag | .ver => .metadata
  | .status => .data
  | _ => .nondisruptive

structure RuleAction where
  name : Bytes
  function : Action

/-! ## The rule -/

/-- `corazarules.RuleMetadata` without the fields that only reports print. -/
structure RuleMetadata where
  id : Int := 0
  logID : Bytes := []
  rev : Bytes := []
  severity : Int := 0
  tags : List Bytes := []
  phase : RulePhase := .requestBody
  secMark : Bytes := []
  parentID : Int := 0
deriving DecidableEq, Repr

structure Rule extends RuleMetadata where
  vars : List RuleVariableParams := []
  operator : Option RuleOperatorParams := none
  transformations : List Transformation := []
  transformationsID : Nat := 0
  actions : List RuleAction := []
  capture : Bool := false
  disruptiveStatus : Int := 0
  msg : Option Macro := none
  logData : Option Macro := none
  log : Bool := false
  audit : Bool := false
  multiMatch : Bool := false
  hasChain : Bool := false

def noID : Int := 0

structure RuleChain where
  head : Rule
  members : List Rule := []

namespace RuleChain

def link (parent : RuleChain) (rule : Rule) : RuleChain :=
  let rule := { rule with
    parentID := parent.head.id, logID := parent.head.logID, phase := .unknown }
  { parent with members := parent.members ++ [rule] }

def compile (head : Rule) (rules : List Rule) : RuleChain :=
  rules.foldl link { head := { head with parentID := noID } }

theorem foldl_link (parent : RuleChain) (rules : List Rule) :
    (rules.foldl link parent).head = parent.head ∧
      ((∀ member ∈ parent.members, member.parentID = parent.head.id) →
        ∀ member ∈ (rules.foldl link parent).members, member.parentID = parent.head.id) := by
  induction rules generalizing parent with
  | nil => exact ⟨rfl, id⟩
  | cons rule rest ih =>
    refine ⟨(ih (parent.link rule)).1, fun linked => (ih (parent.link rule)).2 ?_⟩
    intro member found
    rcases List.mem_append.mp found with old | added
    · exact linked member old
    · rw [List.mem_singleton.mp added]
      rfl

theorem compile_parentID {head : Rule} {rules : List Rule} {member : Rule}
    (found : member ∈ (compile head rules).members) : member.parentID = head.id :=
  (foldl_link _ rules).2 (by simp) member found

@[simp] theorem compile_head (head : Rule) (rules : List Rule) :
    (compile head rules).head = { head with parentID := noID } :=
  (foldl_link _ rules).1

end RuleChain

/-! ## Transformations -/

/-- `transformationIDToName`; the map back to ids is the position in it. -/
structure TransformationRegistry where
  names : List Bytes

def TransformationRegistry.initial : TransformationRegistry := ⟨[[]]⟩

/-- `transformationID`: the id of the current list extended by one name. -/
def TransformationRegistry.transformationID (registry : TransformationRegistry)
    (currentID : Nat) (name : Bytes) : TransformationRegistry × Nat :=
  let nextName := registry.names.getD currentID [] ++ 43 :: name
  match registry.names.idxOf? nextName with
  | some id => (registry, id)
  | none => (⟨registry.names ++ [nextName]⟩, registry.names.length)

namespace Rule

def addTransformation (r : Rule) (registry : TransformationRegistry) (name : Bytes)
    (t : Transformation) : TransformationRegistry × Rule :=
  let (registry, id) := registry.transformationID r.transformationsID name
  (registry, { r with transformations := r.transformations ++ [t], transformationsID := id })

/-- `Rule.ClearTransformations`; the id stays. -/
def clearTransformations (r : Rule) : Rule := { r with transformations := [] }

def initT (get : Bytes → Option Transformation) (registry : TransformationRegistry) (r : Rule)
    (data : Bytes) : Option (TransformationRegistry × Rule) :=
  if data = str "none" then some (registry, r.clearTransformations)
  else if data = [] then none
  else (get data).map (r.addTransformation registry data)

def transformStep (t : Transformation) (state : Bytes × List GoError) : Bytes × List GoError :=
  match t state.1 with
  | (_, _, some err) => (state.1, state.2 ++ [err])
  | (value, _, none) => (value, state.2)

def executeTransformations (r : Rule) (value : Bytes) : Bytes × List GoError :=
  r.transformations.foldl (fun state t => transformStep t state) (value, [])

def multimatchStep (t : Transformation) (state : List Bytes × List GoError × Bytes) :
    List Bytes × List GoError × Bytes :=
  let (collected, errs, value) := state
  match t value with
  | (_, _, some err) => (collected, errs ++ [err], value)
  | (next, true, none) => (collected ++ [next], errs, next)
  | (_, false, none) => (collected, errs, value)

def executeTransformationsMultimatch (r : Rule) (value : Bytes) : List Bytes × List GoError :=
  let (collected, errs, _) :=
    r.transformations.foldl (fun state t => multimatchStep t state) ([value], [], value)
  (collected, errs)

end Rule

namespace Transformations

def length : Transformation := fun data => (itoa data.length, true, none)

def upperCase (rt : Runtime) : Transformation := fun data =>
  let transformedData := rt.toUpper data
  (transformedData, data ≠ transformedData, none)

def lowerCase (rt : Runtime) : Transformation := fun data =>
  let transformedData := rt.toLower data
  (transformedData, data ≠ transformedData, none)

end Transformations

def secMarker (label : Bytes) : RuleChain :=
  { head := { logID := str "0", phase := .unknown, secMark := label } }

end Obsidian
