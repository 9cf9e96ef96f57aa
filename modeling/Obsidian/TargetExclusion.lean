import Obsidian.Data.Decimal
import Obsidian.Data.Lines
import Obsidian.EvaluationFrames
import Obsidian.Recycling
import Obsidian.Seclang.Compiled

namespace Obsidian

open Obsidian.Data Relation

/-! # Excluded targets

`ctl:ruleRemoveTargetById`, `ByTag` and `ByMsg`: how they are read, what they leave in the
transaction and which values of a rule's targets remain.
-/

/-! ## parseCtl -/

def ctlFunctions : List (String × CtlFunction) :=
  [("auditEngine", .auditEngine), ("auditLogParts", .auditLogParts),
    ("requestBodyAccess", .requestBodyAccess), ("requestBodyLimit", .requestBodyLimit),
    ("requestBodyProcessor", .requestBodyProcessor),
    ("forceRequestBodyVariable", .forceRequestBodyVariable),
    ("responseBodyProcessor", .responseBodyProcessor), ("responseBodyAccess", .responseBodyAccess),
    ("responseBodyLimit", .responseBodyLimit),
    ("forceResponseBodyVariable", .forceResponseBodyVariable), ("ruleEngine", .ruleEngine),
    ("ruleRemoveById", .ruleRemoveByID), ("ruleRemoveByMsg", .ruleRemoveByMsg),
    ("ruleRemoveByTag", .ruleRemoveByTag), ("ruleRemoveTargetById", .ruleRemoveTargetByID),
    ("ruleRemoveTargetByMsg", .ruleRemoveTargetByMsg),
    ("ruleRemoveTargetByTag", .ruleRemoveTargetByTag), ("hashEngine", .hashEngine),
    ("hashEnforcement", .hashEnforcement), ("debugLogLevel", .debugLogLevel)]

def SeclangHost.parseCtl (host : SeclangHost) (data : Bytes) : Except GoError CtlFn :=
  match cut (byte '=') data with
  | none => .error (str "invalid syntax")
  | some (action, ctlVal) =>
    let (value, col) := (cut (byte ';') ctlVal).getD (ctlVal, [])
    let (colname, colkey) := (cut (byte ':') col).getD (col, [])
    let collection := (RuleVariable.parse host.toRuntime (trimSpace colname)).toOption.getD .unknown
    match ctlFunctions.find? fun entry => str entry.1 = action with
    | none => .error (str "unknown ctl action " ++ host.quote action)
    | some (_, act) =>
      .ok { action := act, value, collection, colKey := trimSpace (host.toLower colkey) }

inductive TargetSelector where
  | byID | byTag | byMsg
deriving DecidableEq, Repr

namespace TargetSelector

def name : TargetSelector → String
  | byID => "ruleRemoveTargetById"
  | byTag => "ruleRemoveTargetByTag"
  | byMsg => "ruleRemoveTargetByMsg"

def action : TargetSelector → CtlFunction
  | byID => .ruleRemoveTargetByID
  | byTag => .ruleRemoveTargetByTag
  | byMsg => .ruleRemoveTargetByMsg

end TargetSelector

/-- `selector=value;VAR:key`, where an empty key is left out. -/
structure Exclusion where
  selector : TargetSelector
  value : Bytes
  var : RuleVariable
  key : Bytes
deriving DecidableEq, Repr

namespace Exclusion

def write (x : Exclusion) : Bytes :=
  str x.selector.name ++ byte '=' :: x.value ++ byte ';' :: x.var.name ++
    (if x.key = [] then [] else byte ':' :: x.key)

def ctl (host : SeclangHost) (x : Exclusion) : CtlFn where
  action := x.selector.action
  value := x.value
  collection := x.var
  colKey := trimSpace (host.toLower x.key)

end Exclusion

theorem RuleVariable.mem_all (v : RuleVariable) : v ∈ RuleVariable.all := by
  cases v <;> decide

theorem RuleVariable.parse_name (rt : Runtime) (v : RuleVariable) :
    RuleVariable.parse rt v.name = .ok v := by
  obtain ⟨solid, -, -, upper, found⟩ := RuleVariable.name_plain v v.mem_all
  have ascii : isASCII v.name = true := by
    rw [isASCII, List.all_eq_true]
    intro c listed
    exact (Bool.and_eq_true_iff.mp (List.all_eq_true.mp solid c listed)).1
  rw [RuleVariable.parse, Runtime.toUpper, toUpper, if_pos ascii, upper, found]

theorem parseCtl_write {host : SeclangHost} {x : Exclusion} (value : byte ';' ∉ x.value) :
    host.parseCtl x.write = .ok (x.ctl host) := by
  obtain ⟨solid, noColon, -⟩ := RuleVariable.name_plain x.var x.var.mem_all
  have noSign : byte '=' ∉ str x.selector.name := by
    cases x.selector <;> decide
  have known : ctlFunctions.find? (fun entry => str entry.1 = str x.selector.name) =
      some (x.selector.name, x.selector.action) := by
    cases x.selector <;> decide
  have cutTarget : (cut (byte ':') (x.var.name ++ if x.key = [] then [] else byte ':' :: x.key)).getD
      (x.var.name ++ (if x.key = [] then [] else byte ':' :: x.key), []) = (x.var.name, x.key) := by
    split
    · next none_ => rw [List.append_nil, cut_eq_none.mpr noColon, none_]; rfl
    · rw [cut_append noColon]; rfl
  rw [SeclangHost.parseCtl, Exclusion.write, List.append_assoc, List.append_assoc, List.cons_append,
    cut_append noSign]
  dsimp only
  rw [List.cons_append, cut_append value, Option.getD_some]
  dsimp only
  rw [cutTarget]
  dsimp only
  rw [known, trimSpace_solid solid, RuleVariable.parse_name]
  rfl

theorem initCtl_eq (host : SeclangHost) (data : Bytes) (r : CompiledRule) :
    host.initCtl data r = (host.parseCtl data).map fun _ => r := by
  rw [SeclangHost.initCtl, SeclangHost.parseCtl]
  cases cut (byte '=') data with
  | none => rfl
  | some parts =>
    obtain ⟨action, ctlVal⟩ := parts
    have names : SeclangHost.ctlActions = ctlFunctions.map Prod.fst := rfl
    dsimp only
    rw [names, List.any_map]
    cases found : ctlFunctions.find? fun entry => str entry.1 = action with
    | none =>
      rw [if_neg]
      · rfl
      · intro listed
        obtain ⟨entry, inside, is⟩ := List.any_eq_true.mp listed
        exact List.find?_eq_none.mp found entry inside is
    | some entry =>
      have is := List.find?_some found
      rw [if_pos (List.any_eq_true.mpr ⟨entry, List.mem_of_find?_eq_some found, is⟩)]
      rfl

/-! ## What the control leaves in the transaction -/

namespace Exclusion

def ids (x : Exclusion) (waf : WAF) : List Int :=
  match x.selector with
  | .byID => (rangeToInts waf.rules x.value).getD []
  | .byTag => CtlFn.idsByTag waf x.value
  | .byMsg => CtlFn.idsByMsg waf x.value

def entries (x : Exclusion) (host : SeclangHost) (waf : WAF) : List (Int × RuleVariableParams) :=
  (x.ids waf).map fun id =>
    (id, { var := x.var, keyStr := ⟨.literal (x.ctl host).colKey, (x.ctl host).colKey⟩ })

end Exclusion

theorem CtlFn.removeTargets_list (a : CtlFn) (tx : Transaction) (ids : List Int) :
    (a.removeTargets tx ids).ruleRemoveTargetByID = tx.ruleRemoveTargetByID ++
      ids.map fun id =>
        (id, { var := a.collection, keyStr := ⟨.literal a.colKey, a.colKey⟩ }) := by
  induction ids generalizing tx with
  | nil => simp [CtlFn.removeTargets]
  | cons id rest ih =>
    have later := ih (tx.removeRuleTargetByID id a.collection a.colKey)
    simp only [CtlFn.removeTargets, List.foldl_cons] at later ⊢
    rw [later]
    simp [Transaction.removeRuleTargetByID]

theorem Exclusion.evaluate_list (x : Exclusion) (host : SeclangHost) (waf : WAF) (tx : Transaction) :
    ((x.ctl host).evaluate host.toRuntime waf tx).ruleRemoveTargetByID =
      tx.ruleRemoveTargetByID ++ x.entries host waf := by
  have removes : ∀ ids, ((x.ctl host).removeTargets tx ids).ruleRemoveTargetByID = _ :=
    (x.ctl host).removeTargets_list tx
  obtain ⟨selector, value, var, key⟩ := x
  cases selector with
  | byID =>
    simp only [entries, Exclusion.ids, ctl, TargetSelector.action, CtlFn.evaluate] at removes ⊢
    cases rangeToInts waf.rules value with
    | none => simp
    | some ids => exact removes ids
  | byTag => exact removes _
  | byMsg => exact removes _

/-! ## The list only grows -/

def TargetStep (a b : Transaction) : Prop := a.ruleRemoveTargetByID <+: b.ruleRemoveTargetByID

abbrev TargetSteps : Transaction → Transaction → Prop := ReflTransGen TargetStep

namespace TargetSteps

theorem grows {a b : Transaction} (steps : TargetSteps a b) :
    a.ruleRemoveTargetByID <+: b.ruleRemoveTargetByID :=
  Steps.extends Transaction.ruleRemoveTargetByID (fun step => step) steps

theorem same {a b : Transaction} (kept : b.ruleRemoveTargetByID = a.ruleRemoveTargetByID) :
    TargetSteps a b :=
  .single (by simp only [TargetStep, kept, List.prefix_refl])

theorem ctl (rt : Runtime) (waf : WAF) (a : CtlFn) (tx : Transaction) :
    TargetSteps tx (a.evaluate rt waf tx) := by
  have removes : ∀ ids, TargetSteps tx (a.removeTargets tx ids) := fun ids =>
    .single (by rw [TargetStep, CtlFn.removeTargets_list]; exact List.prefix_append _ _)
  have chosen : ∀ {α : Type} (o : Option α) (next : α → Transaction),
      (∀ x, (next x).ruleRemoveTargetByID = tx.ruleRemoveTargetByID) →
        TargetSteps tx (o.elim tx next) :=
    fun o _ kept => Steps.optional o fun x _ => same (kept x)
  have removed : ∀ ids, TargetSteps tx (CtlFn.removeRules tx ids) := fun ids =>
    Steps.foldl id (fun tx id _ => same (a := tx) (b := tx.removeRuleByID id) rfl) tx
  simp only [CtlFn.evaluate]
  split
  case h_1 => exact Steps.optional _ fun ids _ => removes ids
  case h_2 | h_3 => exact removes _
  case h_4 | h_5 | h_6 | h_10 | h_16 | h_20 => exact chosen _ _ fun _ => rfl
  case h_7 | h_8 | h_14 | h_15 => exact Steps.guarded fun _ => chosen _ _ fun _ => rfl
  case h_9 | h_17 => exact Steps.guarded fun _ => same rfl
  case h_11 =>
      split
      · exact Steps.optional _ fun ids _ => removed ids
      · exact chosen _ _ fun _ => rfl
  case h_12 | h_13 => exact removed _
  case h_18 | h_19 => exact .refl

theorem action (rt : Runtime) (waf : WAF) (r : Rule) (a : Action) (tx : Transaction) :
    TargetSteps tx (a.evaluate rt waf r tx) := by
  cases a
  case allow | skip | skipAfter | setenv => exact same rfl
  case deny | drop | redirect => exact Steps.guarded fun _ => same rfl
  case ctl fn => exact ctl rt waf fn tx
  case setvar key value isRemove =>
      unfold Action.evaluate evaluateSetvar
      dsimp only
      split
      · exact same rfl
      · exact Steps.optional _ fun _ _ => same rfl
  all_goals exact .refl

end TargetSteps

theorem Engine.targetMoves {e : Engine} (quiet : e.Quiet) :
    e.Moves (fun _ => True) TargetStep where
  note _ _ := TargetSteps.same rfl
  action r _ a _ tx _ := TargetSteps.action e.rt e.waf r a.function tx
  operator _ _ _ _ _ tx := by
    refine Steps.foldl id (fun tx effect _ => ?_) tx
    cases effect with
    | captureField => exact Steps.guarded fun _ => TargetSteps.same rfl
    | setTX => exact TargetSteps.same rfl
    | setArgsPath => exact TargetSteps.same rfl
  matchVariable _ _ := TargetSteps.same rfl
  matchRule _ _ _ := TargetSteps.same rfl
  transform r arg argIdx tx := by
    obtain ⟨cache, lookup, transformed⟩ := quiet r arg argIdx tx
    rw [transformed]
    exact TargetSteps.same rfl
  visit _ := TargetSteps.same rfl
  announce _ _ _ _ := TargetSteps.same rfl
  clear _ := TargetSteps.same rfl
  release _ := TargetSteps.same rfl

/-! ## What remains of a target -/

/-- The exceptions that the excluded targets of a rule add to one of its variables. -/
def removedExceptions (removed : List (Int × RuleVariableParams)) (r : Rule)
    (v : RuleVariableParams) : List RuleVariableException :=
  (((removed.filter (·.1 = r.id)).map Prod.snd).filter fun c => c.var = v.var).map fun c =>
    { keyStr := c.keyStr.text, keyRx := none }

def RuleVariableParams.without (v : RuleVariableParams) (removed : List (Int × RuleVariableParams))
    (r : Rule) : RuleVariableParams :=
  { v with exceptions := v.exceptions ++ removedExceptions removed r v }

def passedValues (rt : Runtime) (removed : List (Int × RuleVariableParams)) (r : Rule)
    (tx : Transaction) (v : RuleVariableParams) : List MatchData :=
  tx.getField rt (v.without removed r)

/-- What a counting target is handed. -/
def RuleVariableParams.countOf (v : RuleVariableParams) (values : List MatchData) : MatchData :=
  { var := v.var, key := v.keyStr, value := itoa values.length }

theorem passedValues_eq (rt : Runtime) (removed : List (Int × RuleVariableParams)) (r : Rule)
    (tx : Transaction) (v : RuleVariableParams) :
    passedValues rt removed r tx v =
      if v.var.collection = .absent then []
      else if v.count then [v.countOf (tx.selectField rt (v.without removed r))]
      else tx.selectField rt (v.without removed r) := rfl

theorem Engine.evaluateOwn_passed (e : Engine) {r : Rule} {op : RuleOperatorParams}
    (operator : r.operator = some op) (level : Nat) (tx : Transaction) :
    e.evaluateOwn r level tx =
      r.vars.foldl (fun state v =>
        (passedValues e.rt tx.ruleRemoveTargetByID r state.1 v).zipIdx.foldl
          (e.evaluateArgument r op level)
          ({ state.1 with ticks := state.1.ticks + 1 }.note (.expandingArguments level v.var),
            state.2)) (e.announce r level tx, []) := by
  simp only [evaluateOwn, operator]
  rfl

def RuleVariableException.covers (rt : Runtime) (c : MatchData) (ex : RuleVariableException) : Bool :=
  ex.keyRx.any (·.matchString (rt.toLower c.key.text)) || rt.toLower ex.keyStr == rt.toLower c.key.text

theorem selectField_filter (rt : Runtime) (tx : Transaction) (v : RuleVariableParams)
    {old new : List RuleVariableException} {taken : MatchData → Bool}
    (more : ∀ c, new.any (·.covers rt c) = (old.any (·.covers rt c) || taken c)) :
    tx.selectField rt { v with exceptions := new } =
      (tx.selectField rt { v with exceptions := old }).filter fun c => !taken c := by
  simp only [Transaction.selectField]
  rw [List.filter_filter]
  apply List.filter_congr
  intro c _
  have same := more c
  simp only [RuleVariableException.covers] at same
  rw [same, Bool.not_or, Bool.and_comm]

namespace Exclusion

variable {host : SeclangHost} {x : Exclusion}

theorem removedExceptions_entries (waf : WAF) (r : Rule) (v : RuleVariableParams) (rt : Runtime)
    (c : MatchData) :
    (removedExceptions (x.entries host waf) r v).any (·.covers rt c) =
      (decide (v.var = x.var ∧ r.id ∈ x.ids waf) &&
        rt.toLower (x.ctl host).colKey == rt.toLower c.key.text) := by
  have listed : ∀ ex, ex ∈ removedExceptions (x.entries host waf) r v ↔
      (v.var = x.var ∧ r.id ∈ x.ids waf) ∧ ex = ⟨(x.ctl host).colKey, none⟩ := by
    intro ex
    simp only [removedExceptions, entries, List.mem_map, List.mem_filter, decide_eq_true_eq]
    constructor
    · rintro ⟨c, ⟨⟨pair, ⟨⟨id, found, rfl⟩, rfl⟩, rfl⟩, same⟩, rfl⟩
      exact ⟨⟨same.symm, found⟩, rfl⟩
    · rintro ⟨⟨same, found⟩, rfl⟩
      exact ⟨_, ⟨⟨_, ⟨⟨r.id, found, rfl⟩, rfl⟩, rfl⟩, same.symm⟩, rfl⟩
  rw [Bool.eq_iff_iff, List.any_eq_true, Bool.and_eq_true, decide_eq_true_eq]
  constructor
  · rintro ⟨ex, inside, covered⟩
    obtain ⟨selected, rfl⟩ := (listed ex).mp inside
    exact ⟨selected, covered⟩
  · rintro ⟨selected, same⟩
    exact ⟨_, (listed _).mpr ⟨selected, rfl⟩, same⟩

theorem removedExceptions_append (left right : List (Int × RuleVariableParams)) (r : Rule)
    (v : RuleVariableParams) : removedExceptions (left ++ right) r v =
      removedExceptions left r v ++ removedExceptions right r v := by
  simp [removedExceptions]

def excludes (host : SeclangHost) (x : Exclusion) (c : MatchData) : Bool :=
  x.key = [] ∨ host.toLower c.key.text = host.toLower x.key

def takes (host : SeclangHost) (x : Exclusion) (c : MatchData) : Bool :=
  host.toLower (x.ctl host).colKey == host.toLower c.key.text

def remaining (host : SeclangHost) (x : Exclusion) (values : List MatchData) : List MatchData :=
  values.filter fun c => !x.excludes host c

/-- An exclusion that names a key without blanks around it, or a variable without keys. -/
def Covers (host : SeclangHost) (x : Exclusion) : Prop :=
  if x.key = [] then x.var.collection.keyed = false
  else host.toLower (trimSpace (host.toLower x.key)) = host.toLower x.key

theorem selectField_noKey {rt : Runtime} {tx : Transaction} {v : RuleVariableParams}
    (plain : v.var.collection.keyed = false) {c : MatchData} (found : c ∈ tx.selectField rt v) :
    c.key.text = [] := by
  simp only [Transaction.selectField, List.mem_filter, plain] at found
  obtain ⟨found, -⟩ := found
  split at found
  · simp at found
  · split at found
    · simp at found
    · cases col : v.var.collection with
      | single field =>
        rw [col] at found
        obtain rfl := List.mem_singleton.mp found
        rfl
      | size var fields =>
        rw [col] at found
        obtain rfl := List.mem_singleton.mp found
        rfl
      | absent | noop =>
        rw [col] at found
        cases found
      | map | names | concat | concatNames =>
        rw [col] at plain
        cases plain

theorem selectField_entries (waf : WAF) (r : Rule) (v : RuleVariableParams)
    (before after : List (Int × RuleVariableParams)) (tx : Transaction) :
    tx.selectField host.toRuntime (v.without (before ++ x.entries host waf ++ after) r) =
      (tx.selectField host.toRuntime (v.without (before ++ after) r)).filter fun c =>
        !(decide (v.var = x.var ∧ r.id ∈ x.ids waf) && x.takes host c) := by
  apply selectField_filter
  intro c
  have taken := @removedExceptions_entries host x waf r v host.toRuntime c
  rw [show (decide _ && x.takes host c) = _ from taken.symm]
  simp only [removedExceptions_append, List.any_append]
  ac_rfl

theorem selectField_other {waf : WAF} {r : Rule} {v : RuleVariableParams}
    (other : ¬(v.var = x.var ∧ r.id ∈ x.ids waf))
    (before after : List (Int × RuleVariableParams)) (tx : Transaction) :
    tx.selectField host.toRuntime (v.without (before ++ x.entries host waf ++ after) r) =
      tx.selectField host.toRuntime (v.without (before ++ after) r) := by
  rw [selectField_entries, List.filter_eq_self]
  intro c _
  rw [decide_eq_false other]
  rfl

theorem selectField_selected {waf : WAF} {r : Rule} {v : RuleVariableParams}
    (selected : v.var = x.var ∧ r.id ∈ x.ids waf)
    (before after : List (Int × RuleVariableParams)) (tx : Transaction) :
    tx.selectField host.toRuntime (v.without (before ++ x.entries host waf ++ after) r) =
      (tx.selectField host.toRuntime (v.without (before ++ after) r)).filter fun c =>
        !x.takes host c := by
  rw [selectField_entries, decide_eq_true selected]
  simp only [Bool.true_and]

theorem takes_eq_excludes (covers : x.Covers host) {tx : Transaction} {v : RuleVariableParams}
    (isVar : v.var = x.var) {c : MatchData} (found : c ∈ tx.selectField host.toRuntime v) :
    x.takes host c = x.excludes host c := by
  rw [Covers] at covers
  split at covers
  · next noKey =>
      have plain : c.key.text = [] := selectField_noKey (isVar ▸ covers) found
      have empty : (x.ctl host).colKey = [] := by
        simp only [ctl, noKey]
        rfl
      simp [takes, excludes, plain, empty, noKey]
  · next key =>
      have lowered : host.toLower (x.ctl host).colKey = host.toLower x.key := covers
      simp [takes, excludes, key, lowered, beq_eq_decide, eq_comm]

end Exclusion

theorem filter_not_eq_iff {α : Type} {first second : α → Bool} {xs : List α} :
    (xs.filter fun c => !first c) = (xs.filter fun c => !second c) ↔
      ∀ c ∈ xs, first c = second c := by
  constructor
  · intro same c listed
    have left : c ∈ xs.filter (fun c => !first c) ↔ c ∈ xs.filter fun c => !second c := by rw [same]
    simp only [List.mem_filter, listed, true_and, Bool.not_eq_true'] at left
    rw [Bool.eq_iff_iff, ← not_iff_not, Bool.not_eq_true, Bool.not_eq_true]
    exact left
  · exact fun same => List.filter_congr fun c listed => by rw [same c listed]

theorem RuleVariableParams.countOf_filter_not {v : RuleVariableParams} {first second : MatchData → Bool}
    {values : List MatchData} :
    [v.countOf (values.filter fun c => !first c)] = [v.countOf (values.filter fun c => !second c)] ↔
      values.countP first = values.countP second := by
  have total : ∀ taken : MatchData → Bool,
      values.length = values.countP taken + (values.filter fun c => !taken c).length := by
    intro taken
    rw [← List.countP_eq_length_filter]
    simpa using List.length_eq_countP_add_countP taken (l := values)
  have left := total first
  have right := total second
  constructor
  · intro same
    have texts := congrArg MatchData.value (List.singleton_inj.mp same)
    have lengths := itoa_inj (show itoa (values.filter fun c => !first c).length =
      itoa (values.filter fun c => !second c).length from texts)
    omega
  · intro counts
    rw [countOf, countOf, show (values.filter fun c => !first c).length =
      (values.filter fun c => !second c).length by omega]

/-- Once an exclusion is executed, what the selected rules are handed of its variable is what they
would be handed without it, less what it takes.  That is what it is for exactly if it takes the
values it is for, and a count exactly if it takes as many. -/
theorem exclusion_complete (host : SeclangHost) (waf : WAF) (x : Exclusion)
    (value : byte ';' ∉ x.value) (tx : Transaction) :
    ∃ a, host.parseCtl x.write = .ok a ∧
      let e : Engine := ⟨host.toRuntime, waf, transformArg⟩
      let executed := a.evaluate e.rt waf tx
      (∀ phase before, TargetStep before (e.eval phase before)) ∧
      (∀ r before, TargetStep before (e.evaluateReached r before)) ∧
      ∀ now, TargetStep executed now →
        ∃ later, now.ruleRemoveTargetByID =
            tx.ruleRemoveTargetByID ++ x.entries host waf ++ later ∧
          ∀ (r : Rule) (v : RuleVariableParams) (state : Transaction),
            let passed := passedValues e.rt now.ruleRemoveTargetByID r state
            let unexcluded := passedValues e.rt (tx.ruleRemoveTargetByID ++ later) r state
            let values := unexcluded { v with count := false }
            (¬(v.var = x.var ∧ r.id ∈ x.ids waf) → passed v = unexcluded v) ∧
            (v.var = x.var → r.id ∈ x.ids waf →
              (v.count = false → (passed v = x.remaining host (unexcluded v) ↔
                ∀ c ∈ values, x.takes host c = x.excludes host c)) ∧
              (v.count = true → v.var.collection ≠ .absent →
                (passed v = [v.countOf (x.remaining host values)] ↔
                  values.countP (x.takes host) = values.countP (x.excludes host))) ∧
              (x.Covers host → ∀ c ∈ values, x.takes host c = x.excludes host c)) := by
  refine ⟨x.ctl host, parseCtl_write value, ?_⟩
  intro e executed
  have moves : e.Moves _ TargetStep := Engine.targetMoves (transformArg_quiet _ _)
  refine ⟨?_, ?_, ?_⟩
  · intro phase before
    have looped := moves.rulesLoop phase (fun _ _ _ => TargetSteps.same rfl)
      (fun _ _ => TargetSteps.same rfl) 0 e.waf.rules (fun _ _ _ _ => trivial)
      (Engine.beginPhase phase before)
    have kept := TargetSteps.grows looped
    exact kept
  · intro r before
    exact TargetSteps.grows (moves.evaluateReached (fun _ _ => trivial) before)
  intro now kept
  obtain ⟨later, same⟩ := kept
  rw [x.evaluate_list host waf tx] at same
  refine ⟨later, same.symm, ?_⟩
  intro r v state passed unexcluded values
  have handed : passed v = passedValues host.toRuntime
      (tx.ruleRemoveTargetByID ++ x.entries host waf ++ later) r state v := by
    rw [same]
  rw [handed, passedValues_eq]
  refine ⟨?_, ?_⟩
  · intro other
    rw [Exclusion.selectField_other other]
    rfl
  · intro isVar selected
    rw [Exclusion.selectField_selected ⟨isVar, selected⟩]
    have given : values = if v.var.collection = .absent then []
        else state.selectField host.toRuntime (v.without (tx.ruleRemoveTargetByID ++ later) r) := rfl
    refine ⟨?_, ?_, ?_⟩
    · intro plain
      have all : unexcluded v = values := by
        simp only [values]
        congr 1
        rw [← plain]
      rw [all, given]
      simp only [plain, Bool.false_eq_true, if_false]
      split
      · simp [Exclusion.remaining]
      · exact filter_not_eq_iff
    · intro counts there
      rw [given]
      simp only [counts, there, if_false, if_true]
      exact RuleVariableParams.countOf_filter_not
    · intro covers c found
      rw [given] at found
      split at found
      · cases found
      · have sameVar : (v.without (tx.ruleRemoveTargetByID ++ later) r).var = x.var := isVar
        exact Exclusion.takes_eq_excludes covers sameVar found

def namedArgument : Exclusion := ⟨.byID, str "2", .args, str "User"⟩

def excludingWAF (x : Exclusion) : WAF :=
  let control : Rule :=
    { id := 1, phase := .requestHeaders,
      actions := [⟨str "ctl", .ctl (x.ctl SeclangHost.plain)⟩] }
  let denying : Rule :=
    { id := 2, phase := .requestHeaders, vars := [{ var := .args }],
      operator := some { operator := { evaluate := fun _ _ => (true, []) } },
      actions := [⟨str "deny", .deny⟩] }
  { newWAF [] with rules := [{ head := control }, { head := denying }] }

def excludingRun (x : Exclusion) : Transaction :=
  run .plain (excludingWAF x)
    ((PoolObject.new .plain (excludingWAF x)).newTransaction ⟨str "a", 0⟩ 1)
    [.addGetRequestArgument ⟨.literal (str "user"), str "user"⟩ (str "x"), .processRequestHeaders]

def twoArguments (waf : WAF) : Transaction :=
  run .plain waf ((PoolObject.new .plain waf).newTransaction ⟨str "a", 0⟩ 1)
    [.addGetRequestArgument ⟨.literal (str "user"), str "user"⟩ (str "x"),
      .addGetRequestArgument ⟨.literal (str "page"), str "page"⟩ (str "y")]

/-- Of the two arguments the rule 2 is handed the other one, and a count of them is 1. -/
theorem namedArgument_excluded :
    namedArgument.write = str "ruleRemoveTargetById=2;ARGS:User" ∧
      ∃ a, SeclangHost.plain.parseCtl namedArgument.write = .ok a ∧
        let waf := excludingWAF namedArgument
        let tx := twoArguments waf
        let removed := (a.evaluate SeclangHost.plain.toRuntime waf tx).ruleRemoveTargetByID
        (passedValues SeclangHost.plain.toRuntime removed { id := 2 } tx { var := .args }).map
            (·.value) = [str "y"] ∧
          (passedValues SeclangHost.plain.toRuntime removed { id := 2 } tx
            { var := .args, count := true }).map (·.value) = [str "1"] := by
  refine ⟨by decide, ?_⟩
  let waf := excludingWAF namedArgument
  let tx := twoArguments waf
  obtain ⟨a, parsed, -, -, excluded⟩ :=
    exclusion_complete SeclangHost.plain waf namedArgument (by decide) tx
  refine ⟨a, parsed, ?_⟩
  obtain ⟨later, list, handed⟩ := excluded _ (List.prefix_refl _)
  -- nothing was excluded behind it
  obtain rfl : later = [] := by
    obtain rfl : namedArgument.ctl SeclangHost.plain = a :=
      Except.ok.inj ((parseCtl_write (by decide)).symm.trans parsed)
    rw [namedArgument.evaluate_list] at list
    exact List.append_right_eq_self.mp list.symm
  have covers : namedArgument.Covers SeclangHost.plain := by
    rw [Exclusion.Covers, if_neg (by decide)]
    decide
  have ids : (2 : Int) ∈ namedArgument.ids waf := by decide
  obtain ⟨-, plain⟩ := handed { id := 2 } { var := .args } tx
  obtain ⟨-, counted⟩ := handed { id := 2 } { var := .args, count := true } tx
  obtain ⟨values, -, alike⟩ := plain rfl ids
  obtain ⟨-, count, alikeToo⟩ := counted rfl ids
  refine ⟨?_, ?_⟩
  · rw [(values rfl).mpr (alike covers)]
    decide
  · rw [(count rfl (by decide)).mpr (List.countP_congr fun c found => by rw [alikeToo covers c found])]
    decide

/-- Without a key the exclusion covers the values with an empty key only. -/
theorem keyless_exclusion_incomplete :
    let keyless : Exclusion := { namedArgument with key := [] }
    SeclangHost.plain.parseCtl (str "ruleRemoveTargetById=2;ARGS") =
        .ok (keyless.ctl SeclangHost.plain) ∧
      (excludingRun keyless).interruption =
        some { status := 403, ruleID := 2, action := str "deny" } ∧
      (excludingRun namedArgument).interruption = none := by
  decide +kernel

end Obsidian
