import Obsidian.ApiSteps
import Obsidian.EvaluationFrames

namespace Obsidian

open Obsidian.Data Relation

/-! # What rules leave alone

Rules write to a handful of collections only.  Everything a connector or a body
processor put into the others is still there after a phase, and each way of feeding a
transaction has its own collections too.
-/

def ruleMaps : List MapField := [.tx, .matchedVars, .rule, .env, .argsPath]

def ruleSingles : List SingleField :=
  [.matchedVar, .matchedVarName, .highestSeverity, .reqbodyProcessor, .resBodyProcessor]

structure SameInput (a b : TransactionVariables) : Prop where
  map : ∀ field ∉ ruleMaps, b.map field = a.map field
  single : ∀ field ∉ ruleSingles, b.single field = a.single field

namespace SameInput

theorem refl (v : TransactionVariables) : SameInput v v := ⟨fun _ _ => rfl, fun _ _ => rfl⟩

theorem trans {a b c : TransactionVariables} (first : SameInput a b) (second : SameInput b c) :
    SameInput a c where
  map field outside := (second.map field outside).trans (first.map field outside)
  single field outside := (second.single field outside).trans (first.single field outside)

theorem setMap (v : TransactionVariables) (field : MapField) (data : MapData)
    (inside : field ∈ ruleMaps) : SameInput v (v.setMap field data) where
  map other outside := by
    have apart : other ≠ field := fun same => outside (same ▸ inside)
    simp [TransactionVariables.setMap, apart]
  single _ _ := rfl

theorem setSingle (v : TransactionVariables) (field : SingleField) (value : Bytes)
    (inside : field ∈ ruleSingles) : SameInput v (v.setSingle field value) where
  map _ _ := rfl
  single other outside := by
    have apart : other ≠ field := fun same => outside (same ▸ inside)
    rw [TransactionVariables.setSingle_single, if_neg apart]

theorem describe (rt : Runtime) (r : Rule) (v : TransactionVariables) :
    SameInput v (r.describe rt v) := by
  have set : ∀ v key value, SameInput v (TransactionVariables.mapSetIndex rt v .rule key 0 value) :=
    fun v _ _ => setMap v .rule _ (by decide)
  have noted : ∀ (noted : Option Macro) (key : GoString) v, SameInput v
      (noted.elim v fun text => TransactionVariables.mapSetIndex rt v .rule key 0 text.string) := by
    intro noted key v
    cases noted with
    | none => exact refl v
    | some text => exact set v key text.string
  apply trans _ (set _ _ _)
  apply trans _ (noted r.logData _ _)
  apply trans _ (set _ _ _)
  apply trans _ (noted r.msg _ _)
  exact set v _ _

end SameInput

/-- Two transactions between which rules may have been evaluated. -/
def InputStep (a b : Transaction) : Prop := SameInput a.vars b.vars

abbrev InputSteps : Transaction → Transaction → Prop := ReflTransGen InputStep

namespace InputSteps

variable {a b : Transaction}

theorem sameInput (steps : InputSteps a b) : SameInput a.vars b.vars :=
  Steps.keeps (P := fun next : Transaction => SameInput a.vars next.vars)
    (fun last sofar => SameInput.trans sofar last) steps (SameInput.refl a.vars)

theorem of_vars (same : b.vars = a.vars) : InputSteps a b := by
  apply ReflTransGen.single
  unfold InputStep
  rw [same]
  exact SameInput.refl a.vars

theorem note (tx : Transaction) (event : Event) : InputSteps tx (tx.note event) := of_vars rfl

theorem setMap {data : MapData} (field : MapField) (inside : field ∈ ruleMaps)
    (vars : b.vars = a.vars.setMap field data) : InputSteps a b := by
  apply ReflTransGen.single
  unfold InputStep
  rw [vars]
  exact SameInput.setMap a.vars field data inside

/-! ## Actions -/

theorem removeTargets (a : CtlFn) (tx : Transaction) (ids : List Int) :
    InputSteps tx (a.removeTargets tx ids) :=
  Steps.foldl id (fun tx id _ =>
    of_vars (a := tx) (b := tx.removeRuleTargetByID id a.collection a.colKey) rfl) tx

theorem removeRules (tx : Transaction) (ids : List Int) :
    InputSteps tx (CtlFn.removeRules tx ids) :=
  Steps.foldl id (fun tx id _ => of_vars (a := tx) (b := tx.removeRuleByID id) rfl) tx

theorem ctl (rt : Runtime) (waf : WAF) (a : CtlFn) (tx : Transaction) :
    InputSteps tx (a.evaluate rt waf tx) := by
  have chosen : ∀ {α : Type} (o : Option α) (next : α → Transaction),
      (∀ x, (next x).vars = tx.vars) → InputSteps tx (o.elim tx next) :=
    fun o _ same => Steps.optional o fun x _ => of_vars (same x)
  simp only [CtlFn.evaluate]
  split
  case h_1 => exact Steps.optional _ fun ids _ => removeTargets a tx ids
  case h_2 | h_3 => exact removeTargets a tx _
  case h_4 | h_5 | h_6 | h_10 | h_16 | h_20 => exact chosen _ _ fun _ => rfl
  case h_7 | h_8 | h_14 | h_15 => exact Steps.guarded fun _ => chosen _ _ fun _ => rfl
  case h_9 | h_17 =>
      exact Steps.guarded fun _ => .single (SameInput.setSingle tx.vars _ _ (by decide))
  case h_11 =>
      split
      · exact Steps.optional _ fun ids _ => removeRules tx ids
      · exact chosen _ _ fun _ => rfl
  case h_12 | h_13 => exact removeRules tx _
  case h_18 | h_19 => exact .refl

theorem setvar (rt : Runtime) (key value : Macro) (isRemove : Bool) (tx : Transaction) :
    InputSteps tx (evaluateSetvar rt key value isRemove tx) := by
  unfold evaluateSetvar
  dsimp only
  split
  · exact setMap .tx (by decide) rfl
  · exact Steps.optional _ fun _ _ => setMap .tx (by decide) rfl

theorem interrupt (tx : Transaction) (interruption : Interruption) :
    InputSteps tx (tx.interrupt interruption) :=
  Steps.guarded fun _ => of_vars rfl

theorem action (rt : Runtime) (waf : WAF) (r : Rule) (a : Action) (tx : Transaction) :
    InputSteps tx (a.evaluate rt waf r tx) := by
  cases a
  case allow | skip | skipAfter => exact of_vars rfl
  case deny | drop | redirect => exact interrupt tx _
  case ctl fn => exact ctl rt waf fn tx
  case setvar key value isRemove => exact setvar rt key value isRemove tx
  case setenv => exact setMap .env (by decide) rfl
  all_goals exact .refl

theorem effect (rt : Runtime) (effect : OperatorEffect) (tx : Transaction) :
    InputSteps tx (tx.applyEffect rt effect) := by
  cases effect with
  | captureField => exact Steps.guarded fun _ => setMap .tx (by decide) rfl
  | setTX => exact setMap .tx (by decide) rfl
  | setArgsPath => exact setMap .argsPath (by decide) rfl

theorem matchVariable (rt : Runtime) (m : MatchData) (tx : Transaction) :
    InputSteps tx (tx.matchVariable rt m) := by
  apply ReflTransGen.single
  apply SameInput.trans _ (SameInput.setSingle _ .matchedVarName _ (by decide))
  apply SameInput.trans _ (SameInput.setSingle _ .matchedVar _ (by decide))
  exact SameInput.setMap _ .matchedVars _ (by decide)

theorem matchRule (rt : Runtime) (r : Rule) (mds : List MatchData) (tx : Transaction) :
    InputSteps tx (tx.matchRule rt r mds) := by
  apply ReflTransGen.single
  simp only [InputStep, Transaction.matchRule]
  split
  · exact SameInput.setSingle tx.vars _ _ (by decide)
  · exact SameInput.refl tx.vars

end InputSteps

/-! ## The evaluation -/

namespace Engine

variable {e : Engine}

theorem inputMoves (quiet : e.Quiet) : e.Moves (fun _ => True) InputStep where
  note event tx := InputSteps.note tx event
  action r _ a _ tx _ := InputSteps.action e.rt e.waf r a.function tx
  operator _ _ _ _ _ tx := Steps.foldl id (fun tx effect _ => InputSteps.effect e.rt effect tx) tx
  matchVariable := InputSteps.matchVariable e.rt
  matchRule := InputSteps.matchRule e.rt
  transform r arg argIdx tx := by
    obtain ⟨cache, lookup, transformed⟩ := quiet r arg argIdx tx
    rw [transformed]
    exact InputSteps.of_vars rfl
  visit _ := InputSteps.of_vars rfl
  announce r _ _ tx := .single (SameInput.describe e.rt r tx.vars)
  clear _ := InputSteps.setMap .matchedVars (by decide) rfl
  release _ := InputSteps.of_vars rfl

theorem eval_sameInput (quiet : e.Quiet) (phase : RulePhase) (tx : Transaction) :
    SameInput tx.vars (e.eval phase tx).vars := by
  have looped := (inputMoves quiet).rulesLoop phase (fun _ _ _ => InputSteps.of_vars rfl)
    (fun _ _ => InputSteps.of_vars rfl) 0 e.waf.rules (fun _ _ _ _ => trivial) (beginPhase phase tx)
  have same := InputSteps.sameInput looped
  exact same

end Engine

/-! ## What feeding leaves alone -/

section

variable {host : Host} {waf : WAF} {field : MapField}

theorem mapAdd_map (rt : Runtime) {added : MapField} (apart : field ≠ added) (key : GoString)
    (value : Bytes) (v : TransactionVariables) :
    (v.mapAdd rt added key value).map field = v.map field := by
  simp [TransactionVariables.mapAdd, TransactionVariables.setMap, apart]

theorem addArgument_map {added : MapField} (apart : field ≠ added) (key : GoString)
    (value : Bytes) (v : TransactionVariables) :
    (addArgument host waf added key value v).map field = v.map field := by
  unfold addArgument
  split
  · rfl
  · exact mapAdd_map host.toRuntime apart key value v

theorem processURI_map (apart : field ≠ .argsGet) (uri method httpVersion : Bytes)
    (tx : Transaction) :
    (processURI host waf tx uri method httpVersion).vars.map field = tx.vars.map field := by
  have extracted : ∀ pairs v, (List.foldl (fun v (pair : KeyValue) =>
      addArgument host waf .argsGet pair.key pair.value v) v pairs).map field =
        v.map field := by
    intro pairs v
    induction pairs generalizing v with
    | nil => rfl
    | cons pair rest ih => rw [List.foldl_cons, ih, addArgument_map apart]
  unfold processURI
  dsimp only
  cases host.parseRequestURI (uri.takeWhile (· ≠ 35)) with
  | error err => rfl
  | ok parsed => exact extracted _ _

theorem addCookies_map (apart : field ≠ .requestCookies) (pairs : List KeyValue)
    (v : TransactionVariables) :
    (pairs.foldl (fun v pair => v.mapAdd host.toRuntime .requestCookies pair.key pair.value) v).map
      field = v.map field := by
  induction pairs generalizing v with
  | nil => rfl
  | cons pair rest ih => rw [List.foldl_cons, ih, mapAdd_map _ apart]

theorem addRequestHeader_map (apart : field ≠ .requestCookies) (key : GoString) (value : Bytes)
    (tx : Transaction) :
    (addRequestHeader host tx key value).vars.map field =
      if key.text = [] then tx.vars.map field
      else (tx.vars.mapAdd host.toRuntime .requestHeaders key value).map field := by
  unfold addRequestHeader
  dsimp only
  split
  · rfl
  split
  · split
    · rfl
    · split <;> rfl
  split
  · exact addCookies_map apart _ _
  · rfl

theorem addResponseHeader_map (apart : field ≠ .responseHeaders) (key : GoString) (value : Bytes)
    (tx : Transaction) :
    (addResponseHeader host tx key value).vars.map field = tx.vars.map field := by
  have added := mapAdd_map host.toRuntime apart key value tx.vars
  unfold addResponseHeader
  dsimp only
  split
  · rfl
  · split <;> exact added

theorem addRequestHeader_single {single : SingleField} (apart : single ≠ .reqbodyProcessor)
    (key : GoString) (value : Bytes) (tx : Transaction) :
    (addRequestHeader host tx key value).vars.single single = tx.vars.single single := by
  have cookies : ∀ (pairs : List KeyValue) (v : TransactionVariables),
      (pairs.foldl (fun v pair =>
        v.mapAdd host.toRuntime .requestCookies pair.key pair.value) v).single single =
        v.single single := by
    intro pairs v
    induction pairs generalizing v with
    | nil => rfl
    | cons pair rest ih =>
      rw [List.foldl_cons, ih]
      rfl
  have chosen : ∀ (v : TransactionVariables) value,
      (v.setSingle .reqbodyProcessor value).single single = v.single single := by
    intro v value
    rw [TransactionVariables.setSingle_single, if_neg apart]
  unfold addRequestHeader
  dsimp only
  split
  · rfl
  split
  · split
    · exact chosen _ _
    · split
      · exact chosen _ _
      · rfl
  split
  · exact cookies _ _
  · rfl

end

end Obsidian
