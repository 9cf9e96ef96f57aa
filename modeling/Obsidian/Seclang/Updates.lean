import Obsidian.Seclang.RuleInvariants

namespace Obsidian

open Obsidian.Data

/-! # What the update directives reach

`SecRuleUpdateTargetById`, `SecRuleUpdateTargetByTag` and `SecRuleUpdateActionById`
name rules by id, range or tag.  Here the group after one of them is compared with
the one in which every named rule has been updated as a single id would have it.
-/

/-! ## Variable calls

Calls on the variables of a rule add exceptions to those it has, and variables
after them.
-/

namespace VariableOp

def isAddition : VariableOp → Bool
  | .add _ => true
  | .negate _ _ => false

/-- The exceptions that calls give to a variable. -/
def exceptionsFor (v : RuleVariable) : List VariableOp → List RuleVariableException
  | [] => []
  | .add _ :: rest => exceptionsFor v rest
  | .negate negated exception :: rest =>
    if v = negated then exception :: exceptionsFor v rest else exceptionsFor v rest

def additions : List VariableOp → List VariableParams
  | [] => []
  | .add params :: rest =>
    { params with exceptions := params.exceptions ++ exceptionsFor params.var rest } ::
      additions rest
  | .negate _ _ :: rest => additions rest

/-- The calls on a copy that the stored rule shows: the negations made before its
variables outgrow the room they had. -/
def shown : Nat → List VariableOp → List VariableOp
  | _, [] => []
  | 0, .add _ :: _ => []
  | room + 1, .add _ :: rest => shown room rest
  | room, .negate v exception :: rest => .negate v exception :: shown room rest

theorem additions_eq_nil_iff (ops : List VariableOp) :
    additions ops = [] ↔ ∀ op ∈ ops, op.isAddition = false := by
  induction ops with
  | nil => simp [additions]
  | cons op rest ih => cases op <;> simp [additions, isAddition, ih]

theorem shown_eq_self {ops : List VariableOp} (room : Nat)
    (negations : ∀ op ∈ ops, op.isAddition = false) : shown room ops = ops := by
  induction ops with
  | nil => simp only [shown]
  | cons op rest ih =>
    obtain ⟨here, later⟩ := List.forall_mem_cons.mp negations
    cases op with
    | add params => cases here
    | negate v exception => simp only [shown, ih later]

end VariableOp

def VariableParams.except (ops : List VariableOp) (params : VariableParams) : VariableParams :=
  { params with exceptions := params.exceptions ++ VariableOp.exceptionsFor params.var ops }

/-- None of the calls gives an exception to a variable of the rule. -/
def CompiledRule.Spared (ops : List VariableOp) (r : CompiledRule) : Prop :=
  ∀ params ∈ r.vars, VariableOp.exceptionsFor params.var ops = []

@[simp] theorem VariableParams.map_except_nil (vars : List VariableParams) :
    vars.map (VariableParams.except []) = vars := by
  have same : VariableParams.except [] = id := by
    funext params
    simp [except, VariableOp.exceptionsFor]
  rw [same, List.map_id]

theorem VariableParams.except_negate (v : RuleVariable) (exception : RuleVariableException)
    (rest : List VariableOp) (params : VariableParams) :
    (params.negate v exception).except rest = params.except (.negate v exception :: rest) := by
  simp only [except, negate, VariableOp.exceptionsFor]
  split <;> simp_all

namespace SeclangHost

variable (host : SeclangHost)

def roomAfter : List VariableOp → Nat → Nat → Nat
  | [], _, room => room
  | .add _ :: rest, size, room =>
    roomAfter rest (size + 1) (if room = 0 then host.grow (size + 1) else room - 1)
  | .negate _ _ :: rest, size, room => roomAfter rest size room

variable {host}

theorem applyVariableOps (ops : List VariableOp) (r : CompiledRule) :
    ops.foldl host.applyVariableOp r =
      { r with
        vars := r.vars.map (VariableParams.except ops) ++ VariableOp.additions ops
        room := host.roomAfter ops r.vars.length r.room } := by
  induction ops generalizing r with
  | nil => simp [roomAfter, VariableOp.additions]
  | cons op rest ih =>
    cases op with
    | add params =>
      rw [List.foldl_cons, ih]
      simp [applyVariableOp, roomAfter, VariableOp.additions, VariableParams.except,
        VariableOp.exceptionsFor]
    | negate v exception =>
      rw [List.foldl_cons, ih]
      simp [applyVariableOp, roomAfter, VariableOp.additions, VariableParams.except_negate]

theorem foldl_copyVariableOp_unshared (ops : List VariableOp) {copy : VariablesCopy}
    (own : copy.shared = false) :
    (ops.foldl host.copyVariableOp copy).stored = copy.stored := by
  induction ops generalizing copy with
  | nil => rfl
  | cons op rest ih =>
    have kept : (host.copyVariableOp copy op).shared = false ∧
        (host.copyVariableOp copy op).stored = copy.stored := by
      cases op with
      | add params =>
        simp only [copyVariableOp]
        split <;> simp [own]
      | negate v exception => simp [copyVariableOp, own]
    rw [List.foldl_cons, ih kept.1, kept.2]

theorem foldl_copyVariableOp_shared (ops : List VariableOp) {copy : VariablesCopy}
    (shared : copy.shared = true) :
    (ops.foldl host.copyVariableOp copy).stored =
      copy.stored.map (VariableParams.except (VariableOp.shown copy.room ops)) := by
  induction ops generalizing copy with
  | nil => simp [VariableOp.shown]
  | cons op rest ih =>
    cases op with
    | add params =>
      rw [List.foldl_cons]
      cases room : copy.room with
      | zero =>
        rw [foldl_copyVariableOp_unshared rest (by simp [copyVariableOp, room])]
        simp [copyVariableOp, room, VariableOp.shown]
      | succ left =>
        rw [ih (by simp [copyVariableOp, room, shared])]
        simp [copyVariableOp, room, VariableOp.shown]
    | negate v exception =>
      rw [List.foldl_cons, ih (by simp [copyVariableOp, shared])]
      simp [copyVariableOp, shared, VariableOp.shown, VariableParams.except_negate]

theorem touchVariables_eq (ops : List VariableOp) (r : CompiledRule) :
    host.touchVariables ops r =
      { r with vars := r.vars.map (VariableParams.except (VariableOp.shown r.room ops)) } := by
  simp only [touchVariables, foldl_copyVariableOp_shared]

/-! ## Repeated calls -/

theorem iterate_except (count : Nat) (ops : List VariableOp) (vars : List VariableParams) :
    (List.map (VariableParams.except ops))^[count] vars =
      vars.map fun params => { params with
        exceptions := params.exceptions ++
          (List.replicate count (VariableOp.exceptionsFor params.var ops)).flatten } := by
  induction count generalizing vars with
  | zero => simp
  | succ count ih =>
    rw [Function.iterate_succ_apply, ih]
    simp [VariableParams.except, List.replicate_succ]

theorem iterate_touchVariables (count : Nat) (ops : List VariableOp) (r : CompiledRule) :
    (host.touchVariables ops)^[count] r =
      { r with vars :=
          (List.map (VariableParams.except (VariableOp.shown r.room ops)))^[count] r.vars } := by
  induction count generalizing r with
  | zero => rfl
  | succ count ih =>
    rw [Function.iterate_succ_apply, ih, touchVariables_eq, Function.iterate_succ_apply]

theorem flatten_replicate_eq_self {α : Type} (count : Nat) (list : List α) :
    (List.replicate count list).flatten = list ↔ count = 1 ∨ list = [] := by
  constructor
  · intro same
    have lengths := congrArg List.length same
    simp only [List.length_flatten, List.map_replicate, List.sum_replicate_nat] at lengths
    rcases Nat.eq_zero_or_pos list.length with empty | filled
    · exact .inr (List.length_eq_zero_iff.mp empty)
    · exact .inl (Nat.eq_of_mul_eq_mul_right filled (by omega))
  · rintro (rfl | rfl) <;> simp

theorem apply_touched_iff (count : Nat) (ops : List VariableOp) (r : CompiledRule) :
    ops.foldl host.applyVariableOp ((host.touchVariables ops)^[count] r) =
        ops.foldl host.applyVariableOp r ↔
      count = 0 ∨ r.Spared (VariableOp.shown r.room ops) := by
  rw [applyVariableOps, applyVariableOps, iterate_touchVariables, iterate_except]
  simp only [CompiledRule.mk.injEq, List.append_left_inj, List.map_map, List.length_map,
    List.map_inj_left, true_and, and_true, CompiledRule.Spared, ← forall_or_left]
  refine forall₂_congr fun params _ => ?_
  simp only [Function.comp_apply, VariableParams.except]
  simp [or_iff_not_imp_left]

theorem roomAfter_negations (ops : List VariableOp) (size room : Nat)
    (negations : ∀ op ∈ ops, op.isAddition = false) : host.roomAfter ops size room = room := by
  induction ops with
  | nil => rfl
  | cons op rest ih =>
    obtain ⟨here, later⟩ := List.forall_mem_cons.mp negations
    cases op with
    | add params => cases here
    | negate v exception => exact ih later

theorem touched_eq_apply_iff (count : Nat) (ops : List VariableOp) (r : CompiledRule) :
    (host.touchVariables ops)^[count] r = ops.foldl host.applyVariableOp r ↔
      (∀ op ∈ ops, op.isAddition = false) ∧ (count = 1 ∨ r.Spared ops) := by
  rw [applyVariableOps, iterate_touchVariables, iterate_except]
  by_cases negations : ∀ op ∈ ops, op.isAddition = false
  · rw [VariableOp.shown_eq_self _ negations, (VariableOp.additions_eq_nil_iff ops).mpr negations,
      roomAfter_negations ops _ _ negations]
    rw [and_iff_right negations]
    simp only [CompiledRule.mk.injEq, List.append_nil, List.map_inj_left, true_and, and_true,
      CompiledRule.Spared, ← forall_or_left]
    refine forall₂_congr fun params _ => ?_
    simp [VariableParams.except, flatten_replicate_eq_self]
  · refine iff_of_false ?_ fun reach => negations reach.1
    intro same
    have lengths := congrArg (·.vars.length) same
    simp only [List.length_map, List.length_append] at lengths
    refine negations ((VariableOp.additions_eq_nil_iff ops).mp ?_)
    exact List.length_eq_zero_iff.mp (by omega)

end SeclangHost

/-! ## Named rules -/

inductive UpdateDirective where
  | targetByID
  | targetByTag
  | actionByID
deriving DecidableEq, Repr

def UpdateDirective.directive : UpdateDirective → RuleDirective
  | targetByID => .secRuleUpdateTargetByID
  | targetByTag => .secRuleUpdateTargetByTag
  | actionByID => .secRuleUpdateActionByID

namespace SeclangHost

variable (host : SeclangHost)

def listNames (directive : Bytes) (items : List Bytes) (id : Int) : Bool :=
  items.any fun item =>
    match host.parseIDOrRange directive item with
    | .ok (.single listed) => id = listed
    | .ok (.range first last) => first ≤ id ∧ id ≤ last
    | .error _ => false

/-- How many of the ranges before the id at which the directive stops hold the id. -/
def rangesOver (directive : Bytes) : List Bytes → Int → Nat
  | [], _ => 0
  | item :: rest, id =>
    match host.parseIDOrRange directive item with
    | .ok (.range first last) =>
      if first = last then 0
      else rangesOver directive rest id + if first ≤ id ∧ id ≤ last then 1 else 0
    | _ => 0

def updatedIndex (directive : Bytes) (items : List Bytes) (rules : RuleGroup) : Option Nat :=
  (host.updatedID directive items).bind rules.findByID

abbrev targetDirective : Bytes := str "SecRuleUpdateTargetById"

abbrev actionDirective : Bytes := str "SecRuleUpdateActionById"

/-- The rule at place `i` after `SecRuleUpdateTargetById`. -/
def updatedTargets (ops : List VariableOp) (items : List Bytes) (rules : RuleGroup) (i : Nat)
    (r : CompiledRule) : CompiledRule :=
  let touched := (host.touchVariables ops)^[host.rangesOver targetDirective items r.id] r
  if host.updatedIndex targetDirective items rules = some i then
    ops.foldl host.applyVariableOp touched
  else touched

/-! ## Lists of ids and ranges -/

variable {host}

theorem updateCopiesTargets_ok {selected : CompiledRule → Bool} {vars : Bytes}
    {rules after : RuleGroup} (done : host.updateCopiesTargets selected vars rules = (after, none)) :
    after = rules.map fun r =>
      if selected r.head then { r with head := host.touchVariables (host.parseVariables vars).1 r.head }
      else r := by
  induction rules generalizing after with
  | nil =>
    cases done
    rfl
  | cons r rest ih =>
    simp only [updateCopiesTargets] at done
    generalize later : host.updateCopiesTargets selected vars rest = result at done
    obtain ⟨tail, err⟩ := result
    by_cases here : selected r.head = true
    · simp only [here, if_true] at done
      split at done
      · cases done
      · cases done
        simp only [List.map_cons, here, if_true, ← ih later]
    · simp only [here] at done
      cases done
      simp only [List.map_cons, here, ← ih later]
      rfl

theorem updateSingle_getElem? {directive : Bytes}
    {update : CompiledRule → CompiledRule × Option GoError} {id : Int} {rules after : RuleGroup}
    (done : updateSingle directive update id rules = (after, none)) (i : Nat) :
    after[i]? = rules[i]?.map fun r =>
      if rules.findByID id = some i then { r with head := (update r.head).1 } else r := by
  simp only [updateSingle] at done
  cases found : rules.findByID id with
  | none =>
    simp only [found] at done
    cases done
  | some index =>
    simp only [found] at done
    by_cases here : index = i
    · subst here
      cases at_ : rules[index]? with
      | none =>
        simp only [at_] at done
        cases done
        simp [at_]
      | some r =>
        simp only [at_] at done
        obtain ⟨inside, _⟩ := List.getElem?_eq_some_iff.mp at_
        obtain ⟨rfl, _⟩ := Prod.mk.inj done
        simp [inside]
    · have other : ¬some index = some i := fun same => here (Option.some.inj same)
      simp only [other, if_false, Option.map_id']
      split at done
      · cases done
        rfl
      · obtain ⟨rfl, _⟩ := Prod.mk.inj done
        rw [List.getElem?_set_ne here]

theorem updatedIndex_map {rules : RuleGroup} {change : StoredRule → StoredRule}
    (directive : Bytes) (items : List Bytes) (same : ∀ r, (change r).head.id = r.head.id) :
    host.updatedIndex directive items (rules.map change) =
      host.updatedIndex directive items rules := by
  simp only [updatedIndex]
  congr 1
  funext id
  simp only [RuleGroup.findByID, List.findIdx?_map]
  congr 1
  funext r
  simp [same r]

theorem updateTargetBySingleID_getElem? {id : Int} {vars : Bytes} {rules after : RuleGroup}
    (done : host.updateTargetBySingleID id vars rules = (after, none)) (i : Nat) :
    after[i]? = rules[i]?.map fun r =>
      { r with
        head := if rules.findByID id = some i then
            (host.parseVariables (unquoted vars)).1.foldl host.applyVariableOp r.head
          else r.head } := by
  rw [updateSingle_getElem? done i]
  congr 1
  funext r
  split <;> rfl

theorem updateTargets_getElem? {vars : Bytes} (items : List Bytes) {rules after : RuleGroup}
    (done : host.updateTargets vars items rules = (after, none)) (i : Nat) :
    after[i]? = rules[i]?.map fun r =>
      { r with
        head := host.updatedTargets (host.parseVariables (unquoted vars)).1 items rules i r.head } := by
  induction items generalizing rules with
  | nil =>
    cases done
    simp [updatedTargets, rangesOver, updatedIndex, updatedID]
  | cons item rest ih =>
    simp only [updateTargets] at done
    cases parsed : host.parseIDOrRange targetDirective item with
    | error err =>
      simp only [parsed] at done
      cases done
    | ok idOrRange =>
      simp only [updatedTargets, rangesOver, updatedIndex, updatedID, parsed]
      simp only [parsed] at done
      cases idOrRange with
      | single id => exact updateTargetBySingleID_getElem? done i
      | range first last =>
        by_cases same : first = last
        · simp only [same, if_true] at done ⊢
          exact updateTargetBySingleID_getElem? done i
        simp only [same, if_false] at done ⊢
        split at done
        · cases done
        next middle copied =>
        rw [ih done, updateCopiesTargets_ok copied, List.getElem?_map, Option.map_map]
        congr 1
        funext r
        rw [Function.comp_apply, updatedTargets, updatedIndex_map _ _ fun r => by split <;> rfl]
        by_cases inside : first ≤ r.head.id ∧ r.head.id ≤ last
        · simp only [inside, updatedIndex]
          rfl
        · simp only [inside, updatedIndex, decide_false, if_false, Nat.add_zero]
          rfl

theorem updateActions_getElem? {actions : Bytes} (items : List Bytes) {rules after : RuleGroup}
    (done : host.updateActions actions items rules = (after, none)) (i : Nat) :
    after[i]? = rules[i]?.map fun r =>
      { r with
        head := if host.updatedIndex actionDirective items rules = some i then
            (host.parseRuleActions [] (fun _ => none) (unquoted actions) r.head).1
          else r.head } := by
  rcases updateActions_ok items done with ⟨stops, rfl⟩ | ⟨id, stops, updated⟩
  · simp [updatedIndex, stops]
  · rw [updateSingle_getElem? updated i]
    simp only [updatedIndex, stops, Option.bind_some]
    congr 1
    funext r
    split <;> rfl

theorem listNames_of_rangesOver {directive : Bytes} {items : List Bytes} {id : Int}
    (copied : host.rangesOver directive items id ≠ 0) :
    host.listNames directive items id = true := by
  induction items with
  | nil => exact absurd rfl copied
  | cons item rest ih =>
    simp only [rangesOver] at copied
    simp only [listNames, List.any_cons, Bool.or_eq_true]
    split at copied
    · next first last parsed =>
        simp only [parsed]
        split at copied
        · exact absurd rfl copied
        · by_cases inside : first ≤ id ∧ id ≤ last
          · exact .inl (by simpa using inside)
          · rw [if_neg inside] at copied
            exact .inr (ih copied)
    · exact absurd rfl copied

theorem listNames_of_updatedID {directive : Bytes} {items : List Bytes} {id : Int}
    (updated : host.updatedID directive items = some id) :
    host.listNames directive items id = true := by
  induction items with
  | nil => cases updated
  | cons item rest ih =>
    simp only [updatedID] at updated
    simp only [listNames, List.any_cons, Bool.or_eq_true]
    split at updated
    · cases updated
    · next parsed =>
        cases updated
        exact .inl (by simp [parsed])
    · next first last parsed =>
        split at updated
        · next same =>
            cases updated
            exact .inl (by simp [parsed, same])
        · exact .inr (ih updated)

theorem listNames_of_updatedIndex {directive : Bytes} {items : List Bytes} {rules : RuleGroup}
    {i : Nat} (inside : i < rules.length)
    (updated : host.updatedIndex directive items rules = some i) :
    host.listNames directive items rules[i].head.id = true := by
  obtain ⟨id, named, found⟩ := Option.bind_eq_some_iff.mp updated
  obtain ⟨_, same, _⟩ := List.findIdx?_eq_some_iff_getElem.mp found
  rw [of_decide_eq_true same]
  exact listNames_of_updatedID named

end SeclangHost

/-! ## The directives -/

namespace UpdateDirective

variable (host : SeclangHost)

open SeclangHost

def names (call : DirectiveCall) (r : CompiledRule) : UpdateDirective → Bool
  | targetByID => host.listNames targetDirective (fields call.opts).dropLast r.id
  | targetByTag => r.tags.contains (unquoted ((fields call.opts).headD []))
  | actionByID => host.listNames actionDirective (fields call.opts).dropLast r.id

def single (call : DirectiveCall) (r : CompiledRule) : UpdateDirective → CompiledRule
  | targetByID | targetByTag => (host.parseRuleVariables (updateText call) r).1
  | actionByID => (host.parseRuleActions [] (fun _ => none) (updateText call) r).1

def updateNamed (directive : UpdateDirective) (call : DirectiveCall) (r : CompiledRule) :
    CompiledRule :=
  if directive.names host call r then directive.single host call r else r

def namedUpdated (directive : UpdateDirective) (call : DirectiveCall) (rules : RuleGroup) :
    RuleGroup :=
  rules.map fun r => { r with head := directive.updateNamed host call r.head }

/-- What a directive does to the rule at place `i`, which it names, is what the form
with a single id would do. -/
def ReachesAt (call : DirectiveCall) (rules : RuleGroup) (i : Nat) (r : CompiledRule) :
    UpdateDirective → Prop
  | targetByID =>
    let ops := (host.parseVariables (updateText call)).1
    let items := (fields call.opts).dropLast
    if host.updatedIndex targetDirective items rules = some i then
      host.rangesOver targetDirective items r.id = 0 ∨ r.Spared (VariableOp.shown r.room ops)
    else
      (∀ op ∈ ops, op.isAddition = false) ∧
        (host.rangesOver targetDirective items r.id = 1 ∨ r.Spared ops)
  | targetByTag => ∀ op ∈ (host.parseVariables (updateText call)).1, op.isAddition = false
  | actionByID =>
    host.updatedIndex actionDirective (fields call.opts).dropLast rules = some i ∨
      (host.parseRuleActions [] (fun _ => none) (updateText call) r).1 = r

def Reaches (directive : UpdateDirective) (call : DirectiveCall) (rules : RuleGroup) : Prop :=
  ∀ i (_ : i < rules.length), directive.names host call rules[i].head = true →
    directive.ReachesAt host call rules i rules[i].head

variable {host}

theorem eq_map_heads_iff {rules after : RuleGroup} {f : Nat → CompiledRule → CompiledRule}
    {g : CompiledRule → CompiledRule}
    (heads : ∀ i : Nat, after[i]? = rules[i]?.map fun r => { r with head := f i r.head }) :
    after = rules.map (fun r => { r with head := g r.head }) ↔
      ∀ i (_ : i < rules.length), f i rules[i].head = g rules[i].head := by
  rw [List.ext_getElem?_iff]
  refine forall_congr' fun i => ?_
  rw [heads, List.getElem?_map]
  by_cases inside : i < rules.length
  · simp [inside]
  · simp [inside]

/-- It is enough to look at the rules that are named, if no other changes. -/
theorem namedUpdated_iff {directive : UpdateDirective} {call : DirectiveCall}
    {rules after : RuleGroup} {f : Nat → CompiledRule → CompiledRule}
    (heads : ∀ i : Nat, after[i]? = rules[i]?.map fun r => { r with head := f i r.head })
    (reached : ∀ i (_ : i < rules.length), directive.names host call rules[i].head = true →
      (f i rules[i].head = directive.single host call rules[i].head ↔
        directive.ReachesAt host call rules i rules[i].head))
    (others : ∀ i (_ : i < rules.length), directive.names host call rules[i].head = false →
      f i rules[i].head = rules[i].head) :
    after = directive.namedUpdated host call rules ↔ directive.Reaches host call rules := by
  rw [namedUpdated, eq_map_heads_iff heads]
  refine forall₂_congr fun i inside => ?_
  cases named : directive.names host call rules[i].head with
  | true => simpa [updateNamed, named] using reached i inside named
  | false => simpa [updateNamed, named] using others i inside named

theorem targetByID_iff {call : DirectiveCall} {options after : DirectiveOptions}
    (done : host.directiveSecRuleUpdateTargetByID call options = (after, none)) :
    after.rules = targetByID.namedUpdated host call options.rules ↔
      targetByID.Reaches host call options.rules := by
  obtain ⟨vars, last, updated⟩ := updateTargetByID_ok done
  refine namedUpdated_iff (updateTargets_getElem? _ updated) ?_ ?_
  · intro i inside named
    simp only [updatedTargets, single, ReachesAt, updateText_eq last, parseRuleVariables]
    split
    · exact apply_touched_iff _ _ _
    · exact touched_eq_apply_iff _ _ _
  · intro i inside unnamed
    have none : host.rangesOver targetDirective (fields call.opts).dropLast
        options.rules[i].head.id = 0 := by
      by_contra copied
      exact Bool.false_ne_true (unnamed.symm.trans (listNames_of_rangesOver copied))
    have other : host.updatedIndex targetDirective (fields call.opts).dropLast options.rules ≠
        some i := by
      intro updated
      exact Bool.false_ne_true (unnamed.symm.trans (listNames_of_updatedIndex inside updated))
    rw [updatedTargets, none, if_neg other]
    rfl

theorem targetByTag_iff {call : DirectiveCall} {options after : DirectiveOptions}
    (done : host.directiveSecRuleUpdateTargetByTag call options = (after, none)) :
    after.rules = targetByTag.namedUpdated host call options.rules ↔
      targetByTag.Reaches host call options.rules := by
  obtain ⟨tag, vars, words, updated⟩ := updateTargetByTag_ok done
  have text : updateText call = unquoted vars := updateText_eq (by simp [words])
  have tagged : ∀ r, targetByTag.names host call r = r.tags.contains (unquoted tag) := by
    simp [names, words]
  refine namedUpdated_iff (f := fun _ r =>
    if r.tags.contains (unquoted tag) then host.touchVariables (host.parseVariables (unquoted vars)).1 r
    else r) ?_ ?_ ?_
  · intro i
    rw [updateCopiesTargets_ok updated, List.getElem?_map]
    congr 1
    funext r
    split <;> rfl
  · intro i inside named
    rw [tagged] at named
    simp only [named, if_true, single, ReachesAt, text, parseRuleVariables]
    exact (touched_eq_apply_iff 1 _ _).trans (by simp)
  · intro i inside unnamed
    rw [tagged] at unnamed
    simp only [unnamed, Bool.false_eq_true, if_false]

theorem actionByID_iff {call : DirectiveCall} {options after : DirectiveOptions}
    (done : host.directiveSecRuleUpdateActionByID call options = (after, none)) :
    after.rules = actionByID.namedUpdated host call options.rules ↔
      actionByID.Reaches host call options.rules := by
  obtain ⟨actions, last, updated⟩ := updateActionByID_ok done
  refine namedUpdated_iff (f := fun i r =>
    if host.updatedIndex actionDirective (fields call.opts).dropLast options.rules = some i then
      (host.parseRuleActions [] (fun _ => none) (unquoted actions) r).1
    else r) (updateActions_getElem? _ updated) ?_ ?_
  · intro i inside named
    simp only [single, ReachesAt, updateText_eq last]
    split
    · next here => simp [here]
    · next other => simp [other, eq_comm]
  · intro i inside unnamed
    refine if_neg fun updated => ?_
    exact Bool.false_ne_true (unnamed.symm.trans (listNames_of_updatedIndex inside updated))

end UpdateDirective

/-- An accepted update directive does to every rule it names what the form with a
single id does, and nothing to the others, exactly when it reaches each of them. -/
theorem update_named_iff (host : SeclangHost) (directive : UpdateDirective) (call : DirectiveCall)
    (options after : DirectiveOptions)
    (accepted : host.apply options (directive.directive, call) = some after) :
    after.rules = directive.namedUpdated host call options.rules ↔
      directive.Reaches host call options.rules := by
  have done : directive.directive.function host call options = (after, none) :=
    SeclangHost.apply_ok accepted
  cases directive with
  | targetByID => exact UpdateDirective.targetByID_iff done
  | targetByTag => exact UpdateDirective.targetByTag_iff done
  | actionByID => exact UpdateDirective.actionByID_iff done

def twoRules : Configuration :=
  [(.secRule, inlineCall 1 "ARGS \"@rx a\" \"id:1,pass,tag:app\""),
    (.secRule, inlineCall 2 "ARGS \"@rx b\" \"id:2,pass,tag:app\"")]

def twoRulesLoaded : DirectiveOptions := (SeclangHost.plain.configure twoRules {}).getD {}

/-- An exception for a tag is given to every rule that carries the tag. -/
theorem update_named_tag :
    ∃ after, SeclangHost.plain.apply twoRulesLoaded
        (.secRuleUpdateTargetByTag, inlineCall 3 "app \"!ARGS:x\"") = some after ∧
      after.rules = UpdateDirective.targetByTag.namedUpdated SeclangHost.plain
        (inlineCall 3 "app \"!ARGS:x\"") twoRulesLoaded.rules := by
  have accepted : (SeclangHost.plain.apply twoRulesLoaded
      (.secRuleUpdateTargetByTag, inlineCall 3 "app \"!ARGS:x\"")).isSome = true := by
    decide +kernel
  obtain ⟨after, updated⟩ := Option.isSome_iff_exists.mp accepted
  refine ⟨after, updated, ?_⟩
  refine (update_named_iff SeclangHost.plain .targetByTag _ _ after updated).mpr fun _ _ _ => ?_
  have negations : ∀ op ∈ (SeclangHost.plain.parseVariables
      (SeclangHost.updateText (inlineCall 3 "app \"!ARGS:x\""))).1, op.isAddition = false := by
    decide +kernel
  exact negations

/-- Rule 2 gets no exception, neither rule gets the new target, both still log. -/
theorem update_misses_named :
    (SeclangHost.plain.configure
        (twoRules ++ [(.secRuleUpdateTargetByID, inlineCall 3 "1 2 \"!ARGS:x\"")]) {}).map
        (·.rules.map fun r => r.head.vars.map (·.exceptions.length)) = some [[1], [0]] ∧
      (SeclangHost.plain.configure
        (twoRules ++ [(.secRuleUpdateTargetByTag, inlineCall 3 "app \"REQUEST_URI\"")]) {}).map
        (·.rules.map fun r => r.head.vars.map (·.var)) = some [[.args], [.args]] ∧
      (SeclangHost.plain.configure
        (twoRules ++ [(.secRuleUpdateActionByID, inlineCall 3 "1-2 \"nolog\"")]) {}).map
        (·.rules.map fun r => r.head.log) = some [true, true] := by
  decide +kernel

end Obsidian
