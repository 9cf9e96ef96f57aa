import Obsidian.Data.Except
import Obsidian.Seclang.RuleParser

namespace Obsidian

open Obsidian.Data

/-! # Action lists

What `parseActions`, `mergeActions` and `ParseActions` do with the disruptive actions
and with the rest.
-/

def plainActions (items : List ActionItem) : List ActionItem :=
  items.filter fun item => item.name.type ≠ .disruptive ∧ item.name.type ≠ .metadata

def disruptiveActions (items : List ActionItem) : List ActionItem :=
  items.filter (·.disruptive)

@[simp] theorem plainActions_nil : plainActions [] = [] := rfl

@[simp] theorem disruptiveActions_append (left right : List ActionItem) :
    disruptiveActions (left ++ right) = disruptiveActions left ++ disruptiveActions right :=
  List.filter_append ..

@[simp] theorem plainActions_append (left right : List ActionItem) :
    plainActions (left ++ right) = plainActions left ++ plainActions right :=
  List.filter_append ..

theorem disruptiveActions_of_plain {item : ActionItem} (isNot : item.disruptive = false) :
    disruptiveActions [item] = [] := by
  simp [disruptiveActions, isNot]

theorem plainActions_of_disruptive {item : ActionItem} (is : item.disruptive = true)
    (rest : List ActionItem) : plainActions (item :: rest) = plainActions rest := by
  simp only [ActionItem.disruptive, decide_eq_true_eq] at is
  simp [plainActions, is]

theorem disruptiveActions_plainActions (items : List ActionItem) :
    disruptiveActions (plainActions items) = [] := by
  simp only [disruptiveActions, plainActions, List.filter_filter, List.filter_eq_nil_iff]
  intro item _
  simp [ActionItem.disruptive]
  tauto

/-! ## parseActions -/

namespace SeclangHost

/-- The state of `parseActions`: the index is that of the one disruptive action. -/
inductive OneDisruptive : List ActionItem × Option Nat → Option ActionItem → Prop
  | none {items} (plain : disruptiveActions items = []) : OneDisruptive (items, .none) .none
  | some {before after item} (is : item.disruptive = true)
      (plainBefore : disruptiveActions before = []) (plainAfter : disruptiveActions after = []) :
      OneDisruptive (before ++ item :: after, .some before.length) (.some item)

theorem OneDisruptive.disruptive {state : List ActionItem × Option Nat} {last : Option ActionItem}
    (one : OneDisruptive state last) : disruptiveActions state.1 = last.toList := by
  cases one with
  | none plain => exact plain
  | some is before after =>
    simp only [disruptiveActions, List.filter_append, List.filter_cons, is] at before after ⊢
    simp [before, after]

theorem appendItem_oneDisruptive {state : List ActionItem × Option Nat} {last : Option ActionItem}
    (one : OneDisruptive state last) (item : ActionItem) :
    OneDisruptive (appendItem state item) (if item.disruptive then some item else last) := by
  cases is : item.disruptive with
  | true =>
    cases one with
    | none plain =>
      simp only [appendItem, is, if_true]
      exact .some is plain rfl
    | some old before after =>
      simp only [appendItem, is, if_true, List.set_append, Nat.lt_irrefl, if_false,
        Nat.sub_self, List.set_cons_zero]
      exact .some is before after
  | false =>
    cases one with
    | none plain =>
      simp only [appendItem, is, Bool.false_eq_true, if_false]
      apply OneDisruptive.none
      rw [disruptiveActions_append, plain, disruptiveActions_of_plain is, List.nil_append]
    | some oldIs plainBefore plainAfter =>
      simp only [appendItem, is, Bool.false_eq_true, if_false, List.append_assoc,
        List.cons_append]
      apply OneDisruptive.some oldIs plainBefore
      rw [disruptiveActions_append, plainAfter, disruptiveActions_of_plain is, List.nil_append]

theorem appendItem_plain {state : List ActionItem × Option Nat} {last : Option ActionItem}
    (one : OneDisruptive state last) (item : ActionItem) :
    plainActions (appendItem state item).1 = plainActions state.1 ++ plainActions [item] := by
  cases is : item.disruptive with
  | false => simp only [appendItem, is, plainActions_append]
  | true =>
    cases one with
    | none plain => simp only [appendItem, is, plainActions_append]
    | some oldIs plainBefore plainAfter =>
      simp only [appendItem, is, List.set_append, Nat.lt_irrefl, if_false, Nat.sub_self,
        List.set_cons_zero, plainActions_append]
      rw [plainActions_of_disruptive is, plainActions_of_disruptive is,
        plainActions_of_disruptive oldIs]
      exact (List.append_nil _).symm

theorem foldl_appendItem (items : List ActionItem) {state : List ActionItem × Option Nat}
    {last : Option ActionItem} (one : OneDisruptive state last) :
    OneDisruptive (items.foldl appendItem state) ((disruptiveActions items).getLast?.or last) ∧
      plainActions (items.foldl appendItem state).1 = plainActions state.1 ++ plainActions items := by
  induction items generalizing state last with
  | nil => exact ⟨by simpa [disruptiveActions] using one, by simp [plainActions]⟩
  | cons item rest ih =>
    obtain ⟨later, plain⟩ := ih (appendItem_oneDisruptive one item)
    rw [List.foldl_cons]
    refine ⟨?_, ?_⟩
    · convert later using 1
      rw [← List.singleton_append, disruptiveActions_append, List.getLast?_append]
      cases is : item.disruptive with
      | false => simp [disruptiveActions, is]
      | true => cases (disruptiveActions rest).getLast? <;> simp [disruptiveActions, is]
    · rw [plain, appendItem_plain one, List.append_assoc, ← plainActions_append,
        List.singleton_append]

theorem mem_foldl_appendItem (items : List ActionItem) {state : List ActionItem × Option Nat}
    {item : ActionItem} (found : item ∈ (items.foldl appendItem state).1) :
    item ∈ state.1 ∨ item ∈ items := by
  induction items generalizing state with
  | nil => exact .inl found
  | cons first rest ih =>
    rcases ih found with early | late
    · have split : item ∈ state.1 ∨ item = first := by
        simp only [appendItem] at early
        split at early
        · exact List.mem_or_eq_of_mem_set early
        · simpa using early
        · simpa using early
      rcases split with old | rfl
      · exact .inl old
      · exact .inr List.mem_cons_self
    · exact .inr (List.mem_cons_of_mem _ late)

variable {host : SeclangHost}

def writtenActions (host : SeclangHost) (actions : Bytes) : List ActionItem :=
  (splitActions actions).filterMap fun pair => (host.ruleAction pair).toOption

theorem writtenDisruptive_eq (actions : Bytes) :
    host.writtenDisruptive actions = disruptiveActions (host.writtenActions actions) := rfl

theorem parseActions_spec {actions : Bytes} {act : List ActionItem}
    (parsed : host.parseActions actions = .ok act) :
    disruptiveActions act = (disruptiveActions (host.writtenActions actions)).getLast?.toList ∧
      plainActions act = plainActions (host.writtenActions actions) ∧
      ∀ item ∈ act, item ∈ host.writtenActions actions := by
  obtain ⟨state, folded, rfl⟩ := exceptMap_ok parsed
  obtain ⟨items, reads, rfl⟩ := exceptFoldlM_map folded
  have written : host.writtenActions actions = items := by
    simp only [writtenActions]
    rw [← Function.comp_def Except.toOption, ← List.filterMap_map, reads, List.filterMap_map]
    simp [Function.comp_def, Except.toOption]
  obtain ⟨one, plain⟩ := foldl_appendItem items (.none rfl : OneDisruptive ([], none) none)
  rw [written]
  refine ⟨by simpa using one.disruptive, by simpa using plain, ?_⟩
  intro item found
  simpa using mem_foldl_appendItem items found

end SeclangHost

/-! ## mergeActions -/

/-- The disruptive action in force: the last one written, the inherited one if none
is written or it is `block`. -/
def effectiveAction : Option ActionItem → Option ActionItem → Option ActionItem
  | none, inherited => inherited
  | some item, none => some item
  | some item, some inherited => if item.name = .block then some inherited else some item

theorem mergeActions_spec {origin defaults : List ActionItem} {own : Option ActionItem}
    {inherited : ActionItem} (one : disruptiveActions origin = own.toList)
    (oneDefault : disruptiveActions defaults = [inherited]) :
    disruptiveActions (mergeActions origin defaults) =
        (effectiveAction own (some inherited)).toList ∧
      plainActions (mergeActions origin defaults) =
        plainActions defaults ++ plainActions origin := by
  have da : (defaults.filter (·.disruptive)).getLast? = some inherited := by
    rw [show defaults.filter (·.disruptive) = _ from oneDefault]
    rfl
  have inheritedIs : inherited.disruptive = true := by
    have found : inherited ∈ disruptiveActions defaults := by rw [oneDefault]; simp
    exact (List.mem_filter.mp found).2
  simp only [mergeActions, da]
  generalize keptEq : origin.filter _ = kept
  have keptPlain : plainActions kept = plainActions origin := by
    rw [← keptEq]
    simp only [plainActions, List.filter_filter]
    apply List.filter_congr
    intro item _
    by_cases is : item.name.type = .disruptive <;> simp [ActionItem.disruptive, is]
  have keptDisruptive : disruptiveActions kept = own.toList.filter (·.name ≠ .block) := by
    rw [← keptEq, ← one]
    simp only [disruptiveActions, List.filter_filter]
    apply List.filter_congr
    intro item _
    cases item.disruptive <;> simp
  have none : (kept.any fun item => item.disruptive) = false ↔ disruptiveActions kept = [] := by
    simp [disruptiveActions, List.filter_eq_nil_iff]
  have front : ∀ rest, disruptiveActions (plainActions defaults ++ rest) = disruptiveActions rest := by
    intro rest
    rw [disruptiveActions_append, disruptiveActions_plainActions, List.nil_append]
  have frontPlain : plainActions (plainActions defaults) = plainActions defaults := by
    simp [plainActions, List.filter_filter]
  rw [show (defaults.filter fun action =>
    action.name.type ≠ .disruptive ∧ action.name.type ≠ .metadata) = plainActions defaults from rfl]
  split
  · next any =>
      refine ⟨?_, by rw [plainActions_append, frontPlain, keptPlain]⟩
      have some : disruptiveActions kept ≠ [] := fun empty => by simp [none.mpr empty] at any
      rw [front, keptDisruptive]
      rw [keptDisruptive] at some
      cases own with
      | none => exact absurd rfl some
      | some item => by_cases block : item.name = .block <;> simp_all [effectiveAction]
  · next noneAny =>
      have empty : disruptiveActions kept = [] := none.mp (by simpa using noneAny)
      refine ⟨?_, ?_⟩
      · rw [List.append_assoc, front, disruptiveActions_append, empty]
        rw [keptDisruptive] at empty
        have last : disruptiveActions [inherited] = [inherited] := by
          simp [disruptiveActions, inheritedIs]
        cases own with
        | none => simpa [effectiveAction] using last
        | some item => by_cases block : item.name = .block <;> simp_all [effectiveAction]
      · rw [List.append_assoc, plainActions_append, plainActions_append, frontPlain, keptPlain,
          Option.toList_some, plainActions_of_disruptive inheritedIs]
        simp [plainActions]

/-! ## Default actions -/

namespace SeclangHost

variable {host : SeclangHost}

def SoundDefaults (defaults : DefaultActions) : Prop :=
  ∀ phase items, defaults phase = some items → ∃ item, disruptiveActions items = [item]

theorem checkDefaultAction_seen {actions : Bytes} {items : List ActionItem}
    {before after : RulePhase × Bool}
    (checked : items.foldlM (checkDefaultAction actions) before = .ok after) (seen : after.2 = true) :
    before.2 = true ∨ disruptiveActions items ≠ [] := by
  induction items generalizing before with
  | nil =>
    cases checked
    exact .inl seen
  | cons item rest ih =>
    obtain ⟨next, first, later⟩ := exceptFoldlM_cons checked
    by_cases is : item.disruptive = true
    · exact .inr (by simp [disruptiveActions, is])
    · have more : disruptiveActions (item :: rest) = disruptiveActions rest := by
        simp [disruptiveActions, is]
      rw [more]
      refine (ih later).imp_left ?_
      intro nextSeen
      simp only [checkDefaultAction] at first
      repeat' split at first
      all_goals try cases first
      · obtain ⟨phase, _, rfl⟩ := exceptMap_ok first
        exact nextSeen
      · simpa [is] using nextSeen

theorem parseDefaultActions_sound {defaults after : DefaultActions} {actions : Bytes}
    (sound : SoundDefaults defaults) (parsed : host.parseDefaultActions defaults actions = .ok after) :
    SoundDefaults after := by
  simp only [parseDefaultActions] at parsed
  obtain ⟨act, parsedActions, rest⟩ := exceptBind_ok parsed
  obtain ⟨⟨phase, disruptive⟩, checked, rest⟩ := exceptBind_ok rest
  simp only at rest
  split at rest
  · cases rest
  split at rest
  · cases rest
  next seen =>
    split at rest
    · cases rest
    cases rest
    intro other items found
    by_cases same : other = phase
    · subst same
      rw [Function.update_self] at found
      cases found
      have some := (checkDefaultAction_seen checked (by simpa using seen)).resolve_left (by simp)
      obtain ⟨one, _⟩ := parseActions_spec parsedActions
      rw [one] at some ⊢
      cases last : (disruptiveActions (host.writtenActions actions)).getLast? with
      | none => simp [last] at some
      | some item => exact ⟨item, rfl⟩
    · rw [Function.update_of_ne same] at found
      exact sound other items found

theorem defaultActions_sound {declared : List Bytes} {defaults : DefaultActions}
    (parsed : host.defaultActions declared = .ok defaults) : SoundDefaults defaults := by
  simp only [defaultActions] at parsed
  obtain ⟨before, folded, rest⟩ := exceptBind_ok parsed
  have sound : SoundDefaults before :=
    exceptFoldlM_keeps (fun _ _ _ _ step sound => parseDefaultActions_sound sound step) folded
      (by intro phase items found; cases found)
  split at rest
  · cases rest
    exact sound
  · exact parseDefaultActions_sound sound rest

/-! ## Init -/

theorem noArguments_ok {data : Bytes} {before after : CompiledRule}
    (done : noArguments data before = .ok after) : before = after := by
  simp only [noArguments] at done
  split at done
  · exact Except.ok.inj done
  · cases done

theorem someArguments_ok {data : Bytes} {init : Except GoError CompiledRule} {after : CompiledRule}
    (done : someArguments data init = .ok after) : init = .ok after := by
  simp only [someArguments] at done
  split at done
  · cases done
  · exact done

theorem initCtl_ok {data : Bytes} {before after : CompiledRule}
    (done : host.initCtl data before = .ok after) : before = after := by
  simp only [initCtl] at done
  split at done
  · cases done
  · split at done
    · exact Except.ok.inj done
    · cases done

theorem initSetenv_ok {data : Bytes} {before after : CompiledRule}
    (done : host.initSetenv data before = .ok after) : before = after := by
  simp only [initSetenv] at done
  repeat' split at done
  all_goals try cases done
  exact (exceptMap_ok done).choose_spec.2

theorem initSetvar_ok {data : Bytes} {before after : CompiledRule}
    (done : host.initSetvar data before = .ok after) : before = after := by
  simp only [initSetvar] at done
  generalize (if data.head? = some (byte '!') then data.tail else data) = data at done
  split at done
  · cases done
  split at done
  · cases done
  obtain ⟨_, _, rest⟩ := exceptBind_ok done
  split at rest
  · exact (exceptMap_ok rest).choose_spec.2
  · exact Except.ok.inj rest

/-- What only the `Init` of `id` and of `phase` touches, and what none does. -/
structure SameDefinition (before after : CompiledRule) : Prop where
  actions : after.actions = before.actions
  origin : after.origin = before.origin
  secMark : after.secMark = before.secMark
  id : after.id = before.id
  phase : after.phase = before.phase

/-- The fields that an `Init` sets.  Only those of `id`, `phase` and `msg` set the id, the
phase and the message. -/
theorem init_fields {name : ActionName} {data : Bytes} {before after : CompiledRule}
    (done : host.init name data before = .ok after) :
    after = { before with
      id := if name = .id then after.id else before.id
      logID := after.logID
      rev := after.rev
      severity := after.severity
      tags := after.tags
      phase := if name = .phase then after.phase else before.phase
      version := after.version
      maturity := after.maturity
      transformations := after.transformations
      transformationsID := after.transformationsID
      capture := after.capture
      disruptiveStatus := after.disruptiveStatus
      msg := if name = .msg then after.msg else before.msg
      logData := after.logData
      log := after.log
      audit := after.audit
      multiMatch := after.multiMatch
      hasChain := after.hasChain } := by
  cases name with
  | auditlog | capture | chain | log | multiMatch | noauditlog | nolog | block | deny | drop | exec |
    pass =>
      cases noArguments_ok done
      rfl
  | ctl =>
    cases initCtl_ok done
    rfl
  | setenv =>
    cases initSetenv_ok (someArguments_ok done)
    rfl
  | setvar =>
    cases initSetvar_ok (someArguments_ok done)
    rfl
  | expirevar =>
    cases done
    rfl
  | redirect | skipAfter | rev | tag | ver =>
    cases someArguments_ok done
    rfl
  | allow | initcol =>
    simp only [init] at done
    split at done
    · cases done
      rfl
    · cases done
  | logdata | msg | severity | phase =>
    obtain ⟨_, _, rest⟩ := exceptBind_ok (someArguments_ok done)
    cases rest
    rfl
  | skip | id =>
    obtain ⟨_, _, rest⟩ := exceptBind_ok (someArguments_ok done)
    split at rest
    · cases rest
    · cases rest
      rfl
  | maturity =>
    obtain ⟨_, _, rest⟩ := exceptBind_ok (show _ >>= _ = _ from done)
    split at rest
    · cases rest
    · cases rest
      rfl
  | status =>
    have rest := someArguments_ok done
    split at rest
    · cases rest
      rfl
    · cases rest
  | t =>
    simp only [init, initT] at done
    repeat' split at done
    all_goals try cases done
    all_goals rfl

theorem init_sameDefinition {name : ActionName} {data : Bytes} {before after : CompiledRule}
    (done : host.init name data before = .ok after) (notID : name ≠ .id) (notPhase : name ≠ .phase) :
    SameDefinition before after := by
  have fields := init_fields done
  rw [if_neg notID, if_neg notPhase] at fields
  rw [fields]
  exact ⟨rfl, rfl, rfl, rfl, rfl⟩

theorem init_keeps {name : ActionName} {data : Bytes} {before after : CompiledRule}
    (done : host.init name data before = .ok after) :
    after.actions = before.actions ∧ after.origin = before.origin ∧
      after.secMark = before.secMark := by
  rw [init_fields done]
  exact ⟨rfl, rfl, rfl⟩

/-! ## ParseActions -/

theorem initAll_keeps {P : CompiledRule → Prop}
    {init : CompiledRule → ActionItem → Except GoError CompiledRule} {items : List ActionItem}
    (step : ∀ item ∈ items, ∀ {before after}, init before item = .ok after → P before → P after)
    {r after : CompiledRule} (done : initAll init items r = (after, none)) (holds : P r) :
    P after := by
  induction items generalizing r with
  | nil =>
    cases done
    exact holds
  | cons item rest ih =>
    simp only [initAll] at done
    split at done
    · next middle first =>
        apply ih (fun item found => step item (List.mem_cons_of_mem _ found)) done
        exact step item List.mem_cons_self first holds
    · cases done

theorem initMetadata_ok {before after : CompiledRule} {item : ActionItem}
    (done : host.initMetadata before item = .ok after) :
    item.name.type = .metadata ∧ host.init item.name item.value before = .ok after ∨
      after = before := by
  simp only [initMetadata] at done
  split at done
  · next is =>
      split at done
      · next init =>
          cases done
          exact .inl ⟨is, init⟩
      · cases done
  · cases done
    exact .inr rfl

theorem initMetadata_keeps {before after : CompiledRule} {item : ActionItem}
    (done : host.initMetadata before item = .ok after) :
    after.actions = before.actions ∧ after.origin = before.origin ∧
      after.secMark = before.secMark := by
  rcases initMetadata_ok done with ⟨_, init⟩ | rfl
  · exact init_keeps init
  · exact ⟨rfl, rfl, rfl⟩

theorem initAction_spec {before after : CompiledRule} {item : ActionItem}
    (done : host.initAction before item = .ok after) :
    after.actions = before.actions ++ [item].filter (·.name.type ≠ .metadata) ∧
      after.origin = before.origin ∧ after.secMark = before.secMark ∧ after.id = before.id ∧
      after.phase = before.phase := by
  simp only [initAction] at done
  split at done
  · next metadata =>
      cases done
      simp [metadata]
  · next notMetadata =>
      obtain ⟨middle, init, rfl⟩ := exceptMap_ok done
      have same := init_sameDefinition init
        (fun is => notMetadata (by rw [is]; rfl)) (fun is => notMetadata (by rw [is]; rfl))
      simp [notMetadata, same.actions, same.origin, same.secMark, same.id, same.phase]

theorem initAll_initAction {items : List ActionItem} {r after : CompiledRule}
    (done : initAll host.initAction items r = (after, none)) :
    after.actions = r.actions ++ items.filter (·.name.type ≠ .metadata) ∧
      after.origin = r.origin ∧ after.secMark = r.secMark ∧ after.id = r.id ∧
      after.phase = r.phase := by
  induction items generalizing r with
  | nil =>
    cases done
    simp
  | cons item rest ih =>
    simp only [initAll] at done
    split at done
    · next middle first =>
        obtain ⟨actions, origin, mark, id, phase⟩ := initAction_spec first
        obtain ⟨laterActions, laterOrigin, laterMark, laterID, laterPhase⟩ := ih done
        refine ⟨?_, laterOrigin.trans origin, laterMark.trans mark, laterID.trans id,
          laterPhase.trans phase⟩
        rw [laterActions, actions, List.append_assoc, ← List.filter_append, List.singleton_append]
    · cases done

@[simp] theorem disruptiveActions_notMetadata (items : List ActionItem) :
    disruptiveActions (items.filter (·.name.type ≠ .metadata)) = disruptiveActions items := by
  simp only [disruptiveActions, List.filter_filter]
  apply List.filter_congr
  intro item _
  by_cases is : item.name.type = .disruptive <;> simp [ActionItem.disruptive, is]

@[simp] theorem plainActions_notMetadata (items : List ActionItem) :
    plainActions (items.filter (·.name.type ≠ .metadata)) = plainActions items := by
  simp only [plainActions, List.filter_filter]
  apply List.filter_congr
  intro item _
  by_cases is : item.name.type = .metadata <;> simp [is]

def inheritedAction (defaults : DefaultActions) (phase : RulePhase) : Option ActionItem :=
  (defaults phase).bind fun items => (disruptiveActions items).getLast?

/-- The rule `ParseActions` leaves, up to its metadata. -/
structure ParsedActions (host : SeclangHost) (defaults : DefaultActions) (actions : Bytes)
    (before after : CompiledRule) : Prop where
  disruptive : disruptiveActions after.actions = disruptiveActions before.actions ++
    (effectiveAction (disruptiveActions (host.writtenActions actions)).getLast?
      (inheritedAction defaults after.phase)).toList
  plain : plainActions after.actions = plainActions before.actions ++
    (plainActions ((defaults after.phase).getD []) ++ plainActions (host.writtenActions actions))
  origin : after.origin = { before.origin with
    written := before.origin.written ++ disruptiveActions (host.writtenActions actions)
    inherited := match defaults after.phase with
      | some items => (disruptiveActions items).getLast?
      | none => before.origin.inherited }

/-- `ParseActions` step by step: the metadata first, then the merged list. -/
theorem parseRuleActions_ok {disabled : List Bytes} {defaults : DefaultActions} {actions : Bytes}
    {before after : CompiledRule}
    (parsed : host.parseRuleActions disabled defaults actions before = (after, none)) :
    ∃ act middle added, host.parseActions actions = .ok act ∧
      initAll host.initMetadata act before = (middle, none) ∧
      initAll host.initAction (((defaults middle.phase).map (mergeActions act)).getD act) middle =
        (added, none) ∧
      after = host.recordActions actions (defaults middle.phase) added := by
  simp only [parseRuleActions] at parsed
  split at parsed
  · cases parsed
  next act parsedActions =>
  split at parsed
  · cases parsed
  split at parsed
  · cases parsed
  next middle initialised =>
  split at parsed
  · cases parsed
  next added addedActions =>
  cases parsed
  refine ⟨act, middle, added, parsedActions, initialised, ?_, rfl⟩
  cases declared : defaults middle.phase <;> simpa [declared] using addedActions

theorem initAll_initMetadata {items : List ActionItem} {before after : CompiledRule}
    (done : initAll host.initMetadata items before = (after, none)) :
    after.actions = before.actions ∧ after.origin = before.origin ∧
      after.secMark = before.secMark := by
  refine initAll_keeps (P := fun r => r.actions = before.actions ∧ r.origin = before.origin ∧
    r.secMark = before.secMark) (fun item _ _ _ step holds => ?_) done ⟨rfl, rfl, rfl⟩
  obtain ⟨actions, origin, mark⟩ := initMetadata_keeps step
  exact ⟨actions.trans holds.1, origin.trans holds.2.1, mark.trans holds.2.2⟩

theorem parseRuleActions_spec {disabled : List Bytes} {defaults : DefaultActions} {actions : Bytes}
    {before after : CompiledRule} (sound : SoundDefaults defaults)
    (parsed : host.parseRuleActions disabled defaults actions before = (after, none)) :
    ParsedActions host defaults actions before after := by
  obtain ⟨act, middle, added, parsedActions, initialised, addedActions, rfl⟩ :=
    parseRuleActions_ok parsed
  obtain ⟨middleActions, middleOrigin, _⟩ := initAll_initMetadata initialised
  obtain ⟨actions, origin, _, _, phase⟩ := initAll_initAction addedActions
  obtain ⟨own, plain, _⟩ := parseActions_spec parsedActions
  have recorded : (host.recordActions ‹Bytes› (defaults middle.phase) added).phase = middle.phase :=
    phase
  refine ⟨?_, ?_, ?_⟩
  · rw [recorded]
    simp only [recordActions, actions, middleActions, disruptiveActions_append,
      disruptiveActions_notMetadata, inheritedAction]
    cases declared : defaults middle.phase with
    | none => cases last : (disruptiveActions _).getLast? <;> simp [own, last, effectiveAction]
    | some items =>
      obtain ⟨inherited, one⟩ := sound _ _ declared
      simp [(mergeActions_spec own one).1, one]
  · rw [recorded]
    simp only [recordActions, actions, middleActions, plainActions_append, plainActions_notMetadata]
    cases declared : defaults middle.phase with
    | none => simp [plain]
    | some items =>
      obtain ⟨inherited, one⟩ := sound _ _ declared
      simp [(mergeActions_spec own one).2, plain]
  · rw [recorded]
    simp only [recordActions, origin, middleOrigin, writtenDisruptive_eq]
    cases defaults middle.phase <;> rfl

theorem parseRuleActions_secMark {disabled : List Bytes} {defaults : DefaultActions}
    {actions : Bytes} {before after : CompiledRule}
    (parsed : host.parseRuleActions disabled defaults actions before = (after, none)) :
    after.secMark = before.secMark := by
  obtain ⟨act, middle, added, _, initialised, addedActions, rfl⟩ := parseRuleActions_ok parsed
  exact (initAll_initAction addedActions).2.2.1.trans (initAll_initMetadata initialised).2.2

/-- An action list that names neither leaves the id and the phase alone. -/
theorem parseRuleActions_definition {disabled : List Bytes} {defaults : DefaultActions}
    {actions : Bytes} {before after : CompiledRule}
    (parsed : host.parseRuleActions disabled defaults actions before = (after, none))
    (named : ∀ item ∈ host.writtenActions actions, item.name ≠ .id ∧ item.name ≠ .phase) :
    after.id = before.id ∧ after.phase = before.phase := by
  obtain ⟨act, middle, added, parsedActions, initialised, addedActions, rfl⟩ :=
    parseRuleActions_ok parsed
  obtain ⟨_, _, _, id, phase⟩ := initAll_initAction addedActions
  have same : middle.id = before.id ∧ middle.phase = before.phase := by
    refine initAll_keeps (P := fun r => r.id = before.id ∧ r.phase = before.phase) ?_ initialised
      ⟨rfl, rfl⟩
    intro item found _ _ step holds
    obtain ⟨notID, notPhase⟩ := named item ((parseActions_spec parsedActions).2.2 item found)
    rcases initMetadata_ok step with ⟨_, init⟩ | rfl
    · have frame := init_sameDefinition init notID notPhase
      exact ⟨frame.id.trans holds.1, frame.phase.trans holds.2⟩
    · exact holds
  exact ⟨id.trans same.1, phase.trans same.2⟩

end SeclangHost

end Obsidian
