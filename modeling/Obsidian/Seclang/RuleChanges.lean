import Obsidian.Seclang.Defaults

namespace Obsidian

open Obsidian.Data

/-! # What a directive does to the rule group

Every accepted directive adds a rule, links one to the last chain, removes rules,
changes variables, or updates the actions of one rule.
-/

namespace SeclangHost

variable (host : SeclangHost)

def updatedID (directive : Bytes) : List Bytes → Option Int
  | [] => none
  | idOrRange :: rest =>
    match host.parseIDOrRange directive idOrRange with
    | .error _ => none
    | .ok (.single id) => some id
    | .ok (.range first last) => if first = last then some first else updatedID directive rest

def updateText (call : DirectiveCall) : Bytes := unquoted ((fields call.opts).getLast?.getD [])

def updatedRule (rules : RuleGroup) (call : DirectiveCall) : Option StoredRule :=
  (host.updatedID (str "SecRuleUpdateActionById") (fields call.opts).dropLast).bind fun id =>
    rules.find? (·.head.id = id)

end SeclangHost

structure Retargeted (before after : StoredRule) : Prop where
  head : after.head = { before.head with vars := after.head.vars, room := after.head.room }
  members : after.members = before.members

theorem Retargeted.refl (r : StoredRule) : Retargeted r r := ⟨rfl, rfl⟩

theorem Retargeted.trans {first second third : StoredRule} (left : Retargeted first second)
    (right : Retargeted second third) : Retargeted first third := by
  refine ⟨?_, right.members.trans left.members⟩
  rw [right.head, left.head]

theorem retargeted_refl (rules : RuleGroup) : List.Forall₂ Retargeted rules rules :=
  List.forall₂_same.mpr fun r _ => Retargeted.refl r

theorem retargeted_trans {first second third : RuleGroup}
    (left : List.Forall₂ Retargeted first second) (right : List.Forall₂ Retargeted second third) :
    List.Forall₂ Retargeted first third := by
  induction left generalizing third with
  | nil => exact right
  | cons head _ ih =>
    cases right with
    | cons next rest => exact .cons (head.trans next) (ih rest)

inductive DefinedRule (host : SeclangHost) : CompiledRule → Prop
  | compiled {options : RuleOptions} {rule : CompiledRule} (raw : Bytes)
      (ok : host.compileRule options = .ok rule) : DefinedRule host { rule with raw := raw }
  | marker (raw label file : Bytes) (line : Nat) :
      DefinedRule host
        { raw := raw, secMark := label, logID := str "0", phase := .unknown, line := line
          file := file, origin := { phase := .unknown } }

inductive RuleChange (host : SeclangHost) (step : RuleDirective × DirectiveCall) :
    RuleGroup → RuleGroup → Prop
  | add {rules after rule} (defined : DefinedRule host rule)
      (added : rules.add host rule = .ok after) : RuleChange host step rules after
  | link {front parent rule raw options} (ok : host.compileRule options = .ok rule) :
      RuleChange host step (front ++ [parent]) (front ++ [StoredRule.link parent rule raw])
  | remove {rules after} (fewer : List.Sublist after rules) : RuleChange host step rules after
  | retarget {rules after} (same : List.Forall₂ Retargeted rules after) :
      RuleChange host step rules after
  | react {front r rest head} (update : step.1 = .secRuleUpdateActionByID)
      (target : host.updatedRule (front ++ r :: rest) step.2 = some r)
      (parsed : host.parseRuleActions [] (fun _ => none) (SeclangHost.updateText step.2) r.head =
        (head, none)) :
      RuleChange host step (front ++ r :: rest) (front ++ { r with head := head } :: rest)

def RuleDirective.definesRule : RuleDirective → Bool
  | secRule | secAction | secMarker => true
  | _ => false

/-- The effect of an accepted directive with what it was called with. -/
inductive RuleEffect (host : SeclangHost) (step : RuleDirective × DirectiveCall) :
    RuleGroup → RuleGroup → Prop
  | define {options rules middle rule after} (defines : step.1.definesRule = true)
      (file : options.configFile = step.2.configFile) (line : options.lastLine = step.2.lastLine)
      (parsed : host.parseRule options rules = .ok (middle, rule))
      (added : host.addParsed middle rule = .ok after) : RuleEffect host step rules after
  | mark {rules after raw label} (defines : step.1.definesRule = true)
      (added : rules.add host
        { raw := raw, secMark := label, logID := str "0", phase := .unknown
          line := step.2.lastLine, file := step.2.configFile, origin := { phase := .unknown } } =
        .ok after) : RuleEffect host step rules after
  | remove {rules after} (fewer : List.Sublist after rules) : RuleEffect host step rules after
  | retarget {rules after} (same : List.Forall₂ Retargeted rules after) :
      RuleEffect host step rules after
  | react {front r rest head} (update : step.1 = .secRuleUpdateActionByID)
      (target : host.updatedRule (front ++ r :: rest) step.2 = some r)
      (parsed : host.parseRuleActions [] (fun _ => none) (SeclangHost.updateText step.2) r.head =
        (head, none)) :
      RuleEffect host step (front ++ r :: rest) (front ++ { r with head := head } :: rest)

namespace SeclangHost

variable {host : SeclangHost}

/-! ## Adding -/

theorem add_append {rules after : RuleGroup} {rule : CompiledRule}
    (added : rules.add host rule = .ok after) : after = rules ++ [{ head := rule }] := by
  simp only [RuleGroup.add] at added
  repeat' split at added
  all_goals cases added
  all_goals rfl

theorem parseRule_linked {options : RuleOptions} {rules after : RuleGroup}
    (parsed : host.parseRule options rules = .ok (after, none)) :
    ∃ front parent rule, rules = front ++ [parent] ∧ host.compileRule options = .ok rule ∧
      after = front ++ [parent.link rule options.raw] := by
  obtain ⟨rule, compiled, stored⟩ := exceptMap_ok parsed
  split at stored
  · next parent expecting =>
      cases stored
      obtain ⟨last, _⟩ := Option.filter_eq_some_iff.mp expecting
      refine ⟨rules.dropLast, parent, rule, ?_, compiled, rfl⟩
      exact (List.dropLast_append_getLast? _ last).symm
  · cases stored

theorem parseRule_rules {options : RuleOptions} {rules after : RuleGroup} {rule : CompiledRule}
    (parsed : host.parseRule options rules = .ok (after, some rule)) : after = rules := by
  obtain ⟨_, _, stored⟩ := exceptMap_ok parsed
  split at stored
  · cases stored
  · cases stored
    rfl

theorem addParsed_change {step : RuleDirective × DirectiveCall} {options : RuleOptions}
    {rules middle after : RuleGroup} {rule : Option CompiledRule}
    (parsed : host.parseRule options rules = .ok (middle, rule))
    (added : host.addParsed middle rule = .ok after) : RuleChange host step rules after := by
  cases rule with
  | none =>
    cases added
    obtain ⟨front, parent, rule, rfl, compiled, rfl⟩ := parseRule_linked parsed
    exact .link compiled
  | some rule =>
    obtain rfl := parseRule_rules parsed
    obtain ⟨compiled, ok, rfl⟩ := parseRule_ok parsed
    exact .add (.compiled _ ok) added

/-! ## Removing -/

theorem removeByID_rules (items : List Bytes) {options after : DirectiveOptions}
    (done : host.removeByID items options = (after, none)) :
    List.Sublist after.rules options.rules := by
  induction items generalizing options with
  | nil =>
    cases done
    exact List.Sublist.refl _
  | cons item rest ih =>
    simp only [removeByID] at done
    split at done
    · cases done
    · exact (ih done).trans List.eraseP_sublist
    · exact (ih done).trans List.filter_sublist

/-! ## Retargeting -/

theorem touchVariables_retargeted (ops : List VariableOp) (r : StoredRule) :
    Retargeted r { r with head := host.touchVariables ops r.head } := ⟨rfl, rfl⟩

theorem updateCopiesTargets_retargeted (host : SeclangHost) (selected : CompiledRule → Bool) (vars : Bytes)
    (rules : RuleGroup) :
    List.Forall₂ Retargeted rules (host.updateCopiesTargets selected vars rules).1 := by
  induction rules with
  | nil => exact .nil
  | cons r rest ih =>
    simp only [updateCopiesTargets]
    split
    · split
      · exact .cons (touchVariables_retargeted _ r) (retargeted_refl rest)
      · exact .cons (touchVariables_retargeted _ r) ih
    · exact .cons (Retargeted.refl r) ih

theorem parseRuleVariables_retargeted (host : SeclangHost) (vars : Bytes) (r : StoredRule) :
    Retargeted r { r with head := (host.parseRuleVariables vars r.head).1 } := by
  refine ⟨?_, rfl⟩
  simp only [parseRuleVariables]
  generalize (host.parseVariables vars).1 = ops
  generalize r.head = head
  induction ops generalizing head with
  | nil => rfl
  | cons op rest ih =>
    rw [List.foldl_cons, ih]
    cases op <;> rfl

theorem findByID_split {rules : RuleGroup} {id : Int} {index : Nat}
    (found : rules.findByID id = some index) :
    ∃ front r rest, rules = front ++ r :: rest ∧ index = front.length ∧ r.head.id = id ∧
      rules.find? (·.head.id = id) = some r ∧ ∀ other ∈ front, other.head.id ≠ id := by
  induction rules generalizing index with
  | nil => cases found
  | cons r rest ih =>
    simp only [RuleGroup.findByID, List.findIdx?_cons] at found
    by_cases here : r.head.id = id
    · rw [if_pos (by simpa using here)] at found
      cases found
      exact ⟨[], r, rest, rfl, rfl, here, by simp [here], by simp⟩
    · rw [if_neg (by simpa using here)] at found
      obtain ⟨later, foundLater, rfl⟩ := Option.map_eq_some_iff.mp found
      obtain ⟨front, target, after, rfl, rfl, same, first, others⟩ := ih foundLater
      refine ⟨r :: front, target, after, rfl, rfl, same, ?_, ?_⟩
      · rw [List.find?_cons_of_neg (by simpa using here)]
        exact first
      · exact List.forall_mem_cons.mpr ⟨here, others⟩

theorem updateSingle_ok {directive : Bytes} {update : CompiledRule → CompiledRule × Option GoError}
    {id : Int} {rules after : RuleGroup}
    (done : updateSingle directive update id rules = (after, none)) :
    ∃ front r rest head, rules = front ++ r :: rest ∧ r.head.id = id ∧
      rules.find? (·.head.id = id) = some r ∧ (∀ other ∈ front, other.head.id ≠ id) ∧
      update r.head = (head, none) ∧ after = front ++ { r with head := head } :: rest := by
  simp only [updateSingle] at done
  split at done
  · cases done
  next index found =>
  obtain ⟨front, r, rest, rfl, rfl, same, first, others⟩ := findByID_split found
  rw [List.getElem?_append_right (Nat.le_refl _), Nat.sub_self, List.getElem?_cons_zero] at done
  simp only [List.set_append, Nat.lt_irrefl, if_false, Nat.sub_self, List.set_cons_zero] at done
  generalize updated : update r.head = result at done
  obtain ⟨head, err⟩ := result
  cases done
  exact ⟨front, r, rest, head, rfl, same, first, others, updated, rfl⟩

theorem updateTargetBySingleID_retargeted {id : Int} {vars : Bytes} {rules after : RuleGroup}
    (done : host.updateTargetBySingleID id vars rules = (after, none)) :
    List.Forall₂ Retargeted rules after := by
  obtain ⟨front, r, rest, head, rfl, _, _, _, updated, rfl⟩ := updateSingle_ok done
  have here := parseRuleVariables_retargeted host (unquoted vars) r
  rw [updated] at here
  exact List.rel_append (retargeted_refl front) (.cons here (retargeted_refl rest))

theorem updateTargets_retargeted {vars : Bytes} (items : List Bytes) {rules after : RuleGroup}
    (done : host.updateTargets vars items rules = (after, none)) :
    List.Forall₂ Retargeted rules after := by
  induction items generalizing rules with
  | nil =>
    cases done
    exact retargeted_refl _
  | cons item rest ih =>
    simp only [updateTargets] at done
    split at done
    · cases done
    · exact updateTargetBySingleID_retargeted done
    · split at done
      · exact updateTargetBySingleID_retargeted done
      · next first last _ _ =>
          have copies := updateCopiesTargets_retargeted host
            (fun r => first ≤ r.id ∧ r.id ≤ last) (unquoted vars) rules
          split at done
          · cases done
          · next middle updated =>
              rw [updated] at copies
              exact retargeted_trans copies (ih done)

/-! ## Updating actions -/

theorem updateActions_ok {actions : Bytes} (items : List Bytes) {rules after : RuleGroup}
    (done : host.updateActions actions items rules = (after, none)) :
    (host.updatedID (str "SecRuleUpdateActionById") items = none ∧ after = rules) ∨
      ∃ id, host.updatedID (str "SecRuleUpdateActionById") items = some id ∧
        host.updateActionBySingleID id actions rules = (after, none) := by
  induction items with
  | nil =>
    cases done
    exact .inl ⟨rfl, rfl⟩
  | cons item rest ih =>
    simp only [updateActions] at done
    simp only [updatedID]
    generalize host.parseIDOrRange _ item = idOrRange at done ⊢
    match idOrRange with
    | .error err => cases done
    | .ok (.single id) => exact .inr ⟨id, rfl, done⟩
    | .ok (.range first last) =>
      by_cases same : first = last
      · simp only [same, if_true] at done ⊢
        exact .inr ⟨last, rfl, done⟩
      · simp only [same, if_false] at done ⊢
        split at done
        · cases done
        · exact ih done

theorem updated_ok {options after : DirectiveOptions} {result : RuleGroup × Option GoError}
    (done : options.updated result = (after, none)) : result = (after.rules, none) := by
  obtain ⟨rules, err⟩ := result
  cases err with
  | some err => cases done
  | none =>
    cases done
    rfl

theorem updateActionByID_ok {call : DirectiveCall} {options after : DirectiveOptions}
    (done : host.directiveSecRuleUpdateActionByID call options = (after, none)) :
    ∃ actions, (fields call.opts).getLast? = some actions ∧
      host.updateActions actions (fields call.opts).dropLast options.rules =
        (after.rules, none) := by
  simp only [directiveSecRuleUpdateActionByID] at done
  split at done
  · cases done
  split at done
  · next actions last =>
      split at done
      · cases done
      · exact ⟨actions, last, updated_ok done⟩
  · cases done

theorem updateTargetByID_ok {call : DirectiveCall} {options after : DirectiveOptions}
    (done : host.directiveSecRuleUpdateTargetByID call options = (after, none)) :
    ∃ vars, (fields call.opts).getLast? = some vars ∧
      host.updateTargets vars (fields call.opts).dropLast options.rules = (after.rules, none) := by
  simp only [directiveSecRuleUpdateTargetByID] at done
  split at done
  · cases done
  split at done
  · next vars last =>
      split at done
      · cases done
      · exact ⟨vars, last, updated_ok done⟩
  · cases done

theorem updateTargetByTag_ok {call : DirectiveCall} {options after : DirectiveOptions}
    (done : host.directiveSecRuleUpdateTargetByTag call options = (after, none)) :
    ∃ tag vars, fields call.opts = [tag, vars] ∧
      host.updateCopiesTargets (fun r => r.tags.contains (unquoted tag)) (unquoted vars)
        options.rules = (after.rules, none) := by
  simp only [directiveSecRuleUpdateTargetByTag] at done
  split at done
  · next tag vars words => exact ⟨tag, vars, words, updated_ok done⟩
  · cases done

theorem updateText_eq {call : DirectiveCall} {text : Bytes}
    (last : (fields call.opts).getLast? = some text) : updateText call = unquoted text := by
  simp only [updateText, last, Option.getD_some]

theorem updateAction_effect {call : DirectiveCall} {options after : DirectiveOptions}
    (done : host.directiveSecRuleUpdateActionByID call options = (after, none)) :
    RuleEffect host (.secRuleUpdateActionByID, call) options.rules after.rules := by
  obtain ⟨actions, last, updated⟩ := updateActionByID_ok done
  rcases updateActions_ok _ updated with ⟨_, same⟩ | ⟨id, target, single⟩
  · rw [same]
    exact .remove (List.Sublist.refl _)
  · obtain ⟨front, r, rest, head, split, _, first, _, parsed, after_⟩ := updateSingle_ok single
    rw [split] at first ⊢
    rw [after_]
    refine .react rfl ?_ (updateText_eq last ▸ parsed)
    simp only [updatedRule, target, Option.bind_some]
    exact first

theorem updateTarget_effect {call : DirectiveCall} {options after : DirectiveOptions}
    (done : host.directiveSecRuleUpdateTargetByID call options = (after, none)) :
    RuleEffect host (.secRuleUpdateTargetByID, call) options.rules after.rules := by
  obtain ⟨vars, _, updated⟩ := updateTargetByID_ok done
  exact .retarget (updateTargets_retargeted _ updated)

theorem updateTag_effect {call : DirectiveCall} {options after : DirectiveOptions}
    (done : host.directiveSecRuleUpdateTargetByTag call options = (after, none)) :
    RuleEffect host (.secRuleUpdateTargetByTag, call) options.rules after.rules := by
  obtain ⟨tag, vars, _, updated⟩ := updateTargetByTag_ok done
  have copies := updateCopiesTargets_retargeted host
    (fun r => r.tags.contains (unquoted tag)) (unquoted vars) options.rules
  rw [updated] at copies
  exact .retarget copies

/-! ## Any directive -/

theorem secRule_effect {call : DirectiveCall} {options after : DirectiveOptions}
    (done : host.directiveSecRule call options = (after, none)) :
    RuleEffect host (.secRule, call) options.rules after.rules := by
  have ignored : ∀ {err}, options.failUnlessIgnored err = (after, none) →
      RuleEffect host (.secRule, call) options.rules after.rules := by
    intro err hidden
    simp only [DirectiveOptions.failUnlessIgnored] at hidden
    split at hidden
    · cases hidden
      exact .remove (List.Sublist.refl _)
    · cases hidden
  simp only [directiveSecRule] at done
  split at done
  · cases done
  split at done
  · exact ignored done
  next rules rule parsed =>
  split at done
  · exact ignored done
  · next added =>
      cases done
      exact .define rfl rfl rfl parsed added

theorem secAction_effect {call : DirectiveCall} {options after : DirectiveOptions}
    (done : host.directiveSecAction call options = (after, none)) :
    RuleEffect host (.secAction, call) options.rules after.rules := by
  simp only [directiveSecAction] at done
  split at done
  · cases done
  split at done
  · cases done
  next rules rule parsed =>
  split at done
  · cases done
  · next added =>
      cases done
      exact .define rfl rfl rfl parsed added

theorem secMarker_effect {call : DirectiveCall} {options after : DirectiveOptions}
    (done : host.directiveSecMarker call options = (after, none)) :
    RuleEffect host (.secMarker, call) options.rules after.rules := by
  simp only [directiveSecMarker] at done
  split at done
  · cases done
  split at done
  · cases done
  · next added =>
      cases done
      exact .mark rfl added

theorem apply_ok {step : RuleDirective × DirectiveCall} {options after : DirectiveOptions}
    (accepted : host.apply options step = some after) :
    step.1.function host step.2 options = (after, none) := by
  simp only [apply] at accepted
  split at accepted
  · next done =>
      cases accepted
      exact done
  · cases accepted

theorem function_effect {directive : RuleDirective} {call : DirectiveCall}
    {options after : DirectiveOptions} (done : directive.function host call options = (after, none)) :
    RuleEffect host (directive, call) options.rules after.rules := by
  have unchanged : ∀ {rules : RuleGroup}, rules = options.rules →
      RuleEffect host (directive, call) options.rules rules := by
    rintro _ rfl
    exact .remove (List.Sublist.refl _)
  cases directive with
  | secRule => exact secRule_effect done
  | secAction => exact secAction_effect done
  | secMarker => exact secMarker_effect done
  | secRuleUpdateActionByID => exact updateAction_effect done
  | secRuleUpdateTargetByID => exact updateTarget_effect done
  | secRuleUpdateTargetByTag => exact updateTag_effect done
  | secRuleUpdateTargetByMsg =>
    cases done
    exact unchanged rfl
  | secDefaultAction =>
    simp only [RuleDirective.function, directiveSecDefaultAction] at done
    split at done
    · cases done
    · cases done
      exact unchanged rfl
  | secIgnoreRuleCompilationErrors =>
    simp only [RuleDirective.function, directiveSecIgnoreRuleCompilationErrors] at done
    repeat' split at done
    all_goals cases done
    all_goals exact unchanged rfl
  | secRuleRemoveByID =>
    simp only [RuleDirective.function, directiveSecRuleRemoveByID] at done
    split at done
    · cases done
    · exact .remove (removeByID_rules _ done)
  | secRuleRemoveByTag =>
    simp only [RuleDirective.function, directiveSecRuleRemoveByTag] at done
    split at done
    · cases done
    · cases done
      exact .remove List.filter_sublist
  | secRuleRemoveByMsg =>
    simp only [RuleDirective.function, directiveSecRuleRemoveByMsg] at done
    split at done
    · cases done
    split at done
    · cases done
    · next rules deleted =>
        cases done
        simp only [RuleGroup.deleteByMsg] at deleted
        split at deleted
        · cases deleted
        · cases deleted
          exact .remove List.filter_sublist

end SeclangHost

theorem RuleEffect.change {host : SeclangHost} {step : RuleDirective × DirectiveCall}
    {rules after : RuleGroup} (effect : RuleEffect host step rules after) :
    RuleChange host step rules after := by
  cases effect with
  | define _ _ _ parsed added => exact SeclangHost.addParsed_change parsed added
  | mark _ added => exact .add (.marker _ _ _ _) added
  | remove fewer => exact .remove fewer
  | retarget same => exact .retarget same
  | react update target parsed => exact .react update target parsed

theorem SeclangHost.apply_change {host : SeclangHost} {step : RuleDirective × DirectiveCall}
    {options after : DirectiveOptions} (accepted : host.apply options step = some after) :
    RuleChange host step options.rules after.rules :=
  (function_effect (apply_ok accepted)).change

end Obsidian
