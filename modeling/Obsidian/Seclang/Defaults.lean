import Obsidian.Seclang.ActionLists
import Obsidian.Seclang.Directives

namespace Obsidian

open Obsidian.Data

/-! # Inherited actions

What a rule that compiles has of its own action list and of the default actions of
its phase.
-/

namespace SeclangHost

variable (host : SeclangHost)

def actionText (options : RuleOptions) : Option Bytes :=
  if options.withOperator then
    match host.parseActionOperator options.data with
    | .ok text => if text.actions = [] then none else some text.actions
    | .error _ => none
  else some (maybeRemoveQuotes options.data)

def ownActions (options : RuleOptions) : List ActionItem :=
  ((host.actionText options).map host.writtenActions).getD []

variable {host : SeclangHost}

structure FreshRule (r : CompiledRule) : Prop where
  actions : r.actions = []
  origin : r.origin = {}
  secMark : r.secMark = []

theorem freshRule_empty : FreshRule {} := ⟨rfl, rfl, rfl⟩

theorem FreshRule.applyVariableOp {r : CompiledRule} (fresh : FreshRule r) (op : VariableOp) :
    FreshRule (host.applyVariableOp r op) := by
  cases op with
  | add params => exact ⟨fresh.actions, fresh.origin, fresh.secMark⟩
  | negate v exception => exact ⟨fresh.actions, fresh.origin, fresh.secMark⟩

theorem FreshRule.parseRuleVariables (vars : Bytes) {r : CompiledRule} (fresh : FreshRule r) :
    FreshRule (host.parseRuleVariables vars r).1 := by
  simp only [SeclangHost.parseRuleVariables]
  generalize (host.parseVariables vars).1 = ops
  induction ops generalizing r with
  | nil => exact fresh
  | cons op rest ih => exact ih (fresh.applyVariableOp op)

theorem FreshRule.parseOperator {options : RuleOptions} {operator : Bytes} {r after : CompiledRule}
    (fresh : FreshRule r) (parsed : host.parseOperator options operator r = .ok after) :
    FreshRule after := by
  simp only [SeclangHost.parseOperator] at parsed
  obtain ⟨_, _, rest⟩ := exceptBind_ok parsed
  cases rest
  exact ⟨fresh.actions, fresh.origin, fresh.secMark⟩

theorem finished_ok {options : RuleOptions} {result : CompiledRule × Option GoError}
    {rule : CompiledRule} (done : finished options result = .ok rule) :
    ∃ parsed, result = (parsed, none) ∧ rule = finishRule options parsed := by
  obtain ⟨parsed, err⟩ := result
  cases err with
  | some err => cases done
  | none => exact ⟨parsed, rfl, (Except.ok.inj done).symm⟩

theorem compileRule_ok {options : RuleOptions} {rule : CompiledRule}
    (compiled : host.compileRule options = .ok rule) :
    ∃ defaults start, host.defaultActions options.config.declared = .ok defaults ∧ FreshRule start ∧
      match host.actionText options with
      | none => rule = finishRule options start
      | some actions => ∃ parsed,
          host.parseRuleActions options.config.disabledRuleActions defaults actions start =
            (parsed, none) ∧ rule = finishRule options parsed := by
  simp only [compileRule] at compiled
  split at compiled
  · cases compiled
  obtain ⟨defaults, declared, compiled⟩ := exceptBind_ok compiled
  cases withOperator : options.withOperator with
  | false =>
    simp only [withOperator, Bool.false_eq_true, if_false] at compiled
    refine ⟨defaults, {}, declared, freshRule_empty, ?_⟩
    simp only [actionText, withOperator, Bool.false_eq_true, if_false]
    exact finished_ok compiled
  | true =>
    simp only [withOperator, if_true] at compiled
    obtain ⟨text, split, compiled⟩ := exceptBind_ok compiled
    simp only [actionText, withOperator, if_true, split]
    split at compiled
    · cases compiled
    have fresh : FreshRule (host.parseRuleVariables text.vars {}).1 :=
      freshRule_empty.parseRuleVariables text.vars
    split at compiled
    · cases compiled
    next r targets =>
      rw [targets] at fresh
      obtain ⟨start, operator, compiled⟩ := exceptBind_ok compiled
      refine ⟨defaults, start, declared, fresh.parseOperator operator, ?_⟩
      split at compiled
      · next none =>
          cases compiled
          simp only [none, if_true]
      · next some =>
          simp only [some, if_false]
          exact finished_ok compiled

theorem parseRule_ok {options : RuleOptions} {rules after : RuleGroup} {rule : CompiledRule}
    (parsed : host.parseRule options rules = .ok (after, some rule)) :
    ∃ compiled, host.compileRule options = .ok compiled ∧
      rule = { compiled with raw := options.raw } := by
  obtain ⟨compiled, ok, stored⟩ := exceptMap_ok parsed
  refine ⟨compiled, ok, ?_⟩
  split at stored
  · cases stored
  · cases stored
    rfl

end SeclangHost

/-- The actions `acts` are the plain actions of the defaults and then those of the own
list, with one disruptive action: the last own one, the default one if that is
`block` or there is none. -/
def InheritsDefaults (defaults : Option (List ActionItem)) (own acts : List ActionItem) : Prop :=
  plainActions acts = plainActions (defaults.getD []) ++ plainActions own ∧
    ∃ item, disruptiveActions acts = [item] ∧
      if ∃ last, (disruptiveActions own).getLast? = some last ∧ last.name ≠ .block then
        (disruptiveActions own).getLast? = some item
      else (defaults.bind fun items => (disruptiveActions items).getLast?) = some item

theorem inheritsDefaults_iff {defaults : DefaultActions} {phase : RulePhase}
    {own acts : List ActionItem} (sound : SeclangHost.SoundDefaults defaults)
    (disruptive : disruptiveActions acts = (effectiveAction (disruptiveActions own).getLast?
      (SeclangHost.inheritedAction defaults phase)).toList)
    (plain : plainActions acts =
      plainActions ((defaults phase).getD []) ++ plainActions own) :
    InheritsDefaults (defaults phase) own acts ↔
      (defaults phase).isSome ∨
        ∃ last, (disruptiveActions own).getLast? = some last ∧ last.name ≠ .block := by
  simp only [InheritsDefaults, plain, true_and, disruptive, SeclangHost.inheritedAction]
  cases declared : defaults phase with
  | some items =>
    obtain ⟨inherited, one⟩ := sound _ _ declared
    simp only [Option.bind_some, one, List.getLast?_singleton, Option.isSome_some, true_or,
      iff_true]
    cases (disruptiveActions own).getLast? with
    | none => exact ⟨inherited, by simp [effectiveAction]⟩
    | some last =>
      by_cases block : last.name = .block
      · exact ⟨inherited, by simp [effectiveAction, block]⟩
      · exact ⟨last, by simp [effectiveAction, block]⟩
  | none =>
    cases (disruptiveActions own).getLast? with
    | none => simp [effectiveAction]
    | some last =>
      by_cases block : last.name = .block
      · simp [effectiveAction, block]
      · simp [effectiveAction, block]

/-- A rule that is no chain member has inherited its defaults as documented exactly
when it has an action list, and that list names a disruptive action other than
`block` unless its phase has defaults. -/
theorem parsedRule_inherits_iff (host : SeclangHost) (options : RuleOptions)
    (rules after : RuleGroup) (rule : CompiledRule) (defaults : DefaultActions)
    (declared : host.defaultActions options.config.declared = .ok defaults)
    (parsed : host.parseRule options rules = .ok (after, some rule)) :
    InheritsDefaults (defaults rule.phase) (host.ownActions options) rule.actions ↔
      (host.actionText options).isSome ∧ ((defaults rule.phase).isSome ∨
        ∃ last, (disruptiveActions (host.ownActions options)).getLast? = some last ∧
          last.name ≠ .block) := by
  obtain ⟨compiled, ok, rfl⟩ := SeclangHost.parseRule_ok parsed
  obtain ⟨defaults', start, declared', fresh, how⟩ := SeclangHost.compileRule_ok ok
  rw [declared] at declared'
  cases declared'
  have sound := SeclangHost.defaultActions_sound declared
  cases text : host.actionText options with
  | none =>
    simp only [text] at how
    subst how
    simp [InheritsDefaults, SeclangHost.finishRule, fresh.actions, disruptiveActions]
  | some actions =>
    simp only [text] at how
    obtain ⟨parsed, done, rfl⟩ := how
    have spec := SeclangHost.parseRuleActions_spec sound done
    simp only [Option.isSome_some, true_and, SeclangHost.finishRule, SeclangHost.ownActions, text,
      Option.map_some, Option.getD_some]
    apply inheritsDefaults_iff sound
    · simpa [fresh.actions, disruptiveActions] using spec.disruptive
    · simpa [fresh.actions] using spec.plain

def firstRule (withOperator : Bool) (data : String) : RuleOptions where
  withOperator := withOperator
  config := {}
  lastLine := 1
  configFile := str "_inline_"
  configDir := []
  workingDir := []
  raw := str data
  data := str data
  datasets := []

theorem parsedRule_inherits_deny :
    let options := firstRule false "id:1,deny"
    ∃ after rule defaults,
      SeclangHost.plain.defaultActions options.config.declared = .ok defaults ∧
        SeclangHost.plain.parseRule options [] = .ok (after, some rule) ∧
        InheritsDefaults (defaults rule.phase) (SeclangHost.plain.ownActions options)
          rule.actions := by
  refine ⟨_, _, _, rfl, rfl, ?_⟩
  refine (parsedRule_inherits_iff SeclangHost.plain _ [] _ _ _ rfl rfl).mpr ⟨rfl, .inr ?_⟩
  exact ⟨⟨.deny, []⟩, by decide, by decide⟩

/-- A `SecRule` without an action list gets none of the defaults of phase 2. -/
theorem parsedRule_without_list :
    let options := firstRule true "ARGS \"@rx attack\""
    ∃ after rule defaults,
      SeclangHost.plain.defaultActions options.config.declared = .ok defaults ∧
        SeclangHost.plain.parseRule options [] = .ok (after, some rule) ∧
        rule.phase = .requestBody ∧
        (defaults .requestBody).map (·.map (·.name)) = some [.phase, .log, .auditlog, .pass] ∧
        rule.actions = [] := by
  exact ⟨_, _, _, rfl, rfl, rfl, by decide, rfl⟩

end Obsidian
