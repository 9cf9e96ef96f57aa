import Obsidian.Seclang.RuleChanges

namespace Obsidian

open Obsidian.Data

/-! # Invariants of the rule group

What holds of every rule of every configuration that is accepted, as long as
`SecRuleUpdateActionById` is used within its documented limits.
-/

def StoredRule.all (r : StoredRule) : List CompiledRule := r.head :: r.members

def EveryRule (P : CompiledRule → Prop) (rules : RuleGroup) : Prop :=
  ∀ r ∈ rules, ∀ rule ∈ r.all, P rule

theorem everyRule_append {P : CompiledRule → Prop} {left right : RuleGroup} :
    EveryRule P (left ++ right) ↔ EveryRule P left ∧ EveryRule P right :=
  List.forall_mem_append

theorem everyRule_singleton {P : CompiledRule → Prop} {r : StoredRule} :
    EveryRule P [r] ↔ P r.head ∧ ∀ member ∈ r.members, P member := by
  simp [EveryRule, StoredRule.all]

theorem everyRule_cons {P : CompiledRule → Prop} {r : StoredRule} {rest : RuleGroup} :
    EveryRule P (r :: rest) ↔ EveryRule P [r] ∧ EveryRule P rest := by
  rw [← everyRule_append, List.singleton_append]

theorem everyRule_retargeted {P : CompiledRule → Prop}
    (blind : ∀ {r : CompiledRule} {vars room}, P r → P { r with vars := vars, room := room })
    {rules after : RuleGroup} (same : List.Forall₂ Retargeted rules after)
    (holds : EveryRule P rules) : EveryRule P after := by
  induction same with
  | nil => exact holds
  | cons first _ ih =>
    obtain ⟨here, later⟩ := everyRule_cons.mp holds
    obtain ⟨head, members⟩ := everyRule_singleton.mp here
    refine everyRule_cons.mpr ⟨everyRule_singleton.mpr ⟨?_, ?_⟩, ih later⟩
    · rw [first.head]
      exact blind head
    · rw [first.members]
      exact members

/-- A directive keeps what is true of every rule if it is true of rules as they are
defined and linked, says nothing of variables and raw texts, and outlives the
update. -/
theorem RuleChange.everyRule {host : SeclangHost} {step : RuleDirective × DirectiveCall}
    {P : CompiledRule → Prop}
    (blind : ∀ {r : CompiledRule} {vars room}, P r → P { r with vars := vars, room := room })
    (blindRaw : ∀ {r : CompiledRule} {raw}, P r → P { r with raw := raw })
    (defined : ∀ {rule}, DefinedRule host rule → P rule)
    (linked : ∀ {options} {rule : CompiledRule} {parentID logID},
      host.compileRule options = .ok rule → P { rule with
        parentID := parentID, logID := logID, phase := .unknown
        origin := { rule.origin with phase := .unknown } })
    {rules after : RuleGroup} (change : RuleChange host step rules after)
    (updated : ∀ {r head}, step.1 = .secRuleUpdateActionByID →
      host.updatedRule rules step.2 = some r →
      host.parseRuleActions [] (fun _ => none) (SeclangHost.updateText step.2) r.head = (head, none) →
      P r.head → P head)
    (holds : EveryRule P rules) : EveryRule P after := by
  cases change with
  | @add _ _ rule isDefined added =>
    rw [SeclangHost.add_append added]
    exact everyRule_append.mpr ⟨holds, everyRule_singleton.mpr ⟨defined isDefined, by simp⟩⟩
  | link ok =>
    obtain ⟨front, last⟩ := everyRule_append.mp holds
    obtain ⟨head, members⟩ := everyRule_singleton.mp last
    refine everyRule_append.mpr ⟨front, everyRule_singleton.mpr ⟨blindRaw head, ?_⟩⟩
    intro member found
    rcases List.mem_append.mp found with old | new
    · exact members member old
    · rw [List.mem_singleton.mp new]
      exact linked ok
  | remove fewer => exact fun r found => holds r (fewer.subset found)
  | retarget same => exact everyRule_retargeted blind same holds
  | react update target parsed =>
    obtain ⟨front, later⟩ := everyRule_append.mp holds
    obtain ⟨here, rest⟩ := everyRule_cons.mp later
    obtain ⟨head, members⟩ := everyRule_singleton.mp here
    refine everyRule_append.mpr ⟨front, everyRule_cons.mpr ⟨?_, rest⟩⟩
    exact everyRule_singleton.mpr ⟨updated update target parsed head, members⟩

/-! ## Runs -/

namespace SeclangHost

variable (host : SeclangHost)

/-- `P` holds of every `SecRuleUpdateActionById` and the rules it is applied to. -/
def EveryActionUpdate (P : RuleGroup → DirectiveCall → Prop) :
    Configuration → DirectiveOptions → Prop
  | [], _ => True
  | step :: rest, options =>
    (step.1 = .secRuleUpdateActionByID → P options.rules step.2) ∧
      ∀ next, host.apply options step = some next → EveryActionUpdate P rest next

variable {host : SeclangHost}

theorem configure_keeps {P : RuleGroup → DirectiveCall → Prop} {Q : RuleGroup → Prop}
    (kept : ∀ {step rules after}, RuleChange host step rules after →
      (step.1 = .secRuleUpdateActionByID → P rules step.2) → Q rules → Q after)
    {steps : Configuration} {options after : DirectiveOptions}
    (accepted : host.configure steps options = some after)
    (updates : host.EveryActionUpdate P steps options) (holds : Q options.rules) : Q after.rules := by
  induction steps generalizing options with
  | nil =>
    cases accepted
    exact holds
  | cons step rest ih =>
    obtain ⟨next, first, later⟩ := optionFoldlM_cons accepted
    exact ih later (updates.2 next first) (kept (apply_change first) updates.1 holds)

end SeclangHost

/-! ## Disruptive actions -/

def CompiledRule.KeepsLast (r : CompiledRule) : Prop :=
  disruptiveActions r.actions =
    (effectiveAction r.origin.written.getLast? r.origin.inherited).toList

theorem CompiledRule.KeepsLast.atMostOne {r : CompiledRule} (keeps : r.KeepsLast) :
    (disruptiveActions r.actions).length ≤ 1 := by
  rw [keeps]
  cases effectiveAction _ _ <;> simp

namespace SeclangHost

variable {host : SeclangHost}

theorem compileRule_keepsLast {options : RuleOptions} {rule : CompiledRule}
    (compiled : host.compileRule options = .ok rule) : rule.KeepsLast := by
  obtain ⟨defaults, start, declared, fresh, how⟩ := compileRule_ok compiled
  cases text : host.actionText options with
  | none =>
    simp only [text] at how
    subst how
    simp [CompiledRule.KeepsLast, finishRule, fresh.actions, fresh.origin, disruptiveActions,
      effectiveAction]
  | some actions =>
    simp only [text] at how
    obtain ⟨parsed, done, rfl⟩ := how
    have spec := parseRuleActions_spec (defaultActions_sound declared) done
    simp only [CompiledRule.KeepsLast, finishRule, spec.disruptive, spec.origin, fresh.actions,
      fresh.origin, inheritedAction]
    cases defaults parsed.phase <;> rfl

/-- The update a rule's disruptive action outlives: it writes none, or there is none
yet. -/
theorem parseRuleActions_keepsLast {actions : Bytes} {before after : CompiledRule}
    (parsed : host.parseRuleActions [] (fun _ => none) actions before = (after, none))
    (harmless : disruptiveActions (host.writtenActions actions) = [] ∨
      disruptiveActions before.actions = []) (keeps : before.KeepsLast) : after.KeepsLast := by
  have spec := parseRuleActions_spec (by intro phase items found; cases found) parsed
  simp only [CompiledRule.KeepsLast] at keeps ⊢
  rw [spec.disruptive, spec.origin, keeps]
  rcases harmless with none | none
  · simp [none, inheritedAction, effectiveAction]
  · rw [none] at keeps
    have nothing : effectiveAction before.origin.written.getLast? before.origin.inherited = .none := by
      cases chosen : effectiveAction before.origin.written.getLast? before.origin.inherited with
      | none => rfl
      | some item => simp [chosen] at keeps
    have unwritten : before.origin.written.getLast? = .none ∧ before.origin.inherited = .none := by
      cases written : before.origin.written.getLast? with
      | none => simpa [written, effectiveAction] using nothing
      | some item =>
        cases inherited : before.origin.inherited with
        | none => simp [written, inherited, effectiveAction] at nothing
        | some other =>
          simp only [written, inherited, effectiveAction] at nothing
          split at nothing <;> cases nothing
    rw [nothing, List.getLast?_eq_none_iff.mp unwritten.1, unwritten.2]
    simp only [List.nil_append, Option.toList_none, inheritedAction, Option.bind_none]

end SeclangHost

/-- In every accepted configuration whose `SecRuleUpdateActionById` directives write no
disruptive action, or update a rule that carries none, every rule carries at most
one, the last one written or inherited. -/
theorem configured_keepsLast (host : SeclangHost) (steps : Configuration)
    (options : DirectiveOptions) (accepted : host.configure steps {} = some options)
    (updates : host.EveryActionUpdate (fun rules call =>
      disruptiveActions (host.writtenActions (SeclangHost.updateText call)) = [] ∨
        ∀ r, host.updatedRule rules call = some r → disruptiveActions r.head.actions = [])
      steps {}) :
    ∀ stored ∈ options.rules, ∀ rule ∈ stored.all,
      (disruptiveActions rule.actions).length ≤ 1 ∧ rule.KeepsLast := by
  have every : EveryRule CompiledRule.KeepsLast options.rules := by
    refine SeclangHost.configure_keeps ?_ accepted updates (by simp [EveryRule])
    intro step rules after change harmless holds
    refine change.everyRule id id ?_ ?_ ?_ holds
    · intro rule defined
      cases defined with
      | compiled raw ok =>
        have keeps := SeclangHost.compileRule_keepsLast ok
        exact keeps
      | marker => rfl
    · intro options rule parentID logID ok
      have keeps := SeclangHost.compileRule_keepsLast ok
      exact keeps
    · intro r head update target parsed keeps
      exact SeclangHost.parseRuleActions_keepsLast parsed
        ((harmless update).imp_right fun none => none r target) keeps
  intro stored found rule inside
  exact ⟨(every stored found rule inside).atMostOne, every stored found rule inside⟩

def inlineCall (line : Nat) (opts : String) : DirectiveCall where
  raw := str opts
  opts := str opts
  lastLine := line
  configFile := str "_inline_"
  configDir := []
  workingDir := []

def statusUpdated : Configuration :=
  [(.secAction, inlineCall 1 "id:1,deny"),
    (.secRuleUpdateActionByID, inlineCall 2 "1 \"status:500\"")]

theorem configured_keepsLast_status :
    ∃ options, SeclangHost.plain.configure statusUpdated {} = some options ∧
      ∀ stored ∈ options.rules, ∀ rule ∈ stored.all,
        (disruptiveActions rule.actions).length ≤ 1 ∧ rule.KeepsLast := by
  refine ⟨_, rfl, configured_keepsLast SeclangHost.plain statusUpdated _ rfl ?_⟩
  refine ⟨fun update => (by cases update), fun _ _ => ⟨fun _ => .inl (by decide), ?_⟩⟩
  exact fun _ _ => trivial

/-- The update of a rule that denies leaves it with two disruptive actions. -/
theorem configured_two_disruptive :
    (SeclangHost.plain.configure
        [(.secAction, inlineCall 1 "id:1,deny"),
          (.secRuleUpdateActionByID, inlineCall 2 "1 \"pass\"")] {}).map
      (·.rules.map fun r => (disruptiveActions r.head.actions).map (·.name)) =
      some [[.deny, .pass]] := by
  decide

/-! ## Ids and phases -/

def UniqueIDs (rules : RuleGroup) : Prop :=
  ((rules.map (·.head.id)).filter (· ≠ 0)).Nodup

def CompiledRule.AsDefined (r : CompiledRule) : Prop :=
  r.id = r.origin.id ∧ r.phase = r.origin.phase

namespace SeclangHost

variable {host : SeclangHost}

theorem compileRule_asDefined {options : RuleOptions} {rule : CompiledRule}
    (compiled : host.compileRule options = .ok rule) :
    rule.AsDefined ∧ rule.secMark = [] := by
  obtain ⟨defaults, start, _, fresh, how⟩ := compileRule_ok compiled
  cases text : host.actionText options with
  | none =>
    simp only [text] at how
    subst how
    exact ⟨⟨rfl, rfl⟩, fresh.secMark⟩
  | some actions =>
    simp only [text] at how
    obtain ⟨parsed, done, rfl⟩ := how
    exact ⟨⟨rfl, rfl⟩, (parseRuleActions_secMark done).trans fresh.secMark⟩

theorem parseRuleActions_asDefined {actions : Bytes} {before after : CompiledRule}
    (parsed : host.parseRuleActions [] (fun _ => none) actions before = (after, none))
    (named : ∀ item ∈ host.writtenActions actions, item.name ≠ .id ∧ item.name ≠ .phase)
    (defined : before.AsDefined) : after.AsDefined := by
  obtain ⟨id, phase⟩ := parseRuleActions_definition parsed named
  have spec := parseRuleActions_spec (by intro phase items found; cases found) parsed
  simp only [CompiledRule.AsDefined, id, phase, spec.origin]
  exact defined

end SeclangHost

theorem findByID_none {rules : RuleGroup} {id : Int} (absent : rules.findByID id = none) :
    id ∉ rules.map (·.head.id) := by
  intro found
  obtain ⟨r, inside, same⟩ := List.mem_map.mp found
  have no := List.findIdx?_eq_none_iff.mp absent r inside
  simp [same] at no

theorem uniqueIDs_add {host : SeclangHost} {rules after : RuleGroup} {rule : CompiledRule}
    (defined : DefinedRule host rule) (added : rules.add host rule = .ok after)
    (unique : UniqueIDs rules) : UniqueIDs after := by
  have append : ∀ {id : Int}, id = 0 ∨ id ∉ rules.map (·.head.id) →
      ((rules.map (·.head.id) ++ [id]).filter (· ≠ 0)).Nodup := by
    intro id harmless
    rw [List.filter_append]
    rcases harmless with rfl | absent
    · simpa [UniqueIDs] using unique
    · refine List.Nodup.append unique ?_ ?_
      · exact (List.nodup_singleton id).filter _
      · intro other old new
        have same := List.mem_singleton.mp (List.mem_of_mem_filter new)
        exact absent (same ▸ List.mem_of_mem_filter old)
  have marked : rule.secMark ≠ [] → rule.id = 0 := by
    cases defined with
    | compiled raw ok => exact fun marked => absurd (SeclangHost.compileRule_asDefined ok).2 marked
    | marker => exact fun _ => rfl
  simp only [RuleGroup.add] at added
  split at added
  · split at added
    · split at added
      · cases added
      · split at added
        · cases added
        · next absent =>
            cases added
            simpa [UniqueIDs] using append (.inr (findByID_none (by simpa using absent)))
    · next mark =>
        cases added
        simpa [UniqueIDs] using append (.inl (marked mark))
  · split at added
    · cases added
    · next harmless =>
        cases added
        rw [not_and_or, not_not] at harmless
        simpa [UniqueIDs] using append (harmless.imp_right fun absent =>
          findByID_none (by simpa using absent))

theorem retargeted_ids {rules after : RuleGroup} (same : List.Forall₂ Retargeted rules after) :
    after.map (·.head.id) = rules.map (·.head.id) := by
  induction same with
  | nil => rfl
  | cons first _ ih => rw [List.map_cons, List.map_cons, ih, first.head]

theorem uniqueIDs_change {host : SeclangHost} {step : RuleDirective × DirectiveCall}
    {rules after : RuleGroup} (change : RuleChange host step rules after)
    (named : step.1 = .secRuleUpdateActionByID →
      ∀ item ∈ host.writtenActions (SeclangHost.updateText step.2),
        item.name ≠ .id ∧ item.name ≠ .phase)
    (unique : UniqueIDs rules) : UniqueIDs after := by
  cases change with
  | add defined added => exact uniqueIDs_add defined added unique
  | link ok => simpa [UniqueIDs, StoredRule.link] using unique
  | remove fewer => exact unique.sublist ((fewer.map _).filter _)
  | retarget same =>
    simpa only [UniqueIDs, retargeted_ids same] using unique
  | react update target parsed =>
    have id := (SeclangHost.parseRuleActions_definition parsed (named update)).1
    simpa [UniqueIDs, id] using unique

/-- In every accepted configuration whose `SecRuleUpdateActionById` directives name
neither `id` nor `phase`, ids are unique and every rule has the id and the phase it
was defined with. -/
theorem configured_uniqueIDs (host : SeclangHost) (steps : Configuration)
    (options : DirectiveOptions) (accepted : host.configure steps {} = some options)
    (named : ∀ step ∈ steps, step.1 = .secRuleUpdateActionByID →
      ∀ item ∈ host.writtenActions (SeclangHost.updateText step.2),
        item.name ≠ .id ∧ item.name ≠ .phase) :
    UniqueIDs options.rules ∧
      ∀ stored ∈ options.rules, ∀ rule ∈ stored.all, rule.AsDefined := by
  have updates : host.EveryActionUpdate (fun _ call =>
      ∀ item ∈ host.writtenActions (SeclangHost.updateText call),
        item.name ≠ .id ∧ item.name ≠ .phase) steps {} := by
    clear accepted
    generalize ({} : DirectiveOptions) = start
    induction steps generalizing start with
    | nil => trivial
    | cons step rest ih =>
      obtain ⟨first, later⟩ := List.forall_mem_cons.mp named
      exact ⟨first, fun next _ => ih later next⟩
  refine SeclangHost.configure_keeps
    (Q := fun rules => UniqueIDs rules ∧ EveryRule CompiledRule.AsDefined rules) ?_ accepted
    updates ⟨List.nodup_nil, by simp [EveryRule]⟩
  intro step rules after change named holds
  refine ⟨uniqueIDs_change change named holds.1, change.everyRule id id ?_ ?_ ?_ holds.2⟩
  · intro rule defined
    cases defined with
    | compiled raw ok =>
      have defined := (SeclangHost.compileRule_asDefined ok).1
      exact defined
    | marker => exact ⟨rfl, rfl⟩
  · intro options rule parentID logID ok
    have defined := (SeclangHost.compileRule_asDefined ok).1
    exact ⟨defined.1, rfl⟩
  · intro r head update _ parsed defined
    exact SeclangHost.parseRuleActions_asDefined parsed (named update) defined

theorem configured_uniqueIDs_status :
    ∃ options, SeclangHost.plain.configure statusUpdated {} = some options ∧
      UniqueIDs options.rules ∧
        ∀ stored ∈ options.rules, ∀ rule ∈ stored.all, rule.AsDefined := by
  refine ⟨_, rfl, configured_uniqueIDs SeclangHost.plain statusUpdated _ rfl ?_⟩
  decide

/-- An update may give a rule the id of another. -/
theorem configured_same_id :
    (SeclangHost.plain.configure
        [(.secAction, inlineCall 1 "id:1,phase:1,pass"),
          (.secAction, inlineCall 2 "id:2,phase:1,deny"),
          (.secRuleUpdateActionByID, inlineCall 3 "2 \"id:1\"")] {}).map
      (·.rules.map (·.head.id)) = some [1, 1] := by
  decide

end Obsidian
