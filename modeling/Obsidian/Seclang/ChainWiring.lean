import Obsidian.Seclang.RuleInvariants

namespace Obsidian

open Obsidian.Data

/-! # Chains and ignored errors

`SecIgnoreRuleCompilationErrors` drops a rule that does not compile or has a taken
id, and the rules after it join whatever chain is open.  Here the group that comes
of it is compared with the one in which every chain with such a rule is missing.
-/

abbrev RuleLine := RuleDirective × DirectiveCall

namespace SeclangHost

variable (host : SeclangHost) (base : DirectiveOptions)

/-! ## Chains as written -/

def stepOptions (step : RuleLine) : RuleOptions :=
  base.ruleOptions (step.1 = .secRule) step.2

def compileStep (step : RuleLine) : Except GoError CompiledRule :=
  host.compileRule (stepOptions base step)

def compiles (step : RuleLine) : Bool := (host.compileStep base step).toOption.isSome

/-- The rule goes on in the next one.  The text decides it for a rule that does not
compile. -/
def writesChain (step : RuleLine) : Bool :=
  match host.compileStep base step with
  | .ok rule => rule.hasChain
  | .error _ =>
    match host.actionText (stepOptions base step) with
    | some actions => (splitActions actions).any fun pair => host.actionKey pair.1 = str "chain"
    | none => false

def writtenChains : List RuleLine → List (List RuleLine)
  | [] => []
  | step :: rest =>
    if host.writesChain base step then
      match writtenChains rest with
      | [] => [[step]]
      | chain :: chains => (step :: chain) :: chains
    else [step] :: writtenChains rest

/-! ## Groups -/

/-- The rule would be stored if it began a chain. -/
def accepts (rules : RuleGroup) (step : RuleLine) : Bool :=
  match host.compileStep base step with
  | .ok rule => (rules.add host { rule with raw := step.2.raw }).toOption.isSome
  | .error _ => false

def compiledStep (step : RuleLine) : CompiledRule := (host.compileStep base step).toOption.getD {}

def storedChain (head : RuleLine) (members : List RuleLine) : StoredRule :=
  members.foldl (fun chain member => chain.link (host.compiledStep base member) member.2.raw)
    { head := { host.compiledStep base head with raw := head.2.raw } }

/-- The group after a chain that is stored as a whole or not at all. -/
def intended (rules : RuleGroup) : List RuleLine → RuleGroup
  | [] => rules
  | head :: members =>
    if host.accepts base rules head ∧ members.all (host.compiles base) then
      rules ++ [host.storedChain base head members]
    else rules

/-- The group after a rule directive whose errors are ignored. -/
def placed (rules : RuleGroup) (step : RuleLine) : RuleGroup :=
  match host.compileStep base step with
  | .error _ => rules
  | .ok rule =>
    match rules.lastExpectingChain with
    | some parent => rules.dropLast ++ [parent.link rule step.2.raw]
    | none => (rules.add host { rule with raw := step.2.raw }).toOption.getD rules

/-- Either the first rule of the chain is stored and the others compile, or it is
not and none of the others would be stored in its place. -/
def Wired (rules : RuleGroup) : List RuleLine → Prop
  | [] => True
  | head :: members =>
    if host.accepts base rules head then ∀ member ∈ members, host.compiles base member = true
    else ∀ member ∈ members, host.accepts base rules member = false

def EveryWired : List (List RuleLine) → RuleGroup → Prop
  | [], _ => True
  | chain :: rest, rules =>
    host.Wired base rules chain ∧ EveryWired rest (host.intended base rules chain)

instance decidableWired (rules : RuleGroup) :
    (chain : List RuleLine) → Decidable (host.Wired base rules chain)
  | [] => isTrue trivial
  | head :: members => inferInstanceAs (Decidable
      (if host.accepts base rules head then ∀ member ∈ members, host.compiles base member = true
        else ∀ member ∈ members, host.accepts base rules member = false))

instance decidableEveryWired :
    (chains : List (List RuleLine)) → (rules : RuleGroup) →
      Decidable (host.EveryWired base chains rules)
  | [], _ => isTrue trivial
  | chain :: rest, rules =>
    have := decidableEveryWired rest (host.intended base rules chain)
    inferInstanceAs (Decidable (host.Wired base rules chain ∧ _))

variable {host : SeclangHost} {base : DirectiveOptions}

/-! ## One directive -/

theorem placed_of_accepts {rules : RuleGroup} {step : RuleLine}
    (closed : rules.lastExpectingChain = none) (accepted : host.accepts base rules step = true) :
    host.placed base rules step = rules ++ [host.storedChain base step []] := by
  simp only [accepts] at accepted
  simp only [placed, storedChain, compiledStep, List.foldl_nil, closed]
  split at accepted
  · next rule compiled =>
      simp only [compiled]
      cases added : rules.add host { rule with raw := step.2.raw } with
      | error err => simp [added, Except.toOption] at accepted
      | ok after => simp [Except.toOption, add_append added]
  · cases accepted

theorem placed_of_refused {rules : RuleGroup} {step : RuleLine}
    (closed : rules.lastExpectingChain = none) (refused : host.accepts base rules step = false) :
    host.placed base rules step = rules := by
  simp only [accepts] at refused
  simp only [placed, closed]
  split at refused
  · next rule compiled =>
      simp only [compiled]
      cases added : rules.add host { rule with raw := step.2.raw } with
      | error err => rfl
      | ok after => simp [added, Except.toOption] at refused
  · next err failed => simp only [failed]

theorem lastExpectingChain_append (rules : RuleGroup) (r : StoredRule) :
    RuleGroup.lastExpectingChain (rules ++ [r]) = if r.last.hasChain then some r else none := by
  simp only [RuleGroup.lastExpectingChain, List.getLast?_append, List.getLast?_singleton,
    Option.some_or, Option.filter_some]

theorem placed_of_expecting {rules : RuleGroup} {open_ : StoredRule} {step : RuleLine}
    (expecting : open_.last.hasChain = true) (compiled : host.compiles base step = true) :
    host.placed base (rules ++ [open_]) step =
      rules ++ [open_.link (host.compiledStep base step) step.2.raw] := by
  simp only [compiles] at compiled
  simp only [placed, compiledStep, lastExpectingChain_append, expecting, if_true]
  cases compile : host.compileStep base step with
  | error err => simp [compile, Except.toOption] at compiled
  | ok rule => simp [Except.toOption]

/-! ## Size -/

def groupSize (rules : RuleGroup) : Nat := (rules.flatMap StoredRule.all).length

@[simp] theorem groupSize_append (left right : RuleGroup) :
    groupSize (left ++ right) = groupSize left + groupSize right := by
  simp [groupSize]

@[simp] theorem groupSize_singleton (r : StoredRule) : groupSize [r] = r.members.length + 1 := by
  simp [groupSize, StoredRule.all]

theorem groupSize_placed (host : SeclangHost) (base : DirectiveOptions) (rules : RuleGroup)
    (step : RuleLine) : groupSize rules ≤ groupSize (host.placed base rules step) := by
  simp only [placed]
  split
  · exact Nat.le_refl _
  next rule compiled =>
  split
  · next parent expecting =>
      obtain ⟨last, _⟩ := Option.filter_eq_some_iff.mp expecting
      have split := List.dropLast_append_getLast? _ last
      calc groupSize rules = groupSize (rules.dropLast ++ [parent]) := by rw [split]
        _ ≤ groupSize (rules.dropLast ++ [parent.link rule step.2.raw]) := by
            simp [StoredRule.link]
  · cases added : rules.add host { rule with raw := step.2.raw } with
    | error err => exact Nat.le_refl _
    | ok after => simp [Except.toOption, add_append added]

theorem groupSize_foldl_placed (host : SeclangHost) (base : DirectiveOptions)
    (steps : List RuleLine) (rules : RuleGroup) :
    groupSize rules ≤ groupSize (steps.foldl (host.placed base) rules) := by
  induction steps generalizing rules with
  | nil => exact Nat.le_refl _
  | cons step rest ih => exact Nat.le_trans (groupSize_placed host base rules step) (ih _)

theorem foldl_placed_ne (host : SeclangHost) (base : DirectiveOptions) (steps : List RuleLine)
    (rules : RuleGroup) (r : StoredRule) :
    steps.foldl (host.placed base) (rules ++ [r]) ≠ rules := by
  intro same
  have grown := groupSize_foldl_placed host base steps (rules ++ [r])
  rw [same, groupSize_append, groupSize_singleton] at grown
  omega

/-! ## One chain -/

theorem foldl_placed_eq_self {steps : List RuleLine} {rules : RuleGroup}
    (closed : rules.lastExpectingChain = none) :
    steps.foldl (host.placed base) rules = rules ↔
      ∀ step ∈ steps, host.accepts base rules step = false := by
  induction steps with
  | nil => simp
  | cons step rest ih =>
    rw [List.foldl_cons, List.forall_mem_cons]
    cases accepted : host.accepts base rules step with
    | false =>
      rw [placed_of_refused closed accepted, ih]
      simp
    | true =>
      rw [placed_of_accepts closed accepted]
      exact iff_of_false (foldl_placed_ne host base rest rules _) (by simp)

theorem compiledStep_hasChain {step : RuleLine} (compiled : host.compiles base step = true) :
    (host.compiledStep base step).hasChain = host.writesChain base step := by
  simp only [compiles] at compiled
  simp only [compiledStep, writesChain]
  cases compile : host.compileStep base step with
  | error err => simp [compile, Except.toOption] at compiled
  | ok rule => simp [Except.toOption]

theorem link_last (chain : StoredRule) (rule : CompiledRule) (raw : Bytes) :
    (chain.link rule raw).last.hasChain = rule.hasChain := by
  simp [StoredRule.link, StoredRule.last]

theorem foldl_placed_members {members : List RuleLine} {rules : RuleGroup} {open_ : StoredRule}
    (expecting : members ≠ [] → open_.last.hasChain = true)
    (compiled : ∀ member ∈ members, host.compiles base member = true)
    (continued : ∀ member ∈ members.dropLast, host.writesChain base member = true) :
    members.foldl (host.placed base) (rules ++ [open_]) =
      rules ++ [members.foldl (fun chain member =>
        chain.link (host.compiledStep base member) member.2.raw) open_] := by
  induction members generalizing open_ with
  | nil => rfl
  | cons member rest ih =>
    obtain ⟨first, later⟩ := List.forall_mem_cons.mp compiled
    rw [List.foldl_cons, List.foldl_cons, placed_of_expecting (expecting (by simp)) first]
    refine ih ?_ later ?_
    · intro more
      rw [link_last, compiledStep_hasChain first]
      exact continued member (by simp [List.dropLast_cons_of_ne_nil more])
    · intro other found
      refine continued other ?_
      cases rest with
      | nil => cases found
      | cons next rest => exact List.mem_cons_of_mem _ found

theorem storedChain_cons (head : RuleLine) (members : List RuleLine) :
    host.storedChain base head members = members.foldl (fun chain member =>
      chain.link (host.compiledStep base member) member.2.raw) (host.storedChain base head []) := rfl

theorem accepts_compiles {rules : RuleGroup} {step : RuleLine}
    (accepted : host.accepts base rules step = true) : host.compiles base step = true := by
  simp only [accepts] at accepted
  simp only [compiles]
  split at accepted
  · next compiled => simp [compiled, Except.toOption]
  · cases accepted

/-- What the directives of one chain make of a group in which no chain is open. -/
theorem foldl_placed_iff {chain : List RuleLine} {rules : RuleGroup}
    (closed : rules.lastExpectingChain = none)
    (continued : ∀ step ∈ chain.dropLast, host.writesChain base step = true) :
    chain.foldl (host.placed base) rules = host.intended base rules chain ↔
      host.Wired base rules chain := by
  cases chain with
  | nil => simp [intended, Wired]
  | cons head members =>
    rw [List.foldl_cons]
    cases accepted : host.accepts base rules head with
    | false =>
      rw [placed_of_refused closed accepted]
      simp only [intended, Wired, accepted, Bool.false_eq_true, false_and, if_false]
      exact foldl_placed_eq_self closed
    | true =>
      rw [placed_of_accepts closed accepted]
      simp only [intended, Wired, accepted, true_and, if_true]
      by_cases compiled : ∀ member ∈ members, host.compiles base member = true
      · rw [if_pos (List.all_eq_true.mpr compiled), storedChain_cons head members]
        refine iff_of_true (foldl_placed_members ?_ compiled ?_) compiled
        · intro more
          have first := continued head (by simp [List.dropLast_cons_of_ne_nil more])
          rw [← compiledStep_hasChain (accepts_compiles accepted)] at first
          exact first
        · intro other found
          refine continued other ?_
          cases members with
          | nil => cases found
          | cons next rest => exact List.mem_cons_of_mem _ found
      · rw [if_neg (by simpa [List.all_eq_true] using compiled)]
        exact iff_of_false (foldl_placed_ne host base members rules _) compiled

/-! ## All chains -/

theorem writtenChains_flatten (steps : List RuleLine) :
    (host.writtenChains base steps).flatten = steps := by
  induction steps with
  | nil => rfl
  | cons step rest ih =>
    simp only [writtenChains]
    split
    · split
      · next none => simpa [none] using ih
      · next chain chains some => simpa [some] using ih
    · simpa using ih

variable (host base) in
/-- All rules of a chain but the last go on, and the last one does not unless it is
the last of all. -/
def ChainsShape : List (List RuleLine) → Prop
  | [] => True
  | chain :: rest =>
    (∀ step ∈ chain.dropLast, host.writesChain base step = true) ∧
      (rest ≠ [] → ∃ last, chain.getLast? = some last ∧ host.writesChain base last = false) ∧
      ChainsShape rest

theorem writtenChains_shape (steps : List RuleLine) :
    ChainsShape host base (host.writtenChains base steps) ∧
      ∀ chain ∈ host.writtenChains base steps, chain ≠ [] := by
  induction steps with
  | nil => simp [writtenChains, ChainsShape]
  | cons step rest ih =>
    obtain ⟨shape, nonempty⟩ := ih
    simp only [writtenChains]
    cases writes : host.writesChain base step with
    | false =>
      simp only [Bool.false_eq_true, if_false]
      refine ⟨⟨by simp, fun _ => ⟨step, rfl, writes⟩, shape⟩, ?_⟩
      exact List.forall_mem_cons.mpr ⟨by simp, nonempty⟩
    | true =>
      simp only [if_true]
      split
      · simp [ChainsShape]
      · next chain chains split =>
          rw [split] at shape nonempty
          obtain ⟨continued, ended, later⟩ := shape
          obtain ⟨first, others⟩ := List.forall_mem_cons.mp nonempty
          refine ⟨⟨?_, ?_, later⟩, List.forall_mem_cons.mpr ⟨by simp, others⟩⟩
          · rw [List.dropLast_cons_of_ne_nil first]
            exact List.forall_mem_cons.mpr ⟨writes, continued⟩
          · intro more
            obtain ⟨last, found, ends⟩ := ended more
            exact ⟨last, by rw [List.getLast?_cons, found]; rfl, ends⟩

theorem foldl_link_last (members : List RuleLine) (chain : StoredRule) {first : Bool}
    (compiled : ∀ member ∈ members, host.compiles base member = true)
    (open_ : chain.last.hasChain = first) :
    (members.foldl (fun chain member =>
        chain.link (host.compiledStep base member) member.2.raw) chain).last.hasChain =
      (members.getLast?.map (host.writesChain base)).getD first := by
  induction members generalizing chain first with
  | nil => exact open_
  | cons member rest ih =>
    obtain ⟨here, later⟩ := List.forall_mem_cons.mp compiled
    rw [List.foldl_cons, ih _ later ((link_last _ _ _).trans (compiledStep_hasChain here))]
    cases last : rest.getLast? <;> simp [List.getLast?_cons, last]

theorem intended_closed {chain : List RuleLine} {rules : RuleGroup} {last : RuleLine}
    (closed : rules.lastExpectingChain = none) (isLast : chain.getLast? = some last)
    (ends : host.writesChain base last = false) :
    (host.intended base rules chain).lastExpectingChain = none := by
  cases chain with
  | nil => cases isLast
  | cons head members =>
    simp only [intended]
    split
    · next stored =>
        obtain ⟨accepted, compiled⟩ := stored
        have final := foldl_link_last members (host.storedChain base head [])
          (List.all_eq_true.mp compiled) (compiledStep_hasChain (accepts_compiles accepted))
        rw [lastExpectingChain_append, storedChain_cons, final, if_neg]
        rw [List.getLast?_cons] at isLast
        cases tail : members.getLast? <;> simp_all
    · exact closed

theorem foldl_chains_iff (chains : List (List RuleLine)) {rules : RuleGroup}
    (shape : ChainsShape host base chains) (closed : rules.lastExpectingChain = none) :
    (∀ front, front <+: chains →
        front.flatten.foldl (host.placed base) rules = front.foldl (host.intended base) rules) ↔
      host.EveryWired base chains rules := by
  induction chains generalizing rules with
  | nil => simp [EveryWired]
  | cons chain rest ih =>
    obtain ⟨continued, ended, later⟩ := shape
    have here := foldl_placed_iff closed continued
    have rest_iff : host.Wired base rules chain →
        ((∀ front, front <+: rest →
          (chain :: front).flatten.foldl (host.placed base) rules =
            (chain :: front).foldl (host.intended base) rules) ↔
          host.EveryWired base rest (host.intended base rules chain)) := by
      intro wired
      simp only [List.flatten_cons, List.foldl_append, List.foldl_cons, here.mpr wired]
      cases rest with
      | nil => simp [EveryWired]
      | cons next others =>
        obtain ⟨last, isLast, ends⟩ := ended (by simp)
        exact ih later (intended_closed closed isLast ends)
    constructor
    · intro same
      have first := same [chain] (List.prefix_append [chain] rest)
      simp only [List.flatten_cons, List.flatten_nil, List.append_nil, List.foldl_cons,
        List.foldl_nil] at first
      have wired := here.mp first
      refine ⟨wired, (rest_iff wired).mp ?_⟩
      intro front isPrefix
      exact same _ (List.cons_prefix_cons.mpr ⟨rfl, isPrefix⟩)
    · rintro ⟨wired, every⟩ front isPrefix
      cases front with
      | nil => rfl
      | cons first front =>
        obtain ⟨rfl, tail⟩ := List.cons_prefix_cons.mp isPrefix
        exact (rest_iff wired).mpr every front tail

/-! ## Runs -/

section

variable {options : DirectiveOptions} (step : RuleLine)

theorem placed_of_added {rules after : RuleGroup} {rule : Option CompiledRule}
    (parsed : host.parseRule (stepOptions options step) options.rules = .ok (rules, rule))
    (added : host.addParsed rules rule = .ok after) :
    host.placed options options.rules step = after := by
  obtain ⟨compiled, ok, split⟩ := exceptMap_ok parsed
  simp only [placed, compileStep, ok]
  cases expecting : options.rules.lastExpectingChain with
  | some parent =>
    simp only [expecting] at split
    cases split
    exact Except.ok.inj added
  | none =>
    simp only [expecting] at split
    cases split
    exact congrArg (fun result => (Except.toOption result).getD options.rules) added

theorem placed_of_failed {err : GoError}
    (failed : host.parseRule (stepOptions options step) options.rules = .error err) :
    host.placed options options.rules step = options.rules := by
  simp only [parseRule] at failed
  simp only [placed, compileStep]
  cases compiled : host.compileRule (stepOptions options step) with
  | error err => rfl
  | ok rule =>
    rw [compiled] at failed
    cases failed

theorem placed_of_duplicate {rules : RuleGroup} {rule : Option CompiledRule} {err : GoError}
    (parsed : host.parseRule (stepOptions options step) options.rules = .ok (rules, rule))
    (refused : host.addParsed rules rule = .error err) :
    host.placed options options.rules step = options.rules := by
  obtain ⟨compiled, ok, split⟩ := exceptMap_ok parsed
  simp only [placed, compileStep, ok]
  cases expecting : options.rules.lastExpectingChain with
  | some parent =>
    simp only [expecting] at split
    cases split
    cases refused
  | none =>
    simp only [expecting] at split
    cases split
    exact congrArg (fun result => (Except.toOption result).getD options.rules) refused

theorem failUnlessIgnored_ok {err : GoError} {after : DirectiveOptions}
    (hidden : options.failUnlessIgnored err = (after, none)) : after = options := by
  simp only [DirectiveOptions.failUnlessIgnored] at hidden
  split at hidden
  · cases hidden
    rfl
  · cases hidden

theorem apply_placed {after : DirectiveOptions}
    (isRule : step.1 = .secRule ∨ step.1 = .secAction)
    (accepted : host.apply options step = some after) :
    after = { options with rules := host.placed options options.rules step } := by
  obtain ⟨directive, call⟩ := step
  simp only [apply] at accepted
  split at accepted
  · next done =>
      cases accepted
      rcases isRule with rfl | rfl
      · simp only [RuleDirective.function, directiveSecRule] at done
        split at done
        · cases done
        split at done
        · next err failed =>
            rw [failUnlessIgnored_ok done, placed_of_failed (.secRule, call) failed]
        next rules rule parsed =>
        split at done
        · next refused =>
            rw [failUnlessIgnored_ok done, placed_of_duplicate (.secRule, call) parsed refused]
        · next added =>
            cases done
            rw [placed_of_added (.secRule, call) parsed added]
      · simp only [RuleDirective.function, directiveSecAction] at done
        split at done
        · cases done
        split at done
        · cases done
        next rules rule parsed =>
        split at done
        · cases done
        · next added =>
            cases done
            rw [placed_of_added (.secAction, call) parsed added]
  · cases accepted

end

theorem configure_placed {steps : List RuleLine} {options after : DirectiveOptions}
    (ruleSteps : ∀ step ∈ steps, step.1 = .secRule ∨ step.1 = .secAction)
    (accepted : host.configure steps options = some after) :
    after = { options with rules := steps.foldl (host.placed options) options.rules } := by
  induction steps generalizing options with
  | nil =>
    cases accepted
    rfl
  | cons step rest ih =>
    obtain ⟨here, later⟩ := List.forall_mem_cons.mp ruleSteps
    obtain ⟨next, first, more⟩ := optionFoldlM_cons accepted
    have placedNext := apply_placed step here first
    subst placedNext
    exact ih later more

end SeclangHost

/-- The group after every chain is the one in which the chains with an ignored rule are
missing, exactly when in every chain the first rule is stored and the others
compile, or it is not and none of the others would be stored in its place. -/
theorem ignoredErrors_rewire_iff (host : SeclangHost) (start : DirectiveOptions)
    (steps : List RuleLine)
    (ruleSteps : ∀ step ∈ steps, step.1 = .secRule ∨ step.1 = .secAction)
    (closed : start.rules.lastExpectingChain = none)
    (accepted : (host.configure steps start).isSome = true) :
    (∀ front, front <+: host.writtenChains start steps →
        (host.configure front.flatten start).map (·.rules) =
          some (front.foldl (host.intended start) start.rules)) ↔
      host.EveryWired start (host.writtenChains start steps) start.rules := by
  rw [← SeclangHost.foldl_chains_iff _ (SeclangHost.writtenChains_shape steps).1 closed]
  refine forall_congr' fun front => forall_congr' fun isPrefix => ?_
  obtain ⟨back, split⟩ := isPrefix
  have whole : front.flatten ++ back.flatten = steps := by
    rw [← List.flatten_append, split, SeclangHost.writtenChains_flatten]
  obtain ⟨after, configured⟩ := Option.isSome_iff_exists.mp accepted
  rw [SeclangHost.configure, ← whole, List.foldlM_append] at configured
  obtain ⟨middle, first, _⟩ := Option.bind_eq_some_iff.mp configured
  have placed := SeclangHost.configure_placed
    (fun step found => ruleSteps step (whole ▸ List.mem_append_left _ found)) first
  rw [SeclangHost.configure, first, placed]
  simp

def ignoringErrors : DirectiveOptions := { parser := { ignoreRuleCompilationErrors := true } }

def harmlessErrors : List RuleLine :=
  [(.secRule, inlineCall 2 "ARGS \"@missing\" \"id:1,deny\""),
    (.secAction, inlineCall 3 "id:2,pass"),
    (.secRule, inlineCall 4 "ARGS \"@rx a\" \"id:2,deny\""),
    (.secRule, inlineCall 5 "ARGS \"@rx a\" \"id:4,chain,deny\""),
    (.secRule, inlineCall 6 "ARGS \"@rx b\" \"t:none\"")]

theorem ignoredErrors_harmless :
    (SeclangHost.plain.configure (SeclangHost.plain.writtenChains ignoringErrors harmlessErrors).flatten
        ignoringErrors).map (·.rules) =
      some ((SeclangHost.plain.writtenChains ignoringErrors harmlessErrors).foldl
        (SeclangHost.plain.intended ignoringErrors) []) := by
  have wired : (SeclangHost.plain.configure harmlessErrors ignoringErrors).isSome = true ∧
      SeclangHost.plain.EveryWired ignoringErrors
        (SeclangHost.plain.writtenChains ignoringErrors harmlessErrors) ignoringErrors.rules := by
    decide +kernel
  have every := (ignoredErrors_rewire_iff SeclangHost.plain ignoringErrors harmlessErrors
    (by decide) rfl wired.1).mpr wired.2
  exact every _ (List.prefix_refl _)

/-- The second rule of a chain does not compile, and the next rule takes its place. -/
theorem ignoredErrors_rewire :
    (SeclangHost.plain.configure
        [(.secIgnoreRuleCompilationErrors, inlineCall 1 "On"),
          (.secRule, inlineCall 2 "ARGS \"@rx a\" \"id:1,chain,deny\""),
          (.secRule, inlineCall 3 "ARGS \"@missing\" \"t:none\""),
          (.secRule, inlineCall 4 "ARGS \"@rx b\" \"id:3,deny\"")] {}).map
      (·.rules.map fun r => (r.head.id, r.members.map (·.id))) = some [(1, [3])] := by
  decide +kernel

end Obsidian
