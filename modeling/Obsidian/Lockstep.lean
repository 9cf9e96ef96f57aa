import Obsidian.RuleSteps

namespace Obsidian

open Obsidian.Data Relation

/-! # Two evaluations side by side

Rule evaluation reads neither the transformation cache, except where an argument
is transformed, nor `AllowType`.  So two evaluations that differ in how they
transform arguments, or in the `AllowType` they start with, run side by side as
long as the transformed arguments agree.
-/

/-! ## What evaluation does not read -/

/-- The part of a transaction that evaluation does not read. -/
structure Mask where
  cache : TransformationCache
  allowType : AllowType
  lookups : List Lookup

def Transaction.mask (tx : Transaction) : Mask :=
  ⟨tx.transformationCache, tx.allowType, tx.history.lookups⟩

def Transaction.masked (tx : Transaction) (m : Mask) : Transaction :=
  { tx with
    transformationCache := m.cache
    allowType := m.allowType
    history := { tx.history with lookups := m.lookups } }

def Unaware (f : Transaction → Transaction) : Prop :=
  ∀ tx m, f (tx.masked m) = (f tx).masked m

namespace Unaware

theorem mask {f : Transaction → Transaction} (unaware : Unaware f) (tx : Transaction) :
    (f tx).mask = tx.mask := by
  have masked : f tx = (f tx).masked tx.mask := unaware tx tx.mask
  rw [masked]
  rfl

theorem comp {f g : Transaction → Transaction} (outer : Unaware g) (inner : Unaware f) :
    Unaware fun tx => g (f tx) :=
  fun tx m => (congr_arg g (inner tx m)).trans (outer _ m)

theorem foldl {α : Type} {f : Transaction → α → Transaction} (each : ∀ x, Unaware (f · x))
    (xs : List α) : Unaware (xs.foldl f) := by
  induction xs with
  | nil => exact fun _ _ => rfl
  | cons x rest ih => exact ih.comp (each x)

theorem optional {α : Type} {f : Transaction → α → Transaction} (each : ∀ x, Unaware (f · x))
    (o : Option α) : Unaware fun tx => o.elim tx (f tx) := by
  cases o with
  | none => exact fun _ _ => rfl
  | some x => exact each x

theorem guarded {p : Transaction → Prop} [DecidablePred p] {f : Transaction → Transaction}
    (same : ∀ tx m, p (tx.masked m) ↔ p tx) (unaware : Unaware f) :
    Unaware fun tx => if p tx then f tx else tx := by
  intro tx m
  by_cases holds : p tx
  · simp only [holds, (same tx m).mpr holds, if_true, unaware tx m]
  · simp only [holds, mt (same tx m).mp holds, if_false]

/-! ### Actions -/

theorem interrupt (interruption : Interruption) : Unaware (·.interrupt interruption) :=
  guarded (p := fun tx => tx.ruleEngine = .on) (fun _ _ => Iff.rfl) fun _ _ => rfl

theorem removeTargets (a : CtlFn) (ids : List Int) : Unaware (a.removeTargets · ids) :=
  foldl (fun _ _ _ => rfl) ids

theorem removeRules (ids : List Int) : Unaware (CtlFn.removeRules · ids) :=
  foldl (fun _ _ _ => rfl) ids

theorem ctl (rt : Runtime) (waf : WAF) (a : CtlFn) : Unaware (a.evaluate rt waf) := by
  have early (phase : RulePhase) {f : Transaction → Transaction} (unaware : Unaware f) :
      Unaware fun tx => if tx.lastPhase ≤ phase then f tx else tx :=
    guarded (fun _ _ => Iff.rfl) unaware
  unfold CtlFn.evaluate
  split
  case h_1 => exact optional (removeTargets a) _
  case h_2 | h_3 => exact removeTargets a _
  case h_4 | h_5 | h_6 | h_10 | h_16 | h_20 => exact optional (fun _ _ _ => rfl) _
  case h_7 | h_8 => exact early .requestHeaders (optional (fun _ _ _ => rfl) _)
  case h_9 => exact early .requestHeaders fun _ _ => rfl
  case h_11 =>
      split
      · exact optional removeRules _
      · exact optional (fun _ _ _ => rfl) _
  case h_12 | h_13 => exact removeRules _
  case h_14 | h_15 => exact early .responseHeaders (optional (fun _ _ _ => rfl) _)
  case h_17 => exact early .responseHeaders fun _ _ => rfl
  case h_18 | h_19 => exact fun _ _ => rfl

theorem setvar (rt : Runtime) (key value : Macro) (isRemove : Bool) :
    Unaware (evaluateSetvar rt key value isRemove) := by
  intro tx m
  simp only [evaluateSetvar]
  dsimp only [Transaction.masked]
  split
  · rfl
  · cases setvarValue _ _ <;> rfl

theorem action (rt : Runtime) (waf : WAF) (r : Rule) (a : Action)
    (other : ∀ type given, a ≠ .allow type given) :
    Unaware (a.evaluate rt waf r ·) := by
  cases a
  case allow type given => exact absurd rfl (other type given)
  case deny | drop | redirect => exact interrupt _
  case ctl fn => exact ctl rt waf fn
  case setvar key value isRemove => exact setvar rt key value isRemove
  all_goals exact fun _ _ => rfl

/-! ### Parts of a rule -/

variable (e : Engine) (r : Rule) (level : Nat)

theorem note (event : Event) : Unaware (·.note event) := fun _ _ => rfl

theorem runAction (a : RuleAction) : Unaware (e.runAction r level · a) := by
  simp only [Engine.runAction]
  split
  next kind =>
      refine (action e.rt e.waf r a.function fun type given isAllow => ?_).comp (note _)
      rw [isAllow] at kind
      cases kind
  next => exact fun _ _ => rfl

theorem matchVariable (m : MatchData) : Unaware (e.matchVariable r level · m) :=
  (foldl (runAction e r level) r.actions).comp fun _ _ => rfl

theorem applyEffect (rt : Runtime) (effect : OperatorEffect) :
    Unaware (·.applyEffect rt effect) := by
  cases effect with
  | captureField index value =>
    exact guarded (p := fun tx => tx.capture) (fun _ _ => Iff.rfl) fun _ _ => rfl
  | setTX key values => exact fun _ _ => rfl
  | setArgsPath key value => exact fun _ _ => rfl

theorem executeOperator (rt : Runtime) (op : RuleOperatorParams) (data : Bytes) (tx : Transaction)
    (m : Mask) :
    Rule.executeOperator rt op data (tx.masked m) =
      ((Rule.executeOperator rt op data tx).1,
        (Rule.executeOperator rt op data tx).2.masked m) :=
  Prod.ext rfl (foldl (applyEffect rt) (op.operator.evaluate tx.state data).2 tx m)

theorem evaluateValue (op : RuleOperatorParams) (arg : MatchData) (tx : Transaction)
    (matched : List MatchData) (carg : Bytes) (m : Mask) :
    e.evaluateValue r op level arg (tx.masked m, matched) carg =
      ((e.evaluateValue r op level arg (tx, matched) carg).1.masked m,
        (e.evaluateValue r op level arg (tx, matched) carg).2) := by
  have matching (md : MatchData) (tx : Transaction) :
      e.matchVariable r level (tx.masked m) md = (e.matchVariable r level tx md).masked m :=
    matchVariable e r level md tx m
  simp only [Engine.evaluateValue]
  simp only [executeOperator]
  split
  · rw [matching]
    rfl
  · rfl

end Unaware

/-! ## Lockstep -/

/-- Two ways of transforming arguments that can be run side by side, the second one
being the reference. -/
structure Lockstep (left right : TransformArg) where
  /-- The cache that goes with a transaction of the reference. -/
  tied : TransformationCache → Transaction → Prop
  synced : Prop
  /-- The two sides have come apart. -/
  apart : Transaction → Transaction → Prop
  tied_of_mask : ∀ {cache a b}, tied cache a → b.mask = a.mask → tied cache b
  tied_allow : ∀ {cache tx} type, tied cache tx → tied cache { tx with allowType := type }
  apart_stays : ∀ {phase a b a' b'}, apart a b → LoopSteps phase a a' → LoopSteps phase b b' →
    apart a' b'
  left_quiet : ∀ rt waf, (Engine.mk rt waf left).Quiet
  right_quiet : ∀ rt waf, (Engine.mk rt waf right).Quiet
  transform : ∀ r arg argIdx {cache tx} type, tied cache tx →
    apart (left r arg argIdx (tx.masked ⟨cache, type, tx.history.lookups⟩)).2
        (right r arg argIdx tx).2 ∨
      ∃ cache', tied cache' (right r arg argIdx tx).2 ∧
        (right r arg argIdx tx).2.allowType = tx.allowType ∧
        left r arg argIdx (tx.masked ⟨cache, type, tx.history.lookups⟩) =
          ((right r arg argIdx tx).1, (right r arg argIdx tx).2.masked
            ⟨cache', type, (right r arg argIdx tx).2.history.lookups⟩)

namespace Lockstep

variable {left right : TransformArg} (lock : Lockstep left right)

/-- The left side is the reference with the cache that goes with it. -/
def Live (a b : Transaction) : Prop :=
  ∃ cache type, lock.tied cache b ∧ (lock.synced → type = b.allowType) ∧
    a = b.masked ⟨cache, type, b.history.lookups⟩

def Follows {α : Type} (x y : Transaction × α) : Prop :=
  lock.apart x.1 y.1 ∨ lock.Live x.1 y.1 ∧ x.2 = y.2

variable {lock}

variable (lock) in
theorem apart_ruleSteps {a b a' b' : Transaction} (apart : lock.apart a b) (left : RuleSteps a a')
    (right : RuleSteps b b') : lock.apart a' b' := by
  have steps : LoopSteps .unknown a a' := left.loop
  exact lock.apart_stays apart steps right.loop

theorem Live.unaware {a b : Transaction} (live : lock.Live a b) {f : Transaction → Transaction}
    (unaware : Unaware f) : lock.Live (f a) (f b) := by
  obtain ⟨cache, type, tied, synced, rfl⟩ := live
  have same := unaware.mask b
  have allowType : (f b).allowType = b.allowType := congr_arg Mask.allowType same
  have lookups : (f b).history.lookups = b.history.lookups := congr_arg Mask.lookups same
  refine ⟨cache, type, lock.tied_of_mask tied same, fun holds => ?_, ?_⟩
  · rw [allowType]
    exact synced holds
  · rw [unaware, lookups]

theorem Live.allow {a b : Transaction} (live : lock.Live a b) (rt : Runtime) (waf : WAF) (r : Rule)
    (type : AllowType) (given : type ≠ .unset) :
    lock.Live ((Action.allow type given).evaluate rt waf r a)
      ((Action.allow type given).evaluate rt waf r b) := by
  obtain ⟨cache, before, tied, _, rfl⟩ := live
  exact ⟨cache, type, lock.tied_of_mask (lock.tied_allow type tied) rfl, fun _ => rfl, rfl⟩

theorem Follows.next {α β : Type} {x y : Transaction × α} {x' y' : Transaction × β}
    (follows : lock.Follows x y) (leftSteps : RuleSteps x.1 x'.1) (rightSteps : RuleSteps y.1 y'.1)
    (live : lock.Live x.1 y.1 → x.2 = y.2 → lock.Follows x' y') : lock.Follows x' y' := by
  rcases follows with apart | ⟨inStep, same⟩
  · exact .inl (lock.apart_ruleSteps apart leftSteps rightSteps)
  · exact live inStep same

theorem Follows.foldl {α β : Type} {f g : Transaction × β → α → Transaction × β} {xs : List α}
    (each : ∀ {x y} a, lock.Follows x y → lock.Follows (f x a) (g y a)) {x y : Transaction × β}
    (follows : lock.Follows x y) : lock.Follows (xs.foldl f x) (xs.foldl g y) := by
  induction xs generalizing x y with
  | nil => exact follows
  | cons a rest ih => exact ih (each a follows)

/-! ## Evaluation in lockstep -/

section

variable {rt : Runtime} {waf : WAF}

theorem evaluateValue {x y : Transaction × List MatchData} (follows : lock.Follows x y) (r : Rule)
    (op : RuleOperatorParams) (level : Nat) (arg : MatchData) (carg : Bytes) :
    lock.Follows ((Engine.mk rt waf left).evaluateValue r op level arg x carg)
      ((Engine.mk rt waf right).evaluateValue r op level arg y carg) := by
  refine follows.next (Engine.evaluateValue_steps (lock.left_quiet rt waf) ..)
    (Engine.evaluateValue_steps (lock.right_quiet rt waf) ..) fun live same => .inr ?_
  obtain ⟨a, matched⟩ := x
  obtain ⟨b, _⟩ := y
  obtain rfl : matched = _ := same
  have unaware := Unaware.evaluateValue (Engine.mk rt waf right) r level op arg
  have fst : Unaware fun tx =>
      ((Engine.mk rt waf right).evaluateValue r op level arg (tx, matched) carg).1 :=
    fun tx m => congr_arg Prod.fst (unaware tx matched carg m)
  refine ⟨live.unaware fst, ?_⟩
  obtain ⟨cache, type, _, _, rfl⟩ := live
  have snd := congr_arg Prod.snd (unaware b matched carg ⟨cache, type, b.history.lookups⟩)
  exact snd

theorem evaluateArgument {x y : Transaction × List MatchData} (follows : lock.Follows x y)
    (r : Rule) (op : RuleOperatorParams) (level : Nat) (arg : MatchData × Nat) :
    lock.Follows ((Engine.mk rt waf left).evaluateArgument r op level x arg)
      ((Engine.mk rt waf right).evaluateArgument r op level y arg) := by
  refine follows.next (Engine.evaluateArgument_steps (lock.left_quiet rt waf) ..)
    (Engine.evaluateArgument_steps (lock.right_quiet rt waf) ..) fun live same => ?_
  simp only [Engine.evaluateArgument]
  split
  · exact Follows.foldl (fun carg follows => evaluateValue follows r op level arg.1 carg) follows
  · obtain ⟨cache, type, tied, synced, inStep⟩ := live
    obtain ⟨a, matched⟩ := x
    obtain ⟨b, _⟩ := y
    obtain rfl : matched = _ := same
    obtain rfl : a = _ := inStep
    have transformed := lock.transform r arg.1 arg.2 type tied
    revert transformed
    dsimp only
    rcases left r arg.1 arg.2 (b.masked ⟨cache, type, b.history.lookups⟩) with ⟨leftValue, a'⟩
    rcases right r arg.1 arg.2 b with ⟨value, b'⟩
    rintro (apart | ⟨cache', tied', allowType, result⟩)
    · exact .inl (lock.apart_ruleSteps apart
        (Engine.evaluateValue_steps (lock.left_quiet rt waf) r op level arg.1 (a', matched) _)
        (Engine.evaluateValue_steps (lock.right_quiet rt waf) r op level arg.1 (b', matched) _))
    · obtain ⟨rfl, rfl⟩ := Prod.mk.inj result
      have live : lock.Live (b'.masked ⟨cache', type, b'.history.lookups⟩) b' :=
        ⟨cache', type, tied', fun holds => (synced holds).trans allowType.symm, rfl⟩
      have inStep : lock.Follows (b'.masked ⟨cache', type, b'.history.lookups⟩, matched)
          (b', matched) := .inr ⟨live, rfl⟩
      exact evaluateValue inStep r op level arg.1 _

theorem evaluateVariable {x y : Transaction × List MatchData} (follows : lock.Follows x y)
    (r : Rule) (op : RuleOperatorParams) (level : Nat) (ecol : List RuleVariableParams)
    (v : RuleVariableParams) :
    lock.Follows ((Engine.mk rt waf left).evaluateVariable r op level ecol x v)
      ((Engine.mk rt waf right).evaluateVariable r op level ecol y v) := by
  refine follows.next (Engine.evaluateVariable_steps (lock.left_quiet rt waf) ..)
    (Engine.evaluateVariable_steps (lock.right_quiet rt waf) ..) fun live same => ?_
  have visited := live.unaware
    (f := fun tx => { tx with ticks := tx.ticks + 1 }.note (.expandingArguments level v.var))
    fun _ _ => rfl
  obtain ⟨a, matched⟩ := x
  obtain ⟨b, _⟩ := y
  obtain rfl : matched = _ := same
  have fields (rv : RuleVariableParams) : a.getField rt rv = b.getField rt rv := by
    obtain ⟨_, _, _, _, rfl⟩ := live
    rfl
  unfold Engine.evaluateVariable
  dsimp only
  rw [fields]
  exact Follows.foldl (fun arg follows => evaluateArgument follows r op level arg)
    (.inr ⟨visited, rfl⟩)

theorem evaluateOwn {a b : Transaction} (live : lock.Live a b) (r : Rule) (level : Nat) :
    lock.Follows ((Engine.mk rt waf left).evaluateOwn r level a)
      ((Engine.mk rt waf right).evaluateOwn r level b) := by
  have announced := live.unaware (f := (Engine.mk rt waf right).announce r level) fun _ _ => rfl
  have expanded (md : MatchData) : r.expand ((Engine.mk rt waf left).announce r level a) md =
      r.expand ((Engine.mk rt waf right).announce r level b) md := by
    obtain ⟨_, _, _, _, rfl⟩ := live
    rfl
  have removed : ((Engine.mk rt waf left).announce r level a).ruleRemoveTargetByID =
      ((Engine.mk rt waf right).announce r level b).ruleRemoveTargetByID := by
    obtain ⟨_, _, _, _, rfl⟩ := live
    rfl
  unfold Engine.evaluateOwn
  dsimp only
  split
  · rw [expanded]
    exact .inr ⟨announced.unaware (Unaware.matchVariable (Engine.mk rt waf right) r level _), rfl⟩
  · next op _ =>
      rw [removed]
      exact Follows.foldl (fun v follows => evaluateVariable follows r op level _ v)
        (.inr ⟨announced, rfl⟩)

theorem concludeAction {a b : Transaction} (live : lock.Live a b) (r : Rule) (level : Nat)
    (action : RuleAction) :
    lock.Live ((Engine.mk rt waf left).concludeAction r level a action)
      ((Engine.mk rt waf right).concludeAction r level b action) := by
  have engine : a.ruleEngine = b.ruleEngine := by
    obtain ⟨_, _, _, _, rfl⟩ := live
    rfl
  have acted (event : Event) : lock.Live (action.function.evaluate rt waf r (a.note event))
      (action.function.evaluate rt waf r (b.note event)) := by
    have noted := live.unaware (Unaware.note event)
    by_cases isAllow : ∃ type given, action.function = .allow type given
    · obtain ⟨type, given, isAllow⟩ := isAllow
      rw [isAllow]
      exact noted.allow rt waf r type given
    · exact noted.unaware (Unaware.action rt waf r action.function fun type given same =>
        isAllow ⟨type, given, same⟩)
  simp only [Engine.concludeAction]
  rw [engine]
  split
  · exact acted _
  · split
    · exact acted _
    · exact live

theorem concludeActions {a b : Transaction} (live : lock.Live a b) (r : Rule) (level : Nat)
    (actions : List RuleAction) :
    lock.Live (actions.foldl ((Engine.mk rt waf left).concludeAction r level) a)
      (actions.foldl ((Engine.mk rt waf right).concludeAction r level) b) := by
  induction actions generalizing a b with
  | nil => exact live
  | cons action rest ih => exact ih (concludeAction live r level action)

theorem conclude {a b : Transaction} (live : lock.Live a b) (r : Rule) (level : Nat)
    (matched : List MatchData) :
    lock.Follows ((Engine.mk rt waf left).conclude r level a matched)
      ((Engine.mk rt waf right).conclude r level b matched) := by
  have expanded : r.expand a = r.expand b := by
    obtain ⟨_, _, _, _, rfl⟩ := live
    rfl
  simp only [Engine.conclude]
  rw [expanded]
  refine .inr ⟨?_, rfl⟩
  dsimp only
  split
  · exact (concludeActions live r level r.actions).unaware (f := fun tx =>
      (tx.note (.ruleMatched level)).matchRule rt r _) fun _ _ => rfl
  · exact concludeActions live r level r.actions

theorem doEvaluateWith
    {leftChain rightChain : Nat → Transaction → Transaction × Option (List MatchData)}
    (leftSteps : ∀ level tx, RuleSteps tx (leftChain level tx).1)
    (rightSteps : ∀ level tx, RuleSteps tx (rightChain level tx).1)
    (chained : ∀ level {a b}, lock.Live a b →
      lock.Follows (leftChain level a) (rightChain level b))
    {a b : Transaction} (live : lock.Live a b) (r : Rule) (level : Nat) :
    lock.Follows ((Engine.mk rt waf left).doEvaluateWith leftChain r level a)
      ((Engine.mk rt waf right).doEvaluateWith rightChain r level b) := by
  have leftMoves := Engine.ruleMoves (lock.left_quiet rt waf)
  have rightMoves := Engine.ruleMoves (lock.right_quiet rt waf)
  refine (evaluateOwn live r level).next (leftMoves.walks.doEvaluateWith_own trivial level leftSteps a)
    (rightMoves.walks.doEvaluateWith_own trivial level rightSteps b) ?_
  simp only [Engine.doEvaluateWith]
  rcases (Engine.mk rt waf left).evaluateOwn r level a with ⟨a', matched⟩
  rcases (Engine.mk rt waf right).evaluateOwn r level b with ⟨b', _⟩
  rintro live rfl
  dsimp only
  split
  · exact .inr ⟨live, rfl⟩
  · split
    · have walked := chained level live
      revert walked
      rcases leftChain level a' with ⟨a'', found⟩
      rcases rightChain level b' with ⟨b'', found'⟩
      intro walked
      apply walked.next
      · cases found with
        | none => exact .refl
        | some chain => exact leftMoves.conclude trivial ..
      · cases found' with
        | none => exact .refl
        | some chain => exact rightMoves.conclude trivial ..
      · rintro live rfl
        cases found with
        | none => exact .inr ⟨live, rfl⟩
        | some chain => exact conclude live r level _
    · exact .inr ⟨live, rfl⟩

theorem chainLoop (chain : List Rule) (level : Nat) {a b : Transaction} (live : lock.Live a b)
    (matched : List MatchData) :
    lock.Follows ((Engine.mk rt waf left).chainLoop chain level a matched)
      ((Engine.mk rt waf right).chainLoop chain level b matched) := by
  have leftSteps {chain : List Rule} :=
    (Engine.ruleMoves (lock.left_quiet rt waf)).walks.chainLoop fun r (_ : r ∈ chain) => trivial
  have rightSteps {chain : List Rule} :=
    (Engine.ruleMoves (lock.right_quiet rt waf)).walks.chainLoop fun r (_ : r ∈ chain) => trivial
  induction chain generalizing level a b matched with
  | nil => exact .inr ⟨live, rfl⟩
  | cons nr rest ih =>
    have member : lock.Follows ((Engine.mk rt waf left).doEvaluate nr rest (level + 1) a)
        ((Engine.mk rt waf right).doEvaluate nr rest (level + 1) b) :=
      doEvaluateWith (fun level tx => leftSteps level tx [])
        (fun level tx => rightSteps level tx []) (fun level _ _ live => ih level live [])
        live nr (level + 1)
    simp only [Engine.chainLoop_cons]
    refine member.next ?_ ?_ fun live same => ?_
    · split
      · exact .refl
      · exact leftSteps ..
    · split
      · exact .refl
      · exact rightSteps ..
    · rw [same]
      split
      · exact .inr ⟨live, rfl⟩
      · exact ih (level + 1) live _

variable (rt waf) in
theorem evaluateReached {a b : Transaction} (live : lock.Live a b) (r : RuleChain) :
    lock.apart ((Engine.mk rt waf left).evaluateReached r a)
        ((Engine.mk rt waf right).evaluateReached r b) ∨
      lock.Live ((Engine.mk rt waf left).evaluateReached r a)
        ((Engine.mk rt waf right).evaluateReached r b) := by
  have reset := live.unaware (f := fun tx => { tx with vars := tx.vars.setMap .matchedVars ∅ })
    fun _ _ => rfl
  have evaluated : lock.Follows
      ((Engine.mk rt waf left).doEvaluate r.head r.members 0
        { a with vars := a.vars.setMap .matchedVars ∅ })
      ((Engine.mk rt waf right).doEvaluate r.head r.members 0
        { b with vars := b.vars.setMap .matchedVars ∅ }) :=
    doEvaluateWith
      (fun level tx =>
        (Engine.ruleMoves (lock.left_quiet rt waf)).walks.chainLoop (fun _ _ => trivial) level tx [])
      (fun level tx =>
        (Engine.ruleMoves (lock.right_quiet rt waf)).walks.chainLoop (fun _ _ => trivial) level tx [])
      (fun level _ _ live => chainLoop r.members level live []) reset r.head 0
  rcases evaluated with apart | ⟨live, _⟩
  · exact .inl (lock.apart_ruleSteps apart (.single (.capture _ false))
      (.single (.capture _ false)))
  · exact .inr (live.unaware (f := fun tx => { tx with capture := false }) fun _ _ => rfl)

/-! ## A phase in lockstep -/

variable (synced : lock.synced) {phase : RulePhase}

include synced

theorem round {a b : Transaction} (live : lock.Live a b) (position : Nat) (r : Rule) :
    (Obsidian.round phase position r a).1 = (Obsidian.round phase position r b).1 ∧
      lock.Live (Obsidian.round phase position r a).2 (Obsidian.round phase position r b).2 := by
  obtain ⟨cache, type, tied, same, rfl⟩ := live
  obtain rfl := same synced
  exact ⟨rfl, cache, _, lock.tied_of_mask (lock.tied_allow _ tied) rfl, fun _ => rfl, rfl⟩

variable (rt waf phase) in
theorem rulesLoop {a b : Transaction} (live : lock.Live a b) (i : Nat) (rules : List RuleChain) :
    lock.apart ((Engine.mk rt waf left).rulesLoop phase i rules a)
        ((Engine.mk rt waf right).rulesLoop phase i rules b) ∨
      lock.Live ((Engine.mk rt waf left).rulesLoop phase i rules a)
        ((Engine.mk rt waf right).rulesLoop phase i rules b) := by
  induction rules generalizing i a b with
  | nil =>
    obtain ⟨cache, type, tied, same, rfl⟩ := live
    obtain rfl := same synced
    exact .inr ⟨cache, _, lock.tied_of_mask tied rfl, fun _ => rfl, rfl⟩
  | cons r rest ih =>
    obtain ⟨verdict, passed⟩ := round synced live i r.head
    revert verdict passed
    simp only [Engine.rulesLoop]
    rcases Obsidian.round phase i r.head a with ⟨verdict, a'⟩
    rcases Obsidian.round phase i r.head b with ⟨_, b'⟩
    rintro rfl live
    cases verdict with
    | stop => exact .inr live
    | pass => exact ih live (i + 1)
    | run =>
      rcases evaluateReached rt waf live r with apart | live
      · exact .inl (lock.apart_stays apart
          (Engine.rulesLoop_steps (lock.left_quiet rt waf) phase (i + 1) rest _)
          (Engine.rulesLoop_steps (lock.right_quiet rt waf) phase (i + 1) rest _))
      · exact ih live (i + 1)

end

end Lockstep

end Obsidian
