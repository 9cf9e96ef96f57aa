import Obsidian.Api
import Obsidian.Data.Memo
import Obsidian.Lockstep

namespace Obsidian

open Obsidian.Data Relation

/-! # The transformation cache

When evaluating a phase with the shared cache gives what evaluating it without
one gives.  The cache is keyed by where an argument was found and by the id of
the rule's transformations, not by the argument's value.
-/

def lookupLog (tx : Transaction) : List (Option TransformationKey × TransformationValue) :=
  tx.history.lookups.map fun lookup => (lookup.key, lookup.outcome)

/-- Every operator was given what the rule's transformations make of the value. -/
def Handed (tx : Transaction) : Prop :=
  ∀ lookup ∈ tx.history.lookups, lookup.handed = lookup.outcome

instance (tx : Transaction) : Decidable (Handed tx) := List.decidableBAll ..

section

variable {tx : Transaction} {lookup : Lookup}

theorem lookupLog_recordLookup :
    lookupLog (tx.recordLookup lookup) = lookupLog tx ++ [(lookup.key, lookup.outcome)] := by
  simp [lookupLog, Transaction.recordLookup]

theorem handed_recordLookup :
    Handed (tx.recordLookup lookup) ↔ Handed tx ∧ lookup.handed = lookup.outcome := by
  simp [Handed, Transaction.recordLookup, or_imp, forall_and]

end

theorem LoopSteps.lookups {phase : RulePhase} {a b : Transaction} (steps : LoopSteps phase a b) :
    a.history.lookups <+: b.history.lookups := by
  refine Steps.extends (·.history.lookups) (fun step => ?_) steps
  cases step with
  | rule step =>
    cases step
    case lookup => exact List.prefix_append ..
    all_goals exact List.prefix_refl _
  | record | flow => exact List.prefix_refl _

/-! ## Beside an evaluation without a cache -/

theorem transformArg_tied (r : Rule) (arg : MatchData) (argIdx : Nat) {tx : Transaction}
    (type : AllowType)
    (right : (((r.cacheKey arg argIdx).bind (Memo.table (lookupLog tx)).lookup).getD
      (r.executeTransformations arg.value)) = r.executeTransformations arg.value) :
    transformArg r arg argIdx
        (tx.masked ⟨Memo.table (lookupLog tx), type, tx.history.lookups⟩) =
      ((transformUncached r arg argIdx tx).1, (transformUncached r arg argIdx tx).2.masked
        ⟨Memo.table (lookupLog (transformUncached r arg argIdx tx).2), type,
          (transformUncached r arg argIdx tx).2.history.lookups⟩) := by
  unfold transformArg transformUncached
  dsimp only
  rw [lookupLog_recordLookup, Memo.table_snoc]
  simp only [Transaction.masked, right]
  generalize r.cacheKey arg argIdx = key
  cases key with
  | none => rfl
  | some key =>
    simp only [Memo.record, Option.bind_some]
    cases (Memo.table (lookupLog tx)).lookup key <;> rfl

/-- Evaluation with the cache beside evaluation without it.  They come apart where
the cache hands out something else than what would be computed. -/
def cacheLock : Lockstep transformArg transformUncached where
  tied cache tx :=
    cache = Memo.table (lookupLog tx) ∧ Memo.Coherent (lookupLog tx) ∧ Handed tx
  synced := True
  apart a b := ¬ Handed a ∧ ¬ Memo.Coherent (lookupLog b)
  tied_of_mask {cache a b} tied same := by
    have lookups : b.history.lookups = a.history.lookups := congr_arg Mask.lookups same
    simp only [lookupLog, Handed]
    rw [lookups]
    exact tied
  tied_allow type tied := tied
  apart_stays apart left right := by
    refine ⟨fun handed => apart.1 fun lookup found => ?_, fun coherent => apart.2 ?_⟩
    · exact handed lookup (left.lookups.subset found)
    · exact coherent.of_prefix (right.lookups.map _)
  left_quiet := transformArg_quiet
  right_quiet := transformUncached_quiet
  transform r arg argIdx {cache tx} type tied := by
    obtain ⟨rfl, coherent, handed⟩ := tied
    by_cases right : (((r.cacheKey arg argIdx).bind (Memo.table (lookupLog tx)).lookup).getD
        (r.executeTransformations arg.value)) = r.executeTransformations arg.value
    · refine .inr ⟨_, ⟨rfl, ?_, ?_⟩, rfl, transformArg_tied r arg argIdx type right⟩
      · simp only [transformUncached]
        rw [lookupLog_recordLookup]
        exact Memo.coherent_snoc.mpr ⟨coherent, right⟩
      · exact handed_recordLookup.mpr ⟨handed, rfl⟩
    · refine .inl ⟨fun handed => right (handed_recordLookup.mp handed).2, fun coherent => right ?_⟩
      simp only [transformUncached] at coherent
      rw [lookupLog_recordLookup] at coherent
      exact (Memo.coherent_snoc.mp coherent).2

/-- The shared cache gives the operators what the rules' own transformations give,
and the phase ends as it does without a cache, exactly if no two arguments of the
phase share a cache key and are transformed differently. -/
theorem cached_eval_iff (rt : Runtime) (waf : WAF) (phase : RulePhase) (tx : Transaction) :
    Handed ((Engine.mk rt waf transformArg).eval phase tx) ∧
        SameButCache ((Engine.mk rt waf transformArg).eval phase tx)
          ((Engine.mk rt waf transformUncached).eval phase tx) ↔
      Memo.Coherent (lookupLog ((Engine.mk rt waf transformUncached).eval phase tx)) := by
  have empty : cacheLock.tied ∅ (Engine.beginPhase phase tx) := by
    refine ⟨rfl, ?_, ?_⟩
    · intro _ _ _ found
      cases found
    · intro _ found
      cases found
  have begun : cacheLock.Live (Engine.beginPhase phase tx) (Engine.beginPhase phase tx) :=
    ⟨∅, tx.allowType, empty, fun _ => rfl, rfl⟩
  rcases Lockstep.rulesLoop rt waf trivial phase begun 0 waf.rules with ⟨handed, coherent⟩ | live
  · exact ⟨fun both => absurd both.1 handed, fun holds => absurd holds coherent⟩
  · obtain ⟨cache, type, ⟨rfl, coherent, handed⟩, same, inStep⟩ := live
    obtain rfl := same trivial
    refine iff_of_true ?_ coherent
    simp only [Engine.eval]
    rw [inStep]
    exact ⟨handed, rfl⟩

/-- Two rules on the method: one with `t:length,t:uppercase`, and one that denies
`GET` with `t:length,t:none,t:uppercase`.  `t:none` leaves the id of the list, so
both lists get the same one. -/
def collidingWAF : WAF :=
  let upperCase := Transformations.upperCase Host.plain.toRuntime
  let equals (text : String) : RuleOperatorParams :=
    { operator := ⟨fun _ data => (data = str text, [])⟩ }
  let on (id : Int) (op : RuleOperatorParams) : Rule :=
    { id, phase := .requestHeaders, vars := [{ var := .requestMethod }], operator := some op }
  let (registry, counting) :=
    (on 1 (equals "4")).addTransformation .initial (str "length") Transformations.length
  let (registry, counting) := counting.addTransformation registry (str "uppercase") upperCase
  let denying := { on 2 (equals "GET") with actions := [⟨str "deny", .deny⟩] }
  let (registry, denying) :=
    denying.addTransformation registry (str "length") Transformations.length
  let (_, denying) :=
    denying.clearTransformations.addTransformation registry (str "uppercase") upperCase
  { newWAF [] with rules := [{ head := counting }, { head := denying }] }

/-- A `get` request is denied without the cache, but not with it: the second rule is
given the length that the first one computed. -/
theorem cached_eval_collides :
    let tx := (collidingWAF.newTransaction .plain ⟨str "a", 0⟩ 1 none)
    let tx := processURI .plain collidingWAF tx (str "/") (str "get") (str "HTTP/1.1")
    ¬ Handed ((Engine.mk Host.plain.toRuntime collidingWAF transformArg).eval .requestHeaders tx) ∧
      ((Engine.mk Host.plain.toRuntime collidingWAF transformArg).eval
        .requestHeaders tx).interruption = none ∧
      ((Engine.mk Host.plain.toRuntime collidingWAF transformUncached).eval
        .requestHeaders tx).interruption =
        some { status := 403, ruleID := 2, action := str "deny" } := by
  decide

end Obsidian
