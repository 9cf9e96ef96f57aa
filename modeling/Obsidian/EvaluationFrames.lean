import Obsidian.Data.Steps
import Obsidian.Evaluate

namespace Obsidian

open Obsidian.Data Relation

/-! # Frames of the evaluation

A relation that holds between the transactions around each change of a rule's
evaluation holds around the evaluation of whole rules and phases.
-/

/-- The changes that the evaluation of some rules is made of are steps of `R`. -/
structure Engine.Moves (e : Engine) (among : Rule → Prop) (R : Transaction → Transaction → Prop) :
    Prop where
  note : ∀ (event : Event) (tx : Transaction), ReflTransGen R tx (tx.note event)
  action : ∀ r, among r → ∀ a ∈ r.actions, ∀ tx : Transaction,
    (a.function.type = .disruptive → tx.ruleEngine = .on) →
      ReflTransGen R tx (a.function.evaluate e.rt e.waf r tx)
  operator : ∀ r, among r → ∀ op, r.operator = some op → ∀ data tx,
    ReflTransGen R tx (Rule.executeOperator e.rt op data tx).2
  matchVariable : ∀ (m : MatchData) (tx : Transaction),
    ReflTransGen R tx (tx.matchVariable e.rt m)
  matchRule : ∀ (r : Rule) (mds : List MatchData) (tx : Transaction),
    ReflTransGen R tx (tx.matchRule e.rt r mds)
  transform : ∀ (r : Rule) (arg : MatchData) (argIdx : Nat) (tx : Transaction),
    ReflTransGen R tx (e.transform r arg argIdx tx).2
  visit : ∀ tx : Transaction, ReflTransGen R tx { tx with ticks := tx.ticks + 1 }
  announce : ∀ r, among r → ∀ (level : Nat) (tx : Transaction),
    ReflTransGen R tx (e.announce r level tx)
  clear : ∀ tx : Transaction, ReflTransGen R tx { tx with vars := tx.vars.setMap .matchedVars ∅ }
  release : ∀ tx : Transaction, ReflTransGen R tx { tx with capture := false }

namespace Engine.Moves

variable {e : Engine} {among : Rule → Prop} {R : Transaction → Transaction → Prop}
  (moves : e.Moves among R)

include moves

section

variable {r : Rule} (listed : among r) (level : Nat)

include listed

theorem runAction (tx : Transaction) {a : RuleAction} (own : a ∈ r.actions) :
    ReflTransGen R tx (e.runAction r level tx a) := by
  refine Steps.guarded fun kind => (moves.note _ tx).trans (moves.action r listed a own _ ?_)
  intro disruptive
  rw [disruptive] at kind
  cases kind

theorem matched (tx : Transaction) (m : MatchData) :
    ReflTransGen R tx (e.matchVariable r level tx m) := by
  have recorded := (moves.note (.matchingRule level) tx).trans (moves.matchVariable m _)
  exact recorded.trans (Steps.foldl id (fun tx _ own => moves.runAction listed level tx own) _)

section

variable {op : RuleOperatorParams}
  (operates : ∀ data tx, ReflTransGen R tx (Rule.executeOperator e.rt op data tx).2)

include operates

theorem evaluateValue (arg : MatchData) (state : Transaction × List MatchData) (carg : Bytes) :
    ReflTransGen R state.1 (e.evaluateValue r op level arg state carg).1 := by
  have operated := operates carg state.1
  unfold Engine.evaluateValue
  dsimp only
  split
  · exact (operated.trans (moves.matched listed level _ _)).trans (moves.note _ _)
  · exact operated.trans (moves.note _ _)

theorem evaluateArgument (state : Transaction × List MatchData) (arg : MatchData × Nat) :
    ReflTransGen R state.1 (e.evaluateArgument r op level state arg).1 := by
  simp only [Engine.evaluateArgument]
  split
  · exact Steps.foldl Prod.fst
      (fun acc carg _ => moves.evaluateValue listed level operates _ acc carg) state
  · exact (moves.transform r arg.1 arg.2 state.1).trans (moves.evaluateValue listed level operates
      arg.1 ((e.transform r arg.1 arg.2 state.1).2, state.2) _)

theorem evaluateVariable (ecol : List RuleVariableParams) (state : Transaction × List MatchData)
    (v : RuleVariableParams) :
    ReflTransGen R state.1 (e.evaluateVariable r op level ecol state v).1 := by
  have visited := (moves.visit state.1).trans (moves.note (.expandingArguments level v.var) _)
  exact visited.trans (Steps.foldl Prod.fst
    (fun acc arg _ => moves.evaluateArgument listed level operates acc arg) (_, state.2))

end

theorem announced (tx : Transaction) :
    ReflTransGen R (e.announce r level tx) (e.evaluateOwn r level tx).1 := by
  unfold Engine.evaluateOwn
  dsimp only
  split
  · exact moves.matched listed level _ _
  · next operator =>
      exact Steps.foldl Prod.fst (fun acc v _ => moves.evaluateVariable listed level
        (moves.operator r listed _ operator) _ acc v) (_, [])

theorem evaluateOwn (tx : Transaction) : ReflTransGen R tx (e.evaluateOwn r level tx).1 :=
  (moves.announce r listed level tx).trans (moves.announced listed level tx)

theorem concludeAction (tx : Transaction) {a : RuleAction} (own : a ∈ r.actions) :
    ReflTransGen R tx (e.concludeAction r level tx a) := by
  have acted (event : Event) (on : a.function.type = .disruptive → tx.ruleEngine = .on) :
      ReflTransGen R tx (a.function.evaluate e.rt e.waf r (tx.note event)) :=
    (moves.note event tx).trans (moves.action r listed a own _ on)
  simp only [Engine.concludeAction]
  split
  · next kind => exact acted _ fun disruptive => by rw [disruptive] at kind; cases kind
  · exact Steps.guarded fun kind => acted _ fun _ => kind.2

theorem conclude (tx : Transaction) (matched : List MatchData) :
    ReflTransGen R tx (e.conclude r level tx matched).1 := by
  have acted : ReflTransGen R tx (r.actions.foldl (e.concludeAction r level) tx) :=
    Steps.foldl id (fun tx _ own => moves.concludeAction listed level tx own) tx
  exact acted.trans (Steps.guarded fun _ => (moves.note _ _).trans (moves.matchRule ..))

end

end Engine.Moves

/-- Evaluating some rules by themselves and concluding them are sequences of steps. -/
structure Engine.Walks (e : Engine) (among : Rule → Prop) (R : Transaction → Transaction → Prop) :
    Prop where
  own : ∀ r, among r → ∀ (level : Nat) (tx : Transaction),
    ReflTransGen R tx (e.evaluateOwn r level tx).1
  conclude : ∀ r, among r → ∀ (level : Nat) (tx : Transaction) (matched : List MatchData),
    ReflTransGen R tx (e.conclude r level tx matched).1

theorem Engine.Moves.walks {e : Engine} {among : Rule → Prop}
    {R : Transaction → Transaction → Prop} (moves : e.Moves among R) : e.Walks among R :=
  ⟨fun _ listed => moves.evaluateOwn listed, fun _ listed => moves.conclude listed⟩

namespace Engine.Walks

variable {e : Engine} {among : Rule → Prop} {R : Transaction → Transaction → Prop}
  (walks : e.Walks among R)

include walks

theorem doEvaluateWith_own {r : Rule} (listed : among r) (level : Nat)
    {chain : Nat → Transaction → Transaction × Option (List MatchData)}
    (chained : ∀ level tx, ReflTransGen R tx (chain level tx).1) (tx : Transaction) :
    ReflTransGen R (e.evaluateOwn r level tx).1 (e.doEvaluateWith chain r level tx).1 := by
  have walked := chained level (e.evaluateOwn r level tx).1
  unfold Engine.doEvaluateWith
  dsimp only
  split
  · exact .refl
  · split
    · revert walked
      rcases chain level (e.evaluateOwn r level tx).1 with ⟨after, _ | found⟩ <;> intro walked
      · exact walked
      · exact walked.trans (walks.conclude r listed level after _)
    · exact .refl

theorem chainLoop {chain : List Rule} (listed : ∀ r ∈ chain, among r) (level : Nat)
    (tx : Transaction) (matched : List MatchData) :
    ReflTransGen R tx (e.chainLoop chain level tx matched).1 := by
  induction chain generalizing level tx matched with
  | nil => exact .refl
  | cons nr rest ih =>
    have rest := ih fun r found => listed r (List.mem_cons_of_mem nr found)
    have own := listed nr List.mem_cons_self
    have member : ReflTransGen R tx (e.doEvaluate nr _ (level + 1) tx).1 :=
      (walks.own nr own (level + 1) tx).trans
        (walks.doEvaluateWith_own own (level + 1) (fun level tx => rest level tx []) tx)
    rw [chainLoop_cons]
    split
    · exact member
    · exact member.trans (rest _ _ _)

theorem evaluate {r : RuleChain} (listed : ∀ rule ∈ r.head :: r.members, among rule)
    (tx : Transaction) : ReflTransGen R tx (e.evaluate r tx) := by
  have own := listed r.head List.mem_cons_self
  exact (walks.own r.head own 0 tx).trans (walks.doEvaluateWith_own own 0 (fun level tx =>
    walks.chainLoop (fun rule found => listed rule (List.mem_cons_of_mem _ found)) level tx []) tx)

end Engine.Walks

namespace Engine.Moves

variable {e : Engine} {among : Rule → Prop} {R : Transaction → Transaction → Prop}
  (moves : e.Moves among R)

include moves

theorem evaluateReached {r : RuleChain} (listed : ∀ rule ∈ r.head :: r.members, among rule)
    (tx : Transaction) : ReflTransGen R tx (e.evaluateReached r tx) :=
  ((moves.clear tx).trans (moves.walks.evaluate listed _)).trans (moves.release _)

theorem rulesLoop (phase : RulePhase)
    (record : ∀ (i : Nat) (verdict : Verdict) (tx : Transaction),
      ReflTransGen R tx (tx.recordRound phase i verdict))
    (flow : ∀ (flow : Flow) (tx : Transaction), ReflTransGen R tx (tx.withFlow flow)) (i : Nat)
    (rules : List RuleChain) (listed : ∀ r ∈ rules, ∀ rule ∈ r.head :: r.members, among rule)
    (tx : Transaction) : ReflTransGen R tx (e.rulesLoop phase i rules tx) := by
  induction rules generalizing i tx with
  | nil => exact record i .stop tx
  | cons r rest ih =>
    have rest := ih (i + 1) fun r found => listed r (List.mem_cons_of_mem _ found)
    have passed : ReflTransGen R tx (Obsidian.round phase i r.head tx).2 :=
      (record i _ tx).trans (flow _ _)
    revert passed
    simp only [Engine.rulesLoop]
    rcases Obsidian.round phase i r.head tx with ⟨_ | _ | _, next⟩ <;> intro passed
    · exact passed
    · exact passed.trans (rest next)
    · exact passed.trans
        ((moves.evaluateReached (listed r List.mem_cons_self) next).trans (rest _))

end Engine.Moves

end Obsidian
