import Obsidian.Api
import Obsidian.Data.Decimal
import Obsidian.RuleSteps

namespace Obsidian

open Obsidian.Data Relation

/-! # Captures

What `@rx` and `@pm` leave in `TX:0` to `TX:9` when the rule captures, and what its actions and
the rest of its chain find there.
-/

/-! ## The operators -/

/-- A compiled regular expression: the whole match and its groups, nothing if there is no
match. -/
structure SubmatchRegexp where
  findStringSubmatch : Bytes → List Bytes

/-- A built dictionary: where its successive matches start and end. -/
structure AhoCorasick where
  iter : Bytes → List (Nat × Nat)

namespace Operators

/-- The loop of `rx.Evaluate` over the groups. -/
def rxLoop : (i : Nat) → List Bytes → List OperatorEffect
  | _, [] => []
  | i, c :: rest => if i = 9 then [] else .captureField i c :: rxLoop (i + 1) rest

def rx (re : SubmatchRegexp) : Operator where
  evaluate tx value :=
    if tx.capturing then
      let groups := re.findStringSubmatch value
      if groups.length = 0 then (false, []) else (true, rxLoop 0 groups)
    else (re.findStringSubmatch value ≠ [], [])

def slice (value : Bytes) (m : Nat × Nat) : Bytes := (value.take m.2).drop m.1

/-- The loop of `pmEvaluate`, and whether it found anything. -/
def pmLoop (value : Bytes) : (numMatches : Nat) → List (Nat × Nat) → List OperatorEffect × Bool
  | numMatches, [] => ([], numMatches > 0)
  | numMatches, m :: rest =>
    let effect := OperatorEffect.captureField numMatches (slice value m)
    if numMatches + 1 = 10 then ([effect], true)
    else
      let (effects, found) := pmLoop value (numMatches + 1) rest
      (effect :: effects, found)

def pm (matcher : AhoCorasick) : Operator where
  evaluate tx value :=
    if tx.capturing then
      let (effects, found) := pmLoop value 0 (matcher.iter value)
      (found, effects)
    else (matcher.iter value ≠ [], [])

/-! ## The fields they capture -/

def captureFrom : (i : Nat) → List Bytes → List OperatorEffect
  | _, [] => []
  | i, c :: rest => .captureField i c :: captureFrom (i + 1) rest

theorem rxLoop_eq {i : Nat} (start : i ≤ 9) (groups : List Bytes) :
    rxLoop i groups = captureFrom i (groups.take (9 - i)) := by
  induction groups generalizing i with
  | nil => rw [List.take_nil, rxLoop, captureFrom]
  | cons c rest ih =>
    rw [rxLoop]
    by_cases last : i = 9
    · rw [if_pos last, last, Nat.sub_self, List.take_zero, captureFrom]
    · have next : 9 - i = (9 - (i + 1)) + 1 := by omega
      rw [if_neg last, ih (by omega), next, List.take_succ_cons, captureFrom]

theorem pmLoop_eq (value : Bytes) {i : Nat} (start : i < 10) (found : List (Nat × Nat)) :
    pmLoop value i found =
      (captureFrom i ((found.map (slice value)).take (10 - i)), decide (0 < i ∨ found ≠ [])) := by
  induction found generalizing i with
  | nil => simp [pmLoop, captureFrom]
  | cons m rest ih =>
    rw [pmLoop]
    by_cases last : i + 1 = 10
    · obtain rfl : i = 9 := by omega
      simp [captureFrom]
    · have next : 10 - i = (10 - (i + 1)) + 1 := by omega
      rw [if_neg last, ih (by omega), next]
      simp [captureFrom]

end Operators

def Transaction.captured (rt : Runtime) (tx : Transaction) (i : Nat) : List Bytes :=
  tx.vars.mapGet rt .tx (itoa i)

theorem normalKey_itoa (rt : Runtime) {i : Nat} (small : i < 11) :
    TransactionVariables.normalKey rt .tx (itoa i) = itoa i := by
  have digit : isASCII (itoa i) = true ∧ (itoa i).map lowerByte = itoa i := by
    revert small
    revert i
    decide
  rw [TransactionVariables.normalKey, if_neg (by simp), Runtime.toLower, toLower, if_pos digit.1, digit.2]

theorem itoa_nat_inj {i j : Nat} : itoa j = itoa i ↔ j = i :=
  ⟨fun same => Int.ofNat_inj.mp (itoa_inj same), fun same => by rw [same]⟩

theorem MapData.values_insert (data : MapData) (normal other : Bytes) (pairs : List KeyValue) :
    MapData.values (data.insert normal pairs) other =
      if other = normal then pairs else data.values other := by
  by_cases same : other = normal
  · subst same
    simp [MapData.values, AList.lookup_insert]
  · simp [MapData.values, same, AList.lookup_insert_ne same]

theorem MapData.get_setIndex_zero (data : MapData) (normal other : Bytes) (key : GoString)
    (value : Bytes) : (data.setIndex normal key 0 value).get other =
      if other = normal then value :: (data.get other).tail else data.get other := by
  have values : (data.setIndex normal key 0 value).values other =
      if other = normal then ⟨key, value⟩ :: (data.values normal).tail else data.values other := by
    rw [MapData.setIndex]
    cases data.values normal with
    | nil => exact data.values_insert normal other _
    | cons first rest => exact data.values_insert normal other _
  rw [MapData.get, values]
  by_cases same : other = normal
  · rw [if_pos same, if_pos same, MapData.get, same, List.map_cons, List.map_tail]
  · rw [if_neg same, if_neg same, MapData.get]

namespace Transaction

variable {rt : Runtime} {tx : Transaction}

theorem captured_captureField (capturing : tx.capture = true) {i j : Nat} (first : i < 10)
    (second : j < 10) (value : Bytes) :
    (tx.captureField rt i value).captured rt j =
      if j = i then value :: (tx.captured rt j).tail else tx.captured rt j := by
  simp only [captureField, capturing, if_true, captured, TransactionVariables.mapGet,
    TransactionVariables.mapSetIndex, normalKey_itoa rt (Nat.lt_succ_of_lt first),
    normalKey_itoa rt (Nat.lt_succ_of_lt second), TransactionVariables.setMap,
    Function.update_self, MapData.get_setIndex_zero, itoa_nat_inj]

theorem captureField_capture (i : Nat) (value : Bytes) :
    (tx.captureField rt i value).capture = tx.capture := by
  rw [captureField]
  split <;> rfl

/-- Captures replace the fields they are for and leave the others as they are. -/
theorem captured_captureFrom (capturing : tx.capture = true) {i : Nat} {values : List Bytes}
    (fits : i + values.length ≤ 10) {j : Nat} (field : j < 10) :
    ((Operators.captureFrom i values).foldl (fun tx effect => tx.applyEffect rt effect) tx).captured
        rt j =
      if i ≤ j ∧ j < i + values.length then values[j - i]?.getD [] :: (tx.captured rt j).tail
      else tx.captured rt j := by
  induction values generalizing tx i with
  | nil =>
    rw [if_neg (by simp)]
    rfl
  | cons value rest ih =>
    rw [List.length_cons] at fits
    rw [Operators.captureFrom, List.foldl_cons, Transaction.applyEffect,
      ih ((captureField_capture i value).trans capturing) (by omega),
      captured_captureField capturing (by omega) field, List.length_cons]
    by_cases same : j = i
    · rw [if_neg (by omega), if_pos same, if_pos (by omega), same, Nat.sub_self]
      rfl
    · by_cases later : i + 1 ≤ j ∧ j < i + 1 + rest.length
      · have next : j - i = (j - (i + 1)) + 1 := by omega
        rw [if_pos later, if_neg same, if_pos (by omega), next, List.getElem?_cons_succ]
      · rw [if_neg later, if_neg same, if_neg (by omega)]

/-- `TX:0` to `TX:9` are these values, empty where there is none. -/
def HoldsCaptures (rt : Runtime) (tx : Transaction) (values : List Bytes) : Prop :=
  ∀ i < 10, tx.captured rt i = [values[i]?.getD []]

/-- Of these values the first `limit` are captured: their fields must hold one text at most, and
the others already what they should. -/
def ReadyFor (rt : Runtime) (tx : Transaction) (values : List Bytes) (limit : Nat) : Prop :=
  ∀ i < 10, if i < limit ∧ i < values.length then (tx.captured rt i).tail = []
    else tx.captured rt i = [values[i]?.getD []]

theorem holdsCaptures_iff {values : List Bytes} {limit : Nat} (capturing : tx.capture = true)
    (few : limit ≤ 10) :
    ((Operators.captureFrom 0 (values.take limit)).foldl (fun tx effect => tx.applyEffect rt effect)
      tx).HoldsCaptures rt values ↔ tx.ReadyFor rt values limit := by
  refine forall_congr' fun i => forall_congr' fun field => ?_
  have length : (values.take limit).length = min limit values.length := List.length_take
  rw [captured_captureFrom capturing (by omega) field]
  by_cases given : i < limit ∧ i < values.length
  · rw [if_pos (by omega), if_pos given, Nat.sub_zero, List.getElem?_take_of_lt given.1]
    simp
  · rw [if_neg (by omega), if_neg given]

/-- Nothing is left of earlier captures but one text in each of the first `k` fields. -/
def FieldsClean (rt : Runtime) (k : Nat) (tx : Transaction) : Prop :=
  ∀ i < 10, (tx.captured rt i).tail = [] ∧ (k ≤ i → tx.captured rt i = [[]])

theorem FieldsClean.readyFor {k limit : Nat} {values : List Bytes} (clean : tx.FieldsClean rt k)
    (size : values.length = k) (few : k ≤ limit) : tx.ReadyFor rt values limit := by
  intro i field
  split
  · exact (clean i field).1
  · rw [(clean i field).2 (by omega), List.getElem?_eq_none (by omega), Option.getD_none]

theorem HoldsCaptures.clean {values : List Bytes} (holds : tx.HoldsCaptures rt values) :
    tx.FieldsClean rt values.length := by
  intro i field
  rw [holds i field]
  exact ⟨rfl, fun beyond => by rw [List.getElem?_eq_none beyond, Option.getD_none]⟩

def SameFields (rt : Runtime) (tx next : Transaction) : Prop :=
  ∀ i < 10, next.captured rt i = tx.captured rt i

theorem SameFields.of_map {next : Transaction} (same : next.vars.map .tx = tx.vars.map .tx) :
    tx.SameFields rt next := by
  intro i _
  simp only [captured, TransactionVariables.mapGet, same]

theorem SameFields.holds {next : Transaction} (same : tx.SameFields rt next) {values : List Bytes}
    (holds : tx.HoldsCaptures rt values) : next.HoldsCaptures rt values :=
  fun i field => (same i field).trans (holds i field)

theorem SameFields.clean {next : Transaction} (same : tx.SameFields rt next) {k : Nat}
    (clean : tx.FieldsClean rt k) : next.FieldsClean rt k := by
  intro i field
  rw [same i field]
  exact clean i field

end Transaction

/-- The operator matches a value, with these groups, or these words of a dictionary, and captures
the first `limit`: `@rx` stops in front of the ninth group. -/
inductive MatchedGroups (value : Bytes) : Operator → List Bytes → (limit : Nat) → Prop
  | rx (re : SubmatchRegexp) (matched : re.findStringSubmatch value ≠ []) :
      MatchedGroups value (Operators.rx re) (re.findStringSubmatch value) 9
  | pm (matcher : AhoCorasick) (matched : matcher.iter value ≠ []) :
      MatchedGroups value (Operators.pm matcher) ((matcher.iter value).map (Operators.slice value)) 10

theorem MatchedGroups.limit_le {value : Bytes} {operator : Operator} {groups : List Bytes}
    {limit : Nat} (matched : MatchedGroups value operator groups limit) : limit ≤ 10 := by
  cases matched <;> decide

theorem MatchedGroups.evaluate {value : Bytes} {operator : Operator} {groups : List Bytes}
    {limit : Nat} (matched : MatchedGroups value operator groups limit) (state : TransactionState)
    (capturing : state.capturing = true) :
    operator.evaluate state value = (true, Operators.captureFrom 0 (groups.take limit)) := by
  cases matched with
  | rx re found =>
    have nonempty : (re.findStringSubmatch value).length ≠ 0 := mt List.length_eq_zero_iff.mp found
    simp only [Operators.rx, capturing, if_true, nonempty, if_false,
      Operators.rxLoop_eq (Nat.zero_le 9), Nat.sub_zero]
  | pm matcher found =>
    simp [Operators.pm, capturing, Operators.pmLoop_eq, found]

/-- `@rx` or `@pm` whose matches have `k` groups or words, and no ninth group. -/
inductive CapturesEach (k : Nat) : Operator → Prop
  | rx (re : SubmatchRegexp) (few : k ≤ 9)
      (size : ∀ value, re.findStringSubmatch value = [] ∨ (re.findStringSubmatch value).length = k) :
      CapturesEach k (Operators.rx re)
  | pm (matcher : AhoCorasick) (few : k ≤ 10)
      (size : ∀ value, matcher.iter value = [] ∨ (matcher.iter value).length = k) :
      CapturesEach k (Operators.pm matcher)

theorem CapturesEach.cases {k : Nat} {operator : Operator} (each : CapturesEach k operator)
    (state : TransactionState) (capturing : state.capturing = true) (value : Bytes) :
    operator.evaluate state value = (false, []) ∨
      ∃ groups limit, MatchedGroups value operator groups limit ∧ groups.length = k ∧ k ≤ limit := by
  cases each with
  | rx re few size =>
    by_cases none : re.findStringSubmatch value = []
    · exact .inl (by simp [Operators.rx, capturing, none])
    · exact .inr ⟨_, _, .rx re none, (size value).resolve_left none, few⟩
  | pm matcher few size =>
    by_cases none : matcher.iter value = []
    · exact .inl (by simp [Operators.pm, capturing, Operators.pmLoop, none])
    · exact .inr ⟨_, _, .pm matcher none,
        (List.length_map _).trans ((size value).resolve_left none), few⟩

theorem executeOperator_matched {value : Bytes} {op : RuleOperatorParams} {groups : List Bytes}
    {limit : Nat} (matched : MatchedGroups value op.operator groups limit) (rt : Runtime)
    {tx : Transaction} (capturing : tx.capture = true) :
    Rule.executeOperator rt op value tx = (!op.negation,
      (Operators.captureFrom 0 (groups.take limit)).foldl (fun tx effect => tx.applyEffect rt effect)
        tx) := by
  rw [Rule.executeOperator, matched.evaluate tx.state capturing]
  simp

/-! ## Whole evaluations -/

/-- The rule captures `k` fields with each match or does not capture, and its actions do not write
to `TX:0` to `TX:9`. -/
structure Rule.Steady (e : Engine) (k : Nat) (r : Rule) : Prop where
  operator : ∀ op, r.operator = some op →
    if r.capture then CapturesEach k op.operator
    else ∀ state value, ∀ effect ∈ (op.operator.evaluate state value).2, ∃ i c,
      effect = .captureField i c
  action : ∀ a ∈ r.actions, ∀ tx : Transaction,
    tx.SameFields e.rt (a.function.evaluate e.rt e.waf r tx)

/-- `TX:0` to `TX:9` are as they were, and so is whether the rule captures. -/
def Kept (rt : Runtime) (tx next : Transaction) : Prop :=
  next.capture = tx.capture ∧ tx.SameFields rt next

theorem Kept.of_map {rt : Runtime} {tx next : Transaction} (capture : next.capture = tx.capture)
    (same : next.vars.map .tx = tx.vars.map .tx) : Kept rt tx next := ⟨capture, .of_map same⟩

theorem Kept.trans {rt : Runtime} {tx mid next : Transaction} (first : Kept rt tx mid)
    (second : Kept rt mid next) : Kept rt tx next :=
  ⟨second.1.trans first.1, fun i field => (second.2 i field).trans (first.2 i field)⟩

namespace Engine

variable {e : Engine} {k : Nat} {r : Rule}

section

variable (steady : r.Steady e k) (level : Nat)
include steady

theorem acted_kept {a : RuleAction} (own : a ∈ r.actions) (event : Event) (tx : Transaction)
    (on : a.function.type = .disruptive → tx.ruleEngine = .on) :
    Kept e.rt tx (a.function.evaluate e.rt e.waf r (tx.note event)) :=
  have noted : Kept e.rt tx (tx.note event) := .of_map rfl rfl
  noted.trans
    ⟨(SilentSteps.action e.rt e.waf r a.function (tx.note event) on).capture, steady.action a own _⟩

theorem matchVariable_kept (tx : Transaction) (m : MatchData) :
    Kept e.rt tx (e.matchVariable r level tx m) := by
  refine List.foldlRecOn (motive := Kept e.rt tx) r.actions _ (.of_map rfl rfl) ?_
  intro mid kept a own
  unfold runAction
  split
  · next kind =>
      exact kept.trans (acted_kept steady own _ mid fun disruptive => by
        rw [disruptive] at kind; cases kind)
  · exact kept

theorem conclude_kept (tx : Transaction) (matched : List MatchData) :
    Kept e.rt tx (e.conclude r level tx matched).1 := by
  have acted : Kept e.rt tx (r.actions.foldl (e.concludeAction r level) tx) := by
    refine List.foldlRecOn (motive := Kept e.rt tx) r.actions _ (.of_map rfl rfl) ?_
    intro mid kept a own
    unfold concludeAction
    split
    · next kind =>
        exact kept.trans (acted_kept steady own _ mid fun disruptive => by
          rw [disruptive] at kind; cases kind)
    · split
      · next kind => exact kept.trans (acted_kept steady own _ mid fun _ => kind.2)
      · exact kept
  simp only [conclude]
  split
  · refine acted.trans (.of_map rfl ?_)
    simp only [Transaction.matchRule]
    split <;> rfl
  · exact acted

end

theorem announce_sameFields (r : Rule) (level : Nat) (tx : Transaction) :
    tx.SameFields e.rt (e.announce r level tx) := by
  refine .of_map ?_
  cases msg : r.msg <;> cases logData : r.logData <;> simp only [announce, Rule.describe, msg, logData]
    <;> rfl

theorem evaluateOwn_keeps {P : Transaction × List MatchData → Prop} (quiet : e.Quiet)
    {op : RuleOperatorParams} (given : r.operator = some op) (level : Nat) (tx : Transaction)
    (begun : P (e.announce r level tx, []))
    (same : ∀ {a b : Transaction} {found}, Kept e.rt a b → P (a, found) → P (b, found))
    (value : ∀ arg state carg, P state → P (e.evaluateValue r op level arg state carg)) :
    P (e.evaluateOwn r level tx) := by
  simp only [evaluateOwn, given]
  refine List.foldlRecOn (motive := P) r.vars _ begun fun before holds v _ => ?_
  have visited : P ({ before.1 with ticks := before.1.ticks + 1 }.note
      (.expandingArguments level v.var), before.2) :=
    same (show Kept e.rt before.1 _ from .of_map rfl rfl) holds
  refine List.foldlRecOn (motive := P) _ _ visited fun state holds arg _ => ?_
  simp only [evaluateArgument]
  split
  · exact List.foldlRecOn (motive := P) _ _ holds fun state holds carg _ => value _ state carg holds
  · obtain ⟨cache, lookup, transformed⟩ := quiet r arg.1 arg.2 state.1
    have kept : Kept e.rt state.1 (e.transform r arg.1 arg.2 state.1).2 := by
      rw [transformed]
      exact .of_map rfl rfl
    exact value _ ((e.transform r arg.1 arg.2 state.1).2, state.2) _ (same kept holds)

theorem evaluateOwn_sameFields (quiet : e.Quiet) (steady : r.Steady e k)
    (passive : r.capture = false) (level : Nat) (tx : Transaction) :
    tx.SameFields e.rt (e.evaluateOwn r level tx).1 := by
  have begun := announce_sameFields (e := e) r level tx
  cases given : r.operator with
  | none =>
    simp only [evaluateOwn, given]
    exact fun i field => ((matchVariable_kept steady level _ _).2 i field).trans (begun i field)
  | some op =>
    have captures := steady.operator op given
    rw [if_neg (by simp [passive])] at captures
    suffices kept : (e.evaluateOwn r level tx).1.capture = false ∧
        tx.SameFields e.rt (e.evaluateOwn r level tx).1 from kept.2
    refine evaluateOwn_keeps (P := fun state => state.1.capture = false ∧
      tx.SameFields e.rt state.1) quiet given level tx ⟨passive, begun⟩ ?_ ?_
    · exact fun kept holds => ⟨kept.1.trans holds.1,
        fun i field => (kept.2 i field).trans (holds.2 i field)⟩
    · intro arg state carg holds
      have idle : (Rule.executeOperator e.rt op carg state.1).2 = state.1 := by
        refine List.foldlRecOn (motive := (· = state.1)) _ _ rfl fun mid same effect found => ?_
        obtain ⟨i, c, rfl⟩ := captures state.1.state carg effect found
        rw [same, Transaction.applyEffect, Transaction.captureField, if_neg (by simp [holds.1])]
      have kept : Kept e.rt state.1 (e.evaluateValue r op level arg state carg).1 := by
        simp only [evaluateValue, idle]
        split
        · exact (matchVariable_kept steady level _ _).trans (.of_map rfl rfl)
        · exact .of_map rfl rfl
      exact ⟨kept.1.trans holds.1, fun i field => (kept.2 i field).trans (holds.2 i field)⟩

/-- Before and after each value, the fields describe the last match, if there is one. -/
structure Describes (e : Engine) (k : Nat) (op : RuleOperatorParams)
    (state : Transaction × List MatchData) : Prop where
  capturing : state.1.capture = true
  clean : state.1.FieldsClean e.rt k
  current : op.negation = false → ∀ last, state.2.getLast? = some last → ∃ groups limit,
    MatchedGroups last.value op.operator groups limit ∧ state.1.HoldsCaptures e.rt groups

theorem Describes.value (steady : r.Steady e k) {op : RuleOperatorParams}
    (each : CapturesEach k op.operator) (level : Nat) (arg : MatchData)
    {state : Transaction × List MatchData} (describes : Describes e k op state) (carg : Bytes) :
    Describes e k op (e.evaluateValue r op level arg state carg) := by
  have kept (tx : Transaction) (m : MatchData) (event : Event) :
      Kept e.rt tx ((e.matchVariable r level tx m).note event) :=
    (matchVariable_kept steady level tx m).trans (.of_map rfl rfl)
  have unchanged {next : Transaction} (same : Kept e.rt state.1 next) :
      Describes e k op (next, state.2) :=
    ⟨same.1.trans describes.capturing, same.2.clean describes.clean, fun plain last found => by
      obtain ⟨groups, limit, matched, holds⟩ := describes.current plain last found
      exact ⟨groups, limit, matched, same.2.holds holds⟩⟩
  rcases each.cases state.1.state describes.capturing carg with none | ⟨groups, limit, matched, size, few⟩
  · have executed : Rule.executeOperator e.rt op carg state.1 = (op.negation, state.1) := by
      simp [Rule.executeOperator, none]
    simp only [evaluateValue, executed]
    cases negated : op.negation with
    | false => exact unchanged (.of_map rfl rfl)
    | true =>
      obtain ⟨capturing, clean, _⟩ := unchanged (kept state.1 _ _)
      exact ⟨capturing, clean, fun plain => by rw [negated] at plain; cases plain⟩
  · have executed := executeOperator_matched matched e.rt describes.capturing
    have holds := (Transaction.holdsCaptures_iff describes.capturing matched.limit_le).mpr
      (describes.clean.readyFor size few)
    have capturing := (SilentSteps.executeOperator e.rt op carg state.1).capture.trans
      describes.capturing
    rw [executed] at capturing
    simp only [evaluateValue, executed]
    cases negated : op.negation with
    | false =>
      simp only [Bool.not_false, if_true]
      obtain ⟨capture, same⟩ := kept ((Operators.captureFrom 0 (groups.take limit)).foldl
        (fun tx effect => tx.applyEffect e.rt effect) state.1)
        { var := arg.var, key := arg.key, value := carg, chainLevel := level }
        (.evaluatingOperator level carg true)
      refine ⟨capture.trans capturing, same.clean (size ▸ holds.clean), fun _ last found => ?_⟩
      rw [List.getLast?_concat, Option.some.injEq] at found
      have value : last.value = carg := by
        rw [← found]
        split <;> rfl
      exact ⟨groups, limit, value ▸ matched, same.holds holds⟩
    | true =>
      refine ⟨capturing, ?_, fun plain => by rw [negated] at plain; cases plain⟩
      exact size ▸ holds.clean

theorem evaluateOwn_describes (quiet : e.Quiet) (steady : r.Steady e k) (captures : r.capture = true)
    {op : RuleOperatorParams} (given : r.operator = some op) (level : Nat) {tx : Transaction}
    (clean : tx.FieldsClean e.rt k) : Describes e k op (e.evaluateOwn r level tx) := by
  have each := steady.operator op given
  rw [if_pos captures] at each
  refine evaluateOwn_keeps quiet given level tx ?_ ?_ fun arg _ carg holds =>
    holds.value steady each level arg carg
  · exact ⟨captures, (announce_sameFields r level tx).clean clean, fun _ _ none => by cases none⟩
  · intro a b found kept holds
    refine ⟨kept.1.trans holds.capturing, kept.2.clean holds.clean, fun plain last is => ?_⟩
    obtain ⟨groups, limit, matched, current⟩ := holds.current plain last is
    exact ⟨groups, limit, matched, kept.2.holds current⟩

theorem evaluateOwn_clean (quiet : e.Quiet) (steady : r.Steady e k) (level : Nat) {tx : Transaction}
    (clean : tx.FieldsClean e.rt k) : (e.evaluateOwn r level tx).1.FieldsClean e.rt k := by
  cases captures : r.capture with
  | false => exact (evaluateOwn_sameFields quiet steady captures level tx).clean clean
  | true =>
    cases given : r.operator with
    | none =>
      simp only [evaluateOwn, given]
      exact (matchVariable_kept steady level _ _).2.clean
        ((announce_sameFields r level tx).clean clean)
    | some op => exact (evaluateOwn_describes quiet steady captures given level clean).clean

/-- What happens to a transaction: a chain is evaluated, or something else that does not write to
`TX:0` to `TX:9`. -/
inductive Stage (e : Engine) (rules : List RuleChain) : Transaction → Transaction → Prop
  | evaluated {chain : RuleChain} (listed : chain ∈ rules) (tx : Transaction) :
      Stage e rules tx (e.evaluateReached chain tx)
  | other {tx next : Transaction} (same : tx.SameFields e.rt next) : Stage e rules tx next

theorem Stage.clean (quiet : e.Quiet) {rules : List RuleChain}
    (steady : ∀ chain ∈ rules, ∀ r ∈ chain.head :: chain.members, r.Steady e k)
    {tx next : Transaction} (stage : Stage e rules tx next) (clean : tx.FieldsClean e.rt k) :
    next.FieldsClean e.rt k := by
  cases stage with
  | other same => exact same.clean clean
  | @evaluated chain listed =>
    have walks : e.Walks (Rule.Steady e k)
        fun a b => a.FieldsClean e.rt k → b.FieldsClean e.rt k :=
      ⟨fun _ steady level _ => .single (evaluateOwn_clean quiet steady level),
        fun _ steady level tx found => .single (conclude_kept steady level tx found).2.clean⟩
    have cleared : Transaction.FieldsClean e.rt k
        { tx with vars := tx.vars.setMap .matchedVars ∅ } := clean
    have evaluated := Steps.keeps (fun step => step) (walks.evaluate (steady chain listed) _) cleared
    exact evaluated

end Engine

end Obsidian
