import Obsidian.BodyProcessors.Urlencoded
import Obsidian.Recycling

namespace Obsidian

open Obsidian.Data

/-! # The limit on arguments

What the calls that add arguments and the bodies of forms leave in the four argument
collections.  The limit is on the keys of a collection, not on its pairs.
-/

inductive ArgumentField where
  | argsGet | argsPost | argsPath | responseArgs
deriving DecidableEq, Repr

namespace ArgumentField

def field : ArgumentField → MapField
  | argsGet => .argsGet
  | argsPost => .argsPost
  | argsPath => .argsPath
  | responseArgs => .responseArgs

def call (pair : KeyValue) : ArgumentField → Call
  | argsGet => .addGetRequestArgument pair.key pair.value
  | argsPost => .addPostRequestArgument pair.key pair.value
  | argsPath => .addPathRequestArgument pair.key pair.value
  | responseArgs => .addResponseArgument pair.key pair.value

theorem field_inj {target other : ArgumentField} (same : target.field = other.field) : target = other := by
  cases target <;> cases other <;> first | rfl | cases same

end ArgumentField

inductive ArgumentStep where
  | add (target : ArgumentField) (pair : KeyValue)
  | processBody (tick : Nat) (address : Bytes → Addr) (body : Except GoError Bytes)
      (mime storagePath : Bytes)

namespace ArgumentStep

def isBody : ArgumentStep → Bool
  | add _ _ => false
  | processBody .. => true

def adds (target : ArgumentField) : ArgumentStep → Option KeyValue
  | add other pair => if other = target then some pair else none
  | processBody .. => none

def run (host : Host) (waf : WAF) (tx : Transaction) : ArgumentStep → Transaction
  | add target pair => step host waf tx (target.call pair)
  | processBody tick address body mime storagePath =>
    let processor := urlencodedBodyProcessor host.toRuntime tick address
    { tx with vars := (processor.processRequest body mime storagePath tx.vars).1 }

def runAll (host : Host) (waf : WAF) (tx : Transaction) (steps : List ArgumentStep) : Transaction :=
  steps.foldl (run host waf) tx

end ArgumentStep

section

variable (host : Host) (waf : WAF)

abbrev argumentName (target : ArgumentField) (pair : KeyValue) : Bytes :=
  TransactionVariables.normalKey host.toRuntime target.field pair.key.text

theorem run_add (target : ArgumentField) (pair : KeyValue) (tx : Transaction) :
    (ArgumentStep.run host waf tx (.add target pair)).vars =
      addArgument host waf target.field pair.key pair.value tx.vars := by
  cases target <;> rfl

theorem addArgument_self (target : ArgumentField) (pair : KeyValue) (v : TransactionVariables) :
    (addArgument host waf target.field pair.key pair.value v).map target.field =
      if waf.argumentLimit.toNat ≤ (v.map target.field).keys.length then v.map target.field
      else Multimap.push (v.map target.field) (argumentName host target pair) pair := by
  have same : (v.map target.field).keys.length ≥ waf.argumentLimit ↔
      waf.argumentLimit.toNat ≤ (v.map target.field).keys.length := by omega
  rw [addArgument]
  by_cases full : waf.argumentLimit.toNat ≤ (v.map target.field).keys.length
  · rw [if_pos (same.mpr full), if_pos full]
  · rw [if_neg (fun most => full (same.mp most)), if_neg full]
    simp [TransactionVariables.mapAdd, TransactionVariables.setMap, MapData.add_eq_push]

theorem addArgument_other {target other : ArgumentField} (apart : target ≠ other) (pair : KeyValue)
    (v : TransactionVariables) :
    (addArgument host waf other.field pair.key pair.value v).map target.field = v.map target.field := by
  have fields : target.field ≠ other.field := fun same => apart (ArgumentField.field_inj same)
  rw [addArgument]
  split
  · rfl
  · simp [TransactionVariables.mapAdd, TransactionVariables.setMap, fields]

theorem processBody_other {target : ArgumentField} (apart : target ≠ .argsPost) (tick : Nat)
    (address : Bytes → Addr) (body : Except GoError Bytes) (mime storagePath : Bytes)
    (v : TransactionVariables) :
    ((urlencodedBodyProcessor host.toRuntime tick address).processRequest body mime storagePath
      v).1.map target.field = v.map target.field := by
  have fields : target.field ≠ .argsPost := fun same => apart (@ArgumentField.field_inj _ .argsPost same)
  cases body with
  | error err => rfl
  | ok b =>
    simp only [urlencodedBodyProcessor, TransactionVariables.setSingle_map]
    generalize host.mapOrder tick 0 (Url.parseQuery b (byte '&')).keys = keys
    induction keys generalizing v with
    | nil => rfl
    | cons key rest ih =>
      rw [List.foldl_cons, ih]
      simp [TransactionVariables.mapSet, TransactionVariables.setMap, fields]

theorem run_fill {target : ArgumentField} {s : ArgumentStep}
    (noBody : target = .argsPost → s.isBody = false) (tx : Transaction) :
    (s.run host waf tx).vars.map target.field =
      Multimap.fill (argumentName host target) waf.argumentLimit.toNat (s.adds target).toList
        (tx.vars.map target.field) := by
  cases s with
  | add other pair =>
    rw [run_add, ArgumentStep.adds]
    by_cases same : other = target
    · rw [if_pos same, same]
      exact addArgument_self host waf target pair tx.vars
    · rw [if_neg same]
      exact addArgument_other host waf (Ne.symm same) pair tx.vars
  | processBody tick address body mime storagePath =>
    have apart : target ≠ .argsPost := fun post => Bool.noConfusion (noBody post)
    exact processBody_other host apart tick address body mime storagePath tx.vars

theorem runAll_fill {target : ArgumentField} {steps : List ArgumentStep}
    (noBody : target = .argsPost → ∀ s ∈ steps, s.isBody = false) (tx : Transaction) :
    (ArgumentStep.runAll host waf tx steps).vars.map target.field =
      Multimap.fill (argumentName host target) waf.argumentLimit.toNat
        (steps.filterMap (·.adds target)) (tx.vars.map target.field) := by
  induction steps generalizing tx with
  | nil => rfl
  | cons s rest ih =>
    have first := run_fill host waf (fun post => (List.forall_mem_cons.mp (noBody post)).1) tx
    have later := ih (fun post => (List.forall_mem_cons.mp (noBody post)).2) (s.run host waf tx)
    rw [first] at later
    have added : (s :: rest).filterMap (·.adds target) =
        (s.adds target).toList ++ rest.filterMap (·.adds target) := by
      rw [List.filterMap_cons]
      cases s.adds target <;> rfl
    rw [added, Multimap.fill_append]
    exact later

end

def KeyValue.texts (pair : KeyValue) : Bytes × Bytes := (pair.key.text, pair.value)

/-- Of the pairs that calls add to a collection the first are kept, as many as the limit
says or more; not more only if they are few or have different keys. -/
theorem arguments_limited (host : Host) (waf : WAF) (object : PoolObject host waf) (opts : Options)
    (now : Int) (target : ArgumentField) (steps : List ArgumentStep)
    (noBody : target = .argsPost → ∀ s ∈ steps, s.isBody = false) :
    let tx := ArgumentStep.runAll host waf (object.newTransaction opts now) steps
    let pairs := (tx.vars.map target.field).pairs
    let added := steps.filterMap (·.adds target)
    let n := waf.argumentLimit.toNat
    List.Subperm ((added.take n).map KeyValue.texts) pairs ∧
      (pairs.length ≤ n ↔
        added.length ≤ n ∨ ((added.take n).map (argumentName host target)).Nodup) := by
  intro tx pairs added n
  have notTX : target.field ≠ .tx := by cases target <;> decide
  have start := newTransaction_map object opts now notTX
  have filled := runAll_fill host waf noBody (object.newTransaction opts now)
  rw [start] at filled
  obtain ⟨count, within, taken, enough, few⟩ := Multimap.fill_count (argumentName host target) n added
  have held : pairs.Perm ((added.take count).map KeyValue.texts) := by
    simp only [pairs, tx, MapData.pairs]
    rw [filled, taken]
    exact Multimap.collect_pushAll _ _
  have size : pairs.length = count := by
    rw [held.length_eq, List.length_map, List.length_take]
    omega
  rw [size]
  refine ⟨?_, few⟩
  have front : added.take n <+: added.take count := by
    by_cases reached : n ≤ count
    · have again : added.take n = (added.take count).take n := by
        rw [List.take_take, Nat.min_eq_left reached]
      rw [again]
      exact List.take_prefix _ _
    · rw [List.take_of_length_le (show added.length ≤ count by omega)]
      exact List.take_prefix _ _
  exact ((front.sublist.map _).subperm).trans held.symm.subperm

def limitedWAF (n : Int) : WAF := { newWAF [] with argumentLimit := n }

def limitedPairs (n : Int) (target : ArgumentField) (steps : List ArgumentStep) :
    List (Bytes × Bytes) :=
  let tx := (PoolObject.new Host.plain (limitedWAF n)).newTransaction ⟨[], 0⟩ 0
  ((ArgumentStep.runAll Host.plain (limitedWAF n) tx steps).vars.map target.field).pairs

def argument (key value : String) : KeyValue := ⟨.lit key, str value⟩

def form (body : String) : ArgumentStep := .processBody 0 (fun _ => .nil) (.ok (str body)) [] []

theorem arguments_limited_two :
    (limitedPairs 2 .argsGet [.add .argsGet (argument "a" "1"), .add .argsGet (argument "b" "2"),
      form "a=1&b=2", .add .argsGet (argument "c" "3")]).length ≤ 2 :=
  (arguments_limited Host.plain (limitedWAF 2) (.new _ _) ⟨[], 0⟩ 0 .argsGet _ (by decide)).2.mpr
    (.inr (by decide))

/-- A repeated key passes the limit, a form does, and a form replaces a pair that was added. -/
theorem arguments_unlimited :
    (limitedPairs 2 .argsGet
        [.add .argsGet (argument "a" "1"), .add .argsGet (argument "a" "2"),
          .add .argsGet (argument "a" "3")]).length = 3 ∧
      (limitedPairs 1 .argsPost [form "a=1&b=2"]).length = 2 ∧
      limitedPairs 2 .argsPost [.add .argsPost (argument "a" "1"), form "a=2"] =
        [(str "a", str "2")] := by
  decide

end Obsidian
