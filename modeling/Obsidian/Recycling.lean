import Obsidian.ApiSteps

namespace Obsidian

open Obsidian.Data Relation

/-! # Recycling

Transactions come from a pool.  What a closed transaction leaves in the object
it returns, and what of it the next transaction sees.
-/

/-! ## Resetting the variables -/

namespace TransactionVariables

/-- The variables that `reset` does not visit: `All` leaves them out. -/
def unvisited : List SingleField :=
  [.resBodyError, .resBodyErrorMsg, .resBodyProcessorError, .resBodyProcessorErrorMsg]

theorem resetCollections_single (cols : List (RuleVariable × Collection))
    (v : TransactionVariables) (field : SingleField) :
    (cols.foldl (fun v entry => v.resetCollection entry.2) v).single field =
      if .single field ∈ cols.map Prod.snd then [] else v.single field := by
  induction cols generalizing v with
  | nil => rfl
  | cons entry rest ih =>
    rw [List.foldl_cons, ih]
    rcases entry with ⟨_, col⟩
    cases col <;> simp [resetCollection, setSingle_single] <;> grind

theorem resetCollections_map (cols : List (RuleVariable × Collection))
    (v : TransactionVariables) (field : MapField) :
    (cols.foldl (fun v entry => v.resetCollection entry.2) v).map field =
      if .map field ∈ cols.map Prod.snd then ∅ else v.map field := by
  induction cols generalizing v with
  | nil => rfl
  | cons entry rest ih =>
    rw [List.foldl_cons, ih]
    rcases entry with ⟨_, col⟩
    cases col <;> simp [resetCollection, setMap, Function.update_apply] <;> grind

theorem all_single (field : SingleField) :
    .single field ∈ all.map Prod.snd ↔ field ∉ unvisited := by
  cases field <;> decide

theorem all_map (field : MapField) : .map field ∈ all.map Prod.snd := by
  cases field <;> decide

theorem reset_single (v : TransactionVariables) (field : SingleField) :
    v.reset.single field = if field ∈ unvisited then v.single field else [] := by
  rw [reset, resetCollections_single]
  simp only [all_single]
  split <;> simp_all

theorem reset_map (v : TransactionVariables) (field : MapField) : v.reset.map field = ∅ := by
  rw [reset, resetCollections_map, if_pos (all_map field)]

theorem reset_eq_new {v : TransactionVariables}
    (empty : ∀ field ∈ unvisited, v.single field = []) : v.reset = .new := by
  have single : v.reset.single = TransactionVariables.new.single := by
    funext field
    rw [reset_single]
    split
    · exact empty field ‹_›
    · rfl
  have map : v.reset.map = TransactionVariables.new.map := funext v.reset_map
  rcases reset : v.reset with ⟨s, m⟩
  rw [reset] at single map
  exact congr_arg₂ TransactionVariables.mk single map

end TransactionVariables

/-! ## Initialising them again -/

namespace Transaction

open TransactionVariables

theorem setDefaults_single {fields : List SingleField} {field : SingleField} {value : Bytes}
    (absent : field ∉ fields) (v : TransactionVariables) :
    (fields.foldl (fun v field => v.setSingle field value) v).single field = v.single field := by
  induction fields generalizing v with
  | nil => rfl
  | cons other rest ih =>
    rw [List.mem_cons, not_or] at absent
    rw [List.foldl_cons, ih absent.2, setSingle_single, if_neg absent.1]

theorem setCaptures_single (rt : Runtime) (indices : List Nat) (v : TransactionVariables) :
    (indices.foldl (fun v (i : Nat) =>
      v.mapSet rt .tx ⟨.literal (itoa i), itoa i⟩ [[]]) v).single = v.single := by
  induction indices generalizing v with
  | nil => rfl
  | cons index rest ih => rw [List.foldl_cons, ih]; rfl

theorem initVariables_unvisited (host : Host) (id : Bytes) (now : Int) (v : TransactionVariables)
    {field : SingleField} (unvisited : field ∈ unvisited) :
    (initVariables host id now v).single field = v.single field := by
  have captures := setCaptures_single host.toRuntime (List.range 11) v
  simp only [TransactionVariables.unvisited, List.mem_cons, List.not_mem_nil, or_false] at unvisited
  rcases unvisited with rfl | rfl | rfl | rfl <;>
  · simp only [initVariables, timeVariables, setSingle_single, reduceCtorEq, if_false]
    rw [setDefaults_single (by decide), captures]

end Transaction

/-! ## The next transaction -/

/-- A recycled transaction is as good as new exactly if the one before it left
`ForceResponseBodyVariable` off and the response body errors unset. -/
theorem recycled_sameButCache_iff (host : Host) (waf : WAF) (object : PoolObject host waf)
    (opts₀ opts : Options) (now₀ now : Int) (calls : List Call) :
    SameButCache
        (waf.newTransaction host opts now
          (some (run host waf (object.newTransaction opts₀ now₀) calls).close))
        (waf.newTransaction host opts now none) ↔
      (run host waf (object.newTransaction opts₀ now₀) calls).forceResponseBodyVariable = false ∧
        ∀ field ∈ TransactionVariables.unvisited,
          (run host waf (object.newTransaction opts₀ now₀) calls).vars.single field = [] := by
  have own := (object.ownBuffers opts₀ now₀).run host calls
  generalize run host waf (object.newTransaction opts₀ now₀) calls = tx at own ⊢
  constructor
  · intro same
    refine ⟨congr_arg (·.forceResponseBodyVariable) same, fun field unvisited => ?_⟩
    have kept := congr_arg (fun tx => tx.vars.single field) same
    simp only [WAF.newTransaction, Option.elim_some, Option.elim_none,
      Transaction.initVariables_unvisited _ _ _ _ unvisited] at kept
    rw [Transaction.close] at kept
    simpa [TransactionVariables.reset_single, unvisited, TransactionVariables.new] using kept
  · rintro ⟨unforced, empty⟩
    have request : tx.requestBodyBuffer.reset = .new waf.requestBodyOptions :=
      BodyBuffer.reset_eq_new (own .request)
    have response : tx.responseBodyBuffer.reset = .new waf.responseBodyOptions :=
      BodyBuffer.reset_eq_new (own .response)
    simp [SameButCache, WAF.newTransaction, Transaction.close, unforced, request, response,
      TransactionVariables.reset_eq_new empty]

/-- Two requests without rules: the second finds its transaction as new. -/
theorem recycled_sameButCache_plain :
    SameButCache
      ((newWAF []).newTransaction .plain ⟨str "b", 0⟩ 2
        (some (run .plain (newWAF []) ((PoolObject.new .plain (newWAF [])).newTransaction ⟨str "a", 0⟩ 1)
          [.processRequestHeaders, .processLogging]).close))
      ((newWAF []).newTransaction .plain ⟨str "b", 0⟩ 2 none) :=
  (recycled_sameButCache_iff .plain (newWAF []) (.new ..) ⟨str "a", 0⟩ ⟨str "b", 0⟩ 1 2 _).mpr
    ⟨by decide, by decide⟩

/-- `SecAction "id:1,phase:1,ctl:forceResponseBodyVariable=on"`, followed by a
response body processor that does not exist. -/
def leakyWAF : WAF :=
  let ctl (id : Int) (phase : RulePhase) (fn : CtlFn) : RuleChain :=
    { head := { id, phase, actions := [⟨str "ctl", .ctl fn⟩] } }
  { newWAF [] with
    responseBodyAccess := true
    rules := [
      ctl 1 .requestHeaders { action := .forceResponseBodyVariable, value := str "on" },
      ctl 2 .responseHeaders { action := .responseBodyProcessor, value := str "none" }] }

/-- The setting, and the error of the response body, reach the next request. -/
theorem recycled_leaks :
    ¬ SameButCache
        (leakyWAF.newTransaction .plain ⟨str "b", 0⟩ 2
          (some (run .plain leakyWAF ((PoolObject.new .plain leakyWAF).newTransaction ⟨str "a", 0⟩ 1)
            [.processRequestHeaders]).close))
        (leakyWAF.newTransaction .plain ⟨str "b", 0⟩ 2 none) ∧
      (leakyWAF.newTransaction .plain ⟨str "b", 0⟩ 2
          (some (run .plain leakyWAF ((PoolObject.new .plain leakyWAF).newTransaction ⟨str "a", 0⟩ 1)
            [.processRequestHeaders, .processResponseHeaders 200 (str "HTTP/1.1"),
              .processBody .response]).close)).vars.single .resBodyErrorMsg
        = str "NONE: invalid body processor" := by
  refine ⟨fun same => ?_, by decide⟩
  have forced : (run .plain leakyWAF ((PoolObject.new .plain leakyWAF).newTransaction ⟨str "a", 0⟩ 1)
      [.processRequestHeaders]).forceResponseBodyVariable = true := by decide
  have kept : _ = false := congr_arg (·.forceResponseBodyVariable) same
  exact absurd (forced.symm.trans kept) (by decide)

theorem initVariables_map (host : Host) (id : Bytes) (now : Int) (v : TransactionVariables)
    {field : MapField} (apart : field ≠ .tx) :
    (Transaction.initVariables host id now v).map field = v.map field := by
  have captures : ∀ (indices : List Nat) (v : TransactionVariables),
      (indices.foldl (fun v (i : Nat) =>
        v.mapSet host.toRuntime .tx ⟨.literal (itoa i), itoa i⟩ [[]]) v).map field = v.map field := by
    intro indices v
    induction indices generalizing v with
    | nil => rfl
    | cons index rest ih =>
      rw [List.foldl_cons, ih]
      simp [TransactionVariables.mapSet, TransactionVariables.setMap, apart]
  have defaults : ∀ (fields : List SingleField) (v : TransactionVariables),
      (fields.foldl (fun v field => v.setSingle field (str "0")) v).map = v.map := by
    intro fields v
    induction fields generalizing v with
    | nil => rfl
    | cons single rest ih =>
      rw [List.foldl_cons, ih]
      rfl
  simp only [Transaction.initVariables, Transaction.timeVariables,
    TransactionVariables.setSingle_map]
  rw [defaults, captures]

theorem newTransaction_map {host : Host} {waf : WAF} (object : PoolObject host waf)
    (opts : Options) (now : Int) {field : MapField} (apart : field ≠ .tx) :
    (object.newTransaction opts now).vars.map field = ∅ := by
  obtain ⟨object, pooled⟩ := object
  simp only [PoolObject.newTransaction, WAF.newTransaction]
  rw [initVariables_map host opts.id now _ apart]
  cases pooled with
  | new => rfl
  | closed opts₀ now₀ calls origin => exact TransactionVariables.reset_map _ field

end Obsidian
