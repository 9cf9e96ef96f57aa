import Obsidian.Api
import Mathlib.Data.List.Perm.Basic

namespace Obsidian

open Obsidian.Data

/-! # Names of collections

The views `ARGS_NAMES` and its like are made of: `NamedCollectionNames` next to the
`Map` it looks at, and `ConcatKeyed` over several of them.
-/

/-! ## Maps and their operations -/

structure CollectionMap where
  isCaseSensitive : Bool
  data : MapData
  var : RuleVariable

/-- The order in which one `range` over a map meets its keys. -/
structure IterationOrder where
  walk : List Bytes → List Bytes
  perm : ∀ keys, (walk keys).Perm keys

namespace CollectionMap

variable (rt : Runtime)

def new (isCaseSensitive : Bool) (var : RuleVariable) : CollectionMap :=
  { isCaseSensitive, data := ∅, var }

def normal (c : CollectionMap) (key : Bytes) : Bytes :=
  if c.isCaseSensitive then key else rt.toLower key

def get (c : CollectionMap) (key : Bytes) : List Bytes := c.data.get (c.normal rt key)

def findRegex (c : CollectionMap) (order : IterationOrder) (key : Regexp) : List MatchData :=
  (c.data.enumerate order.walk key.matchString).map (·.toMatch c.var)

def findAll (c : CollectionMap) (order : IterationOrder) : List MatchData :=
  (c.data.enumerate order.walk fun _ => true).map (·.toMatch c.var)

def findString (c : CollectionMap) (order : IterationOrder) (key : Bytes) : List MatchData :=
  if key = [] then c.findAll order
  else (c.data.values (c.normal rt key)).map (·.toMatch c.var)

inductive Operation where
  | add (key : GoString) (value : Bytes)
  | set (key : GoString) (values : List Bytes)
  | setIndex (key : GoString) (index : Int) (value : Bytes)
  | remove (key : Bytes)
  | reset

/-- One operation.  Go panics on a negative index into a list that is not empty. -/
def operate (c : CollectionMap) : Operation → Option CollectionMap
  | .add key value => some { c with data := c.data.add (c.normal rt key.text) key value }
  | .set key values => some { c with data := c.data.set (c.normal rt key.text) key values }
  | .setIndex key index value =>
    if index < 0 ∧ c.data.values (c.normal rt key.text) ≠ [] then none
    else some { c with data := c.data.setIndex (c.normal rt key.text) key index.toNat value }
  | .remove key => some { c with data := c.data.erase (c.normal rt key) }
  | .reset => some { c with data := ∅ }

def run (c : CollectionMap) (operations : List Operation) : Option CollectionMap :=
  operations.foldlM (operate rt) c

end CollectionMap

/-! ## Views -/

/-- What is behind a `collection.Keyed`.  A call may iterate over several maps; `orders`
has an order for each of them, found by the way from the view to the map. -/
structure Keyed where
  get : Bytes → List Bytes
  findRegex : (orders : List Nat → IterationOrder) → Regexp → List MatchData
  findString : (orders : List Nat → IterationOrder) → Bytes → List MatchData
  findAll : (orders : List Nat → IterationOrder) → List MatchData

def CollectionMap.keyed (rt : Runtime) (c : CollectionMap) : Keyed where
  get := c.get rt
  findRegex orders := c.findRegex (orders [])
  findString orders := c.findString rt (orders [])
  findAll orders := c.findAll (orders [])

def CollectionMap.names (rt : Runtime) (c : CollectionMap) (var : RuleVariable) : Keyed where
  get := c.get rt
  findRegex orders key :=
    (c.data.enumerate (orders []).walk key.matchString).map (·.toNameMatch var)
  findString orders key := (c.data.enumerate (orders []).walk (· = key)).map (·.toNameMatch var)
  findAll orders := (c.data.enumerate (orders []).walk fun _ => true).map (·.toNameMatch var)

def replaceVariable (var : RuleVariable) (found : List MatchData) : List MatchData :=
  found.map fun m => { m with var }

/-- The loop of the methods of `ConcatKeyed` over its parts. -/
def concatParts (var : RuleVariable) (orders : List Nat → IterationOrder)
    (find : Keyed → (List Nat → IterationOrder) → List MatchData) (parts : List Keyed) :
    List MatchData :=
  parts.zipIdx.foldl
    (fun res part => res ++ replaceVariable var (find part.1 fun way => orders (part.2 :: way))) []

def concatKeyed (rt : Runtime) (var : RuleVariable) (data : List Keyed) : Keyed where
  get key := data.foldl (fun res part => res ++ part.get (rt.toLower key)) []
  findRegex orders key := concatParts var orders (fun part orders => part.findRegex orders key) data
  findString orders key := concatParts var orders (fun part orders => part.findString orders key) data
  findAll orders := concatParts var orders (fun part orders => part.findAll orders) data

/-! ## Agreement -/

def MatchData.asName (var : RuleVariable) (m : MatchData) : MatchData :=
  { m with var, value := m.key.text }

theorem map_asName (pairs : List KeyValue) (var other : RuleVariable) :
    (pairs.map (·.toMatch other)).map (·.asName var) = pairs.map (·.toNameMatch var) := by
  simp [KeyValue.toMatch, KeyValue.toNameMatch, MatchData.asName]

theorem enumerate_perm (data : MapData) (first second : IterationOrder) (select : Bytes → Bool) :
    (data.enumerate first.walk select).Perm (data.enumerate second.walk select) := by
  have keys := (first.perm data.keys).trans (second.perm data.keys).symm
  exact (keys.filter select).flatMap_right _

theorem enumerate_key (data : MapData) (order : IterationOrder) (key : Bytes) :
    data.enumerate order.walk (· = key) = data.values key := by
  have distinct : (order.walk data.keys).Nodup :=
    (order.perm data.keys).nodup_iff.mpr data.keys_nodup
  rw [MapData.enumerate]
  by_cases present : key ∈ data.keys
  · have one : (order.walk data.keys).filter (· = key) = [key] := by
      have found := (order.perm data.keys).mem_iff.mpr present
      rw [List.filter_eq, distinct.count, if_pos found, List.replicate_one]
    rw [one, List.flatMap_singleton]
  · have nothing : (order.walk data.keys).filter (· = key) = [] := by
      rw [List.filter_eq_nil_iff]
      rintro other found same
      rw [(order.perm data.keys).mem_iff, of_decide_eq_true same] at found
      exact present found
    rw [nothing, List.flatMap_nil, MapData.values, AList.lookup_eq_none.mpr present, Option.getD_none]

theorem enumerate_eq_nil_iff {data : MapData} {order : IterationOrder} {select : Bytes → Bool} :
    data.enumerate order.walk select = [] ↔
      ∀ key ∈ data.keys, select key = true → data.values key = [] := by
  simp only [MapData.enumerate, List.flatMap_eq_nil_iff, List.mem_filter,
    (order.perm data.keys).mem_iff, and_imp]

theorem enumerate_split (data : MapData) (order : IterationOrder) (key : Bytes) :
    (data.enumerate order.walk fun _ => true).Perm
      (data.values key ++ data.enumerate order.walk (· ≠ key)) := by
  have parts := (List.filter_append_perm (fun other => decide (other = key))
    (order.walk data.keys)).symm.flatMap_right data.values
  rw [List.flatMap_append] at parts
  rw [← enumerate_key data order key]
  simpa [MapData.enumerate] using parts

theorem map_toNameMatch_perm {var : RuleVariable} {first second : List KeyValue} :
    (first.map (·.toNameMatch var)).Perm (second.map (·.toNameMatch var)) ↔
      (first.map KeyValue.key).Perm (second.map KeyValue.key) := by
  have shown : ∀ pairs : List KeyValue, pairs.map (·.toNameMatch var) =
      (pairs.map KeyValue.key).map fun key => { var, key, value := key.text } := by
    intro pairs
    rw [List.map_map]
    rfl
  have injective : Function.Injective fun key : GoString => ({ var, key, value := key.text } : MatchData) :=
    fun _ _ same => congrArg MatchData.key same
  rw [shown, shown, List.map_perm_map_iff injective]

/-- What is stored under a key as it is written and what the collection looks up for it have the
same original keys.  For the empty key the collection has all its entries. -/
def CollectionMap.StoredAlike (rt : Runtime) (c : CollectionMap) (key : Bytes) : Prop :=
  if key = [] then ∀ other ∈ c.data.keys, other ≠ [] → c.data.values other = []
  else ((c.data.values key).map KeyValue.key).Perm
    ((c.data.values (c.normal rt key)).map KeyValue.key)

theorem CollectionMap.names_findString_iff {rt : Runtime} {c : CollectionMap} {key : Bytes}
    (var : RuleVariable) (orders : List Nat → IterationOrder) (order : IterationOrder) :
    ((c.names rt var).findString orders key).Perm ((c.findString rt order key).map (·.asName var)) ↔
      c.StoredAlike rt key := by
  simp only [names, findString, StoredAlike, enumerate_key]
  by_cases empty : key = []
  · subst empty
    have split := (enumerate_split c.data order []).map (·.toNameMatch var)
    rw [if_pos rfl, if_pos rfl, findAll, map_asName]
    -- the view has those under the empty key, which are all if no other key has any
    have others : (c.data.enumerate order.walk (· ≠ [])) = [] ↔
        ∀ other ∈ c.data.keys, other ≠ [] → c.data.values other = [] := by
      simp [enumerate_eq_nil_iff]
    rw [← others]
    constructor
    · intro same
      have length := (same.trans split).length_eq
      rw [List.length_map, List.length_map, List.length_append] at length
      exact List.length_eq_zero_iff.mp (by omega)
    · intro none
      rw [none, List.append_nil] at split
      exact split.symm
  · rw [if_neg empty, if_neg empty, map_asName, map_toNameMatch_perm]

theorem CollectionMap.storedAlike_of_normal {rt : Runtime} {c : CollectionMap} {key : Bytes}
    (nonempty : key ≠ []) (normal : c.normal rt key = key) : c.StoredAlike rt key := by
  rw [StoredAlike, if_neg nonempty, normal]

theorem CollectionMap.names_findRegex (rt : Runtime) (c : CollectionMap) (var : RuleVariable)
    (orders : List Nat → IterationOrder) (order : IterationOrder) (key : Regexp) :
    ((c.names rt var).findRegex orders key).Perm ((c.findRegex order key).map (·.asName var)) := by
  simp only [names, findRegex, map_asName]
  exact (enumerate_perm c.data (orders []) order _).map _

theorem CollectionMap.names_findAll (rt : Runtime) (c : CollectionMap) (var : RuleVariable)
    (orders : List Nat → IterationOrder) (order : IterationOrder) :
    ((c.names rt var).findAll orders).Perm ((c.findAll order).map (·.asName var)) := by
  simp only [names, findAll, map_asName]
  exact (enumerate_perm c.data (orders []) order _).map _

theorem concatParts_eq (var : RuleVariable) (orders : List Nat → IterationOrder)
    (find : Keyed → (List Nat → IterationOrder) → List MatchData) (parts : List Keyed) :
    concatParts var orders find parts = parts.zipIdx.flatMap fun part =>
      replaceVariable var (find part.1 fun way => orders (part.2 :: way)) :=
  List.flatMap_eq_foldl.symm

theorem concatKeyed_get (rt : Runtime) (var : RuleVariable) (data : List Keyed) (key : Bytes) :
    (concatKeyed rt var data).get key = data.flatMap (·.get (rt.toLower key)) := by
  simp only [concatKeyed, ← List.flatMap_eq_foldl]

/-- The names of a collection are the keys of what it holds, and a concatenation answers
with the answers of its parts.  For a selector this is so exactly if what is stored under it as it
is written is what the collection looks up for it: the views compare it as it is.  `ConcatKeyed`
lowers the key it gets, so its parts have to hold the same under both spellings. -/
theorem nameViews_agree (rt : Runtime) (c : CollectionMap) (var : RuleVariable)
    (orders : List Nat → IterationOrder) (order : IterationOrder) :
    (∀ key, ((c.names rt var).findString orders key).Perm
        ((c.findString rt order key).map (·.asName var)) ↔ c.StoredAlike rt key) ∧
    (∀ key, ((c.names rt var).findRegex orders key).Perm
      ((c.findRegex order key).map (·.asName var))) ∧
    ((c.names rt var).findAll orders).Perm ((c.findAll order).map (·.asName var)) ∧
    ∀ data : List Keyed,
      (∀ key, (concatKeyed rt var data).findRegex orders key = data.zipIdx.flatMap fun part =>
        replaceVariable var (part.1.findRegex (fun way => orders (part.2 :: way)) key)) ∧
      (∀ key, (concatKeyed rt var data).findString orders key = data.zipIdx.flatMap fun part =>
        replaceVariable var (part.1.findString (fun way => orders (part.2 :: way)) key)) ∧
      ((concatKeyed rt var data).findAll orders = data.zipIdx.flatMap fun part =>
        replaceVariable var (part.1.findAll fun way => orders (part.2 :: way))) ∧
      ∀ key, ((concatKeyed rt var data).get key = data.flatMap (·.get key) ↔
          data.flatMap (·.get (rt.toLower key)) = data.flatMap (·.get key)) ∧
        ((∀ part ∈ data, part.get (rt.toLower key) = part.get key) →
          (concatKeyed rt var data).get key = data.flatMap (·.get key)) := by
  refine ⟨fun key => c.names_findString_iff var orders order,
    c.names_findRegex rt var orders order, c.names_findAll rt var orders order, fun data => ?_⟩
  refine ⟨fun key => ?_, fun key => ?_, ?_, fun key => ⟨?_, fun alike => ?_⟩⟩
  · simp only [concatKeyed, concatParts_eq]
  · simp only [concatKeyed, concatParts_eq]
  · simp only [concatKeyed, concatParts_eq]
  · rw [concatKeyed_get]
  · rw [concatKeyed_get]
    exact List.flatMap_congr alike

def IterationOrder.stored : IterationOrder := ⟨id, .refl⟩

def twoHeaders : Option CollectionMap :=
  (CollectionMap.new false .requestHeaders).run Host.plain.toRuntime [
    .add (.lit "host") (str "a"), .add (.lit "Accept") (str "b"), .add (.lit "ACCEPT") (str "c")]

theorem nameViews_agree_accept :
    ∃ c ∈ twoHeaders,
      ((c.names Host.plain.toRuntime .requestHeadersNames).findString
          (fun _ => .stored) (str "accept")).Perm
        ((c.findString Host.plain.toRuntime .stored (str "accept")).map (·.asName .requestHeadersNames)) ∧
      (c.findString Host.plain.toRuntime .stored (str "accept")).length = 2 ∧
      ((c.names Host.plain.toRuntime .requestHeadersNames).findString
          (fun _ => .stored) (str "Cookie")).Perm
        ((c.findString Host.plain.toRuntime .stored (str "Cookie")).map (·.asName .requestHeadersNames)) := by
  obtain ⟨c, built⟩ : ∃ c, twoHeaders = some c := ⟨_, rfl⟩
  have agree := (nameViews_agree Host.plain.toRuntime c .requestHeadersNames (fun _ => .stored) .stored).1
  have lower : c.StoredAlike Host.plain.toRuntime (str "accept") := by
    cases built
    exact CollectionMap.storedAlike_of_normal (by decide) (by decide)
  have missing : c.StoredAlike Host.plain.toRuntime (str "Cookie") := by
    cases built
    rw [CollectionMap.StoredAlike, if_neg (by decide)]
    exact .of_eq (by decide)
  refine ⟨c, built, (agree _).mpr lower, ?_, (agree _).mpr missing⟩
  cases built
  rfl

/-! ## The views of a transaction -/

namespace TransactionVariables

variable (rt : Runtime) (v : TransactionVariables)

def collectionOf (field : MapField) : CollectionMap where
  isCaseSensitive := rt.shouldUseCaseSensitiveNamedCollection ∧
    (field = .argsGet ∨ field = .argsPost ∨ field = .argsPath)
  data := v.map field
  var := field.var

/-- The object behind a variable that can be selected from. -/
def view : Collection → Option Keyed
  | .map field => some ((v.collectionOf rt field).keyed rt)
  | .names field var => some ((v.collectionOf rt field).names rt var)
  | .concat var fields =>
    some (concatKeyed rt var (fields.map fun field => (v.collectionOf rt field).keyed rt))
  | .concatNames var fields =>
    some (concatKeyed rt var (fields.map fun field => (v.collectionOf rt field).names rt .unknown))
  | _ => none

def ordersAt (tick : Nat) (way : List Nat) : IterationOrder :=
  ⟨rt.mapOrder tick (way.headD 0), rt.mapOrder_perm tick (way.headD 0)⟩

theorem collectionOf_normal (field : MapField) (key : Bytes) :
    (v.collectionOf rt field).normal rt key = normalKey rt field key := by
  simp [CollectionMap.normal, collectionOf, normalKey]

theorem replaceVariable_toMatch (pairs : List KeyValue) (var other : RuleVariable) :
    replaceVariable var (pairs.map (·.toMatch other)) = pairs.map (·.toMatch var) := by
  simp [replaceVariable, KeyValue.toMatch]

theorem replaceVariable_toNameMatch (pairs : List KeyValue) (var other : RuleVariable) :
    replaceVariable var (pairs.map (·.toNameMatch other)) = pairs.map (·.toNameMatch var) := by
  simp [replaceVariable, KeyValue.toNameMatch]

variable {rt v}

theorem concatParts_map {α : Type} (var : RuleVariable) (orders : List Nat → IterationOrder)
    (find : Keyed → (List Nat → IterationOrder) → List MatchData) (part : α → Keyed) (xs : List α) :
    concatParts var orders find (xs.map part) = xs.zipIdx.flatMap fun x =>
      replaceVariable var (find (part x.1) fun way => orders (x.2 :: way)) := by
  rw [concatParts_eq, List.zipIdx_map, List.flatMap_map]
  rfl

theorem flatMap_zipIdx_fst {α β : Type} (f : α → List β) (xs : List α) :
    (xs.zipIdx.flatMap fun x => f x.1) = xs.flatMap f := by
  conv => rhs; rw [← List.zipIdx_map_fst 0 xs, List.flatMap_map]

/-- What a selector of a rule finds is what `FindString` finds behind its variable. -/
theorem view_findString {col : Collection} {keyed : Keyed} (found : v.view rt col = some keyed)
    (orders : List Nat → IterationOrder) {key : Bytes} (nonempty : key ≠ []) :
    keyed.findString orders key = v.findString rt key col := by
  cases col with
  | map field =>
    cases found
    simp only [CollectionMap.keyed, CollectionMap.findString, if_neg nonempty, collectionOf_normal]
    rfl
  | names field var =>
    cases found
    simp only [CollectionMap.names, enumerate_key]
    rfl
  | concat var fields =>
    cases found
    simp only [concatKeyed, concatParts_map, CollectionMap.keyed, CollectionMap.findString,
      if_neg nonempty, replaceVariable_toMatch, collectionOf_normal, findString]
    exact flatMap_zipIdx_fst
      (fun field => ((v.map field).values (normalKey rt field key)).map (·.toMatch var)) fields
  | concatNames var fields =>
    cases found
    simp only [concatKeyed, concatParts_map, CollectionMap.names, enumerate_key,
      replaceVariable_toNameMatch, findString]
    exact flatMap_zipIdx_fst (fun field => ((v.map field).values key).map (·.toNameMatch var)) fields
  | single | size | absent | noop => cases found

theorem view_findRegex {col : Collection} {keyed : Keyed} (found : v.view rt col = some keyed)
    (tick : Nat) (key : Regexp) :
    keyed.findRegex (ordersAt rt tick) key = v.findRegex rt tick key col := by
  cases col with
  | map | names =>
    cases found
    rfl
  | concat var fields =>
    cases found
    simp only [concatKeyed, concatParts_map, CollectionMap.keyed, CollectionMap.findRegex,
      replaceVariable_toMatch]
    rfl
  | concatNames var fields =>
    cases found
    simp only [concatKeyed, concatParts_map, CollectionMap.names, replaceVariable_toNameMatch]
    rfl
  | single | size | absent | noop => cases found

theorem view_findAll {col : Collection} {keyed : Keyed} (found : v.view rt col = some keyed)
    (tick : Nat) : keyed.findAll (ordersAt rt tick) = v.findAll rt tick col := by
  cases col with
  | map | names =>
    cases found
    rfl
  | concat var fields =>
    cases found
    simp only [concatKeyed, concatParts_map, CollectionMap.keyed, CollectionMap.findAll,
      replaceVariable_toMatch]
    rfl
  | concatNames var fields =>
    cases found
    simp only [concatKeyed, concatParts_map, CollectionMap.names, replaceVariable_toNameMatch]
    rfl
  | single | size | absent | noop => cases found

end TransactionVariables

def oneArgument : Transaction :=
  run Host.plain (newWAF []) ((newWAF []).newTransaction Host.plain ⟨str "tx", 0⟩ 0 none)
    [.addGetRequestArgument (.lit "Id") (str "7")]

def argumentMap (isCaseSensitive : Bool) : Option CollectionMap :=
  (CollectionMap.new isCaseSensitive .argsGet).run Host.plain.toRuntime [.add (.lit "Id") (str "7")]

/-- `ARGS:Id` finds the argument and `ARGS_NAMES:Id` finds nothing: the selector keeps its
case for both, and only the first lowers it before it looks.  Without a selector the map
has all its entries and the view has none, and a concatenation does not find what its
only part has, if that part keeps the case of its keys. -/
theorem nameViews_miss_argument :
    (oneArgument.selectField Host.plain.toRuntime { var := .args, keyStr := .lit "Id" }).map
      (·.value) = [str "7"] ∧
    oneArgument.selectField Host.plain.toRuntime { var := .argsNames, keyStr := .lit "Id" } = [] ∧
    (∃ c ∈ argumentMap false,
      (c.findString Host.plain.toRuntime .stored (str "Id")).length = 1 ∧
      (c.names Host.plain.toRuntime .argsGetNames).findString (fun _ => .stored) (str "Id") = [] ∧
      (c.findString Host.plain.toRuntime .stored []).length = 1 ∧
      (c.names Host.plain.toRuntime .argsGetNames).findString (fun _ => .stored) [] = []) ∧
    ∃ c ∈ argumentMap true,
      (c.keyed Host.plain.toRuntime).get (str "Id") = [str "7"] ∧
      (concatKeyed Host.plain.toRuntime .args [c.keyed Host.plain.toRuntime]).get (str "Id") = [] := by
  refine ⟨by decide, by decide, ⟨_, rfl, by decide, by decide, by decide, by decide⟩, ⟨_, rfl, ?_, ?_⟩⟩
  · decide
  · decide

end Obsidian
