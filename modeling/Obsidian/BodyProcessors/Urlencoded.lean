import Obsidian.Api
import Obsidian.Data.Multimap
import Obsidian.Data.Text

namespace Obsidian

open Obsidian.Data

/-! # Query strings and form bodies

`ParseQuery` of the `url` package, the arguments that `ExtractGetArguments` takes from
it, and the ones that the body processor for forms takes from it.
-/

namespace Url

def hexDigitToByte (digit : UInt8) : Option UInt8 :=
  if byte '0' ≤ digit ∧ digit ≤ byte '9' then some (digit - byte '0')
  else if byte 'a' ≤ digit ∧ digit ≤ byte 'f' then some (digit - byte 'a' + 10)
  else if byte 'A' ≤ digit ∧ digit ≤ byte 'F' then some (digit - byte 'A' + 10)
  else none

def queryUnescape : Bytes → Bytes
  | [] => []
  | 43 :: rest => 32 :: queryUnescape rest
  | 37 :: high :: low :: rest =>
    match hexDigitToByte high, hexDigitToByte low with
    | some hi, some lo => (hi <<< 4 ||| lo) :: queryUnescape rest
    | _, _ => 37 :: queryUnescape (high :: low :: rest)
  | b :: rest => b :: queryUnescape rest

/-- A key and a value, cut at the first equals sign and unescaped. -/
def parsePair (urlUnescape : Bool) (text : Bytes) : Bytes × Bytes :=
  let (key, value) := (cut (byte '=') text).getD (text, [])
  if urlUnescape then (queryUnescape key, queryUnescape value) else (key, value)

abbrev Values := Multimap.Lists Bytes Bytes

/-- One round of the loop for each piece; an empty one adds nothing. -/
def doParseQuery (query : Bytes) (separator : UInt8) (urlUnescape : Bool) : Values :=
  (query.splitOn separator).foldl (fun m piece =>
    if piece = [] then m
    else Multimap.push m (parsePair urlUnescape piece).1 (parsePair urlUnescape piece).2) ∅

def parseQuery (query : Bytes) (separator : UInt8) : Values := doParseQuery query separator true

example : queryUnescape (str "a+b%3d%4") = str "a b=%4" := by decide
example : (parseQuery (str "a=1&b&&a=2%26") 38).lookup (str "a") = some [str "1", str "2&"] := by
  decide

def queryPairs (query : Bytes) : List (Bytes × Bytes) :=
  ((query.splitOn (byte '&')).filter (· ≠ [])).map (parsePair true)

theorem parseQuery_eq (query : Bytes) :
    parseQuery query (byte '&') =
      (queryPairs query).foldl (fun m pair => Multimap.push m pair.1 pair.2) ∅ := by
  simp only [parseQuery, doParseQuery, queryPairs]
  rw [List.foldl_map, List.foldl_filter]
  congr 1
  funext m piece
  by_cases empty : piece = [] <;> simp [empty]

theorem parseQuery_perm (query : Bytes) :
    (Multimap.collect Prod.mk (parseQuery query (byte '&'))).Perm (queryPairs query) := by
  rw [parseQuery_eq]
  have collected := Multimap.collect_foldl_push Prod.mk (queryPairs query) ∅
  simpa using collected

end Url

/-! ## Arguments -/

section

variable (rt : Runtime) (tick : Nat) (address : Bytes → Addr)

/-- The pairs that `ExtractGetArguments` goes through; `address` tells where the text of
each key is. -/
def queryArguments (query : Bytes) : List KeyValue :=
  let values := Url.parseQuery query (byte '&')
  (rt.mapOrder tick 0 values.keys).flatMap fun key =>
    (Multimap.values values key).map fun value => ⟨⟨address key, key⟩, value⟩

def urlencodedBodyProcessor : BodyProcessor where
  processRequest := fun body _ _ v =>
    match body with
    | .error err => (v, some err)
    | .ok b =>
      let values := Url.parseQuery b (byte '&')
      let v := (rt.mapOrder tick 0 values.keys).foldl (fun v key =>
        v.mapSet rt .argsPost ⟨address key, key⟩ (Multimap.values values key)) v
      let v := v.setSingle .requestBody b
      (v.setSingle .requestBodyLength (itoa b.length), none)
  processResponse := fun _ v => (v, none)

end

def Host.withQueries (host : Host) (address : Bytes → Addr) : Host :=
  { host with parseQuery := fun tick query => queryArguments host.toRuntime tick address query }

/-! ## What becomes of the pairs -/

def MapData.pairs (data : MapData) : List (Bytes × Bytes) :=
  Multimap.collect (fun _ pair => (pair.key.text, pair.value)) data

theorem MapData.add_eq_push (data : MapData) (normal : Bytes) (key : GoString) (value : Bytes) :
    data.add normal key value = Multimap.push data normal ⟨key, value⟩ := rfl

section

variable (rt : Runtime) (tick : Nat) (address : Bytes → Addr) (q : Bytes)

theorem queryArguments_perm :
    ((queryArguments rt tick address q).map fun pair => (pair.key.text, pair.value)).Perm
      (Url.queryPairs q) := by
  have ordered := (rt.mapOrder_perm tick 0 (Url.parseQuery q (byte '&')).keys).flatMap_right
    fun key => (Multimap.values (Url.parseQuery q (byte '&')) key).map (Prod.mk key)
  have listed : (queryArguments rt tick address q).map (fun pair => (pair.key.text, pair.value)) =
      (rt.mapOrder tick 0 (Url.parseQuery q (byte '&')).keys).flatMap fun key =>
        (Multimap.values (Url.parseQuery q (byte '&')) key).map (Prod.mk key) := by
    simp only [queryArguments, List.map_flatMap, List.map_map]
    rfl
  rw [listed]
  exact ordered.trans (Url.parseQuery_perm q)

theorem addArgument_foldl (host : Host) (waf : WAF) (field : MapField) (arguments : List KeyValue)
    (v : TransactionVariables)
    (few : (v.map field).keys.length + arguments.length < waf.argumentLimit) :
    ((arguments.foldl (fun v pair => addArgument host waf field pair.key pair.value v) v).map
        field).pairs.Perm
      ((v.map field).pairs ++ arguments.map fun pair => (pair.key.text, pair.value)) := by
  induction arguments generalizing v with
  | nil => simp
  | cons pair rest ih =>
    simp only [List.length_cons] at few
    have added : (addArgument host waf field pair.key pair.value v).map field =
        Multimap.push (v.map field)
          (TransactionVariables.normalKey host.toRuntime field pair.key.text) pair := by
      rw [addArgument, if_neg (by omega)]
      simp [TransactionVariables.mapAdd, TransactionVariables.setMap, MapData.add_eq_push]
    have grown := Multimap.keys_push_length (v.map field)
      (TransactionVariables.normalKey host.toRuntime field pair.key.text) pair
    have later := ih (addArgument host waf field pair.key pair.value v) (by rw [added]; omega)
    have first := Multimap.collect_push (fun _ pair => (pair.key.text, pair.value)) (v.map field)
      (TransactionVariables.normalKey host.toRuntime field pair.key.text) pair
    rw [added] at later
    refine later.trans ?_
    have appended := first.append_right (rest.map fun pair => (pair.key.text, pair.value))
    rwa [List.append_assoc] at appended

def storeValues (values : Url.Values) (data : MapData) (key : Bytes) : MapData :=
  data.insert (TransactionVariables.normalKey rt .argsPost key)
    ((Multimap.values values key).map fun value => ⟨⟨address key, key⟩, value⟩)

theorem urlencoded_argsPost (mime storagePath : Bytes) (v : TransactionVariables) :
    ((urlencodedBodyProcessor rt tick address).processRequest (.ok q) mime storagePath v).1.map
        .argsPost =
      (rt.mapOrder tick 0 (Url.parseQuery q (byte '&')).keys).foldl
        (storeValues rt address (Url.parseQuery q (byte '&'))) (v.map .argsPost) := by
  simp only [urlencodedBodyProcessor, TransactionVariables.setSingle_map]
  symm
  apply List.foldl_hom fun v : TransactionVariables => v.map .argsPost
  intro v key
  simp [TransactionVariables.mapSet, TransactionVariables.setMap, MapData.set, storeValues]

/-- The values under a key of the collection have one name, which belongs under it. -/
def OneName (data : MapData) : Prop :=
  ∀ normal, ∀ pair ∈ Multimap.values data normal,
    TransactionVariables.normalKey rt .argsPost pair.key.text = normal ∧
      ∀ other ∈ Multimap.values data normal, other.key.text = pair.key.text

theorem OneName.empty : OneName rt ∅ := by
  intro normal pair absent
  cases absent

theorem OneName.storeValues {data : MapData} (oneName : OneName rt data) (values : Url.Values)
    (key : Bytes) : OneName rt (storeValues rt address values data key) := by
  intro normal pair found
  by_cases here : normal = TransactionVariables.normalKey rt .argsPost key
  · subst here
    simp only [Obsidian.storeValues, Multimap.values_insert_self, List.mem_map] at found ⊢
    obtain ⟨value, _, rfl⟩ := found
    refine ⟨rfl, ?_⟩
    rintro other ⟨_, _, rfl⟩
    rfl
  · simp only [Obsidian.storeValues, Multimap.values_insert_ne data _ here] at found ⊢
    exact oneName normal pair found

theorem urlencoded_oneName (keys : List Bytes) (values : Url.Values) {data : MapData}
    (oneName : OneName rt data) :
    OneName rt (keys.foldl (storeValues rt address values) data) := by
  induction keys generalizing data with
  | nil => exact oneName
  | cons key rest ih => exact ih (oneName.storeValues rt address values key)

theorem OneName.same_key {data : MapData} (oneName : OneName rt data) {pair other : Bytes × Bytes}
    (found : pair ∈ data.pairs) (alsoFound : other ∈ data.pairs)
    (same : TransactionVariables.normalKey rt .argsPost pair.1 =
      TransactionVariables.normalKey rt .argsPost other.1) : pair.1 = other.1 := by
  obtain ⟨normal, entry, stored, rfl⟩ := Multimap.mem_collect.mp found
  obtain ⟨_, otherEntry, otherStored, rfl⟩ := Multimap.mem_collect.mp alsoFound
  obtain ⟨rfl, agree⟩ := oneName normal entry stored
  obtain ⟨rfl, _⟩ := oneName _ otherEntry otherStored
  rw [← same] at otherStored
  exact (agree otherEntry otherStored).symm

/-- No two keys of the query are stored under one key of the collection. -/
def KeysApart : Prop :=
  ∀ key ∈ (Url.queryPairs q).map Prod.fst, ∀ other ∈ (Url.queryPairs q).map Prod.fst,
    TransactionVariables.normalKey rt .argsPost key =
      TransactionVariables.normalKey rt .argsPost other → key = other

instance : Decidable (KeysApart rt q) := inferInstanceAs (Decidable (∀ key ∈ _, ∀ other ∈ _, _))

theorem mem_parseQuery_keys {key : Bytes} (found : key ∈ (Url.parseQuery q (byte '&')).keys) :
    key ∈ (Url.queryPairs q).map Prod.fst := by
  rw [Url.parseQuery_eq] at found
  have grown : ∀ (pairs : List (Bytes × Bytes)) (m : Url.Values),
      key ∈ (pairs.foldl (fun m pair => Multimap.push m pair.1 pair.2) m).keys →
        key ∈ m.keys ∨ key ∈ pairs.map Prod.fst := by
    intro pairs
    induction pairs with
    | nil => exact fun m present => .inl present
    | cons pair rest ih =>
      intro m present
      rcases ih _ present with old | later
      · rcases (AList.mem_insert m).mp old with here | before
        · exact .inr (by simp [here])
        · exact .inl before
      · exact .inr (List.mem_cons_of_mem _ later)
  rcases grown (Url.queryPairs q) ∅ found with absent | listed
  · cases absent
  · exact listed

theorem urlencoded_perm (apart : KeysApart rt q) :
    ((rt.mapOrder tick 0 (Url.parseQuery q (byte '&')).keys).foldl
      (storeValues rt address (Url.parseQuery q (byte '&'))) ∅).pairs.Perm (Url.queryPairs q) := by
  have order := rt.mapOrder_perm tick 0 (Url.parseQuery q (byte '&')).keys
  have distinct : ((rt.mapOrder tick 0 (Url.parseQuery q (byte '&')).keys).map
      (TransactionVariables.normalKey rt .argsPost)).Nodup := by
    apply List.Nodup.map_on
    · intro key found other otherFound same
      exact apart key (mem_parseQuery_keys q (order.subset found)) other
        (mem_parseQuery_keys q (order.subset otherFound)) same
    · exact order.nodup_iff.mpr (Url.parseQuery q (byte '&')).keys_nodup
  have collected := Multimap.collect_foldl_insert
    (fun (_ : Bytes) (pair : KeyValue) => (pair.key.text, pair.value))
    (TransactionVariables.normalKey rt .argsPost)
    (fun key => (Multimap.values (Url.parseQuery q (byte '&')) key).map
      fun value => (⟨⟨address key, key⟩, value⟩ : KeyValue)) distinct
    (m := ∅) (fun _ _ => AList.notMem_empty _)
  refine List.Perm.trans collected ?_
  simp only [Multimap.collect_empty, List.append_nil, List.map_map]
  exact (order.flatMap_right _).trans (Url.parseQuery_perm q)

end

theorem arguments_alike_iff (host : Host) (waf : WAF) (tick bodyTick : Nat) (address : Bytes → Addr)
    (q mime storagePath : Bytes) (v : TransactionVariables) (noGet : v.map .argsGet = ∅)
    (noPost : v.map .argsPost = ∅) (few : (Url.queryPairs q).length < waf.argumentLimit) :
    let get := ((extractGetArguments (host.withQueries address) waf tick q v).map .argsGet).pairs
    let post := (((urlencodedBodyProcessor host.toRuntime bodyTick address).processRequest (.ok q) mime
      storagePath v).1.map .argsPost).pairs
    (get.Perm post ∧ get.Perm (Url.queryPairs q) ∧ post.Perm (Url.queryPairs q)) ↔
      KeysApart host.toRuntime q := by
  intro get post
  have arguments := queryArguments_perm host.toRuntime tick address q
  have got : get.Perm (Url.queryPairs q) := by
    have added := addArgument_foldl (host.withQueries address) waf .argsGet
      (queryArguments host.toRuntime tick address q) v (by
        rw [noGet]
        have same := arguments.length_eq
        rw [List.length_map] at same
        simpa [same] using few)
    rw [noGet] at added
    exact added.trans arguments
  have stored : post = ((host.mapOrder bodyTick 0 (Url.parseQuery q (byte '&')).keys).foldl
      (storeValues host.toRuntime address (Url.parseQuery q (byte '&'))) ∅).pairs := by
    simp only [post]
    rw [urlencoded_argsPost, noPost]
  constructor
  · rintro ⟨_, _, whole⟩ key named other otherNamed same
    obtain ⟨pair, found, rfl⟩ := List.mem_map.mp named
    obtain ⟨otherPair, otherFound, rfl⟩ := List.mem_map.mp otherNamed
    have oneName := urlencoded_oneName host.toRuntime address
      (host.mapOrder bodyTick 0 (Url.parseQuery q (byte '&')).keys) (Url.parseQuery q (byte '&'))
      (OneName.empty host.toRuntime)
    rw [stored] at whole
    exact oneName.same_key host.toRuntime (whole.symm.subset found) (whole.symm.subset otherFound) same
  · intro apart
    have whole := urlencoded_perm host.toRuntime bodyTick address q apart
    rw [← stored] at whole
    exact ⟨got.trans whole.symm, got, whole⟩

def plainGetPairs (q : Bytes) : List (Bytes × Bytes) :=
  ((extractGetArguments (Host.plain.withQueries fun _ => .nil) (newWAF []) 0 q .new).map .argsGet).pairs

def plainPostPairs (q : Bytes) : List (Bytes × Bytes) :=
  (((urlencodedBodyProcessor Host.plain.toRuntime 0 fun _ => .nil).processRequest (.ok q) [] []
    .new).1.map .argsPost).pairs

theorem arguments_alike_repeated :
    (plainGetPairs (str "a=1&b&a=2%26")).Perm [(str "a", str "1"), (str "b", []), (str "a", str "2&")] ∧
      (plainPostPairs (str "a=1&b&a=2%26")).Perm (plainGetPairs (str "a=1&b&a=2%26")) := by
  have alike := (arguments_alike_iff Host.plain (newWAF []) 0 0 (fun _ => .nil) (str "a=1&b&a=2%26")
    [] [] .new rfl rfl (by decide)).mpr (by decide)
  exact ⟨alike.2.1, alike.1.symm⟩

/-- Of two keys that differ in case only, the form keeps one. -/
theorem arguments_case :
    (plainGetPairs (str "a=1&A=2")).Perm [(str "a", str "1"), (str "A", str "2")] ∧
      plainPostPairs (str "a=1&A=2") = [(str "a", str "1")] := by
  decide

end Obsidian
