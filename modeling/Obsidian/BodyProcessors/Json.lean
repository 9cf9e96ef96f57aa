import Obsidian.Api
import Obsidian.BodyProcessors.Urlencoded
import Obsidian.Data.Json

namespace Obsidian

open Obsidian.Data

/-! # JSON bodies

The body processor for JSON flattens a document into one argument for each path.  What
`gjson` makes of a text is a parameter; it gives the members of an object and the
elements of an array in the order of the document.
-/

namespace JsonBody

abbrev Flat := AList fun _ : Bytes => Bytes

mutual

/-- One call of the iterator of `readItems`, with the key already appended. -/
def readValue : Json → (objKey : Bytes) → Flat → Flat
  | .null, objKey, res => res.insert objKey []
  | .raw text, objKey, res => res.insert objKey text
  | .string text, objKey, res => res.insert objKey text
  | .object members, objKey, res => readMembers members objKey res
  | .array elements, objKey, res => readElements elements 0 objKey res

def readMembers : List (Bytes × Json) → (objKey : Bytes) → Flat → Flat
  | [], _, res => res
  | member :: rest, objKey, res =>
    readMembers rest objKey (readValue member.2 (objKey ++ byte '.' :: member.1) res)

def readElements : List Json → (arrayLen : Nat) → (objKey : Bytes) → Flat → Flat
  | [], arrayLen, objKey, res => if 0 < arrayLen then res.insert objKey (itoa arrayLen) else res
  | value :: rest, arrayLen, objKey, res =>
    readElements rest (arrayLen + 1) objKey (readValue value (objKey ++ byte '.' :: itoa arrayLen) res)

end

/-- A scalar is gone through like an array that has it as its only element. -/
def readItems (json : Json) (objKey : Bytes) (res : Flat) : Flat :=
  match json with
  | .object members => readMembers members objKey res
  | .array elements => readElements elements 0 objKey res
  | scalar => readElements [scalar] 0 objKey res

def readJSON (json : Json) : Flat := readItems json (str "json") ∅

example : (readJSON (.object [(str "data", .object [(str "name", .string (str "John"))]),
    (str "items", .array [.raw (str "1"), .null])])).entries.reverse.map (fun e => (e.1, e.2)) =
    [(str "json.data.name", str "John"), (str "json.items.0", str "1"), (str "json.items.1", []),
      (str "json.items", str "2")] := by
  decide

end JsonBody

section

variable (rt : Runtime) (tick : Nat) (address : Bytes → Addr) (parse : Bytes → Json)

def storeFlat (field : MapField) (data : JsonBody.Flat) (v : TransactionVariables) :
    TransactionVariables :=
  (rt.mapOrder tick 0 data.keys).foldl (fun v key =>
    v.mapSetIndex rt field ⟨address key, key⟩ 0 ((data.lookup key).getD [])) v

def jsonBodyProcessor : BodyProcessor where
  processRequest := fun body _ _ v =>
    match body with
    | .error err => (v, some err)
    | .ok ss =>
      let v := storeFlat rt tick address .argsPost (JsonBody.readJSON (parse ss)) v
      (v.mapSet rt .tx (.lit "json_request_body") [ss], none)
  processResponse := fun body v =>
    match body with
    | .error err => (v, some err)
    | .ok ss =>
      let v := storeFlat rt tick address .responseArgs (JsonBody.readJSON (parse ss)) v
      (v.mapSet rt .tx (.lit "json_response_body") [ss], none)

end

/-! ## Paths -/

namespace JsonBody

mutual

def leaves : Json → List Bytes
  | .null => [[]]
  | .raw text => [text]
  | .string text => [text]
  | .object members => memberLeaves members
  | .array elements => elementLeaves elements

def memberLeaves : List (Bytes × Json) → List Bytes
  | [] => []
  | member :: rest => leaves member.2 ++ memberLeaves rest

def elementLeaves : List Json → List Bytes
  | [] => []
  | value :: rest => leaves value ++ elementLeaves rest

end

mutual

/-- The paths below a path, with their scalars and the lengths of arrays, in the order of
the document; the length of an array comes after its elements. -/
def paths : Json → (path : Bytes) → List (Bytes × Bytes)
  | .null, path => [(path, [])]
  | .raw text, path => [(path, text)]
  | .string text, path => [(path, text)]
  | .object members, path => memberPaths members path
  | .array elements, path => elementPaths elements 0 path

def memberPaths : List (Bytes × Json) → (path : Bytes) → List (Bytes × Bytes)
  | [], _ => []
  | member :: rest, path => paths member.2 (path ++ byte '.' :: member.1) ++ memberPaths rest path

def elementPaths : List Json → (index : Nat) → (path : Bytes) → List (Bytes × Bytes)
  | [], index, path => if 0 < index then [(path, itoa index)] else []
  | value :: rest, index, path =>
    paths value (path ++ byte '.' :: itoa index) ++ elementPaths rest (index + 1) path

end

def documentPaths (json : Json) : List (Bytes × Bytes) :=
  match json with
  | .object members => memberPaths members (str "json")
  | .array elements => elementPaths elements 0 (str "json")
  | scalar => elementPaths [scalar] 0 (str "json")

def write (res : Flat) (entry : Bytes × Bytes) : Flat := res.insert entry.1 entry.2

mutual

theorem readValue_eq : ∀ (value : Json) (path : Bytes) (res : Flat),
    readValue value path res = (paths value path).foldl write res
  | .null, _, _ => rfl
  | .raw _, _, _ => rfl
  | .string _, _, _ => rfl
  | .object members, path, res => readMembers_eq members path res
  | .array elements, path, res => readElements_eq elements 0 path res

theorem readMembers_eq : ∀ (members : List (Bytes × Json)) (path : Bytes) (res : Flat),
    readMembers members path res = (memberPaths members path).foldl write res
  | [], _, _ => rfl
  | member :: rest, path, res => by
    rw [readMembers, memberPaths, List.foldl_append, readMembers_eq rest, readValue_eq member.2]

theorem readElements_eq : ∀ (elements : List Json) (index : Nat) (path : Bytes) (res : Flat),
    readElements elements index path res = (elementPaths elements index path).foldl write res
  | [], index, path, res => by
    rw [readElements, elementPaths]
    split <;> rfl
  | value :: rest, index, path, res => by
    rw [readElements, elementPaths, List.foldl_append, readElements_eq rest, readValue_eq value]

end

theorem readJSON_eq (json : Json) : readJSON json = (documentPaths json).foldl write ∅ := by
  cases json with
  | object members => exact readMembers_eq members _ _
  | array elements => exact readElements_eq elements 0 _ _
  | null => exact readElements_eq [.null] 0 _ _
  | raw text => exact readElements_eq [.raw text] 0 _ _
  | string text => exact readElements_eq [.string text] 0 _ _

def lastAt (json : Json) (path : Bytes) : Option Bytes :=
  ((documentPaths json).filter (·.1 = path)).getLast?.map Prod.snd

theorem lookup_readJSON (json : Json) (path : Bytes) :
    (readJSON json).lookup path = lastAt json path := by
  rw [readJSON_eq]
  have written := lookup_foldl_insert Prod.fst Prod.snd (documentPaths json) (∅ : Flat) path
  rw [AList.lookup_empty, Option.or_none] at written
  exact written

theorem mem_keys_readJSON {json : Json} {path : Bytes} :
    path ∈ (readJSON json).keys ↔ ∃ entry ∈ documentPaths json, entry.1 = path := by
  have present : path ∈ (readJSON json).keys ↔ (lastAt json path).isSome = true := by
    rw [← lookup_readJSON]
    exact AList.lookup_isSome.symm
  rw [present, lastAt, Option.isSome_map]
  constructor
  · intro found
    obtain ⟨entry, last⟩ := Option.isSome_iff_exists.mp found
    have member := List.mem_filter.mp (List.mem_of_getLast? last)
    exact ⟨entry, member.1, by simpa using member.2⟩
  · rintro ⟨entry, written, rfl⟩
    have member : entry ∈ (documentPaths json).filter (·.1 = entry.1) := by simp [written]
    rw [List.getLast?_eq_some_getLast (List.ne_nil_of_mem member)]
    rfl

section

variable (rt : Runtime) (json : Json)

/-- The text is what the document gives last for a path, in every spelling of the path
that the collection does not tell apart. -/
def Shown (text : Bytes) : Prop :=
  ∃ entry ∈ documentPaths json, ∀ other ∈ documentPaths json,
    TransactionVariables.normalKey rt .argsPost other.1 =
      TransactionVariables.normalKey rt .argsPost entry.1 → lastAt json other.1 = some text

instance (text : Bytes) : Decidable (Shown rt json text) :=
  inferInstanceAs (Decidable (∃ entry ∈ _, ∀ other ∈ _, _))

end

end JsonBody

/-! ## Arguments -/

def Runtime.ordered (rt : Runtime) (order : List Bytes → List Bytes)
    (perm : ∀ keys, (order keys).Perm keys) : Runtime :=
  { rt with mapOrder := fun _ _ => order, mapOrder_perm := fun _ _ => perm }

section

variable (rt : Runtime) (tick : Nat) (address : Bytes → Addr) (flat : JsonBody.Flat)

theorem setIndex_zero {data : MapData} {normal : Bytes} (single : (data.values normal).length ≤ 1)
    (key : GoString) (value : Bytes) :
    data.setIndex normal key 0 value = data.insert normal [⟨key, value⟩] := by
  simp only [MapData.setIndex]
  match stored : data.values normal, single with
  | [], _ => rfl
  | [_], _ => rfl

def flatEntry (key : Bytes) : List KeyValue := [⟨⟨address key, key⟩, (flat.lookup key).getD []⟩]

theorem setIndex_foldl (normal : Bytes → Bytes) (keys : List Bytes) {data : MapData}
    (single : ∀ name, (Multimap.values data name).length ≤ 1) :
    keys.foldl (fun data key =>
        data.setIndex (normal key) ⟨address key, key⟩ 0 ((flat.lookup key).getD [])) data =
      keys.foldl (fun data key => data.insert (normal key) (flatEntry address flat key)) data := by
  induction keys generalizing data with
  | nil => rfl
  | cons key rest ih =>
    simp only [List.foldl_cons]
    rw [setIndex_zero (single (normal key))]
    apply ih
    intro name
    by_cases here : name = normal key
    · subst here
      simp
    · rw [Multimap.values_insert_ne data _ here]
      exact single name

theorem storeFlat_argsPost {v : TransactionVariables} (empty : v.map .argsPost = ∅) :
    (storeFlat rt tick address .argsPost flat v).map .argsPost =
      (rt.mapOrder tick 0 flat.keys).foldl (fun data key =>
        data.insert (TransactionVariables.normalKey rt .argsPost key) (flatEntry address flat key)) ∅ := by
  rw [← setIndex_foldl address flat _ _ (by
    intro name
    exact Nat.zero_le 1), ← empty]
  symm
  apply List.foldl_hom fun v : TransactionVariables => v.map .argsPost
  intro v key
  simp [TransactionVariables.mapSetIndex, TransactionVariables.setMap]

/-- An argument has the text iff the last key that is stored under some name does. -/
theorem storeFlat_mem {v : TransactionVariables} (empty : v.map .argsPost = ∅) {text : Bytes} :
    (∃ pair ∈ ((storeFlat rt tick address .argsPost flat v).map .argsPost).pairs, pair.2 = text) ↔
      ∃ name key, ((rt.mapOrder tick 0 flat.keys).filter
        (TransactionVariables.normalKey rt .argsPost · = name)).getLast? = some key ∧
          (flat.lookup key).getD [] = text := by
  have stored : ∀ name, Multimap.values ((storeFlat rt tick address .argsPost flat v).map .argsPost) name =
      (((rt.mapOrder tick 0 flat.keys).filter
        (TransactionVariables.normalKey rt .argsPost · = name)).getLast?.map
          (flatEntry address flat)).getD [] := by
    intro name
    rw [storeFlat_argsPost rt tick address flat empty, Multimap.values, lookup_foldl_insert]
    simp
  constructor
  · rintro ⟨pair, found, rfl⟩
    obtain ⟨name, entry, held, rfl⟩ := Multimap.mem_collect.mp found
    rw [stored] at held
    cases last : ((rt.mapOrder tick 0 flat.keys).filter
        (TransactionVariables.normalKey rt .argsPost · = name)).getLast? with
    | none => simp [last] at held
    | some key =>
      simp only [last, Option.map_some, Option.getD_some, flatEntry, List.mem_singleton] at held
      exact ⟨name, key, last, by rw [held]⟩
  · rintro ⟨name, key, last, rfl⟩
    refine ⟨(key, (flat.lookup key).getD []), ?_, rfl⟩
    refine Multimap.mem_collect.mpr ⟨name, ⟨⟨address key, key⟩, (flat.lookup key).getD []⟩, ?_, rfl⟩
    rw [stored, last]
    exact List.mem_singleton_self _

end

namespace JsonBody

section

variable (rt : Runtime) (json : Json) (text : Bytes)

def shownFirst (keys : List Bytes) : List Bytes :=
  keys.filter (lastAt json · = some text) ++ keys.filter (lastAt json · ≠ some text)

theorem shownFirst_perm (keys : List Bytes) : (shownFirst json text keys).Perm keys := by
  have split := List.filter_append_perm (fun key => decide (lastAt json key = some text)) keys
  simpa [shownFirst] using split

variable {rt json text}

theorem shownFirst_last {name key : Bytes}
    (last : ((shownFirst json text (readJSON json).keys).filter
      (TransactionVariables.normalKey rt .argsPost · = name)).getLast? = some key)
    (has : lastAt json key = some text) :
    ∀ other ∈ (readJSON json).keys, TransactionVariables.normalKey rt .argsPost other = name →
      lastAt json other = some text := by
  intro other found named
  by_contra lacks
  have later : other ∈ ((readJSON json).keys.filter (lastAt json · ≠ some text)).filter
      (TransactionVariables.normalKey rt .argsPost · = name) := by
    simp [found, lacks, named]
  rw [shownFirst, List.filter_append, List.getLast?_append_of_ne_nil _ (List.ne_nil_of_mem later)] at last
  have member := List.mem_of_getLast? last
  simp [has] at member

theorem shown_of_last {name key : Bytes}
    (last : ((shownFirst json text (readJSON json).keys).filter
      (TransactionVariables.normalKey rt .argsPost · = name)).getLast? = some key)
    (has : lastAt json key = some text) : Shown rt json text := by
  have member := List.mem_filter.mp (List.mem_of_getLast? last)
  have present := (shownFirst_perm json text _).subset member.1
  have named : TransactionVariables.normalKey rt .argsPost key = name := by simpa using member.2
  obtain ⟨entry, written, rfl⟩ := mem_keys_readJSON.mp present
  refine ⟨entry, written, ?_⟩
  intro other otherWritten same
  exact shownFirst_last last has other.1 (mem_keys_readJSON.mpr ⟨other, otherWritten, rfl⟩)
    (same.trans named)

end

end JsonBody

theorem json_hidesNothing_iff (rt : Runtime) (tick : Nat) (address : Bytes → Addr)
    (parse : Bytes → Json) (body mime storagePath : Bytes) (v : TransactionVariables)
    (empty : v.map .argsPost = ∅) :
    (∀ order, ∀ perm : ∀ keys, (order keys).Perm keys, ∀ text ∈ JsonBody.leaves (parse body),
      ∃ pair ∈ (((jsonBodyProcessor (rt.ordered order perm) tick address parse).processRequest
        (.ok body) mime storagePath v).1.map .argsPost).pairs, pair.2 = text) ↔
    ∀ text ∈ JsonBody.leaves (parse body), JsonBody.Shown rt (parse body) text := by
  have kept : ∀ order perm, ((jsonBodyProcessor (rt.ordered order perm) tick address parse).processRequest
      (.ok body) mime storagePath v).1.map .argsPost =
        (storeFlat (rt.ordered order perm) tick address .argsPost
          (JsonBody.readJSON (parse body)) v).map .argsPost := by
    intro order perm
    simp [jsonBodyProcessor, TransactionVariables.mapSet, TransactionVariables.setMap]
  simp only [kept, storeFlat_mem _ tick address _ empty, JsonBody.lookup_readJSON]
  constructor
  · intro shows text leaf
    obtain ⟨name, key, last, has⟩ := shows (JsonBody.shownFirst (parse body) text)
      (JsonBody.shownFirst_perm (parse body) text) text leaf
    have present := (JsonBody.shownFirst_perm (parse body) text _).subset
      (List.mem_filter.mp (List.mem_of_getLast? last)).1
    obtain ⟨value, given⟩ := AList.lookup_isSome.mpr present |> Option.isSome_iff_exists.mp
    rw [JsonBody.lookup_readJSON] at given
    rw [given] at has
    exact JsonBody.shown_of_last last (given.trans (congrArg some has))
  · intro shown order perm text leaf
    obtain ⟨entry, written, agree⟩ := shown text leaf
    have listed := (perm _).symm.subset (JsonBody.mem_keys_readJSON.mpr ⟨entry, written, rfl⟩)
    have member : entry.1 ∈ (order (JsonBody.readJSON (parse body)).keys).filter
        (TransactionVariables.normalKey rt .argsPost · =
          TransactionVariables.normalKey rt .argsPost entry.1) := by
      simp [listed]
    have last := List.getLast?_eq_some_getLast (List.ne_nil_of_mem member)
    refine ⟨TransactionVariables.normalKey rt .argsPost entry.1, _, last, ?_⟩
    have chosen := List.mem_filter.mp (List.mem_of_getLast? last)
    obtain ⟨other, otherWritten, same⟩ := JsonBody.mem_keys_readJSON.mp ((perm _).subset chosen.1)
    rw [← same] at chosen ⊢
    rw [agree other otherWritten (by simpa using chosen.2)]
    rfl

def plainJsonArguments (json : Json) : List (Bytes × Bytes) :=
  (((jsonBodyProcessor (Host.plain.toRuntime.ordered id fun _ => .refl _) 0 (fun _ => .nil)
    fun _ => json).processRequest (.ok []) [] [] .new).1.map .argsPost).pairs

theorem json_hidesNothing_nested :
    ∃ pair ∈ plainJsonArguments (.object [(str "A", .raw (str "1")), (str "b", .array [.string (str "x")])]),
      pair.2 = str "x" :=
  (json_hidesNothing_iff Host.plain.toRuntime 0 (fun _ => .nil)
    (fun _ => .object [(str "A", .raw (str "1")), (str "b", .array [.string (str "x")])]) [] [] [] .new
    rfl).mpr (by decide) id (fun _ => .refl _) (str "x") (by decide)

/-- Values are hidden by members of one name, by names that differ in case, by a name with a
dot, and by the length of an array under the name of a scalar. -/
theorem json_hides :
    plainJsonArguments (.object [(str "a", .raw (str "1")), (str "a", .raw (str "2"))]) =
        [(str "json.a", str "2")] ∧
      plainJsonArguments (.object [(str "a", .raw (str "1")), (str "A", .raw (str "2"))]) =
        [(str "json.a", str "1")] ∧
      plainJsonArguments (.object [(str "a.b", .raw (str "1")),
        (str "a", .object [(str "b", .raw (str "2"))])]) = [(str "json.a.b", str "2")] ∧
      plainJsonArguments (.object [(str "a", .string (str "x")), (str "a", .array [.null])]) =
        [(str "json.a.0", []), (str "json.a", str "1")] := by
  decide

end Obsidian
