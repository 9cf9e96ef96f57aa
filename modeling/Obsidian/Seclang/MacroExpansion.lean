import Obsidian.Api
import Obsidian.Data.Decimal
import Obsidian.Seclang.Macros

namespace Obsidian

open Obsidian.Data

/-! # Expansion of macros

`Expand` of a compiled macro and the `setvar` action that rests on it.  `none` is the
panic of a nil collection or a nil macro.
-/

structure CompiledMacro where
  original : Bytes
  tokens : List MacroToken
deriving DecidableEq, Repr

def errEmptyData : GoError := str "empty data"

def CompiledMacro.new (host : SeclangHost) (data : Bytes) : Except GoError CompiledMacro :=
  if data = [] then .error errEmptyData
  else (host.compileMacro data).map fun tokens => { original := data, tokens }

/-- `Get` of the keyed collections.  The views of names read the values of what they stand over. -/
def TransactionVariables.keyedGet (rt : Runtime) (v : TransactionVariables) (key : Bytes) :
    Collection → List Bytes
  | .map field | .names field _ => v.mapGet rt field key
  | .concat _ fields | .concatNames _ fields =>
    fields.flatMap fun field => v.mapGet rt field (rt.toLower key)
  | _ => []

def expandToken (rt : Runtime) (v : TransactionVariables) (token : MacroToken) : Option Bytes :=
  if token.var = .unknown then some token.text
  else
    match token.var.collection with
    | .absent => none
    | .single field => some (v.single field)
    | col =>
      if col.keyed then some ((v.keyedGet rt token.key col).head?.getD token.text)
      else
        -- no collection that is left is a map, so the order of a map does not show
        some (((v.findAll rt 0 col).head?.map (·.value)).getD token.text)

def CompiledMacro.expand (rt : Runtime) (m : CompiledMacro) (v : TransactionVariables) :
    Option Bytes :=
  match m.tokens with
  | [token] => expandToken rt v token
  | tokens => tokens.foldlM (fun res token => (expandToken rt v token).map (res ++ ·)) []

def CompiledMacro.toMacro (rt : Runtime) (m : CompiledMacro) : Macro where
  expand := fun v => (m.expand rt v).getD []
  string := m.original

/-! ## The nil collection -/

def CompiledMacro.Backed (m : CompiledMacro) : Prop := ∀ token ∈ m.tokens, token.var ≠ .json

instance (m : CompiledMacro) : Decidable m.Backed :=
  inferInstanceAs (Decidable (∀ token ∈ m.tokens, token.var ≠ .json))

theorem RuleVariable.collection_absent {v : RuleVariable} (nil : v.collection = .absent) :
    v = .json := by
  cases v <;> first | rfl | cases nil

theorem expandToken_eq_none {rt : Runtime} {v : TransactionVariables} {token : MacroToken} :
    expandToken rt v token = none ↔ token.var = .json := by
  rw [expandToken]
  constructor
  · intro panics
    split at panics
    · cases panics
    · split at panics
      · next nil => exact RuleVariable.collection_absent nil
      · cases panics
      · split at panics <;> cases panics
  · intro json
    rw [json]
    rfl

theorem foldlM_expandToken {rt : Runtime} {v : TransactionVariables} {tokens : List MacroToken}
    (res : Bytes) :
    (∃ text, tokens.foldlM (fun res token => (expandToken rt v token).map (res ++ ·)) res =
      some text) ↔ ∀ token ∈ tokens, token.var ≠ .json := by
  induction tokens generalizing res with
  | nil => simp
  | cons token rest ih =>
    rw [List.foldlM_cons, List.forall_mem_cons]
    cases expands : expandToken rt v token with
    | none => simp [expandToken_eq_none.mp expands]
    | some text =>
      have known : token.var ≠ .json := fun json => by
        rw [expandToken_eq_none.mpr json] at expands
        cases expands
      simpa [known] using ih (res ++ text)

/-- A macro expands in a transaction just when no token of it stands for the nil collection. -/
theorem CompiledMacro.expand_iff (m : CompiledMacro) (rt : Runtime) (v : TransactionVariables) :
    (∃ text, m.expand rt v = some text) ↔ m.Backed := by
  rw [CompiledMacro.expand, Backed]
  split
  · next token only =>
      rw [only, ← Option.ne_none_iff_exists', Ne, expandToken_eq_none]
      simp
  · exact foldlM_expandToken []

/-! ## setvar -/

structure SetvarFn where
  key : CompiledMacro
  value : Option CompiledMacro
  isRemove : Bool
deriving DecidableEq, Repr

namespace SetvarFn

/-- Whether the argument asks for a removal, and the rest of it. -/
def cutBang (data : Bytes) : Bool × Bytes :=
  if data.head? = some (byte '!') then (true, data.tail) else (false, data)

/-- The key and the value of an argument, if it has one. -/
def cutValue (data : Bytes) : Bytes × Option Bytes :=
  ((cut (byte '=') data).map fun (key, val) => (key, some val)).getD (data, none)

/-- The key inside TX. -/
def cutKey (host : SeclangHost) (key : Bytes) : Except GoError Bytes :=
  let (colKey, colVal) := (cut (byte '.') key).getD (key, [])
  if host.toUpper colKey ≠ str "TX" then
    .error (str "invalid arguments, expected collection TX")
  else if trimSpace colVal = [] then
    .error (str "invalid arguments, expected syntax TX.\x7bkey\x7d=\x7bvalue\x7d")
  else .ok colVal

def init (host : SeclangHost) (data : Bytes) : Except GoError SetvarFn :=
  if data = [] then .error errMissingArguments
  else
    let (isRemove, data) := cutBang data
    let (key, val) := cutValue data
    do
      let colVal ← cutKey host key
      let key ← CompiledMacro.new host colVal
      match val with
      | some val => (CompiledMacro.new host val).map fun value => { key, value := some value, isRemove }
      | none => .ok { key, value := none, isRemove }

def evaluate (rt : Runtime) (a : SetvarFn) (tx : Transaction) : Option Transaction := do
  let _ ← a.key.expand rt tx.vars
  let value ← a.value
  let _ ← value.expand rt tx.vars
  some (evaluateSetvar rt (a.key.toMacro rt) (value.toMacro rt) a.isRemove tx)

/-- What `Init` reads in an argument. -/
structure Reads (host : SeclangHost) (data : Bytes) (a : SetvarFn) (col k : Bytes)
    (v : Option Bytes) : Prop where
  written : data = (if a.isRemove then [byte '!'] else []) ++ col ++ byte '.' :: k ++
    (v.elim [] fun v => byte '=' :: v)
  isTX : host.toUpper col = str "TX"
  key : CompiledMacro.new host k = .ok a.key
  value : (v.map (CompiledMacro.new host)) = a.value.map .ok
  none : v = none → byte '=' ∉ data

theorem cutKey_ok {host : SeclangHost} {key k : Bytes} (keyed : cutKey host key = .ok k) :
    ∃ col, key = col ++ byte '.' :: k ∧ host.toUpper col = str "TX" := by
  rw [cutKey] at keyed
  cases found : cut (byte '.') key with
  | none =>
    rw [found, Option.getD_none] at keyed
    simp only [show trimSpace [] = [] from rfl, if_true] at keyed
    split at keyed <;> cases keyed
  | some parts =>
    obtain ⟨col, rest⟩ := parts
    rw [found, Option.getD_some] at keyed
    simp only at keyed
    split at keyed
    · cases keyed
    · next isTX =>
        split at keyed
        · cases keyed
        · cases keyed
          exact ⟨col, eq_of_cut found, not_not.mp isTX⟩

theorem cutValue_eq {data key : Bytes} {val : Option Bytes} (parts : cutValue data = (key, val)) :
    data = key ++ val.elim [] (byte '=' :: ·) ∧ (val = none → byte '=' ∉ data) := by
  cases found : cut (byte '=') data with
  | none =>
    simp only [cutValue, found, Option.map_none, Option.getD_none, Prod.mk.injEq] at parts
    obtain ⟨rfl, rfl⟩ := parts
    exact ⟨by simp, fun _ => cut_eq_none.mp found⟩
  | some pair =>
    simp only [cutValue, found, Option.map_some, Option.getD_some, Prod.mk.injEq] at parts
    obtain ⟨rfl, rfl⟩ := parts
    exact ⟨eq_of_cut found, nofun⟩

theorem cutBang_eq {data body : Bytes} {isRemove : Bool} (bang : cutBang data = (isRemove, body)) :
    data = (if isRemove then [byte '!'] else []) ++ body := by
  rw [cutBang] at bang
  split at bang
  · next is =>
      cases bang
      exact (List.head?_eq_some_iff.mp is).elim fun rest whole => by rw [whole]; rfl
  · cases bang
    rfl

theorem init_ok {host : SeclangHost} {data : Bytes} {a : SetvarFn}
    (accepted : init host data = .ok a) : ∃ col k v, Reads host data a col k v := by
  rw [init] at accepted
  split at accepted
  · cases accepted
  rcases bang : cutBang data with ⟨isRemove, body⟩
  rcases parts : cutValue body with ⟨written, val⟩
  simp only [bang, parts] at accepted
  obtain ⟨k, keyed, later⟩ := exceptBind_ok accepted
  obtain ⟨key, compiled, made⟩ := exceptBind_ok later
  obtain ⟨col, rfl, isTX⟩ := cutKey_ok keyed
  obtain ⟨rfl, noValue⟩ := cutValue_eq parts
  have whole := cutBang_eq bang
  have unsigned : val = none → byte '=' ∉ data := by
    intro none_
    rw [whole, List.mem_append, not_or]
    refine ⟨?_, noValue none_⟩
    split
    · decide
    · simp
  refine ⟨col, k, val, ?_⟩
  cases val with
  | none =>
    cases made
    exact ⟨by simpa using whole, isTX, compiled, rfl, unsigned⟩
  | some v =>
    obtain ⟨value, compiledValue, rfl⟩ := exceptMap_ok made
    exact ⟨by simpa using whole, isTX, compiled, congrArg some compiledValue, unsigned⟩

end SetvarFn

def SeclangHost.withMacros (host : SeclangHost) : SeclangHost :=
  { host with newMacro := fun text =>
      (CompiledMacro.new host text).map (CompiledMacro.toMacro host.toRuntime) }

theorem initSetvar_eq (host : SeclangHost) (data : Bytes) (r : CompiledRule) :
    host.initSetvar data r =
      (SetvarFn.cutKey host (SetvarFn.cutValue (SetvarFn.cutBang data).2).1).bind fun colVal =>
        (host.newMacro colVal).bind fun _ =>
          ((SetvarFn.cutValue (SetvarFn.cutBang data).2).2.elim (.ok r) fun val =>
            (host.newMacro val).map fun _ => r) := by
  have body : (if data.head? = some (byte '!') then data.tail else data) =
      (SetvarFn.cutBang data).2 := by
    rw [SetvarFn.cutBang]
    split <;> rfl
  have cuts : ((cut (byte '=') (SetvarFn.cutBang data).2).map fun pair => (pair.1, some pair.2)).getD
      ((SetvarFn.cutBang data).2, none) = SetvarFn.cutValue (SetvarFn.cutBang data).2 := rfl
  simp only [SeclangHost.initSetvar, body, cuts, SetvarFn.cutKey]
  split
  · rfl
  · split
    · rfl
    · cases (SetvarFn.cutValue (SetvarFn.cutBang data).2).2 <;> rfl

/-- `Init` accepts what the `Init` of a rule's action accepts where macros are compiled. -/
theorem initSetvar_withMacros (host : SeclangHost) (data : Bytes) (r : CompiledRule) :
    SeclangHost.someArguments data (host.withMacros.initSetvar data r) =
      (SetvarFn.init host data).map fun _ => r := by
  rw [SeclangHost.someArguments, SetvarFn.init, initSetvar_eq]
  split
  · rfl
  · rcases SetvarFn.cutBang data with ⟨isRemove, body⟩
    dsimp only
    rcases SetvarFn.cutValue body with ⟨key, val⟩
    change (SetvarFn.cutKey host key).bind _ = Except.map _ ((SetvarFn.cutKey host key).bind _)
    cases SetvarFn.cutKey host key with
    | error err => rfl
    | ok colVal =>
      simp only [SeclangHost.withMacros, Except.bind]
      cases CompiledMacro.new host colVal with
      | error err => rfl
      | ok key =>
        cases val with
        | none => rfl
        | some val =>
          change ((CompiledMacro.new host val).map _).map _ =
            ((CompiledMacro.new host val).map _).map _
          cases CompiledMacro.new host val <;> rfl

/-! ## What setvar does to TX -/

namespace TransactionVariables

variable (rt : Runtime) (v : TransactionVariables) (field : MapField)

theorem mapGet_mapSet (key : GoString) (values : List Bytes) (other : Bytes) :
    (v.mapSet rt field key values).mapGet rt field other =
      if normalKey rt field other = normalKey rt field key.text then values
      else v.mapGet rt field other := by
  simp only [mapGet, mapSet, setMap, Function.update_self, MapData.get, MapData.set, MapData.values]
  split
  · next same =>
      rw [same, AList.lookup_insert, Option.getD_some, List.map_map]
      exact List.map_id values
  · next apart => rw [AList.lookup_insert_ne apart]

theorem mapGet_mapRemove (key other : Bytes) :
    (v.mapRemove rt field key).mapGet rt field other =
      if normalKey rt field other = normalKey rt field key then [] else v.mapGet rt field other := by
  simp only [mapGet, mapRemove, setMap, Function.update_self, MapData.get, MapData.values]
  split
  · next same => rw [same, AList.lookup_erase]; rfl
  · next apart => rw [AList.lookup_erase_ne apart]

structure KeepsOthers (key : Bytes) (before after : TransactionVariables) : Prop where
  single : after.single = before.single
  maps : ∀ field, field ≠ .tx → after.map field = before.map field
  keys : ∀ other, normalKey rt .tx other ≠ normalKey rt .tx key →
    after.mapGet rt .tx other = before.mapGet rt .tx other

end TransactionVariables

def setvarInt (text : Bytes) : Option Int := if text = [] then some 0 else atoi text

/-- By how much a value asks the key to be changed: a sign with a number behind it. -/
def setvarChange : Bytes → Option Int
  | [] => none
  | sign :: digits =>
    if sign = byte '+' then setvarInt digits
    else if sign = byte '-' then (setvarInt digits).map (-·)
    else none

/-- What is asked to stand under a key that held `old`. -/
def SetvarAsked (isRemove : Bool) (old : List Bytes) (value : Bytes) (stored : List Bytes) : Prop :=
  if isRemove then stored = []
  else
    match setvarChange value with
    | some n => ∃ c, setvarInt (old.head?.getD []) = some c ∧ stored = [itoa (c + n)]
    | none => stored = [value]

/-- A value to change holds a number, and the sum fits; a signed name of TX is not stored. -/
def SetvarMet (isRemove : Bool) (old : List Bytes) (value : Bytes) : Prop :=
  isRemove = true ∨
    match setvarChange value with
    | some n => ∃ c, setvarInt (old.head?.getD []) = some c ∧ IsInt64 (c + n)
    | none => (str "+tx.").isPrefixOf value ∨ (str "-tx.").isPrefixOf value → old = [value]

theorem evaluateSetvar_keepsOthers (rt : Runtime) (key value : Macro) (isRemove : Bool)
    (tx : Transaction) :
    TransactionVariables.KeepsOthers rt (rt.toLower (key.expand tx.vars)) tx.vars
      (evaluateSetvar rt key value isRemove tx).vars := by
  unfold evaluateSetvar
  generalize rt.toLower (key.expand tx.vars) = k
  generalize value.expand tx.vars = text
  simp only
  split
  · refine ⟨rfl, fun field other => Function.update_of_ne other _ _, fun other apart => ?_⟩
    rw [TransactionVariables.mapGet_mapRemove, if_neg apart]
  · cases setvarValue _ text with
    | none => exact ⟨rfl, fun _ _ => rfl, fun _ _ => rfl⟩
    | some stored =>
      refine ⟨rfl, fun field other => Function.update_of_ne other _ _, fun other apart => ?_⟩
      exact (TransactionVariables.mapGet_mapSet ..).trans (if_neg apart)

theorem evaluateSetvar_stored (rt : Runtime) (key value : Macro) (tx : Transaction) :
    let k := rt.toLower (key.expand tx.vars)
    let current := ((tx.vars.mapGet rt .tx k).head?).getD []
    (evaluateSetvar rt key value false tx).vars.mapGet rt .tx k =
      (setvarValue current (value.expand tx.vars)).elim (tx.vars.mapGet rt .tx k) ([·]) := by
  intro k current
  simp only [evaluateSetvar, Bool.false_eq_true, if_false]
  cases setvarValue current (value.expand tx.vars) with
  | none => rfl
  | some stored => exact (TransactionVariables.mapGet_mapSet ..).trans (if_pos rfl)

theorem setvarValue_eq (current value : Bytes) :
    setvarValue current value =
      match setvarChange value with
      | some n => (setvarInt current).map fun c => itoa (wrap64 (c + n))
      | none =>
        if (str "+tx.").isPrefixOf value ∨ (str "-tx.").isPrefixOf value then none
        else some value := by
  have number : ∀ text : Bytes, (if text = [] then some 0 else atoi text) = setvarInt text :=
    fun _ => rfl
  cases value with
  | nil => rfl
  | cons sign digits =>
    have plus : str "+tx." = byte '+' :: str "tx." := rfl
    have minus : str "-tx." = byte '-' :: str "tx." := rfl
    simp only [setvarValue, setvarChange, number, plus, minus, List.isPrefixOf]
    by_cases isPlus : sign = byte '+'
    · subst isPlus
      cases setvarInt digits <;> simp [byte]
    · by_cases isMinus : sign = byte '-'
      · subst isMinus
        cases setvarInt digits <;> simp [byte, Int.sub_eq_add_neg]
      · have unsigned : ¬(sign = 43 ∨ sign = 45) := by
          rintro (is | is)
          exacts [isPlus is, isMinus is]
        simp [unsigned, isPlus, isMinus, Ne.symm isPlus, Ne.symm isMinus]

theorem setvarAsked_iff (isRemove : Bool) (old : List Bytes) (value : Bytes) :
    SetvarAsked isRemove old value
        (if isRemove then [] else (setvarValue (old.head?.getD []) value).elim old ([·])) ↔
      SetvarMet isRemove old value := by
  cases isRemove with
  | true => simp [SetvarAsked, SetvarMet]
  | false =>
    simp only [SetvarAsked, SetvarMet, setvarValue_eq, Bool.false_eq_true, if_false, false_or]
    cases setvarChange value with
    | none =>
      dsimp only
      split
      · next named => exact ⟨fun same _ => same, fun same => same named⟩
      · next other => exact ⟨fun _ named => absurd named other, fun _ => rfl⟩
    | some n =>
      cases current : setvarInt (old.head?.getD []) with
      | none => simp
      | some c =>
        simp only [Option.map_some, Option.elim_some, Option.some.injEq, exists_eq_left',
          List.cons.injEq, and_true]
        refine ⟨fun same => ?_, fun fits => by rw [wrap64_eq_self fits]⟩
        rw [← itoa_inj same]
        exact wrap64_isInt64 _

namespace SetvarFn

structure Backed (data : Bytes) (a : SetvarFn) : Prop where
  given : byte '=' ∈ data
  key : a.key.Backed
  value : ∀ value ∈ a.value, value.Backed

def Expands (rt : Runtime) (a : SetvarFn) (tx : Transaction) (key value : Bytes) : Prop :=
  a.key.expand rt tx.vars = some key ∧
    (a.value.bind fun m => m.expand rt tx.vars) = some value

/-- `Evaluate` completes, does to the key what is asked and changes nothing else. -/
def Completes (rt : Runtime) (a : SetvarFn) (tx : Transaction) : Prop :=
  ∃ key value after, a.Expands rt tx key value ∧ a.evaluate rt tx = some after ∧
    TransactionVariables.KeepsOthers rt (rt.toLower key) tx.vars after.vars ∧
    SetvarAsked a.isRemove (tx.vars.mapGet rt .tx (rt.toLower key)) value
      (after.vars.mapGet rt .tx (rt.toLower key))

theorem expands_iff {host : SeclangHost} {data : Bytes} {a : SetvarFn}
    (accepted : init host data = .ok a) (rt : Runtime) (tx : Transaction) :
    (∃ key value, a.Expands rt tx key value) ↔ a.Backed data := by
  obtain ⟨col, k, v, reads⟩ := init_ok accepted
  have given : a.value.isSome ↔ byte '=' ∈ data := by
    have same := reads.value
    cases v with
    | none =>
      have absent : a.value = none := by cases value : a.value <;> simp_all
      simp [absent, reads.none rfl]
    | some v =>
      have present : a.value.isSome := by cases value : a.value <;> simp_all
      simp [present, reads.written]
  rw [show a.Backed data ↔ byte '=' ∈ data ∧ a.key.Backed ∧ ∀ value ∈ a.value, value.Backed from
    ⟨fun b => ⟨b.given, b.key, b.value⟩, fun b => ⟨b.1, b.2.1, b.2.2⟩⟩, ← given,
    ← a.key.expand_iff rt tx.vars]
  cases value : a.value with
  | none => simp [Expands, value]
  | some m => simp [Expands, value, ← m.expand_iff rt tx.vars]

theorem evaluate_expands {rt : Runtime} {a : SetvarFn} {tx : Transaction} {key value : Bytes}
    (expands : a.Expands rt tx key value) :
    ∃ after, a.evaluate rt tx = some after ∧
      TransactionVariables.KeepsOthers rt (rt.toLower key) tx.vars after.vars ∧
      after.vars.mapGet rt .tx (rt.toLower key) =
        if a.isRemove then []
        else (setvarValue ((tx.vars.mapGet rt .tx (rt.toLower key)).head?.getD []) value).elim
          (tx.vars.mapGet rt .tx (rt.toLower key)) ([·]) := by
  obtain ⟨expandsKey, expandsValue⟩ := expands
  obtain ⟨m, isValue, expandsMacro⟩ := Option.bind_eq_some_iff.mp expandsValue
  have macroKey : (a.key.toMacro rt).expand tx.vars = key := by
    simp only [CompiledMacro.toMacro, expandsKey, Option.getD_some]
  have macroValue : (m.toMacro rt).expand tx.vars = value := by
    simp only [CompiledMacro.toMacro, expandsMacro, Option.getD_some]
  refine ⟨evaluateSetvar rt (a.key.toMacro rt) (m.toMacro rt) a.isRemove tx, ?_, ?_, ?_⟩
  · rw [evaluate, expandsKey, isValue]
    simp only [Option.bind_eq_bind, Option.bind_some, expandsMacro]
  · rw [← macroKey]
    exact evaluateSetvar_keepsOthers ..
  · cases a.isRemove with
    | true =>
      rw [← macroKey]
      exact (TransactionVariables.mapGet_mapRemove ..).trans (if_pos rfl)
    | false =>
      have stored := evaluateSetvar_stored rt (a.key.toMacro rt) (m.toMacro rt) tx
      rwa [macroKey, macroValue] at stored

end SetvarFn

/-- A macro that was accepted expands just when none of its tokens stands for the nil collection;
`setvar` does what its argument says just when that has a value, its macros expand, and a number
it changes is one, as is the result. -/
theorem macros_and_setvar_evaluate (host : SeclangHost) :
    (∀ text m, CompiledMacro.new host text = .ok m →
      ∀ v, (∃ expansion, m.expand host.toRuntime v = some expansion) ↔ m.Backed) ∧
    ∀ data a, SetvarFn.init host data = .ok a →
      (∃ col k v, SetvarFn.Reads host data a col k v) ∧
      ∀ tx : Transaction, a.Completes host.toRuntime tx ↔
        a.Backed data ∧ ∀ key value, a.Expands host.toRuntime tx key value →
          SetvarMet a.isRemove (tx.vars.mapGet host.toRuntime .tx (host.toLower key)) value := by
  refine ⟨fun text m _ v => m.expand_iff _ v, ?_⟩
  intro data a accepted
  refine ⟨SetvarFn.init_ok accepted, fun tx => ?_⟩
  rw [← SetvarFn.expands_iff accepted host.toRuntime tx]
  constructor
  · rintro ⟨key, value, after, expands, evaluates, -, asked⟩
    refine ⟨⟨key, value, expands⟩, fun key' value' expands' => ?_⟩
    obtain rfl := Option.some.inj (expands.1.symm.trans expands'.1)
    obtain rfl := Option.some.inj (expands.2.symm.trans expands'.2)
    obtain ⟨after', evaluates', -, stored⟩ := SetvarFn.evaluate_expands expands
    obtain rfl := Option.some.inj (evaluates.symm.trans evaluates')
    rw [stored] at asked
    exact (setvarAsked_iff ..).mp asked
  · rintro ⟨⟨key, value, expands⟩, met⟩
    obtain ⟨after, evaluates, kept, stored⟩ := SetvarFn.evaluate_expands expands
    refine ⟨key, value, after, expands, evaluates, kept, ?_⟩
    rw [stored]
    exact (setvarAsked_iff ..).mpr (met key value expands)

def growingCounter : SetvarFn where
  key := ⟨str "n", [⟨str "n", .unknown, []⟩]⟩
  value := some ⟨str "+%\x7btx.d\x7d", [⟨str "+", .unknown, []⟩, ⟨str "tx.d", .tx, str "d"⟩]⟩
  isRemove := false

def counterTransaction : Transaction :=
  let tx := (PoolObject.new .plain (newWAF [])).newTransaction ⟨str "t1", 0⟩ 0
  let v := tx.vars.mapSet Host.plain.toRuntime .tx (.lit "n") [str "37"]
  { tx with vars := v.mapSet Host.plain.toRuntime .tx (.lit "d") [str "5"] }

theorem growingCounter_evaluates :
    SetvarFn.init SeclangHost.plain (str "TX.n=+%\x7btx.d\x7d") = .ok growingCounter ∧
      growingCounter.Completes SeclangHost.plain.toRuntime counterTransaction := by
  have accepted : SetvarFn.init SeclangHost.plain (str "TX.n=+%\x7btx.d\x7d") =
      .ok growingCounter := by
    decide +kernel
  have backed : growingCounter.Backed (str "TX.n=+%\x7btx.d\x7d") := by
    refine ⟨by decide, by decide, ?_⟩
    intro value given
    cases given
    decide
  have expands : growingCounter.Expands SeclangHost.plain.toRuntime counterTransaction (str "n")
      (str "+5") :=
    ⟨by decide +kernel, by decide +kernel⟩
  refine ⟨accepted, (((macros_and_setvar_evaluate SeclangHost.plain).2 _ _ accepted).2
    counterTransaction).mpr ⟨backed, fun key value expands' => ?_⟩⟩
  obtain rfl := Option.some.inj (expands.1.symm.trans expands'.1)
  obtain rfl := Option.some.inj (expands.2.symm.trans expands'.2)
  exact .inr ⟨37, by decide +kernel, by decide⟩

/-- The variable `JSON` has no collection, and without `=` there is no value to expand. -/
theorem accepted_and_panic :
    let host := SeclangHost.plain
    (∃ m, CompiledMacro.new host (str "%\x7bJSON.x\x7d") = .ok m ∧
      ∀ v, m.expand host.toRuntime v = none) ∧
    ∀ data ∈ [str "TX.k", str "!TX.k"], ∃ a, SetvarFn.init host data = .ok a ∧
      ∀ tx, a.evaluate host.toRuntime tx = none := by
  intro host
  constructor
  · refine ⟨⟨str "%\x7bJSON.x\x7d", [⟨str "JSON.x", .json, str "x"⟩]⟩, by decide +kernel, ?_⟩
    exact fun v => rfl
  · intro data listed
    rcases List.mem_pair.mp listed with rfl | rfl
    · exact ⟨⟨⟨str "k", [⟨str "k", .unknown, []⟩]⟩, none, false⟩, by decide +kernel, fun tx => rfl⟩
    · exact ⟨⟨⟨str "k", [⟨str "k", .unknown, []⟩]⟩, none, true⟩, by decide +kernel, fun tx => rfl⟩

end Obsidian
