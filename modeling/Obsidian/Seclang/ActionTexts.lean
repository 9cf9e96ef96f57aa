import Obsidian.Data.Lines
import Obsidian.Seclang.ActionLists

namespace Obsidian

open Obsidian.Data

/-! # Action lists as texts

The scanner of `parseActions` over the indices of its text, and that it reads back the
action lists that are written `name:'value'`.
-/

def longerKey (key : Bytes) (value : Option Bytes) (c : UInt8) : Bytes :=
  value.elim (key ++ [c]) fun _ => key

theorem splitActionsFrom_cons (previous : UInt8) (inQuotes : Bool) (key : Bytes)
    (value : Option Bytes) (c : UInt8) (rest : Bytes) :
    splitActionsFrom previous inQuotes key value (c :: rest) =
      let longer (inQuotes : Bool) :=
        splitActionsFrom c inQuotes (longerKey key value c) (value.map (· ++ [c])) rest
      if previous = byte '\\' then longer inQuotes
      else if c = 39 then longer (!inQuotes)
      else if inQuotes then longer inQuotes
      else if c = byte ':' ∧ value = none then splitActionsFrom c inQuotes key (some []) rest
      else if c = byte ',' then (key, value.getD []) :: splitActionsFrom c inQuotes [] none rest
      else longer inQuotes := by
  cases value <;> simp only [splitActionsFrom, longerKey, Option.elim, Option.map]

namespace ActionScan

def slice (text : Bytes) (lo hi : Int) : Option Bytes :=
  if 0 ≤ lo ∧ lo ≤ hi ∧ hi ≤ text.length then some ((text.take hi.toNat).drop lo.toNat) else none

structure State where
  beforeKey : Int := -1
  afterKey : Int := -1
  inQuotes : Bool := false
  found : List (Bytes × Bytes) := []
deriving DecidableEq, Repr

namespace State

def pair (s : State) (actions : Bytes) (stop : Nat) : Option (Bytes × Bytes) := do
  if s.afterKey = -1 then
    let key ← slice actions (s.beforeKey + 1) stop
    some (key, [])
  else
    let val ← slice actions (s.afterKey + 1) stop
    let key ← slice actions (s.beforeKey + 1) s.afterKey
    some (key, val)

end State

def round (actions : Bytes) (s : State) (i : Nat) : Option State := do
  let c ← actions[i]?
  let previous ← actions[i - 1]?
  if previous = byte '\\' then some s
  else if c = 39 then some { s with inQuotes := !s.inQuotes }
  else if s.inQuotes then some s
  else if c = byte ':' then
    if s.afterKey ≠ -1 then some s else some { s with afterKey := i }
  else if c = byte ',' then
    let pair ← s.pair actions i
    some { s with found := s.found ++ [pair], beforeKey := i, afterKey := -1 }
  else some s

def finish (actions : Bytes) (s : State) : Option (List (Bytes × Bytes)) := do
  let last ← s.pair actions actions.length
  some (s.found ++ [last])

/-- The keys and values that `parseActions` hands to `appendRuleAction`, in order. -/
def splitActions (actions : Bytes) : Option (List (Bytes × Bytes)) :=
  ((List.range' 1 (actions.length - 1)).foldlM (round actions) {}).bind (finish actions)

/-- `parseActions` over the indices of its text; `none` is an index out of range. -/
def parseActions (host : SeclangHost) (actions : Bytes) :
    Option (Except GoError (List ActionItem)) := do
  let pairs ← splitActions actions
  some ((pairs.foldlM host.appendRuleAction ([], none)).map (·.1))

/-- The state in front of index `i`, in terms of the key and the value read so far. -/
structure Reads (actions : Bytes) (i : Nat) (key : Bytes) (value : Option Bytes) (s : State) :
    Prop where
  within : i ≤ actions.length
  started : 0 ≤ s.beforeKey + 1 ∧ s.beforeKey + 1 ≤ i
  pending : value = none → s.afterKey = -1 ∧ slice actions (s.beforeKey + 1) i = some key
  given : ∀ v, value = some v → s.afterKey ≠ -1 ∧ s.beforeKey + 1 ≤ s.afterKey ∧ s.afterKey < i ∧
    slice actions (s.beforeKey + 1) s.afterKey = some key ∧
    slice actions (s.afterKey + 1) i = some v

theorem slice_succ {actions part : Bytes} {lo : Int} {i : Nat} {c : UInt8}
    (read : slice actions lo i = some part) (here : actions[i]? = some c) :
    slice actions lo (i + 1 : Nat) = some (part ++ [c]) := by
  have inside := (List.getElem?_eq_some_iff.mp here).1
  rw [slice] at read ⊢
  split at read
  · next bounds =>
      cases read
      rw [if_pos (by omega)]
      congr 1
      simp only [Int.toNat_natCast]
      rw [List.take_add_one, here, Option.toList_some, List.drop_append_of_le_length]
      rw [List.length_take]
      omega
  · cases read

theorem Reads.pair {actions key : Bytes} {i : Nat} {value : Option Bytes} {s : State}
    (reads : Reads actions i key value s) : s.pair actions i = some (key, value.getD []) := by
  cases value with
  | none =>
    obtain ⟨noValue, sliceKey⟩ := reads.pending rfl
    simp [State.pair, noValue, sliceKey]
  | some v =>
    obtain ⟨after, _, _, sliceKey, sliceVal⟩ := reads.given v rfl
    simp [State.pair, after, sliceKey, sliceVal]

theorem Reads.longer {actions key : Bytes} {i : Nat} {value : Option Bytes} {s : State} {c : UInt8}
    (reads : Reads actions i key value s) (here : actions[i]? = some c) (inQuotes : Bool) :
    Reads actions (i + 1) (longerKey key value c) (value.map (· ++ [c])) { s with inQuotes } := by
  have inside := (List.getElem?_eq_some_iff.mp here).1
  have started := reads.started
  refine ⟨inside, ⟨started.1, by simp only; omega⟩, ?_, ?_⟩
  · intro none_
    cases value with
    | none =>
      obtain ⟨noValue, sliceKey⟩ := reads.pending rfl
      exact ⟨noValue, slice_succ sliceKey here⟩
    | some v => cases none_
  · intro v given
    cases value with
    | none => cases given
    | some v =>
      cases given
      obtain ⟨after, before, behind, sliceKey, sliceVal⟩ := reads.given v rfl
      exact ⟨after, before, by simp only; omega, sliceKey, slice_succ sliceVal here⟩

theorem slice_empty {actions : Bytes} {i : Nat} (inside : i ≤ actions.length) :
    slice actions i i = some [] := by
  rw [slice, if_pos (by omega)]
  simp

theorem Reads.colon {actions key : Bytes} {i : Nat} {s : State}
    (reads : Reads actions i key none s) (inside : i < actions.length) :
    Reads actions (i + 1) key (some []) { s with afterKey := i } := by
  have started := reads.started
  refine ⟨inside, ⟨started.1, by simp only; omega⟩, (by intro none_; cases none_), ?_⟩
  intro v given
  cases given
  refine ⟨by simp only; omega, started.2, by simp only; omega, (reads.pending rfl).2, ?_⟩
  exact slice_empty (Nat.succ_le_of_lt inside)

theorem Reads.comma {actions : Bytes} {i : Nat} (inside : i < actions.length) (s : State)
    (found : List (Bytes × Bytes)) :
    Reads actions (i + 1) [] none { s with found := found, beforeKey := i, afterKey := -1 } := by
  refine ⟨inside, ⟨by simp only; omega, by simp only; omega⟩, ?_, (by intro v given; cases given)⟩
  intro _
  exact ⟨rfl, slice_empty (Nat.succ_le_of_lt inside)⟩

theorem Reads.value_eq_none {actions key : Bytes} {i : Nat} {value : Option Bytes} {s : State}
    (reads : Reads actions i key value s) : value = none ↔ s.afterKey = -1 := by
  constructor
  · intro none_
    exact (reads.pending none_).1
  · intro noValue
    cases value with
    | none => rfl
    | some v => exact absurd noValue (reads.given v rfl).1

theorem scan_eq {actions rest key : Bytes} {i : Nat} {value : Option Bytes} {s : State}
    {previous : UInt8} (reads : Reads actions (i + 1) key value s)
    (before : actions[i]? = some previous) (left : actions.drop (i + 1) = rest) :
    ((List.range' (i + 1) rest.length).foldlM (round actions) s).bind (finish actions) =
      some (s.found ++ splitActionsFrom previous s.inQuotes key value rest) := by
  induction rest generalizing i key value s previous with
  | nil =>
    have all : actions.length = i + 1 := by
      have within := reads.within
      have none : actions.length ≤ i + 1 := List.drop_eq_nil_iff.mp left
      omega
    have last := reads.pair
    rw [← all] at last
    simp [finish, last, splitActionsFrom]
  | cons c rest ih =>
    have here : actions[i + 1]? = some c := by
      have := congrArg (·[0]?) left
      simpa using this
    have later : actions.drop (i + 1 + 1) = rest := by
      rw [← List.drop_drop, left]
      rfl
    have inside := (List.getElem?_eq_some_iff.mp here).1
    have longer := fun inQuotes => ih (reads.longer here inQuotes) here later
    rw [List.length_cons, List.range'_succ, List.foldlM_cons, splitActionsFrom_cons, round, here,
      Nat.add_sub_cancel, before]
    simp only [Option.bind_eq_bind, Option.bind_some]
    by_cases escaped : previous = byte '\\'
    · rw [if_pos escaped, if_pos escaped]
      exact longer s.inQuotes
    by_cases quote : c = 39
    · rw [if_neg escaped, if_neg escaped, if_pos quote, if_pos quote]
      exact longer (!s.inQuotes)
    by_cases quoted : s.inQuotes = true
    · rw [if_neg escaped, if_neg escaped, if_neg quote, if_neg quote, if_pos quoted, if_pos quoted]
      exact longer s.inQuotes
    rw [if_neg escaped, if_neg escaped, if_neg quote, if_neg quote, if_neg quoted, if_neg quoted]
    by_cases colon : c = byte ':'
    · by_cases noValue : value = none
      · subst noValue
        rw [if_pos colon, if_neg (not_not_intro (reads.pending rfl).1), if_pos ⟨colon, rfl⟩]
        exact ih (reads.colon inside) here later
      · have comma : c ≠ byte ',' := by
          rw [colon]
          decide
        rw [if_pos colon, if_pos (mt reads.value_eq_none.mpr noValue),
          if_neg (not_and_of_not_right _ noValue), if_neg comma]
        exact longer s.inQuotes
    rw [if_neg colon, if_neg (not_and_of_not_left _ colon)]
    by_cases comma : c = byte ','
    · rw [if_pos comma, if_pos comma, reads.pair, List.append_cons]
      exact ih (Reads.comma inside s _) here later
    · rw [if_neg comma, if_neg comma]
      exact longer s.inQuotes

/-- The scan never leaves its text, and finds what the scan over the bytes finds. -/
theorem splitActions_eq (actions : Bytes) :
    splitActions actions = some (Obsidian.splitActions actions) := by
  cases actions with
  | nil => decide
  | cons first rest =>
    have reads : Reads (first :: rest) 1 [first] none {} := by
      refine ⟨by simp, ⟨by decide, by decide⟩, fun _ => ⟨rfl, ?_⟩, (by intro v given; cases given)⟩
      rw [slice, if_pos (by simp only [List.length_cons]; omega)]
      rfl
    exact scan_eq reads rfl rfl

theorem parseActions_eq (host : SeclangHost) (actions : Bytes) :
    parseActions host actions = some (host.parseActions actions) := by
  rw [parseActions, splitActions_eq]
  rfl

end ActionScan

/-! ## Written action lists -/

namespace ActionItem

def writtenValue (item : ActionItem) : Bytes :=
  if item.value = [] then [] else 39 :: item.value ++ [39]

/-- `name:'value'`, or the name alone. -/
def write (item : ActionItem) : Bytes :=
  if item.value = [] then item.name.key else item.name.key ++ byte ':' :: item.writtenValue

/-- A value that quotes can hold. -/
def Quotable (item : ActionItem) : Prop := 39 ∉ item.value ∧ byte '\\' ∉ item.value

instance (item : ActionItem) : Decidable item.Quotable :=
  inferInstanceAs (Decidable (_ ∧ _))

end ActionItem

def writeActions (items : List ActionItem) : Bytes :=
  [byte ','].intercalate (items.map ActionItem.write)

/-- A byte the scanner has no case for. -/
def isPlain (c : UInt8) : Bool :=
  c ≠ byte '\\' && c ≠ 39 && c ≠ byte ':' && c ≠ byte ','

theorem ActionName.key_plain (name : ActionName) :
    name.key ≠ [] ∧ name.key.all isPlain = true ∧ name.key.all isSolid = true := by
  cases name <;> decide

theorem ActionName.toLower_key (name : ActionName) (unicode : Bytes → Bytes) :
    toLower unicode name.key = name.key := by
  cases name <;> rfl

theorem ActionName.get_key (name : ActionName) : get name.key = some name := by
  cases name <;> rfl

section

variable {previous : UInt8} (unescaped : previous ≠ byte '\\')

include unescaped

theorem splitActionsFrom_plain {word : Bytes} (plain : word.all isPlain = true) (key rest : Bytes) :
    ∃ last, last ≠ byte '\\' ∧ splitActionsFrom previous false key none (word ++ rest) =
      splitActionsFrom last false (key ++ word) none rest := by
  induction word generalizing previous key with
  | nil => exact ⟨previous, unescaped, by simp⟩
  | cons c word ih =>
    rw [List.all_cons, Bool.and_eq_true] at plain
    obtain ⟨⟨⟨backslash, quote⟩, colon⟩, comma⟩ :
        ((c ≠ byte '\\' ∧ c ≠ 39) ∧ c ≠ byte ':') ∧ c ≠ byte ',' := by
      simpa [isPlain] using plain.1
    obtain ⟨last, lastUnescaped, read⟩ := ih backslash plain.2 (key ++ [c])
    refine ⟨last, lastUnescaped, ?_⟩
    rw [List.cons_append, splitActionsFrom_cons]
    simp only [unescaped, quote, colon, comma, false_and, if_false, Bool.false_eq_true]
    simpa [longerKey] using read

theorem splitActionsFrom_quoted {text : Bytes} (noQuote : 39 ∉ text) (noEscape : byte '\\' ∉ text)
    (key value rest : Bytes) :
    splitActionsFrom previous true key (some value) (text ++ 39 :: rest) =
      splitActionsFrom 39 false key (some (value ++ text ++ [39])) rest := by
  induction text generalizing previous value with
  | nil =>
    rw [List.nil_append, splitActionsFrom_cons]
    simp [unescaped, longerKey]
  | cons c text ih =>
    rw [List.mem_cons, not_or] at noQuote noEscape
    have read := ih (Ne.symm noEscape.1) noQuote.2 noEscape.2 (value ++ [c])
    rw [List.cons_append, splitActionsFrom_cons]
    simp only [unescaped, Ne.symm noQuote.1, if_false, if_true]
    simpa [longerKey] using read

end

def ActionItem.pair (item : ActionItem) : Bytes × Bytes := (item.name.key, item.writtenValue)

/-- A text that the scanner reads as one key and value, whatever follows. -/
def ReadsAs (text : Bytes) (pair : Bytes × Bytes) : Prop :=
  ∀ (previous : UInt8) (rest : Bytes), previous ≠ byte '\\' →
    ∃ last value, last ≠ byte '\\' ∧ value.getD [] = pair.2 ∧
      splitActionsFrom previous false [] none (text ++ rest) =
        splitActionsFrom last false pair.1 value rest

theorem readsAs_key (name : ActionName) : ReadsAs name.key (name.key, []) := by
  intro previous rest unescaped
  obtain ⟨-, plain, -⟩ := name.key_plain
  obtain ⟨last, lastUnescaped, read⟩ := splitActionsFrom_plain unescaped plain [] rest
  exact ⟨last, none, lastUnescaped, rfl, by simpa using read⟩

theorem splitActionsFrom_colon (name : ActionName) {previous : UInt8}
    (unescaped : previous ≠ byte '\\') (rest : Bytes) :
    splitActionsFrom previous false [] none (name.key ++ byte ':' :: rest) =
      splitActionsFrom (byte ':') false name.key (some []) rest := by
  obtain ⟨-, plain, -⟩ := name.key_plain
  obtain ⟨last, lastUnescaped, read⟩ := splitActionsFrom_plain unescaped plain [] (byte ':' :: rest)
  rw [read, splitActionsFrom_cons, List.nil_append]
  simp only [lastUnescaped, if_false, if_true, and_self, Bool.false_eq_true]
  rfl

theorem readsAs_quoted (name : ActionName) {value : Bytes} (noQuote : 39 ∉ value)
    (noEscape : byte '\\' ∉ value) :
    ReadsAs (name.key ++ byte ':' :: (39 :: value ++ [39])) (name.key, 39 :: value ++ [39]) := by
  intro previous rest unescaped
  have quote : ∀ text, splitActionsFrom (byte ':') false name.key (some []) (39 :: text) =
      splitActionsFrom 39 true name.key (some [39]) text := by
    intro text
    rw [splitActionsFrom_cons]
    rfl
  refine ⟨39, some (39 :: value ++ [39]), by decide, rfl, ?_⟩
  have read := splitActionsFrom_quoted (by decide : (39 : UInt8) ≠ byte '\\') noQuote noEscape
    name.key [39] rest
  simp only [List.append_assoc, List.cons_append, List.nil_append] at read ⊢
  rw [splitActionsFrom_colon name unescaped, quote, read]

theorem ActionItem.Quotable.readsAs {item : ActionItem} (quotable : item.Quotable) :
    ReadsAs item.write item.pair := by
  by_cases bare : item.value = []
  · have read := readsAs_key item.name
    simpa [ActionItem.write, ActionItem.pair, ActionItem.writtenValue, bare] using read
  · have read := readsAs_quoted item.name quotable.1 quotable.2
    simpa [ActionItem.write, ActionItem.pair, ActionItem.writtenValue, bare] using read

section

variable {α : Type} {text : α → Bytes} {pair : α → Bytes × Bytes}

theorem splitActionsFrom_join {first : α} {rest : List α}
    (reads : ∀ one ∈ first :: rest, ReadsAs (text one) (pair one)) {previous : UInt8}
    (unescaped : previous ≠ byte '\\') :
    splitActionsFrom previous false [] none ([byte ','].intercalate ((first :: rest).map text)) =
      (first :: rest).map pair := by
  induction rest generalizing first previous with
  | nil =>
    obtain ⟨last, value, _, written, read⟩ := reads first List.mem_cons_self previous [] unescaped
    rw [List.append_nil] at read
    simp [List.intercalate, read, splitActionsFrom, written]
  | cons next rest ih =>
    have later := ih (fun one found => reads one (List.mem_cons_of_mem _ found))
      (show byte ',' ≠ byte '\\' by decide)
    obtain ⟨last, value, lastUnescaped, written, read⟩ := reads first List.mem_cons_self previous
      (byte ',' :: [byte ','].intercalate ((next :: rest).map text)) unescaped
    have join : [byte ','].intercalate ((first :: next :: rest).map text) =
        text first ++ byte ',' :: [byte ','].intercalate ((next :: rest).map text) := by
      simp [List.intercalate]
    rw [join, read, splitActionsFrom_cons]
    have comma : ¬(byte ',' = byte ':' ∧ value = none) := fun both => absurd both.1 (by decide)
    have quote : byte ',' ≠ 39 := by decide
    simp only [lastUnescaped, quote, comma, if_false, if_true, Bool.false_eq_true, later, written]
    rfl

/-- The loop starts at the second byte, which is as good as the first where the first is plain. -/
theorem splitActions_cons {first : UInt8} (plain : isPlain first = true) (rest : Bytes) :
    splitActions (first :: rest) = splitActionsFrom (byte ',') false [] none (first :: rest) := by
  obtain ⟨⟨⟨backslash, quote⟩, colon⟩, comma⟩ :
      ((first ≠ byte '\\' ∧ first ≠ 39) ∧ first ≠ byte ':') ∧ first ≠ byte ',' := by
    simpa [isPlain] using plain
  rw [splitActions, splitActionsFrom_cons]
  have unescaped : byte ',' ≠ byte '\\' := by decide
  simp only [unescaped, quote, colon, comma, false_and, if_false, Bool.false_eq_true]
  rfl

theorem splitActions_join {written : List α} (given : written ≠ [])
    (reads : ∀ one ∈ written, ReadsAs (text one) (pair one))
    (named : ∀ one, ∃ name : ActionName, ∃ more, text one = name.key ++ more) :
    splitActions ([byte ','].intercalate (written.map text)) = written.map pair := by
  cases written with
  | nil => exact absurd rfl given
  | cons one rest =>
    obtain ⟨first, after, starts, plain⟩ : ∃ first after,
        [byte ','].intercalate ((one :: rest).map text) = first :: after ∧
          isPlain first = true := by
      obtain ⟨name, more, begins⟩ := named one
      obtain ⟨nonempty, plain, -⟩ := name.key_plain
      obtain ⟨first, word, key⟩ := List.exists_cons_of_ne_nil nonempty
      rw [key, List.all_cons, Bool.and_eq_true] at plain
      refine ⟨first, ([byte ','].intercalate ((one :: rest).map text)).tail, ?_, plain.1⟩
      cases rest <;> simp [List.intercalate, begins, key]
    rw [starts, splitActions_cons plain, ← starts]
    exact splitActionsFrom_join reads (by decide)

end

theorem ActionItem.write_named (item : ActionItem) :
    ∃ name : ActionName, ∃ more, item.write = name.key ++ more := by
  rw [write]
  split
  · exact ⟨item.name, [], by simp⟩
  · exact ⟨item.name, _, rfl⟩

theorem splitActions_writeActions {items : List ActionItem} (given : items ≠ [])
    (quotable : ∀ item ∈ items, item.Quotable) :
    splitActions (writeActions items) = items.map ActionItem.pair :=
  splitActions_join given (fun item found => (quotable item found).readsAs) ActionItem.write_named

namespace SeclangHost

variable {host : SeclangHost}

theorem maybeRemoveQuotes_quoted (text : Bytes) : maybeRemoveQuotes (39 :: text ++ [39]) = text := by
  have quoted : (39 :: text ++ [39]).head? = some 39 ∧ (39 :: text ++ [39]).getLast? = some 39 :=
    ⟨rfl, List.getLast?_concat⟩
  rw [maybeRemoveQuotes, if_neg (by simp), if_pos (.inr quoted)]
  simp

theorem ruleAction_named {item : ActionItem} {value : Bytes}
    (same : maybeRemoveQuotes (trimSpace value) = item.value) :
    host.ruleAction (item.name.key, value) = .ok item := by
  have key : host.actionKey item.name.key = item.name.key := by
    obtain ⟨-, -, solid⟩ := item.name.key_plain
    rw [actionKey, trimSpace_solid solid]
    exact item.name.toLower_key host.unicodeLower
  simp only [ruleAction, key, same, item.name.get_key]

theorem ruleAction_pair (item : ActionItem) : host.ruleAction item.pair = .ok item := by
  refine ruleAction_named ?_
  rw [ActionItem.writtenValue]
  split
  · next bare => exact bare.symm
  · rw [trimSpace_between (by decide) (by decide), maybeRemoveQuotes_quoted]

theorem foldl_appendItem_one {items : List ActionItem} {state : List ActionItem × Option Nat}
    (one : (disruptiveActions items).length + state.2.toList.length ≤ 1) :
    (items.foldl appendItem state).1 = state.1 ++ items := by
  induction items generalizing state with
  | nil => simp
  | cons item rest ih =>
    have next : (appendItem state item).1 = state.1 ++ [item] ∧
        (disruptiveActions rest).length + (appendItem state item).2.toList.length ≤ 1 := by
      cases is : item.disruptive with
      | false =>
        simp only [disruptiveActions, List.filter_cons, is] at one
        simpa [appendItem, is, disruptiveActions] using one
      | true =>
        simp only [disruptiveActions, List.filter_cons, is, if_true, List.length_cons] at one
        cases index : state.2 with
        | none =>
          simp only [appendItem, is, index, disruptiveActions, Option.toList_some,
            List.length_singleton]
          exact ⟨trivial, by omega⟩
        | some position =>
          rw [index, Option.toList_some, List.length_singleton] at one
          omega
    rw [List.foldl_cons, ih next.2, next.1, List.append_assoc, List.singleton_append]

end SeclangHost

open SeclangHost in
/-- An action list that is written item by item reads back as its items. -/
theorem parseActions_writeActions (host : SeclangHost) {items : List ActionItem}
    (given : items ≠ []) (quotable : ∀ item ∈ items, item.Quotable)
    (one : (disruptiveActions items).length ≤ 1) :
    ActionScan.parseActions host (writeActions items) = some (.ok items) := by
  have folded : (items.map ActionItem.pair).foldlM host.appendRuleAction ([], none) =
      .ok (items.foldl appendItem ([], none)) :=
    exceptFoldlM_written ruleAction_pair items _
  rw [ActionScan.parseActions_eq, SeclangHost.parseActions, splitActions_writeActions given quotable,
    folded]
  exact congrArg (some ∘ Except.ok) (foldl_appendItem_one one)

/-- Separators and colons between the quotes, a bare name and one disruptive action. -/
theorem parseActions_writeActions_four :
    ActionScan.parseActions SeclangHost.plain (str "id:'7',deny,msg:'a, b: \"c\"',t:'none'") =
      some (.ok [⟨.id, str "7"⟩, ⟨.deny, []⟩, ⟨.msg, str "a, b: \"c\""⟩, ⟨.t, str "none"⟩]) :=
  @parseActions_writeActions SeclangHost.plain
    [⟨.id, str "7"⟩, ⟨.deny, []⟩, ⟨.msg, str "a, b: \"c\""⟩, ⟨.t, str "none"⟩]
    (by decide) (by decide) (by decide)

end Obsidian
