import Obsidian.Types
import Mathlib.Data.List.AList

namespace Obsidian

open Obsidian.Data

/-! # Collections

`collections.Map` and the match data it hands out.  A key keeps the address of
its Go string next to its text, since the transformation cache tells keys apart
by address only.
-/

/-- Where the bytes of a Go string live: nowhere for the zero string, in the
program text for a constant, on the heap otherwise. -/
inductive Addr where
  | nil
  | literal (text : Bytes)
  | heap (n : Nat)
deriving DecidableEq, Repr

structure GoString where
  addr : Addr
  text : Bytes
deriving DecidableEq, Repr

namespace GoString

def zero : GoString := ⟨.nil, []⟩

def lit (text : String) : GoString := ⟨.literal (str text), str text⟩

end GoString

structure MatchData where
  var : RuleVariable := .unknown
  key : GoString := .zero
  value : Bytes := []
  message : Bytes := []
  data : Bytes := []
  chainLevel : Nat := 0
deriving DecidableEq, Repr

structure Regexp where
  matchString : Bytes → Bool

structure KeyValue where
  key : GoString
  value : Bytes
deriving DecidableEq, Repr

/-- What the model leaves to the Go runtime and the build: the Unicode case
tables, the order of each map iteration, the addresses of strings built at run
time, the clock, and the `case_sensitive_args_keys` build tag. -/
structure Runtime where
  unicodeLower : Bytes → Bytes
  unicodeUpper : Bytes → Bytes
  mapOrder : (tick part : Nat) → List Bytes → List Bytes
  mapOrder_perm : ∀ tick part keys, (mapOrder tick part keys).Perm keys
  alloc : (tick : Nat) → Addr
  now : (tick : Nat) → Int
  shouldUseCaseSensitiveNamedCollection : Bool

def Runtime.toLower (rt : Runtime) (text : Bytes) : Bytes := Data.toLower rt.unicodeLower text

def Runtime.toUpper (rt : Runtime) (text : Bytes) : Bytes := Data.toUpper rt.unicodeUpper text

/-! ## Maps -/

abbrev MapData := AList fun _ : Bytes => List KeyValue

namespace MapData

def values (data : MapData) (key : Bytes) : List KeyValue := (data.lookup key).getD []

def add (data : MapData) (normal : Bytes) (key : GoString) (value : Bytes) : MapData :=
  data.insert normal (data.values normal ++ [⟨key, value⟩])

def set (data : MapData) (normal : Bytes) (key : GoString) (values : List Bytes) : MapData :=
  data.insert normal (values.map fun value => ⟨key, value⟩)

def setIndex (data : MapData) (normal : Bytes) (key : GoString) (index : Nat)
    (value : Bytes) : MapData :=
  let values := data.values normal
  if values.length = 0 then data.insert normal [⟨key, value⟩]
  else if values.length ≤ index then data.insert normal (values ++ [⟨key, value⟩])
  else data.insert normal (values.set index ⟨key, value⟩)

def get (data : MapData) (normal : Bytes) : List Bytes :=
  (data.values normal).map KeyValue.value

def enumerate (data : MapData) (order : List Bytes → List Bytes) (select : Bytes → Bool) :
    List KeyValue :=
  ((order data.keys).filter select).flatMap data.values

def size (data : MapData) : Nat :=
  (data.keys.flatMap data.values).foldl
    (fun total pair => total + pair.key.text.length + pair.value.length) 0

end MapData

def KeyValue.toMatch (var : RuleVariable) (pair : KeyValue) : MatchData :=
  { var, key := pair.key, value := pair.value }

def KeyValue.toNameMatch (var : RuleVariable) (pair : KeyValue) : MatchData :=
  { var, key := pair.key, value := pair.key.text }

end Obsidian
