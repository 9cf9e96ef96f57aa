import Obsidian.Data.Digest
import Obsidian.Transformations.Decoding

namespace Obsidian

open Obsidian.Data

/-! # Cleaning transformations

The transformations that drop or replace parts of a text: white space, comments,
NUL bytes, path elements.
-/

namespace Transformations

def none : Transformation := fun data => (data, false, .none)

def md5T : Transformation := fun data => (md5Sum data, true, .none)

def sha1T : Transformation := fun data => (sha1Sum data, true, .none)

/-! ## Command lines and white space -/

def isCMDSpace (a : UInt8) : Bool :=
  a = byte ' ' ∨ a = byte ',' ∨ a = byte ';' ∨ a = byte '\t' ∨ a = byte '\r' ∨ a = byte '\n'

def isCMDQuote (a : UInt8) : Bool := a = 34 ∨ a = 39 ∨ a = byte '\\' ∨ a = byte '^'

def isCMDOpen (a : UInt8) : Bool := a = byte '/' ∨ a = byte '('

def needsTransform (c : UInt8) : Bool :=
  (byte 'A' ≤ c ∧ c ≤ byte 'Z') ∨ isCMDQuote c ∨ isCMDSpace c ∨ isCMDOpen c

/-- `doCMDLine`.  A space is held back until the next byte shows whether it stays. -/
def cmdLineLoop (space : Bool) : Bytes → Bytes
  | [] => if space then [byte ' '] else []
  | a :: rest =>
    if isCMDQuote a then cmdLineLoop space rest
    else if isCMDSpace a then cmdLineLoop true rest
    else if isCMDOpen a then a :: cmdLineLoop false rest
    else (if space then [byte ' '] else []) ++ lowerByte a :: cmdLineLoop false rest

def cmdLine : Transformation := fun data =>
  if data.any needsTransform then (cmdLineLoop false data, true, .none) else (data, false, .none)

def isLatinSpace (c : UInt8) : Bool :=
  (9 ≤ c ∧ c ≤ 13) ∨ c = byte ' ' ∨ c = 0x85 ∨ c = 0xA0

def compressLoop (inWhiteSpace : Bool) : Bytes → Bytes × Bool
  | [] => ([], false)
  | c :: rest =>
    if isLatinSpace c then
      let (compressed, changed) := compressLoop true rest
      if inWhiteSpace then (compressed, true) else (byte ' ' :: compressed, changed)
    else
      let (compressed, changed) := compressLoop false rest
      (c :: compressed, changed)

def compressWhitespace : Transformation := fun value =>
  if value.any isLatinSpace then
    let (compressed, changed) := compressLoop false value
    (compressed, changed, .none)
  else (value, false, .none)

def removeWhitespace : Transformation := fun data =>
  (mapRunes (fun r => if isSpace r then .none else some r) data,
    (runes data).any fun r => isSpace r.code, .none)

def trimSpaces : Bytes := [32, 9, 10, 13, 12, 11]

def trimmed (cutter : Bytes → Bytes → Bytes) : Transformation := fun data =>
  let transformedData := cutter trimSpaces data
  (transformedData, data.length ≠ transformedData.length, .none)

def trim : Transformation := trimmed Data.trim

def trimLeft : Transformation := trimmed Data.trimLeft

def trimRight : Transformation := trimmed Data.trimRight

/-! ## NUL bytes and paths -/

def removeNulls : Transformation := fun data =>
  let transformedData := data.filter (· ≠ 0)
  (transformedData, data.length ≠ transformedData.length, .none)

def replaceNulls : Transformation := fun data =>
  let transformedData := data.map fun b => if b = 0 then byte ' ' else b
  (transformedData, data ≠ transformedData, .none)

def normalisePath : Transformation := fun data =>
  if data.length < 1 then (data, false, .none)
  else
    let clean := cleanPath data
    if clean = str "." then ([], true, .none)
    else if data.getLast? = some (byte '/') then (clean ++ [byte '/'], true, .none)
    else (clean, data ≠ clean, .none)

def forwardSlash (b : UInt8) : UInt8 := if b = byte '\\' then byte '/' else b

def normalisePathWin : Transformation := fun data =>
  if data.length < 1 then (data, false, .none) else normalisePath (data.map forwardSlash)

/-! ## Comments -/

def opens (mark : String) (text : Bytes) : Bool := (str mark).isPrefixOf text

/-- The length of the mark that opens or closes a comment here. -/
def commentOpen (text : Bytes) : Option Nat :=
  if opens "/*" text then some 2 else if opens "<!--" text then some 4 else .none

def commentClose (text : Bytes) : Option Nat :=
  if opens "*/" text then some 2 else if opens "-->" text then some 3 else .none

def lineComment (text : Bytes) : Bool := opens "--" text || opens "#" text

/-- `removeComments`; `incomment` is the state at `text`.  A comment that closes is
followed by one byte that is not looked at, the NUL the source pads its input with
when nothing is left. -/
def removeCommentsLoop : Nat → (incomment : Bool) → Bytes → Bytes × Bool
  | fuel + 1, false, c :: rest =>
    match commentOpen (c :: rest) with
    | some width => removeCommentsLoop fuel true ((c :: rest).drop width)
    | .none =>
      if lineComment (c :: rest) then ([], true)
      else
        let (kept, changed) := removeCommentsLoop fuel false rest
        (c :: kept, changed)
  | fuel + 1, true, c :: rest =>
    match commentClose (c :: rest) with
    | some width =>
      let after := (c :: rest).drop width
      let (kept, changed) := removeCommentsLoop fuel false after.tail
      (after.headD 0 :: kept, changed)
    | .none => removeCommentsLoop fuel true rest
  | _, true, [] => ([byte ' '], true)
  | _, _, _ => ([], false)

def removeComments : Transformation := fun value =>
  let (kept, changed) := removeCommentsLoop value.length false value
  (kept, changed, .none)

/-- The length of the comment mark the text starts with. -/
def commentMark (text : Bytes) : Nat :=
  if opens "/*" text then 2
  else if opens "*/" text then 2
  else if opens "<!--" text then 4
  else if opens "-->" text then 3
  else if opens "--" text then 2
  else if opens "#" text then 1
  else 0

def removeCommentsCharLoop : Nat → Bytes → Bytes × Bool
  | fuel + 1, c :: rest =>
    let mark := commentMark (c :: rest)
    if 0 < mark then ((removeCommentsCharLoop fuel ((c :: rest).drop mark)).1, true)
    else
      let (kept, changed) := removeCommentsCharLoop fuel rest
      (c :: kept, changed)
  | _, _ => ([], false)

def removeCommentsChar : Transformation := fun value =>
  let (kept, changed) := removeCommentsCharLoop value.length value
  (kept, changed, .none)

def replaceCommentsLoop : Nat → (incomment : Bool) → Bytes → Bytes × Bool
  | fuel + 1, false, c :: rest =>
    if opens "/*" (c :: rest) then ((replaceCommentsLoop fuel true ((c :: rest).drop 2)).1, true)
    else
      let (kept, changed) := replaceCommentsLoop fuel false rest
      (c :: kept, changed)
  | fuel + 1, true, c :: rest =>
    if opens "*/" (c :: rest) then
      let (kept, changed) := replaceCommentsLoop fuel false ((c :: rest).drop 2)
      (byte ' ' :: kept, changed)
    else replaceCommentsLoop fuel true rest
  | _, true, [] => ([byte ' '], false)
  | _, _, _ => ([], false)

def replaceComments : Transformation := fun data =>
  let (kept, changed) := replaceCommentsLoop data.length false data
  (kept, changed, .none)

example : removeComments (str "a/* b */") = (str "a" ++ [0], false, .none) := by decide
example : replaceComments (str "a/* b */c/*") = (str "a c ", true, .none) := by decide
example : cmdLine (str "C^md \"/c\"") = (str "cmd/c", true, .none) := by decide

end Transformations

end Obsidian
