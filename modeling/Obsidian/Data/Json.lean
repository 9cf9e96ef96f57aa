import Obsidian.Data.Decimal
import Obsidian.Data.Text

namespace Obsidian.Data

/-! # JSON

Values, and the syntax `encoding/json` accepts, read by recursive descent.  Every call takes a
byte off the text but the one that hands it on to an array's element, for which there is the
closing bracket: so the length is fuel enough.  Numbers and booleans keep their text, strings and
member names are unescaped.
-/

inductive Json where
  | null
  | raw (text : Bytes)
  | string (text : Bytes)
  | object (members : List (Bytes × Json))
  | array (elements : List Json)

/-! ## Strings

How the end of a string is found, and how its escapes are undone.
-/

namespace JsonString

def isHex (c : UInt8) : Bool :=
  (byte '0' ≤ c ∧ c ≤ byte '9') ∨ (byte 'a' ≤ c ∧ c ≤ byte 'f') ∨ (byte 'A' ≤ c ∧ c ≤ byte 'F')

def hexValue (c : UInt8) : Nat :=
  if c ≤ byte '9' then c.toNat - 48 else if c ≤ byte 'F' then c.toNat - 55 else c.toNat - 87

def getu4 : Bytes → Option (Nat × Bytes)
  | a :: b :: c :: d :: rest =>
    if isHex a ∧ isHex b ∧ isHex c ∧ isHex d then
      some (((hexValue a * 16 + hexValue b) * 16 + hexValue c) * 16 + hexValue d, rest)
    else none
  | _ => none

def simpleEscape (c : UInt8) : Option Nat :=
  if c = 34 ∨ c = 92 ∨ c = 47 then some c.toNat
  else if c = byte 'b' then some 8
  else if c = byte 'f' then some 12
  else if c = byte 'n' then some 10
  else if c = byte 'r' then some 13
  else if c = byte 't' then some 9
  else none

/-- The text up to the closing quote, and the text after it. -/
def scan : Bytes → Option (Bytes × Bytes)
  | [] => none
  | 92 :: 117 :: a :: b :: c :: d :: rest =>
    if isHex a ∧ isHex b ∧ isHex c ∧ isHex d then
      (scan rest).map fun (text, after) => (92 :: 117 :: a :: b :: c :: d :: text, after)
    else none
  | 92 :: c :: rest =>
    if (simpleEscape c).isSome then (scan rest).map fun (text, after) => (92 :: c :: text, after)
    else none
  | c :: rest =>
    if c = 34 then some ([], rest)
    else if c = 92 ∨ c < 0x20 then none
    else (scan rest).map fun (text, after) => (c :: text, after)

def isSurrogate (r : Nat) : Bool := 0xD800 ≤ r ∧ r ≤ 0xDFFF

def decodeSurrogates (high low : Nat) : Option Nat :=
  if high < 0xDC00 ∧ 0xDC00 ≤ low ∧ low ≤ 0xDFFF then
    some (0x10000 + (high - 0xD800) * 1024 + (low - 0xDC00))
  else none

/-- The second half of a surrogate pair, and the text after it. -/
def lowSurrogate (high : Nat) : Bytes → Option (Nat × Bytes)
  | 92 :: 117 :: rest =>
    (getu4 rest).bind fun (low, after) => (decodeSurrogates high low).map fun r => (r, after)
  | _ => none

def unicodeEscape (text : Bytes) : Option (Nat × Bytes) :=
  (getu4 text).map fun (r, rest) =>
    if isSurrogate r then (lowSurrogate r rest).getD (runeError, rest) else (r, rest)

/-- The next rune of a string, and the text after it. -/
def nextRune (c : UInt8) (rest : Bytes) : Option (Nat × Bytes) :=
  if c = 92 then
    match rest with
    | [] => none
    | e :: more =>
      if e = 117 then unicodeEscape more else (simpleEscape e).map fun r => (r, more)
  else if c = 34 ∨ c < 0x20 then none
  else some ((decodeRune c rest).1, (c :: rest).drop (decodeRune c rest).2)

def unquoteFrom : Nat → Bytes → Option Bytes
  | _, [] => some []
  | 0, _ :: _ => none
  | fuel + 1, c :: rest =>
    (nextRune c rest).bind fun (r, after) => (unquoteFrom fuel after).map (encodeRune r ++ ·)

/-- `unquoteBytes` of what stands between the quotes. -/
def unquote (text : Bytes) : Option Bytes := unquoteFrom text.length text

example : unquote (str "a\\u00e9\\ud83d\\ude00\\n") =
    some [97, 0xC3, 0xA9, 0xF0, 0x9F, 0x98, 0x80, 10] := by decide
example : unquote (str "\\ud83dx\\udc00" ++ [0xFF]) =
    some ([0xEF, 0xBF, 0xBD] ++ [120] ++ [0xEF, 0xBF, 0xBD] ++ [0xEF, 0xBF, 0xBD]) := by decide

end JsonString

/-! ## Texts -/

namespace JsonText

def isSpace (c : UInt8) : Bool := c = 32 ∨ c = 9 ∨ c = 10 ∨ c = 13

def skipSpace (text : Bytes) : Bytes := text.dropWhile isSpace

def isDigit (c : UInt8) : Bool := 48 ≤ c ∧ c ≤ 57

def scanDigits (text : Bytes) : Option (Bytes × Bytes) :=
  let run := text.takeWhile isDigit
  if run = [] then none else some (run, text.drop run.length)

def scanInteger (text : Bytes) : Option (Bytes × Bytes) :=
  match text with
  | 48 :: rest => some ([48], rest)
  | _ => scanDigits text

def scanFraction (text : Bytes) : Option (Bytes × Bytes) :=
  match text with
  | 46 :: rest => (scanDigits rest).map fun (run, after) => (46 :: run, after)
  | _ => some ([], text)

def scanExponent (text : Bytes) : Option (Bytes × Bytes) :=
  match text with
  | [] => some ([], [])
  | e :: rest =>
    if e = byte 'e' ∨ e = byte 'E' then
      let (sign, more) : Bytes × Bytes :=
        match rest with
        | 43 :: more => ([43], more)
        | 45 :: more => ([45], more)
        | _ => ([], rest)
      (scanDigits more).map fun (run, after) => (e :: sign ++ run, after)
    else some ([], text)

def scanNumber (text : Bytes) : Option (Bytes × Bytes) :=
  let (sign, unsigned) : Bytes × Bytes :=
    match text with
    | 45 :: rest => ([45], rest)
    | _ => ([], text)
  (scanInteger unsigned).bind fun (whole, rest) =>
    (scanFraction rest).bind fun (fraction, rest) =>
      (scanExponent rest).map fun (exponent, rest) => (sign ++ whole ++ fraction ++ exponent, rest)

def readScalar (text : Bytes) : Option (Json × Bytes) :=
  if (str "null").isPrefixOf text then some (.null, text.drop 4)
  else if (str "true").isPrefixOf text then some (.raw (str "true"), text.drop 4)
  else if (str "false").isPrefixOf text then some (.raw (str "false"), text.drop 5)
  else (scanNumber text).map fun (number, rest) => (.raw number, rest)

def readString (text : Bytes) : Option (Bytes × Bytes) :=
  (JsonString.scan text).bind fun (inner, after) =>
    (JsonString.unquote inner).map fun value => (value, after)

def maxNestingDepth : Nat := 10000

mutual

def readValue : (fuel depth : Nat) → Bytes → Option (Json × Bytes)
  | 0, _, _ => none
  | fuel + 1, depth, text =>
    match skipSpace text with
    | 34 :: rest => (readString rest).map fun (value, after) => (.string value, after)
    | 123 :: rest =>
      if maxNestingDepth ≤ depth then none
      else
        match skipSpace rest with
        | 125 :: after => some (.object [], after)
        | _ =>
          (readMembers fuel (depth + 1) rest).map fun (members, after) =>
            (.object members, after)
    | 91 :: rest =>
      if maxNestingDepth ≤ depth then none
      else
        match skipSpace rest with
        | 93 :: after => some (.array [], after)
        | _ =>
          (readElements fuel (depth + 1) rest).map fun (elements, after) =>
            (.array elements, after)
    | scalar => readScalar scalar

def readMembers : (fuel depth : Nat) → Bytes → Option (List (Bytes × Json) × Bytes)
  | 0, _, _ => none
  | fuel + 1, depth, text =>
    match skipSpace text with
    | 34 :: rest =>
      (readString rest).bind fun (key, after) =>
        match skipSpace after with
        | 58 :: rest =>
          (readValue fuel depth rest).bind fun (value, after) =>
            match skipSpace after with
            | 44 :: rest =>
              (readMembers fuel depth rest).map fun (members, after) =>
                ((key, value) :: members, after)
            | 125 :: rest => some ([(key, value)], rest)
            | _ => none
        | _ => none
    | _ => none

def readElements : (fuel depth : Nat) → Bytes → Option (List Json × Bytes)
  | 0, _, _ => none
  | fuel + 1, depth, text =>
    (readValue fuel depth text).bind fun (value, after) =>
      match skipSpace after with
      | 44 :: rest =>
        (readElements fuel depth rest).map fun (elements, after) => (value :: elements, after)
      | 93 :: rest => some ([value], rest)
      | _ => none

end

def parse (text : Bytes) : Option Json :=
  (readValue (text.length + 1) 0 text).bind fun (value, rest) =>
    if skipSpace rest = [] then some value else none

end JsonText

end Obsidian.Data
