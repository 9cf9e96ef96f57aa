import Obsidian.Data.Text
import Obsidian.Rule

namespace Obsidian

open Obsidian.Data

/-! # Decoding transformations

The transformations that undo an encoding.  A source loop that reads at `i` and
writes at `c` behind it is a recursion over what is left of the text; its fuel is
the length of the text.
-/

def validHex (x : UInt8) : Bool :=
  (byte '0' ≤ x ∧ x ≤ byte '9') ∨ (byte 'a' ≤ x ∧ x ≤ byte 'f') ∨ (byte 'A' ≤ x ∧ x ≤ byte 'F')

def hexDigit (x : UInt8) : UInt8 :=
  if byte 'A' ≤ x then (x &&& 0xDF) - byte 'A' + 10 else x - byte '0'

def x2c (high low : UInt8) : UInt8 := hexDigit high * 16 + hexDigit low

def isOctal (x : UInt8) : Bool := byte '0' ≤ x ∧ x ≤ byte '7'

/-- The full width forms FF01 to FF5E stand for ASCII, 0x20 above their low byte. -/
def fullWidth (first second : UInt8) (low : UInt8) : UInt8 :=
  if 0 < low ∧ low < 0x5F ∧ (first = byte 'f' ∨ first = byte 'F') ∧
      (second = byte 'f' ∨ second = byte 'F') then low + 0x20
  else low

namespace Transformations

/-! ## Base64 and hexadecimal -/

def base64DecMap (c : UInt8) : Option Nat :=
  if byte 'A' ≤ c ∧ c ≤ byte 'Z' then some (c.toNat - 65)
  else if byte 'a' ≤ c ∧ c ≤ byte 'z' then some (c.toNat - 97 + 26)
  else if byte '0' ≤ c ∧ c ≤ byte '9' then some (c.toNat - 48 + 52)
  else if c = byte '+' then some 62
  else if c = byte '/' then some 63
  else none

/-- `doBase64decode` after the first `n` characters of a group of four, `x` being
their bits. -/
def base64Loop (ext : Bool) : Bytes → (n x : Nat) → Bytes
  | c :: rest, n, x =>
    if ext ∧ (isSpace c.toNat ∨ c = byte '.') then base64Loop ext rest n x
    else if c = byte '\r' ∨ c = byte '\n' then base64Loop ext rest n x
    else
      match base64DecMap c with
      | none => remainder n x
      | some decoded =>
        let x := x * 64 + decoded
        if n = 3 then
          UInt8.ofNat (x / 65536) :: UInt8.ofNat (x / 256) :: UInt8.ofNat x ::
            base64Loop ext rest 0 0
        else base64Loop ext rest (n + 1) x
  | [], n, x => remainder n x
where
  remainder : (n x : Nat) → Bytes
    | 2, x => [UInt8.ofNat (x * 4096 / 65536)]
    | 3, x => [UInt8.ofNat (x * 64 / 65536), UInt8.ofNat (x * 64 / 256)]
    | _, _ => []

def doBase64decode (ext : Bool) (src : Bytes) : Bytes := base64Loop ext src 0 0

def base64decode : Transformation := fun data => (doBase64decode false data, true, none)

def base64decodeext : Transformation := fun data => (doBase64decode true data, true, none)

def base64Alphabet (n : Nat) : UInt8 :=
  (str "ABCDEFGHIJKLMNOPQRSTUVWXYZabcdefghijklmnopqrstuvwxyz0123456789+/").getD n 0

def encodeToString : Bytes → Bytes
  | a :: b :: c :: rest =>
    let x := a.toNat * 65536 + b.toNat * 256 + c.toNat
    base64Alphabet (x / 262144) :: base64Alphabet (x / 4096 % 64) ::
      base64Alphabet (x / 64 % 64) :: base64Alphabet (x % 64) :: encodeToString rest
  | [a, b] =>
    let x := a.toNat * 1024 + b.toNat * 4
    [base64Alphabet (x / 4096), base64Alphabet (x / 64 % 64), base64Alphabet (x % 64), byte '=']
  | [a] => [base64Alphabet (a.toNat / 4), base64Alphabet (a.toNat % 4 * 16), byte '=', byte '=']
  | [] => []

def base64encode : Transformation := fun data => (encodeToString data, true, none)

def hexTable (upper : Bool) (n : Nat) : UInt8 :=
  if n < 10 then UInt8.ofNat (48 + n) else UInt8.ofNat ((if upper then 55 else 87) + n)

def errHexLength : GoError := str "encoding/hex: odd length hex string"

/-- `hex.InvalidByteError`, printed as `%#U`. -/
def invalidByteError (b : UInt8) : GoError :=
  let code := [hexTable true (b.toNat / 16), hexTable true (b.toNat % 16)]
  let shown :=
    if (0x20 ≤ b ∧ b ≤ 0x7E) ∨ (0xA1 ≤ b ∧ b ≠ 0xAD) then
      str " " ++ 39 :: encodeRune b.toNat ++ [39]
    else []
  str "encoding/hex: invalid byte: U+00" ++ code ++ shown

def decodeString : Bytes → Except GoError Bytes
  | a :: b :: rest =>
    if validHex a = false then .error (invalidByteError a)
    else if validHex b = false then .error (invalidByteError b)
    else (decodeString rest).map (x2c a b :: ·)
  | [a] => .error (if validHex a then errHexLength else invalidByteError a)
  | [] => .ok []

def hexDecode : Transformation := fun data =>
  match decodeString data with
  | .error err => ([], false, some err)
  | .ok dst => (dst, true, none)

def hexEncode : Transformation := fun data =>
  (data.flatMap fun b => [hexTable false (b.toNat / 16), hexTable false (b.toNat % 16)], true, none)

/-! ## Backslash escapes -/

/-- The byte a CSS escape of one to six digits stands for: that of its last two
digits, checked for a full width form where the digits before allow one. -/
def cssEscape (hex : Bytes) : UInt8 :=
  let digit (back : Nat) := hex.getD (hex.length - back) 0
  let low := x2c (digit 2) (digit 1)
  let fullcheck :=
    match hex.length with
    | 4 => true
    | 5 => hex.getD 0 0 = byte '0'
    | 6 => hex.getD 0 0 = byte '0' ∧ hex.getD 1 0 = byte '0'
    | _ => false
  if hex.length = 1 then hexDigit (digit 1)
  else if fullcheck then fullWidth (digit 3) (digit 4) low
  else low

def isCSpace (b : UInt8) : Bool :=
  b = byte ' ' ∨ b = 12 ∨ b = byte '\n' ∨ b = byte '\t' ∨ b = byte '\r' ∨ b = 11

def cssDecodeLoop : Nat → Bytes → Bytes
  | fuel + 1, b :: rest =>
    if b = byte '\\' then
      match rest with
      | [] => []
      | next :: later =>
        let hex := (rest.take 6).takeWhile validHex
        if 0 < hex.length then
          let after := rest.drop hex.length
          -- a single white space after the escape goes with it
          let after := if after.head?.any isCSpace then after.tail else after
          cssEscape hex :: cssDecodeLoop fuel after
        else if next = byte '\n' then cssDecodeLoop fuel later
        else next :: cssDecodeLoop fuel later
    else b :: cssDecodeLoop fuel rest
  | _, _ => []

def cssDecode : Transformation := fun data =>
  if byte '\\' ∈ data then (cssDecodeLoop data.length data, true, none) else (data, false, none)

/-- The escapes of one letter that both decoders know. -/
def letterEscape (b : UInt8) : Option UInt8 :=
  if b = byte 'a' then some 7
  else if b = byte 'b' then some 8
  else if b = byte 'f' then some 12
  else if b = byte 'n' then some 10
  else if b = byte 'r' then some 13
  else if b = byte 't' then some 9
  else if b = byte 'v' then some 11
  else none

def simpleEscape (b : UInt8) : Option UInt8 :=
  if b = byte '\\' ∨ b = byte '?' ∨ b = 39 ∨ b = 34 then some b else letterEscape b

def octalValue (digits : Bytes) : Nat :=
  digits.foldl (fun value b => value * 8 + (b.toNat - 48)) 0

/-- What an escape sequence decodes to and how many bytes after the backslash it
takes, if it is one. -/
def escapeSeq (rest : Bytes) : Option (UInt8 × Nat) :=
  match rest with
  | [] => none
  | next :: later =>
    match simpleEscape next with
    | some c => some (c, 1)
    | none =>
      let digits := (rest.take 3).takeWhile isOctal
      if (next = byte 'x' ∨ next = byte 'X') ∧ 2 ≤ later.length ∧
          validHex (later.getD 0 0) ∧ validHex (later.getD 1 0) then
        some (x2c (later.getD 0 0) (later.getD 1 0), 3)
      else if isOctal next then
        -- a value above 255 is returned as the largest one, with an error
        some (UInt8.ofNat (min 255 (octalValue digits)), digits.length)
      else none

def escapeSeqLoop : Nat → Bytes → Bytes × Bool
  | fuel + 1, b :: rest =>
    if b = byte '\\' ∧ rest ≠ [] then
      match escapeSeq rest with
      | some (c, count) => (c :: (escapeSeqLoop fuel (rest.drop count)).1, true)
      | none =>
        let (decoded, changed) := escapeSeqLoop fuel rest.tail
        (rest.take 1 ++ decoded, changed)
    else
      let (decoded, changed) := escapeSeqLoop fuel rest
      (b :: decoded, changed)
  | _, _ => ([], false)

def escapeSeqDecode : Transformation := fun input =>
  if byte '\\' ∈ input then
    let (decoded, changed) := escapeSeqLoop input.length input
    (decoded, changed, none)
  else (input, false, none)

/-- The length of the octal escape at a backslash.  The buffer starts at the
backslash itself, so that three bytes are always cut to two. -/
def jsOctalLength (rest : Bytes) : Nat :=
  if rest.length < 2 then 1 else 2

def jsEscape (rest : Bytes) : Option (UInt8 × Nat) :=
  match rest with
  | [] => none
  | next :: later =>
    let digit (index : Nat) := later.getD index 0
    if 4 ≤ later.length ∧ next = byte 'u' ∧ (later.take 4).all validHex then
      some (fullWidth (digit 0) (digit 1) (x2c (digit 2) (digit 3)), 5)
    else if 2 ≤ later.length ∧ next = byte 'x' ∧ (later.take 2).all validHex then
      some (x2c (digit 0) (digit 1), 3)
    -- the buffer holds a backslash, which `strconv.ParseInt` answers with zero
    else if isOctal next then some (0, jsOctalLength rest)
    else some ((letterEscape next).getD next, 1)

def jsDecodeLoop : Nat → Bytes → Bytes × Bool
  | fuel + 1, b :: rest =>
    if b = byte '\\' then
      match jsEscape rest with
      | some (c, count) => (c :: (jsDecodeLoop fuel (rest.drop count)).1, true)
      | none => ([b], false)
    else
      let (decoded, changed) := jsDecodeLoop fuel rest
      (b :: decoded, changed)
  | _, _ => ([], false)

def jsDecode : Transformation := fun data =>
  if byte '\\' ∈ data then
    let (decoded, changed) := jsDecodeLoop data.length data
    (decoded, changed, none)
  else (data, false, none)

/-! ## URL and Unicode -/

def percentEscape (rest : Bytes) : Option (UInt8 × Nat) :=
  if 2 ≤ rest.length ∧ (rest.take 2).all validHex then
    some (x2c (rest.getD 0 0) (rest.getD 1 0), 2)
  else none

def plusSpace (b : UInt8) : UInt8 := if b = byte '+' then byte ' ' else b

def urlDecodeLoop : Nat → Bytes → Bytes
  | fuel + 1, b :: rest =>
    if b = byte '%' then
      match percentEscape rest with
      | some (c, count) => c :: urlDecodeLoop fuel (rest.drop count)
      | none => b :: urlDecodeLoop fuel rest
    else plusSpace b :: urlDecodeLoop fuel rest
  | _, _ => []

def isURLCoded (b : UInt8) : Bool := b = byte '%' ∨ b = byte '+'

def urlDecode : Transformation := fun data =>
  if data.any isURLCoded then (urlDecodeLoop data.length data, true, none) else (data, false, none)

/-- The `%u` escape of IIS after its `u`.  The Unicode map of the source is never
set, so its low byte is used. -/
def unicodeEscape (later : Bytes) : Option (UInt8 × Nat) :=
  let digit (index : Nat) := later.getD index 0
  if 4 ≤ later.length ∧ (later.take 4).all validHex then
    some (fullWidth (digit 0) (digit 1) (x2c (digit 2) (digit 3)), 4)
  else none

def uniDecodeLoop : Nat → Bytes → Bytes
  | fuel + 1, b :: rest =>
    if b = byte '%' then
      match rest with
      | [] => [b]
      | next :: later =>
        if next = byte 'u' ∨ next = byte 'U' then
          match unicodeEscape later with
          | some (c, count) => c :: uniDecodeLoop fuel (later.drop count)
          | none => b :: next :: uniDecodeLoop fuel later
        else
          match percentEscape rest with
          | some (c, count) => c :: uniDecodeLoop fuel (rest.drop count)
          | none => b :: uniDecodeLoop fuel rest
    else plusSpace b :: uniDecodeLoop fuel rest
  | _, _ => []

def urlDecodeUni : Transformation := fun data =>
  if data.any isURLCoded then (uniDecodeLoop data.length data, true, none) else (data, false, none)

def isURLPlain (cc : UInt8) : Bool :=
  cc = 42 ∨ (48 ≤ cc ∧ cc ≤ 57) ∨ (65 ≤ cc ∧ cc ≤ 90) ∨ (97 ≤ cc ∧ cc ≤ 122)

def urlEncodeLoop : Bytes → Bytes × Bool
  | [] => ([], false)
  | cc :: rest =>
    let (encoded, changed) := urlEncodeLoop rest
    if cc = byte ' ' then (byte '+' :: encoded, true)
    else if isURLPlain cc then (cc :: encoded, changed)
    else
      (byte '%' :: hexTable false (cc.toNat / 16) :: hexTable false (cc.toNat % 16) :: encoded,
        true)

def urlEncode : Transformation := fun data =>
  let (encoded, changed) := urlEncodeLoop data
  (encoded, changed, none)

/-- `html.UnescapeString` of `golang.org/x/net`, which the caller supplies. -/
def htmlEntityDecode (unescapeString : Bytes → Bytes) : Transformation := fun data =>
  let transformedData := unescapeString data
  (transformedData, data.length ≠ transformedData.length, none)

def unicodeEscaped (r : Nat) : Bytes :=
  let hex := (Nat.toDigits 16 r).map fun c => UInt8.ofNat c.toNat
  str "%u" ++ List.replicate (4 - hex.length) (byte '0') ++ hex

def utf8ToUnicode : Transformation := fun text =>
  if (runes text).any (128 ≤ ·.code) then
    ((runes text).flatMap fun r => if r.code < 128 then r.bytes else unicodeEscaped r.code,
      true, none)
  else (text, false, none)

example : cssDecode (str "\\ff21 z\\\nc\\") = (str "Azc", true, none) := by decide
example : jsDecode (str "\\x41\\u0042\\103") = (str "AB" ++ [0, byte '3'], true, none) := by decide
example : urlDecodeUni (str "%u0041+%4") = (str "A %4", true, none) := by decide

end Transformations

end Obsidian
