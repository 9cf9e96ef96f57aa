import Obsidian.Data.Cursors
import Obsidian.BodyProcessors.Urlencoded
import Obsidian.ChangedFlags

namespace Obsidian

open Obsidian.Data
open Obsidian.Transformations hiding none

/-! # The decoders over indices

The decoders of URLs and of JavaScript as the source runs them: over a text and a buffer
with a read and a write cursor.  `none` is an index out of range, or a loop that does not
end.  Each of them is shown to answer what its recursion over the text answers.
-/

namespace Indexed

def x2cAt (input : Bytes) (i : Nat) : Option UInt8 := do
  let what ← if i ≤ input.length then some (input.drop i) else none
  let high ← what[0]?
  let low ← what[1]?
  some (x2c high low)

/-! ## URLs -/

def percentRound (input : Bytes) (s : Cursors UInt8) : Option (Cursors UInt8) := do
  if s.i + 2 < input.length then
    let c1 ← input[s.i + 1]?
    let c2 ← input[s.i + 2]?
    if validHex c1 && validHex c2 then s.put (← x2cAt input (s.i + 1)) 3
    else s.put (← input[s.i]?) 1
  else s.put (← input[s.i]?) 1

def plainRound (input : Bytes) (s : Cursors UInt8) : Option (Cursors UInt8) := do
  let b ← input[s.i]?
  if b = byte '+' then s.put (byte ' ') 1 else s.put b 1

def urlDecodeRound (input : Bytes) (s : Cursors UInt8) : Option (Cursors UInt8) := do
  let b ← input[s.i]?
  if b = byte '%' then percentRound input s else plainRound input s

def doURLDecode (input : Bytes) (pos : Nat) : Option Bytes :=
  (whileLoop (fun s => s.i < input.length) (urlDecodeRound input) input.length
    (Cursors.start input pos)).bind Cursors.slice

/-- Both decoders start at the first byte that is not copied. -/
def decodeCoded (decode : (input : Bytes) → (pos : Nat) → Option Bytes) (data : Bytes) :
    Option (Bytes × Bool × Option GoError) :=
  match data.findIdx? isURLCoded with
  | some pos => (decode data pos).map fun decoded => (decoded, true, none)
  | none => some (data, false, none)

def urlDecode : Bytes → Option (Bytes × Bool × Option GoError) := decodeCoded doURLDecode

/-- The percent sign and the byte after it are copied. -/
def skipUnicode (input : Bytes) (s : Cursors UInt8) : Option (Cursors UInt8) := do
  let s ← s.put (← input[s.i]?) 1
  s.put (← input[s.i]?) 1

/-- `hmap` is never set. -/
def unicodeRound (input : Bytes) (s : Cursors UInt8) : Option (Cursors UInt8) := do
  if s.i + 5 < input.length then
    let h1 ← input[s.i + 2]?
    let h2 ← input[s.i + 3]?
    let h3 ← input[s.i + 4]?
    let h4 ← input[s.i + 5]?
    if validHex h1 && validHex h2 && validHex h3 && validHex h4 then
      s.put (fullWidth h1 h2 (← x2cAt input (s.i + 4))) 6
    else skipUnicode input s
  else skipUnicode input s

/-- The test for a percent sign reads the buffer, the other tests the text. -/
def uniDecodeRound (input : Bytes) (s : Cursors UInt8) : Option (Cursors UInt8) := do
  let b ← s.d[s.i]?
  if b = byte '%' then
    let isUnicode ←
      if s.i + 1 < input.length then
        (input[s.i + 1]?).map fun b => b = byte 'u' || b = byte 'U'
      else some false
    if isUnicode then unicodeRound input s else percentRound input s
  else plainRound input s

def inplaceUniDecode (input : Bytes) (pos : Nat) : Option Bytes :=
  (whileLoop (fun s => s.i < input.length) (uniDecodeRound input) input.length
    (Cursors.start input pos)).bind Cursors.slice

def urlDecodeUni : Bytes → Option (Bytes × Bool × Option GoError) := decodeCoded inplaceUniDecode

/-- A round of `queryUnescape` at index `i` of its result `res`. -/
def queryRound (input : Bytes) (s : Nat × Bytes) : Option (Nat × Bytes) := do
  let (i, res) := s
  let ci ← input[i]?
  if ci = byte '+' then some (i + 1, res ++ [byte ' '])
  else if ci = byte '%' then
    if input.length ≤ i + 2 then some (i + 1, res ++ [ci])
    else
      match Url.hexDigitToByte (← input[i + 1]?) with
      | none => some (i + 1, res ++ [ci])
      | some hi =>
        match Url.hexDigitToByte (← input[i + 2]?) with
        | none => some (i + 1, res ++ [ci])
        | some lo => some (i + 3, res ++ [hi <<< 4 ||| lo])
  else some (i + 1, res ++ [ci])

def queryUnescape (input : Bytes) : Option Bytes :=
  (whileLoop (fun s => s.1 < input.length) (queryRound input) input.length (0, [])).map (·.2)

/-! ## JavaScript -/

def allHex (input : Bytes) : (i count : Nat) → Option Bool
  | _, 0 => some true
  | i, count + 1 => do
      if validHex (← input[i]?) then allHex input (i + 1) count else some false

/-- Whether the backslash at `i` is followed by the letter and so many digits. -/
def escapeAt (input : Bytes) (i : Nat) (letter : UInt8) (count : Nat) : Option Bool := do
  if i + 1 + count < input.length then
    if (← input[i + 1]?) = letter then allHex input (i + 2) count else some false
  else some false

/-- The loop that fills `buf`, which has been filled so far; `rounds` of its three bytes
are left. -/
def octalLoop (input : Bytes) (i : Nat) : (rounds : Nat) → (buf : Bytes) → Option Bytes
  | 0, buf => some buf
  | rounds + 1, buf => do
      if i + 1 + buf.length < input.length then
        let buf' := buf ++ [← input[i + buf.length]?]
        if isOctal (← input[i + buf'.length]?) then octalLoop input i rounds buf' else some buf'
      else some buf

/-- The value `strconv.ParseInt` returns in base 8 and 8 bits; an error is not looked at. -/
def parseOctal (text : Bytes) : Int :=
  let (negative, digits) : Bool × Bytes := match text with
    | 43 :: rest => (false, rest)
    | 45 :: rest => (true, rest)
    | _ => (false, text)
  if digits ≠ [] ∧ digits.all isOctal then
    if negative then max (-128) (-octalValue digits) else min 127 (octalValue digits)
  else 0

def octalRound (input : Bytes) (state : Cursors UInt8 × Bool) :
    Option (Cursors UInt8 × Bool) := do
  let (s, changed) := state
  let buf ← octalLoop input s.i 3 []
  if 0 < buf.length then
    -- three bytes are not used if they make more than one byte
    let buf := if buf.length = 3 ∧ buf.head?.any (byte '3' < ·) then buf.take 2 else buf
    let s ← s.put (UInt8.ofNat (parseOctal buf % 256).toNat) (1 + buf.length)
    some (s, true)
  else some (s, changed)

def copyRound (input : Bytes) (s : Cursors UInt8) : Option (Cursors UInt8) := do
  s.put (← input[s.i]?) 1

/-- `changed` is set by every escape. -/
def jsDecodeRound (input : Bytes) (state : Cursors UInt8 × Bool) :
    Option (Cursors UInt8 × Bool) := do
  let (s, changed) := state
  if (← input[s.i]?) = byte '\\' then
    if ← escapeAt input s.i (byte 'u') 4 then
      let low ← x2cAt input (s.i + 4)
      let s ← s.put (fullWidth (← input[s.i + 2]?) (← input[s.i + 3]?) low) 6
      some (s, true)
    else if ← escapeAt input s.i (byte 'x') 2 then
      let s ← s.put (← x2cAt input (s.i + 2)) 4
      some (s, true)
    else if s.i + 1 < input.length then
      let cc ← input[s.i + 1]?
      if isOctal cc then octalRound input (s, changed)
      else
        let s ← s.put ((letterEscape cc).getD cc) 2
        some (s, true)
    else
      let s ← whileLoop (fun s => s.i < input.length) (copyRound input) input.length s
      some (s, changed)
  else
    let s ← copyRound input s
    some (s, changed)

def doJsDecode (input : Bytes) (pos : Nat) : Option (Bytes × Bool) := do
  let (s, changed) ← whileLoop (fun state => state.1.i < input.length) (jsDecodeRound input)
    input.length (Cursors.start input pos, false)
  some (← s.slice, changed)

/-- The decoders of escapes start at the first backslash. -/
def decodeBackslash (decode : (input : Bytes) → (pos : Nat) → Option (Bytes × Bool)) (data : Bytes) :
    Option (Bytes × Bool × Option GoError) :=
  match data.findIdx? (· = byte '\\') with
  | some pos => (decode data pos).map fun (decoded, changed) => (decoded, changed, none)
  | none => some (data, false, none)

def jsDecode : Bytes → Option (Bytes × Bool × Option GoError) := decodeBackslash doJsDecode

example : jsDecode (str "\\x41\\u0042\\103") = some (str "AB" ++ [0, byte '3'], true, none) := by
  decide
example : urlDecodeUni (str "%u0041+%4") = some (str "A %4", true, none) := by decide

/-! ## Reading ahead -/

section

variable {text rest : Bytes} {i : Nat} {b : UInt8}

theorem x2cAt_of_drop {high low : UInt8} (here : text.drop i = high :: low :: rest) :
    x2cAt text i = some (x2c high low) := by
  have inside := length_of_drop here
  rw [x2cAt, if_pos (by omega), here]
  rfl

theorem allHex_of_drop {count : Nat} (here : text.drop i = rest) (fits : count ≤ rest.length) :
    allHex text i count = some ((rest.take count).all validHex) := by
  induction count generalizing i rest with
  | zero => rfl
  | succ count ih =>
    cases rest with
    | nil => simp at fits
    | cons b rest =>
      rw [allHex, getElem?_of_drop here]
      have later : text.drop (i + 1) = rest := drop_add_of_drop here 1
      rw [List.take_succ_cons, List.all_cons]
      cases valid : validHex b with
      | false => simp [valid]
      | true => simpa [valid] using ih later (by simpa using fits)

theorem escapeAt_of_drop {next letter : UInt8} {later : Bytes} {count : Nat}
    (here : text.drop i = b :: next :: later) :
    escapeAt text i letter count =
      some (decide (count ≤ later.length ∧ next = letter ∧ (later.take count).all validHex)) := by
  have length := length_of_drop here
  rw [List.length_cons] at length
  have second : text[i + 1]? = some next := getElem?_add_of_drop here 1
  have after : text.drop (i + 2) = later := drop_add_of_drop here 2
  rw [escapeAt]
  by_cases fits : count ≤ later.length
  · rw [if_pos (by omega), second]
    by_cases same : next = letter
    · simp only [Option.bind_eq_bind, Option.bind_some, same, if_true, fits, true_and,
        allHex_of_drop after fits, Bool.decide_eq_true]
    · simp only [Option.bind_eq_bind, Option.bind_some, same, if_false, false_and, and_false,
        decide_false]
  · rw [if_neg (by omega)]
    simp [fits]

theorem exists_two {later : Bytes} (enough : 2 ≤ later.length) :
    ∃ h1 h2 tail, later = h1 :: h2 :: tail := by
  rcases later with _ | ⟨h1, _ | ⟨h2, tail⟩⟩
  · simp at enough
  · simp at enough
  · exact ⟨h1, h2, tail, rfl⟩

theorem exists_four {later : Bytes} (enough : 4 ≤ later.length) :
    ∃ h1 h2 h3 h4 tail, later = h1 :: h2 :: h3 :: h4 :: tail := by
  obtain ⟨h1, h2, later, rfl⟩ := exists_two (show 2 ≤ later.length by omega)
  obtain ⟨h3, h4, tail, rfl⟩ := exists_two (show 2 ≤ later.length by simpa using enough)
  exact ⟨h1, h2, h3, h4, tail, rfl⟩

theorem escapeAt_of_last {letter : UInt8} {count : Nat} (here : text.drop i = [b])
    (positive : 0 < count) : escapeAt text i letter count = some false := by
  have length := length_of_drop here
  rw [List.length_nil] at length
  rw [escapeAt, if_neg (by omega)]

end

/-! ## What a round makes of the text -/

def percentPiece (b : UInt8) (rest : Bytes) : Piece UInt8 :=
  match percentEscape rest with
  | some (c, count) => { out := [c], count }
  | none => { out := [b] }

def urlPiece (b : UInt8) (rest : Bytes) : Piece UInt8 :=
  if b = byte '%' then percentPiece b rest else { out := [plusSpace b] }

def unicodePiece (b next : UInt8) (later : Bytes) : Piece UInt8 :=
  match unicodeEscape later with
  | some (c, count) => { out := [c], count := count + 1 }
  | none => { out := [b, next], count := 1 }

def isUnicode (b : UInt8) : Bool := b = byte 'u' ∨ b = byte 'U'

def uniPiece (b : UInt8) (rest : Bytes) : Piece UInt8 :=
  if b = byte '%' then
    match rest with
    | [] => { out := [b] }
    | next :: later =>
      if isUnicode next then unicodePiece b next later else percentPiece b (next :: later)
  else { out := [plusSpace b] }

def jsPiece (b : UInt8) (rest : Bytes) : Piece UInt8 :=
  if b = byte '\\' then
    match jsEscape rest with
    | some (c, count) => { out := [c], count, changed := true }
    | none => { out := [b] }
  else { out := [b] }

theorem urlDecodeLoop_eq (fuel : Nat) (text : Bytes) :
    urlDecodeLoop fuel text = (rewriteLoop urlPiece fuel text).1 := by
  induction fuel generalizing text with
  | zero => cases text <;> rfl
  | succ fuel ih =>
    cases text with
    | nil => rfl
    | cons b rest =>
      rw [urlDecodeLoop, rewriteLoop, urlPiece, percentPiece]
      split
      · cases escape : percentEscape rest <;> simp [ih]
      · simp [ih]

theorem uniDecodeLoop_eq (fuel : Nat) (text : Bytes) :
    uniDecodeLoop fuel text = (rewriteLoop uniPiece fuel text).1 := by
  induction fuel generalizing text with
  | zero => cases text <;> rfl
  | succ fuel ih =>
    cases text with
    | nil => rfl
    | cons b rest =>
      rw [rewriteLoop]
      by_cases percent : b = byte '%'
      · cases rest with
        | nil => cases fuel <;> simp [uniDecodeLoop, uniPiece, percent, rewriteLoop]
        | cons next later =>
          simp only [uniDecodeLoop, uniPiece, percent, if_true, isUnicode, decide_eq_true_eq,
            unicodePiece, percentPiece]
          split
          · cases escape : unicodeEscape later <;> simp [ih]
          · cases escape : percentEscape (next :: later) <;> simp [ih]
      · simp [uniDecodeLoop, uniPiece, percent, ih]

theorem jsDecodeLoop_eq (fuel : Nat) (text : Bytes) :
    jsDecodeLoop fuel text = rewriteLoop jsPiece fuel text := by
  induction fuel generalizing text with
  | zero => cases text <;> rfl
  | succ fuel ih =>
    cases text with
    | nil => rfl
    | cons b rest =>
      rw [jsDecodeLoop, rewriteLoop, jsPiece]
      split
      · cases rest with
        | nil => cases fuel <;> simp [jsEscape, rewriteLoop]
        | cons next later =>
          obtain ⟨escape, found⟩ := jsEscape_cons next later
          simp [found, ih]
      · simp [ih]

/-! ## Rounds -/

section

open Cursors

variable {text rest : Bytes} {s : Cursors UInt8} {b : UInt8}

theorem percentRound_writes (behind : Behind text s) (here : text.drop s.i = b :: rest) :
    Writes text s (percentPiece b rest) (percentRound text s) := by
  have length := length_of_drop here
  have first := getElem?_of_drop here
  rw [percentRound, percentPiece]
  rcases rest with _ | ⟨c1, _ | ⟨c2, later⟩⟩
  · rw [if_neg (by simp at length; omega), first]
    exact behind.writes b 0 (by omega)
  · rw [if_neg (by simp at length; omega), first]
    exact behind.writes b 0 (by omega)
  · rw [List.length_cons, List.length_cons] at length
    have second : text[s.i + 1]? = some c1 := getElem?_add_of_drop here 1
    have third : text[s.i + 2]? = some c2 := getElem?_add_of_drop here 2
    have after : text.drop (s.i + 1) = c1 :: c2 :: later := drop_add_of_drop here 1
    rw [if_pos (by omega), second, third, first, x2cAt_of_drop after]
    cases valid : validHex c1 && validHex c2 with
    | true =>
      have escape : percentEscape (c1 :: c2 :: later) = some (x2c c1 c2, 2) := by
        simpa [percentEscape] using valid
      simp only [escape, Option.bind_eq_bind, Option.bind_some, valid, if_true]
      exact behind.writes (x2c c1 c2) 2 (by omega)
    | false =>
      have escape : percentEscape (c1 :: c2 :: later) = none := by
        simpa [percentEscape] using valid
      simp only [escape, Option.bind_eq_bind, Option.bind_some, valid, Bool.false_eq_true,
        if_false]
      exact behind.writes b 0 (by omega)

theorem plainRound_writes (behind : Behind text s) (here : text.drop s.i = b :: rest) :
    Writes text s { out := [plusSpace b] } (plainRound text s) := by
  have length := length_of_drop here
  rw [plainRound, getElem?_of_drop here, plusSpace]
  by_cases plus : b = byte '+'
  · simpa [plus] using behind.writes (byte ' ') 0 (by omega)
  · simpa [plus] using behind.writes b 0 (by omega)

theorem urlDecodeRound_writes (behind : Behind text s) (here : text.drop s.i = b :: rest) :
    Writes text s (urlPiece b rest) (urlDecodeRound text s) := by
  rw [urlDecodeRound, getElem?_of_drop here, urlPiece]
  by_cases percent : b = byte '%'
  · simpa [percent] using percentRound_writes behind (percent ▸ here)
  · simpa [percent] using plainRound_writes behind here

theorem skipUnicode_writes {next : UInt8} {later : Bytes} (behind : Behind text s)
    (here : text.drop s.i = b :: next :: later) :
    Writes text s { out := [b, next], count := 1 } (skipUnicode text s) := by
  have length := length_of_drop here
  rw [List.length_cons] at length
  obtain ⟨runs, kept, written⟩ := behind.put b Nat.one_pos (by omega)
  have second : text[(s.next b 1).i]? = some next := getElem?_add_of_drop here 1
  obtain ⟨runs', kept', written'⟩ := kept.put next Nat.one_pos (by rw [next_i]; omega)
  refine ⟨(s.next b 1).next next 1, ?_, kept', rfl, ?_⟩
  · rw [skipUnicode, getElem?_of_drop here, Option.bind_eq_bind, Option.bind_some, runs,
      Option.bind_eq_bind, Option.bind_some, second, Option.bind_some, runs']
  · rw [written', written, List.append_assoc]
    rfl

theorem unicodeRound_writes {next : UInt8} {later : Bytes} (behind : Behind text s)
    (here : text.drop s.i = b :: next :: later) :
    Writes text s (unicodePiece b next later) (unicodeRound text s) := by
  have length := length_of_drop here
  rw [List.length_cons] at length
  have skips := skipUnicode_writes behind here
  rw [unicodeRound, unicodePiece]
  by_cases enough : 4 ≤ later.length
  · obtain ⟨h1, h2, h3, h4, tail, rfl⟩ := exists_four enough
    have read1 : text[s.i + 2]? = some h1 := getElem?_add_of_drop here 2
    have read2 : text[s.i + 3]? = some h2 := getElem?_add_of_drop here 3
    have read3 : text[s.i + 4]? = some h3 := getElem?_add_of_drop here 4
    have read4 : text[s.i + 5]? = some h4 := getElem?_add_of_drop here 5
    have after : text.drop (s.i + 4) = h3 :: h4 :: tail := drop_add_of_drop here 4
    simp only [List.length_cons] at length
    rw [if_pos (by omega), read1, read2, read3, read4, x2cAt_of_drop after]
    cases valid : validHex h1 && validHex h2 && validHex h3 && validHex h4 with
    | true =>
      have escape : unicodeEscape (h1 :: h2 :: h3 :: h4 :: tail) =
          some (fullWidth h1 h2 (x2c h3 h4), 4) := by
        simpa [unicodeEscape, and_assoc] using valid
      simp only [escape, Option.bind_eq_bind, Option.bind_some, valid, if_true]
      exact behind.writes _ 5 (by omega)
    | false =>
      have escape : unicodeEscape (h1 :: h2 :: h3 :: h4 :: tail) = none := by
        simpa [unicodeEscape, and_assoc] using valid
      simp only [escape, Option.bind_eq_bind, Option.bind_some, valid, Bool.false_eq_true,
        if_false]
      exact skips
  · have escape : unicodeEscape later = none := by simp [unicodeEscape, enough]
    rw [if_neg (by omega), escape]
    exact skips

theorem uniDecodeRound_writes (behind : Behind text s) (here : text.drop s.i = b :: rest) :
    Writes text s (uniPiece b rest) (uniDecodeRound text s) := by
  have length := length_of_drop here
  rw [uniDecodeRound, behind.getElem? here]
  by_cases percent : b = byte '%'
  · cases rest with
    | nil =>
      have last : percentPiece b [] = { out := [b] } := by simp [percentPiece, percentEscape]
      have round := percentRound_writes behind here
      rw [List.length_nil] at length
      rw [last] at round
      simpa [uniPiece, percent, length] using round
    | cons next later =>
      have second : text[s.i + 1]? = some next := getElem?_add_of_drop here 1
      rw [List.length_cons] at length
      rw [if_pos (show s.i + 1 < text.length by omega), second]
      by_cases unicode : next = byte 'u' ∨ next = byte 'U'
      · have round := unicodeRound_writes behind here
        simpa [uniPiece, isUnicode, percent, unicode] using round
      · have round := percentRound_writes behind here
        simpa [uniPiece, isUnicode, percent, unicode] using round
  · have round := plainRound_writes behind here
    simpa [uniPiece, percent] using round

theorem octalLoop_round {i rounds : Nat} {buf : Bytes} {next : UInt8}
    (read : text[i + buf.length]? = some b) (ahead : text[i + buf.length + 1]? = some next) :
    octalLoop text i (rounds + 1) buf =
      if isOctal next then octalLoop text i rounds (buf ++ [b]) else some (buf ++ [b]) := by
  have inside := (List.getElem?_eq_some_iff.mp ahead).1
  have after : i + (buf ++ [b]).length = i + buf.length + 1 := by
    rw [List.length_append, List.length_singleton, Nat.add_assoc]
  rw [octalLoop, if_pos (by omega), read, Option.bind_eq_bind, Option.bind_some]
  simp only [after, ahead, Option.bind_some]

theorem octalLoop_end {i rounds : Nat} {buf : Bytes} (ended : text.length ≤ i + 1 + buf.length) :
    octalLoop text i rounds buf = some buf := by
  cases rounds with
  | zero => rfl
  | succ rounds => rw [octalLoop, if_neg (by omega)]

/-- The buffer of an octal escape starts with the backslash, not with the first digit. -/
theorem octalLoop_of_drop {next : UInt8} {later : Bytes} {i : Nat}
    (here : text.drop i = b :: next :: later) (octal : isOctal next = true) :
    (later = [] ∧ octalLoop text i 3 [] = some [b]) ∨
      (later ≠ [] ∧ ∃ third, octalLoop text i 3 [] = some (b :: next :: third) ∧
        third.length ≤ 1) := by
  have length := length_of_drop here
  have read0 : text[i]? = some b := getElem?_of_drop here
  have read1 : text[i + 1]? = some next := getElem?_add_of_drop here 1
  have first : octalLoop text i 3 [] = octalLoop text i 2 [b] :=
    (octalLoop_round read0 read1).trans (if_pos octal)
  rw [first]
  cases later with
  | nil => exact .inl ⟨rfl, octalLoop_end (by simp [length])⟩
  | cons third tail =>
    refine .inr ⟨by simp, ?_⟩
    have read2 : text[i + 2]? = some third := getElem?_add_of_drop here 2
    have second : octalLoop text i 2 [b] =
        if isOctal third then octalLoop text i 1 [b, next] else some [b, next] :=
      octalLoop_round read1 read2
    rw [second]
    cases isOctal third with
    | false => exact ⟨[], rfl, by simp⟩
    | true =>
      rw [if_pos rfl]
      cases tail with
      | nil => exact ⟨[], octalLoop_end (by simp [length]), by simp⟩
      | cons fourth tail =>
        have read3 : text[i + 3]? = some fourth := getElem?_add_of_drop here 3
        have last : octalLoop text i 1 [b, next] = some [b, next, third] :=
          (octalLoop_round read2 read3).trans (ite_self _)
        exact ⟨[third], last, by simp⟩

theorem parseOctal_backslash (rest : Bytes) : parseOctal (byte '\\' :: rest) = 0 := by
  have notDigit : isOctal 92 = false := by decide
  simp [parseOctal, notDigit, show byte '\\' = 92 by decide]

theorem octalRound_writes {next : UInt8} {later : Bytes} (behind : Behind text s)
    (here : text.drop s.i = byte '\\' :: next :: later) (octal : isOctal next = true)
    (changed : Bool) :
    ∃ after, octalRound text (s, changed) = some (after, true) ∧
      Wrote text s { out := [0], count := jsOctalLength (next :: later) } after := by
  have length := length_of_drop here
  rw [List.length_cons] at length
  rcases octalLoop_of_drop here octal with ⟨rfl, filled⟩ | ⟨more, third, filled, short⟩
  · obtain ⟨after, runs, kept⟩ : Writes text s { out := [0], count := 1 } (s.put 0 2) :=
      behind.writes 0 1 (by simp at length; omega)
    refine ⟨after, ?_, kept⟩
    have runs : s.put 0 (1 + 1) = some after := runs
    simp [octalRound, filled, parseOctal_backslash, runs]
  · have two : 2 ≤ (next :: later).length := by
      have := List.length_pos_iff.mpr more
      rw [List.length_cons]
      omega
    obtain ⟨after, runs, kept⟩ : Writes text s { out := [0], count := 2 } (s.put 0 3) :=
      behind.writes 0 2 (by rw [List.length_cons] at two; omega)
    refine ⟨after, ?_, ?_⟩
    · have cut : (if (byte '\\' :: next :: third).length = 3 ∧
          (byte '\\' :: next :: third).head?.any (byte '3' < ·) then
            (byte '\\' :: next :: third).take 2
          else byte '\\' :: next :: third) = [byte '\\', next] := by
        rcases third with _ | ⟨x, _ | ⟨y, more⟩⟩
        · rfl
        · exact if_pos ⟨rfl, show decide (byte '3' < byte '\\') = true by decide⟩
        · simp at short
      have runs : s.put (UInt8.ofNat ((0 : Int) % 256).toNat) (1 + [byte '\\', next].length) =
          some after := runs
      simp only [octalRound, filled, Option.bind_eq_bind, Option.bind_some, cut,
        parseOctal_backslash]
      rw [if_pos (by simp), runs]
      rfl
    · have count : jsOctalLength (next :: later) = 2 := if_neg (by omega)
      rw [count]
      exact kept

theorem copyRound_writes (behind : Behind text s) (here : text.drop s.i = b :: rest) :
    Writes text s { out := [b] } (copyRound text s) := by
  have length := length_of_drop here
  rw [copyRound, getElem?_of_drop here]
  exact behind.writes b 0 (by omega)

/-- The loop that copies what is left after a backslash copies the backslash. -/
theorem copyLoop_writes (behind : Behind text s) (here : text.drop s.i = [b]) :
    Writes text s { out := [b] }
      (whileLoop (fun s => s.i < text.length) (copyRound text) text.length s) := by
  have length := length_of_drop here
  rw [List.length_nil, Nat.add_zero] at length
  obtain ⟨after, runs, kept, moves, written⟩ := copyRound_writes behind here
  have moves : after.i = s.i + 1 := moves
  refine ⟨after, ?_, kept, moves, written⟩
  generalize condition : (fun s : Cursors UInt8 => decide (s.i < text.length)) = inside
  have goes : inside s = true := by simp [← condition, length]
  have ended : inside after = false := by simp [← condition, length, moves]
  rw [length, whileLoop_round goes runs, whileLoop_ended ended]

section

variable {next h1 h2 h3 h4 : UInt8} {later : Bytes} (changed : Bool)

theorem jsDecodeRound_unicode
    (here : text.drop s.i = byte '\\' :: byte 'u' :: h1 :: h2 :: h3 :: h4 :: later)
    (digits : [h1, h2, h3, h4].all validHex = true) :
    jsDecodeRound text (s, changed) =
      (s.put (fullWidth h1 h2 (x2c h3 h4)) 6).bind fun s => some (s, true) := by
  have read : text[s.i]? = some (byte '\\') := getElem?_of_drop here
  have read1 : text[s.i + 2]? = some h1 := getElem?_add_of_drop here 2
  have read2 : text[s.i + 3]? = some h2 := getElem?_add_of_drop here 3
  have after : text.drop (s.i + 4) = h3 :: h4 :: later := drop_add_of_drop here 4
  have test : escapeAt text s.i (byte 'u') 4 = some true := by
    rw [escapeAt_of_drop here]
    simpa using digits
  simp only [jsDecodeRound, read, test, read1, read2, x2cAt_of_drop after, Option.bind_eq_bind,
    Option.bind_some, if_true]

theorem jsDecodeRound_hex (here : text.drop s.i = byte '\\' :: byte 'x' :: h1 :: h2 :: later)
    (digits : [h1, h2].all validHex = true) :
    jsDecodeRound text (s, changed) = (s.put (x2c h1 h2) 4).bind fun s => some (s, true) := by
  have read : text[s.i]? = some (byte '\\') := getElem?_of_drop here
  have after : text.drop (s.i + 2) = h1 :: h2 :: later := drop_add_of_drop here 2
  have notUnicode : escapeAt text s.i (byte 'u') 4 = some false := by
    rw [escapeAt_of_drop here]
    simp [show byte 'x' ≠ byte 'u' by decide]
  have test : escapeAt text s.i (byte 'x') 2 = some true := by
    rw [escapeAt_of_drop here]
    simpa using digits
  simp only [jsDecodeRound, read, notUnicode, test, x2cAt_of_drop after, Option.bind_eq_bind,
    Option.bind_some, Bool.false_eq_true, if_true, if_false]

theorem jsDecodeRound_other (here : text.drop s.i = byte '\\' :: next :: later)
    (notUnicode : ¬(4 ≤ later.length ∧ next = byte 'u' ∧ (later.take 4).all validHex))
    (notHex : ¬(2 ≤ later.length ∧ next = byte 'x' ∧ (later.take 2).all validHex)) :
    jsDecodeRound text (s, changed) =
      if isOctal next then octalRound text (s, changed)
      else (s.put ((letterEscape next).getD next) 2).bind fun s => some (s, true) := by
  have length := length_of_drop here
  rw [List.length_cons] at length
  have read : text[s.i]? = some (byte '\\') := getElem?_of_drop here
  have second : text[s.i + 1]? = some next := getElem?_add_of_drop here 1
  have inside : s.i + 1 < text.length := by omega
  simp only [jsDecodeRound, read, escapeAt_of_drop here, notUnicode, notHex, inside, second,
    Option.bind_eq_bind, Option.bind_some, decide_false, Bool.false_eq_true, if_true, if_false]

theorem jsDecodeRound_escape (behind : Behind text s)
    (here : text.drop s.i = byte '\\' :: next :: later) :
    ∃ after, jsDecodeRound text (s, changed) = some (after, true) ∧
      Wrote text s (jsPiece (byte '\\') (next :: later)) after := by
  have length := length_of_drop here
  rw [List.length_cons] at length
  -- every escape but the octal one is one write
  have writes : ∀ c count, jsEscape (next :: later) = some (c, count) →
      s.i + (count + 1) ≤ text.length →
      jsDecodeRound text (s, changed) = (s.put c (count + 1)).bind (fun s => some (s, true)) →
      ∃ after, jsDecodeRound text (s, changed) = some (after, true) ∧
        Wrote text s (jsPiece (byte '\\') (next :: later)) after := by
    intro c count escape fits round
    obtain ⟨after, runs, written⟩ := behind.writes c count fits
    have piece : jsPiece (byte '\\') (next :: later) = { out := [c], count, changed := true } := by
      simp [jsPiece, escape]
    rw [piece]
    exact ⟨after, by rw [round, runs, Option.bind_some], written.behind, written.moved, written.out⟩
  by_cases unicode : 4 ≤ later.length ∧ next = byte 'u' ∧ (later.take 4).all validHex
  · obtain ⟨enough, rfl, digits⟩ := unicode
    obtain ⟨h1, h2, h3, h4, tail, rfl⟩ := exists_four enough
    have escape : jsEscape (byte 'u' :: h1 :: h2 :: h3 :: h4 :: tail) =
        some (fullWidth h1 h2 (x2c h3 h4), 5) := by
      rw [jsEscape]
      exact if_pos ⟨enough, rfl, digits⟩
    exact writes _ 5 escape (by omega) (jsDecodeRound_unicode changed here digits)
  · by_cases hex : 2 ≤ later.length ∧ next = byte 'x' ∧ (later.take 2).all validHex
    · obtain ⟨enough, rfl, digits⟩ := hex
      obtain ⟨h1, h2, tail, rfl⟩ := exists_two enough
      have escape : jsEscape (byte 'x' :: h1 :: h2 :: tail) = some (x2c h1 h2, 3) := by
        rw [jsEscape]
        exact (if_neg unicode).trans (if_pos ⟨enough, rfl, digits⟩)
      exact writes _ 3 escape (by omega) (jsDecodeRound_hex changed here digits)
    · have round := jsDecodeRound_other changed here unicode hex
      have escape : jsEscape (next :: later) =
          if isOctal next then some (0, jsOctalLength (next :: later))
          else some ((letterEscape next).getD next, 1) := by
        rw [jsEscape]
        exact (if_neg unicode).trans (if_neg hex)
      cases octal : isOctal next with
      | true =>
        rw [octal, if_pos rfl] at round escape
        obtain ⟨after, runs, written⟩ := octalRound_writes behind here octal changed
        have piece : jsPiece (byte '\\') (next :: later) =
            { out := [0], count := jsOctalLength (next :: later), changed := true } := by
          simp [jsPiece, escape]
        rw [piece]
        exact ⟨after, round.trans runs, written.behind, written.moved, written.out⟩
      | false =>
        rw [octal, if_neg Bool.false_ne_true] at round escape
        exact writes _ 1 escape (by omega) round

end

theorem jsDecodeRound_writes (changed : Bool) (behind : Behind text s)
    (here : text.drop s.i = b :: rest) :
    ∃ after, jsDecodeRound text (s, changed) = some (after, changed || (jsPiece b rest).changed) ∧
      Wrote text s (jsPiece b rest) after := by
  have length := length_of_drop here
  by_cases backslash : b = byte '\\'
  · subst backslash
    cases rest with
    | nil =>
      obtain ⟨after, runs, written⟩ := copyLoop_writes behind here
      refine ⟨after, ?_, ?_⟩
      · rw [List.length_nil] at length
        have short : ¬s.i + 1 < text.length := by omega
        simp [jsDecodeRound, getElem?_of_drop here, escapeAt_of_last here, short, runs, jsPiece,
          jsEscape]
      · simpa [jsPiece, jsEscape] using written
    | cons next later =>
      obtain ⟨escape, found⟩ := jsEscape_cons next later
      have flagged : (jsPiece (byte '\\') (next :: later)).changed = true := by
        simp [jsPiece, found]
      rw [flagged, Bool.or_true]
      exact jsDecodeRound_escape changed behind here
  · obtain ⟨after, runs, written⟩ := copyRound_writes behind here
    refine ⟨after, ?_, ?_⟩
    · simp [jsDecodeRound, getElem?_of_drop here, backslash, runs, jsPiece]
    · simpa [jsPiece, backslash] using written

end

/-! ## Whole texts -/

section

open Cursors

theorem urlPiece_plain (b : UInt8) (plain : isURLCoded b = false) (rest : Bytes) :
    urlPiece b rest = ⟨[b], 0, false⟩ := by
  simp [isURLCoded] at plain
  simp [urlPiece, plusSpace, plain]

theorem uniPiece_plain (b : UInt8) (plain : isURLCoded b = false) (rest : Bytes) :
    uniPiece b rest = ⟨[b], 0, false⟩ := by
  simp [isURLCoded] at plain
  cases rest <;> simp [uniPiece, plusSpace, plain]

theorem jsPiece_plain (b : UInt8) (plain : decide (b = byte '\\') = false) (rest : Bytes) :
    jsPiece b rest = ⟨[b], 0, false⟩ := by
  simp at plain
  simp [jsPiece, plain]

theorem decodeCoded_eq {decode : Bytes → Nat → Option Bytes} {piece : UInt8 → Bytes → Piece UInt8}
    (copied : ∀ b, isURLCoded b = false → ∀ rest, piece b rest = ⟨[b], 0, false⟩) {data : Bytes}
    (decodes : ∀ pos ≤ data.length,
      decode data pos = some (data.take pos ++ (rewrite piece (data.drop pos)).1)) :
    decodeCoded decode data =
      some (if data.any isURLCoded then ((rewrite piece data).1, true, none)
        else (data, false, none)) := by
  rw [decodeCoded]
  cases found : data.findIdx? isURLCoded with
  | none =>
    have plain : data.any isURLCoded = false := by simpa using List.findIdx?_eq_none_iff.mp found
    rw [plain]
    rfl
  | some pos =>
    obtain ⟨within, same⟩ := rewrite_findIdx copied found
    have coded : data.any isURLCoded = true := by
      rw [← List.findIdx?_isSome, found]
      rfl
    simp only [coded, decodes pos within, same, Option.map_some, if_true]

theorem urlDecode_eq (data : Bytes) : urlDecode data = some (Transformations.urlDecode data) := by
  rw [urlDecode, Transformations.urlDecode, urlDecodeLoop_eq]
  exact decodeCoded_eq urlPiece_plain fun _ within =>
    whileLoop_slice urlPiece (fun _ _ _ => urlDecodeRound_writes) within

theorem urlDecodeUni_eq (data : Bytes) :
    urlDecodeUni data = some (Transformations.urlDecodeUni data) := by
  rw [urlDecodeUni, Transformations.urlDecodeUni, uniDecodeLoop_eq]
  exact decodeCoded_eq uniPiece_plain fun _ within =>
    whileLoop_slice uniPiece (fun _ _ _ => uniDecodeRound_writes) within

theorem doJsDecode_eq {data : Bytes} {pos : Nat} (within : pos ≤ data.length) :
    doJsDecode data pos =
      some (data.take pos ++ (rewrite jsPiece (data.drop pos)).1,
        (rewrite jsPiece (data.drop pos)).2) :=
  whileLoop_flagged jsPiece (fun _ changed _ _ => jsDecodeRound_writes changed) within

theorem decodeBackslash_eq {decode : Bytes → Nat → Option (Bytes × Bool)}
    {piece : UInt8 → Bytes → Piece UInt8} (flag : Bool → Bool)
    (copied : ∀ b, decide (b = byte '\\') = false → ∀ rest, piece b rest = ⟨[b], 0, false⟩)
    {data : Bytes}
    (decodes : ∀ pos ≤ data.length, decode data pos =
      some (data.take pos ++ (rewrite piece (data.drop pos)).1,
        flag (rewrite piece (data.drop pos)).2)) :
    decodeBackslash decode data =
      some (if byte '\\' ∈ data then ((rewrite piece data).1, flag (rewrite piece data).2, none)
        else (data, false, none)) := by
  rw [decodeBackslash]
  cases found : data.findIdx? (· = byte '\\') with
  | none =>
    have plain : byte '\\' ∉ data := by
      intro coded
      simpa using List.findIdx?_eq_none_iff.mp found _ coded
    rw [if_neg plain]
  | some pos =>
    obtain ⟨within, same⟩ := rewrite_findIdx copied found
    have coded : byte '\\' ∈ data := by
      obtain ⟨inside, here, _⟩ := List.findIdx?_eq_some_iff_getElem.mp found
      exact of_decide_eq_true here ▸ List.getElem_mem inside
    rw [if_pos coded]
    simp only [decodes pos within, same, Option.map_some]

theorem jsDecode_eq (data : Bytes) : jsDecode data = some (Transformations.jsDecode data) := by
  have decoded : jsDecodeLoop data.length data = rewrite jsPiece data := jsDecodeLoop_eq _ _
  rw [Transformations.jsDecode, decoded]
  exact decodeBackslash_eq id jsPiece_plain fun _ => doJsDecode_eq

end

/-! ## Queries -/

theorem forall_byte {P : UInt8 → Prop} (all : ∀ n : Fin 256, P (UInt8.ofNat n)) (b : UInt8) :
    P b := by
  simpa using all ⟨b.toNat, b.toNat_lt⟩

theorem hexDigitToByte_eq (b : UInt8) :
    Url.hexDigitToByte b = if validHex b then some (hexDigit b) else none := by
  revert b
  apply forall_byte
  decide +kernel

theorem hexDigit_lt {b : UInt8} (valid : validHex b = true) : (hexDigit b).toNat < 16 := by
  revert b
  apply forall_byte
  decide +kernel

theorem shift_or_eq_x2c {high low : UInt8} (validHigh : validHex high = true)
    (validLow : validHex low = true) : hexDigit high <<< 4 ||| hexDigit low = x2c high low := by
  have all : ∀ hi lo : Fin 16, UInt8.ofNat hi <<< 4 ||| UInt8.ofNat lo =
      UInt8.ofNat hi * 16 + UInt8.ofNat lo := by decide
  simpa [x2c] using all ⟨_, hexDigit_lt validHigh⟩ ⟨_, hexDigit_lt validLow⟩

section

variable {b high low hi lo : UInt8} {rest : Bytes}

theorem hexDigitToByte_eq_none : Url.hexDigitToByte b = none ↔ validHex b = false := by
  rw [hexDigitToByte_eq]
  cases validHex b <;> simp

theorem hexDigitToByte_eq_some :
    Url.hexDigitToByte b = some hi ↔ validHex b = true ∧ hexDigit b = hi := by
  rw [hexDigitToByte_eq]
  cases validHex b <;> simp

theorem percentPiece_hex (highDigit : Url.hexDigitToByte high = some hi)
    (lowDigit : Url.hexDigitToByte low = some lo) :
    percentPiece b (high :: low :: rest) = { out := [hi <<< 4 ||| lo], count := 2 } := by
  obtain ⟨validHigh, rfl⟩ := hexDigitToByte_eq_some.mp highDigit
  obtain ⟨validLow, rfl⟩ := hexDigitToByte_eq_some.mp lowDigit
  rw [shift_or_eq_x2c validHigh validLow]
  simp [percentPiece, percentEscape, validHigh, validLow]

theorem percentPiece_bare (invalid : Url.hexDigitToByte high = none ∨ Url.hexDigitToByte low = none) :
    percentPiece b (high :: low :: rest) = { out := [b] } := by
  rw [hexDigitToByte_eq_none, hexDigitToByte_eq_none] at invalid
  rcases invalid with invalid | invalid <;> simp [percentPiece, percentEscape, invalid]

theorem percentPiece_short (short : rest.length < 2) : percentPiece b rest = { out := [b] } := by
  have bare : percentEscape rest = none := if_neg (by omega)
  rw [percentPiece, bare]

theorem queryRound_eq {input res : Bytes} {i : Nat} (here : input.drop i = b :: rest) :
    queryRound input (i, res) =
      some (i + 1 + (urlPiece b rest).count, res ++ (urlPiece b rest).out) := by
  have length := length_of_drop here
  have read := getElem?_of_drop here
  by_cases plus : b = byte '+'
  · subst plus
    simp [queryRound, read, urlPiece, plusSpace, show byte '+' ≠ byte '%' by decide]
  by_cases percent : b = byte '%'
  · subst percent
    simp only [queryRound, read, plus, urlPiece, Option.bind_eq_bind, Option.bind_some, if_true,
      if_false]
    by_cases short : rest.length < 2
    · rw [if_pos (by omega), percentPiece_short short]
      rfl
    · obtain ⟨high, low, tail, rfl⟩ := exists_two (show 2 ≤ rest.length by omega)
      have second : input[i + 1]? = some high := getElem?_add_of_drop here 1
      have third : input[i + 2]? = some low := getElem?_add_of_drop here 2
      rw [if_neg (by omega), second, third, Option.bind_some]
      cases highDigit : Url.hexDigitToByte high with
      | none =>
        rw [percentPiece_bare (.inl highDigit)]
        rfl
      | some hi =>
        simp only [Option.bind_some]
        cases lowDigit : Url.hexDigitToByte low with
        | none =>
          rw [percentPiece_bare (.inr lowDigit)]
          rfl
        | some lo =>
          rw [percentPiece_hex highDigit lowDigit]
          rfl
  · simp [queryRound, read, plus, percent, urlPiece, plusSpace]

end

theorem queryUnescape_eq (input : Bytes) :
    queryUnescape input = some (rewrite urlPiece input).1 := by
  have step : ∀ (s : Nat × Bytes) b rest, True → input.drop s.1 = b :: rest →
      ∃ next, queryRound input s = some next ∧ True ∧ s.1 < next.1 ∧
        next.2 ++ (rewrite urlPiece (input.drop next.1)).1 =
          s.2 ++ (rewrite urlPiece (b :: rest)).1 := by
    rintro ⟨i, res⟩ b rest - here
    refine ⟨_, queryRound_eq here, trivial, by simp only; omega, ?_⟩
    rw [Nat.add_assoc, drop_add_of_drop here, Nat.add_comm 1, List.drop_succ_cons, rewrite_cons,
      List.append_assoc]
  obtain ⟨last, runs, -, joined⟩ :=
    whileLoop_scans Prod.fst (fun _ => True) (fun text => (rewrite urlPiece text).1)
      (fun s rest => s.2 ++ rest) step (s := (0, [])) trivial
  rw [queryUnescape, runs]
  simpa using joined

/-- `queryUnescape` is a rewriting by the pieces of `urlDecode`. -/
theorem url_queryUnescape_eq (input : Bytes) :
    Url.queryUnescape input = (rewrite urlPiece input).1 := by
  induction input using Url.queryUnescape.induct with
  | case1 => rfl
  | case2 rest ih =>
    have piece : urlPiece 43 rest = { out := [32] } := by
      simp [urlPiece, plusSpace, show byte '%' = 37 by decide, show byte '+' = 43 by decide,
        show byte ' ' = 32 by decide]
    rw [Url.queryUnescape, rewrite_cons, piece, ih]
    rfl
  | case3 high low rest hi lo lowDigit highDigit ih =>
    have piece : urlPiece 37 (high :: low :: rest) = { out := [hi <<< 4 ||| lo], count := 2 } :=
      percentPiece_hex highDigit lowDigit
    rw [rewrite_cons, piece]
    simp only [Url.queryUnescape, highDigit, lowDigit, ih]
    rfl
  | case4 high low rest invalid ih =>
    have bare : Url.hexDigitToByte high = none ∨ Url.hexDigitToByte low = none := by
      by_contra both
      simp only [not_or, Option.ne_none_iff_exists'] at both
      obtain ⟨⟨hi, highDigit⟩, lo, lowDigit⟩ := both
      exact invalid hi lo highDigit lowDigit
    have piece : urlPiece 37 (high :: low :: rest) = { out := [37] } := percentPiece_bare bare
    rw [rewrite_cons, piece, List.drop_zero, ← ih, Url.queryUnescape]
    rcases bare with bare | bare
    · simp [bare]
    · cases Url.hexDigitToByte high <;> simp [bare]
  | case5 b rest notPlus notPercent ih =>
    have piece : urlPiece b rest = { out := [b] } := by
      by_cases percent : b = 37
      · have short : rest.length < 2 := by
          by_contra enough
          obtain ⟨high, low, tail, rfl⟩ := exists_two (Nat.not_lt.mp enough)
          exact notPercent high low tail percent rfl
        subst percent
        exact percentPiece_short short
      · simp [urlPiece, plusSpace, show byte '%' = 37 by decide, show byte '+' = 43 by decide,
          percent, show b ≠ 43 from notPlus]
    rw [rewrite_cons, piece, List.drop_zero, ← ih, Url.queryUnescape]
    · rfl
    · exact notPlus
    · exact notPercent

end Indexed

end Obsidian
