import Obsidian.Transformations.RoundTrips

namespace Obsidian

open Obsidian.Data
open Obsidian.Transformations hiding none

/-! # Backslash escapes

`cssDecode` and `escapeSeqDecode` as the source runs them, over indices, and the texts of
escapes that they undo.
-/

namespace Indexed

/-- `for j < bound && i+j < len(input) && accept(input[i+j])`, with so many rounds left. -/
def digitLoop (accept : UInt8 → Bool) (input : Bytes) (i : Nat) : (rounds j : Nat) → Option Nat
  | 0, j => some j
  | rounds + 1, j => do
      if i + j < input.length then
        if accept (← input[i + j]?) then digitLoop accept input i rounds (j + 1) else some j
      else some j

/-! ## CSS -/

/-- What stands at `d[c]` after an escape of `j` digits from `i` on. -/
def cssHex (input : Bytes) (i j : Nat) : Option UInt8 := do
  if j = 1 then (input[i]?).map hexDigit
  else
    let low ← x2cAt input (i + j - 2)
    let fullcheck ←
      if j = 4 then some true
      else if j = 5 then (input[i]?).map fun b => b = byte '0'
      else if j = 6 then do some ((← input[i]?) = byte '0' && (← input[i + 1]?) = byte '0')
      else some false
    if fullcheck then some (fullWidth (← input[i + j - 3]?) (← input[i + j - 4]?) low)
    else some low

def spaceAt (input : Bytes) (i : Nat) : Option Bool :=
  if i < input.length then (input[i]?).map isCSpace else some false

def cssEscapeRound (input : Bytes) (s : Cursors UInt8) : Option (Cursors UInt8) := do
  let i := s.i + 1
  let j ← digitLoop validHex input i 6 0
  if 0 < j then
    let value ← cssHex input i j
    let blank ← spaceAt input (i + j)
    s.put value (1 + j + if blank then 1 else 0)
  else if (← input[i]?) = byte '\n' then some { s with i := s.i + 2 }
  else s.put (← input[i]?) 2

def cssRound (input : Bytes) (s : Cursors UInt8) : Option (Cursors UInt8) := do
  if (← input[s.i]?) = byte '\\' then
    if s.i + 1 < input.length then cssEscapeRound input s else some { s with i := s.i + 1 }
  else copyRound input s

def cssDecodeInplace (input : Bytes) (pos : Nat) : Option (Bytes × Bool) := do
  let s ← whileLoop (fun s => s.i < input.length) (cssRound input) input.length
    (Cursors.start input pos)
  some (← s.slice, true)

def cssDecode : Bytes → Option (Bytes × Bool × Option GoError) := decodeBackslash cssDecodeInplace

/-! ## ANSI C -/

/-- The value of `strconv.ParseUint` in base 8 and 8 bits, whatever its error. -/
def parseOctalByte (digits : Bytes) : UInt8 := UInt8.ofNat (min 255 (octalValue digits))

def octalEscapeRound (input : Bytes) (s : Cursors UInt8) : Option (Cursors UInt8) := do
  let j ← digitLoop isOctal input s.i 2 2
  if s.i + j ≤ input.length then
    s.put (parseOctalByte ((input.take (s.i + j)).drop (s.i + 1))) j
  else none

/-- Whether the backslash at `i` is followed by an `x`, which is `next`, and two digits. -/
def hexAt (input : Bytes) (i : Nat) (next : UInt8) : Option Bool :=
  if (next = byte 'x' ∨ next = byte 'X') ∧ i + 3 < input.length then do
    some (validHex (← input[i + 2]?) && validHex (← input[i + 3]?))
  else some false

def escapeSeqRound (input : Bytes) (state : Cursors UInt8 × Bool) : Option (Cursors UInt8 × Bool) := do
  let (s, changed) := state
  if (← input[s.i]?) = byte '\\' ∧ s.i + 1 < input.length then
    let next ← input[s.i + 1]?
    match simpleEscape next with
    | some c => (s.put c 2).map (·, true)
    | none =>
      if ← hexAt input s.i next then (s.put (← x2cAt input (s.i + 2)) 4).map (·, true)
      else if isOctal next then (octalEscapeRound input s).map (·, true)
      else (s.put next 2).map (·, changed)
  else (copyRound input s).map (·, changed)

def doEscapeSeqDecode (input : Bytes) (pos : Nat) : Option (Bytes × Bool) := do
  let (s, changed) ← whileLoop (fun state => state.1.i < input.length) (escapeSeqRound input)
    input.length (Cursors.start input pos, false)
  some (← s.slice, changed)

def escapeSeqDecode : Bytes → Option (Bytes × Bool × Option GoError) := decodeBackslash doEscapeSeqDecode

/-! ## What a round makes of the text -/

def cssPiece (b : UInt8) (rest : Bytes) : Piece UInt8 :=
  if b = byte '\\' then
    match rest with
    | [] => { out := [] }
    | next :: _ =>
      let hex := (rest.take 6).takeWhile validHex
      if 0 < hex.length then
        let blank := (rest.drop hex.length).head?.any isCSpace
        { out := [cssEscape hex], count := hex.length + if blank then 1 else 0 }
      else if next = byte '\n' then { out := [], count := 1 }
      else { out := [next], count := 1 }
  else { out := [b] }

def escapeSeqPiece (b : UInt8) (rest : Bytes) : Piece UInt8 :=
  if b = byte '\\' ∧ rest ≠ [] then
    match escapeSeq rest with
    | some (c, count) => { out := [c], count, changed := true }
    | none => { out := rest.take 1, count := 1 }
  else { out := [b] }

theorem cssDecodeLoop_eq (fuel : Nat) (text : Bytes) :
    cssDecodeLoop fuel text = (rewriteLoop cssPiece fuel text).1 := by
  induction fuel generalizing text with
  | zero => cases text <;> rfl
  | succ fuel ih =>
    cases text with
    | nil => rfl
    | cons b rest =>
      rw [rewriteLoop]
      by_cases backslash : b = byte '\\'
      · cases rest with
        | nil => cases fuel <;> simp [cssDecodeLoop, cssPiece, backslash, rewriteLoop]
        | cons next later =>
          simp only [cssDecodeLoop, cssPiece, backslash, if_true]
          split
          · split
            · simp [ih, List.tail_drop]
            · simp [ih]
          · split <;> simp [ih]
      · simp [cssDecodeLoop, cssPiece, backslash, ih]

theorem escapeSeqLoop_eq (fuel : Nat) (text : Bytes) :
    escapeSeqLoop fuel text = rewriteLoop escapeSeqPiece fuel text := by
  induction fuel generalizing text with
  | zero => cases text <;> rfl
  | succ fuel ih =>
    cases text with
    | nil => rfl
    | cons b rest =>
      rw [escapeSeqLoop, rewriteLoop, escapeSeqPiece]
      split
      · cases escape : escapeSeq rest <;> simp [ih]
      · simp [ih]

/-! ## Rounds -/

section

open Cursors

variable {text rest : Bytes} {s : Cursors UInt8} {b : UInt8}

theorem digitLoop_of_drop (accept : UInt8 → Bool) {i j : Nat} (here : text.drop (i + j) = rest)
    (rounds : Nat) :
    digitLoop accept text i rounds j = some (j + ((rest.take rounds).takeWhile accept).length) := by
  induction rounds generalizing j rest with
  | zero => simp [digitLoop]
  | succ rounds ih =>
    cases rest with
    | nil =>
      have ended : text.length ≤ i + j := List.drop_eq_nil_iff.mp here
      rw [digitLoop, if_neg (by omega)]
      simp
    | cons b rest =>
      have length := length_of_drop here
      have later : text.drop (i + (j + 1)) = rest := drop_add_of_drop here 1
      rw [digitLoop, if_pos (by omega), getElem?_of_drop here, List.take_succ_cons]
      cases accepted : accept b with
      | false => simp [accepted]
      | true =>
        simp only [Option.bind_eq_bind, Option.bind_some, accepted, if_true, ih later,
          List.takeWhile_cons_of_pos, List.length_cons]
        congr 1
        omega

theorem cssHex_of_drop {hex : Bytes} {i : Nat} (here : text.drop i = hex ++ rest)
    (given : 0 < hex.length) (few : hex.length ≤ 6) :
    cssHex text i hex.length = some (cssEscape hex) := by
  have read (k : Nat) : text[i + k]? = (hex ++ rest)[k]? := getElem?_add_of_drop here k
  have after (k : Nat) : text.drop (i + k) = (hex ++ rest).drop k := drop_add_of_drop here k
  rcases hex with _ | ⟨h1, _ | ⟨h2, _ | ⟨h3, _ | ⟨h4, _ | ⟨h5, _ | ⟨h6, _ | ⟨h7, more⟩⟩⟩⟩⟩⟩⟩
  · cases given
  · have first : text[i]? = some h1 := read 0
    simp [cssHex, first, cssEscape]
  · have low : x2cAt text i = some (x2c h1 h2) := x2cAt_of_drop (after 0)
    simp [cssHex, low, cssEscape]
  · have low : x2cAt text (i + 1) = some (x2c h2 h3) := x2cAt_of_drop (after 1)
    simp [cssHex, low, cssEscape]
  · have low : x2cAt text (i + 2) = some (x2c h3 h4) := x2cAt_of_drop (after 2)
    have first : text[i]? = some h1 := read 0
    have second : text[i + 1]? = some h2 := read 1
    simp [cssHex, low, first, second, cssEscape]
  · have low : x2cAt text (i + 3) = some (x2c h4 h5) := x2cAt_of_drop (after 3)
    have first : text[i]? = some h1 := read 0
    have second : text[i + 1]? = some h2 := read 1
    have third : text[i + 2]? = some h3 := read 2
    simp [cssHex, low, first, second, third, cssEscape]
    split <;> rfl
  · have low : x2cAt text (i + 4) = some (x2c h5 h6) := x2cAt_of_drop (after 4)
    have first : text[i]? = some h1 := read 0
    have second : text[i + 1]? = some h2 := read 1
    have third : text[i + 2]? = some h3 := read 2
    have fourth : text[i + 3]? = some h4 := read 3
    simp [cssHex, low, first, second, third, fourth, cssEscape]
    split <;> rfl
  · simp only [List.length_cons] at few
    omega

theorem takeWhile_take_append (accept : UInt8 → Bool) (count : Nat) (rest : Bytes) :
    (rest.take count).takeWhile accept ++
      rest.drop ((rest.take count).takeWhile accept).length = rest := by
  have front : (rest.take count).takeWhile accept <+: rest :=
    (List.takeWhile_prefix accept).trans (List.take_prefix count rest)
  nth_rewrite 1 [List.prefix_iff_eq_take.mp front]
  exact List.take_append_drop _ rest

theorem spaceAt_of_drop {i : Nat} (here : text.drop i = rest) :
    spaceAt text i = some (rest.head?.any isCSpace) := by
  rw [spaceAt]
  cases rest with
  | nil =>
    have ended : text.length ≤ i := List.drop_eq_nil_iff.mp here
    rw [if_neg (by omega)]
    rfl
  | cons b rest =>
    have length := length_of_drop here
    rw [if_pos (by omega), getElem?_of_drop here]
    rfl

theorem cssEscapeRound_writes {next : UInt8} {later : Bytes} (behind : Behind text s)
    (here : text.drop s.i = byte '\\' :: next :: later) :
    Writes text s (cssPiece (byte '\\') (next :: later)) (cssEscapeRound text s) := by
  have length := length_of_drop here
  have after : text.drop (s.i + 1) = next :: later := drop_add_of_drop here 1
  have second : text[s.i + 1]? = some next := getElem?_add_of_drop here 1
  have whole := takeWhile_take_append validHex 6 (next :: later)
  have digits := digitLoop_of_drop validHex (i := s.i + 1) (j := 0) after 6
  have few : (((next :: later).take 6).takeWhile validHex).length ≤ 6 :=
    Nat.le_trans (List.takeWhile_prefix _).length_le (List.length_take_le _ _)
  simp only [cssPiece, if_true]
  rw [cssEscapeRound]
  generalize ((next :: later).take 6).takeWhile validHex = hex at *
  simp only [digits, Nat.zero_add, Option.bind_eq_bind, Option.bind_some]
  by_cases given : 0 < hex.length
  · have behindHex : text.drop (s.i + 1 + hex.length) = (next :: later).drop hex.length :=
      drop_add_of_drop after hex.length
    have fits : hex.length + ((next :: later).drop hex.length).length = (next :: later).length := by
      rw [← List.length_append, whole]
    rw [if_pos given, if_pos given, cssHex_of_drop (after.trans whole.symm) given few,
      spaceAt_of_drop behindHex]
    simp only [Option.bind_some]
    cases blank : ((next :: later).drop hex.length).head?.any isCSpace with
    | false =>
      rw [if_neg Bool.false_ne_true, Nat.add_zero, Nat.add_comm 1]
      exact behind.writes _ hex.length (by omega)
    | true =>
      have room : 0 < ((next :: later).drop hex.length).length := by
        cases left : (next :: later).drop hex.length with
        | nil => rw [left] at blank; cases blank
        | cons b rest => exact Nat.succ_pos _
      rw [if_pos rfl, Nat.add_comm 1, Nat.add_right_comm]
      exact behind.writes _ (hex.length + 1) (by omega)
  · rw [if_neg given, if_neg given, second]
    rw [List.length_cons] at length
    simp only [Option.bind_some]
    by_cases newline : next = byte '\n'
    · rw [if_pos newline, if_pos newline]
      exact behind.skips 1 (by omega)
    · rw [if_neg newline, if_neg newline]
      exact behind.writes next 1 (by omega)

theorem cssRound_writes (behind : Behind text s) (here : text.drop s.i = b :: rest) :
    Writes text s (cssPiece b rest) (cssRound text s) := by
  have length := length_of_drop here
  rw [cssRound, getElem?_of_drop here]
  by_cases backslash : b = byte '\\'
  · subst backslash
    cases rest with
    | nil =>
      have ended : ¬s.i + 1 < text.length := by simp at length; omega
      simpa [cssPiece, ended] using behind.skips 0 (by omega)
    | cons next later =>
      have more : s.i + 1 < text.length := by simp at length; omega
      simpa [more] using cssEscapeRound_writes behind here
  · simpa [cssPiece, backslash] using copyRound_writes behind here

theorem hexAt_of_drop {next : UInt8} {later : Bytes} {i : Nat}
    (here : text.drop i = b :: next :: later) :
    hexAt text i next = some (decide ((next = byte 'x' ∨ next = byte 'X') ∧ 2 ≤ later.length ∧
      validHex (later.getD 0 0) ∧ validHex (later.getD 1 0))) := by
  have length := length_of_drop here
  rw [List.length_cons] at length
  rw [hexAt]
  by_cases enough : 2 ≤ later.length
  · obtain ⟨h1, h2, tail, rfl⟩ := exists_two enough
    have read2 : text[i + 2]? = some h1 := getElem?_add_of_drop here 2
    have read3 : text[i + 3]? = some h2 := getElem?_add_of_drop here 3
    have inside : i + 3 < text.length := by omega
    by_cases isX : next = byte 'x' ∨ next = byte 'X'
    · rw [if_pos ⟨isX, inside⟩, read2, read3]
      simp [isX]
    · simp [isX]
  · have outside : ¬i + 3 < text.length := by omega
    simp [outside, enough]

theorem octalEscapeRound_writes {next : UInt8} {later : Bytes} (behind : Behind text s)
    (here : text.drop s.i = b :: next :: later) (octal : isOctal next = true) :
    let taken := ((next :: later).take 3).takeWhile isOctal
    Writes text s { out := [parseOctalByte taken], count := taken.length }
      (octalEscapeRound text s) := by
  intro taken
  have length := length_of_drop here
  have after : text.drop (s.i + 1) = next :: later := drop_add_of_drop here 1
  have digits := digitLoop_of_drop isOctal (i := s.i) (j := 2) (drop_add_of_drop here 2) 2
  have counted : 2 + ((((b :: next :: later).drop 2).take 2).takeWhile isOctal).length =
      taken.length + 1 := by
    simp only [taken, List.take_succ_cons, List.takeWhile_cons_of_pos octal, List.length_cons]
    show 2 + ((later.take 2).takeWhile isOctal).length = _
    omega
  have whole : taken ++ (next :: later).drop taken.length = next :: later :=
    takeWhile_take_append isOctal 3 (next :: later)
  rw [counted] at digits
  rw [octalEscapeRound, digits]
  have fits : taken.length ≤ (next :: later).length := by
    rw [← whole, List.length_append]
    exact Nat.le_add_right _ _
  have slice : (text.take (s.i + (taken.length + 1))).drop (s.i + 1) = taken := by
    rw [List.drop_take, after, ← whole]
    have count : s.i + (taken.length + 1) - (s.i + 1) = taken.length := by omega
    rw [count, List.take_left' rfl]
  simp only [Option.bind_eq_bind, Option.bind_some]
  rw [if_pos (by omega), slice]
  exact behind.writes _ taken.length (by omega)

theorem escapeSeqRound_escape (changed : Bool) {next : UInt8} {later : Bytes} (behind : Behind text s)
    (here : text.drop s.i = byte '\\' :: next :: later) :
    ∃ after, escapeSeqRound text (s, changed) =
        some (after, changed || (escapeSeqPiece (byte '\\') (next :: later)).changed) ∧
      Wrote text s (escapeSeqPiece (byte '\\') (next :: later)) after := by
  have length := length_of_drop here
  rw [List.length_cons] at length
  have first : text[s.i]? = some (byte '\\') := getElem?_of_drop here
  have second : text[s.i + 1]? = some next := getElem?_add_of_drop here 1
  have inside : s.i + 1 < text.length := by omega
  have piece : escapeSeqPiece (byte '\\') (next :: later) =
      match escapeSeq (next :: later) with
      | some (c, count) => { out := [c], count, changed := true }
      | none => { out := [next], count := 1 } := by
    simp [escapeSeqPiece]
  rw [piece, escapeSeqRound, first]
  simp only [Option.bind_eq_bind, Option.bind_some, true_and, if_pos inside, second]
  cases simple : simpleEscape next with
  | some c =>
    obtain ⟨after, runs, wrote⟩ := behind.writes c 1 (by omega)
    have escape : escapeSeq (next :: later) = some (c, 1) := by simp [escapeSeq, simple]
    simp only [escape, Bool.or_true]
    exact ⟨after, by rw [runs]; rfl, wrote.behind, wrote.moved, wrote.out⟩
  | none =>
    simp only [hexAt_of_drop here, Option.bind_some, decide_eq_true_eq]
    by_cases hex : (next = byte 'x' ∨ next = byte 'X') ∧ 2 ≤ later.length ∧
        validHex (later.getD 0 0) ∧ validHex (later.getD 1 0)
    · obtain ⟨h1, h2, tail, rfl⟩ := exists_two hex.2.1
      have behindX : text.drop (s.i + 2) = h1 :: h2 :: tail := drop_add_of_drop here 2
      obtain ⟨after, runs, wrote⟩ := behind.writes (x2c h1 h2) 3 (by simp at length; omega)
      have escape : escapeSeq (next :: h1 :: h2 :: tail) = some (x2c h1 h2, 3) := by
        simp only [escapeSeq, simple]
        exact if_pos hex
      rw [if_pos hex, x2cAt_of_drop behindX]
      simp only [escape, Bool.or_true, Option.bind_some]
      exact ⟨after, by rw [runs]; rfl, wrote.behind, wrote.moved, wrote.out⟩
    · rw [if_neg hex]
      cases octal : isOctal next with
      | true =>
        obtain ⟨after, runs, wrote⟩ := octalEscapeRound_writes behind here octal
        have escape : escapeSeq (next :: later) =
            some (parseOctalByte (((next :: later).take 3).takeWhile isOctal),
              (((next :: later).take 3).takeWhile isOctal).length) := by
          simp only [escapeSeq, simple, if_neg hex, octal, if_true]
          rfl
        simp only [escape, Bool.or_true, if_true]
        exact ⟨after, by rw [runs]; rfl, wrote.behind, wrote.moved, wrote.out⟩
      | false =>
        obtain ⟨after, runs, wrote⟩ := behind.writes next 1 (by omega)
        have escape : escapeSeq (next :: later) = none := by
          simp only [escapeSeq, simple, if_neg hex, octal, Bool.false_eq_true, if_false]
        simp only [escape, Bool.or_false, Bool.false_eq_true, if_false]
        exact ⟨after, by rw [runs]; rfl, wrote⟩

theorem escapeSeqRound_writes (changed : Bool) (behind : Behind text s)
    (here : text.drop s.i = b :: rest) :
    ∃ after, escapeSeqRound text (s, changed) =
        some (after, changed || (escapeSeqPiece b rest).changed) ∧
      Wrote text s (escapeSeqPiece b rest) after := by
  by_cases escape : b = byte '\\' ∧ rest ≠ []
  · obtain ⟨rfl, more⟩ := escape
    obtain ⟨next, later, rfl⟩ := List.exists_cons_of_ne_nil more
    exact escapeSeqRound_escape changed behind here
  · have length := length_of_drop here
    have copies : ¬(b = byte '\\' ∧ s.i + 1 < text.length) := by
      rintro ⟨backslash, inside⟩
      exact escape ⟨backslash, List.length_pos_iff.mp (by omega)⟩
    have piece : escapeSeqPiece b rest = { out := [b] } := if_neg escape
    obtain ⟨after, runs, wrote⟩ := copyRound_writes behind here
    rw [piece, escapeSeqRound, getElem?_of_drop here]
    simp only [Option.bind_eq_bind, Option.bind_some, if_neg copies, runs, Bool.or_false]
    exact ⟨after, rfl, wrote⟩

theorem cssPiece_plain (b : UInt8) (plain : decide (b = byte '\\') = false) (rest : Bytes) :
    cssPiece b rest = ⟨[b], 0, false⟩ :=
  if_neg (of_decide_eq_false plain)

theorem escapeSeqPiece_plain (b : UInt8) (plain : decide (b = byte '\\') = false) (rest : Bytes) :
    escapeSeqPiece b rest = ⟨[b], 0, false⟩ :=
  if_neg fun escape => of_decide_eq_false plain escape.1

theorem cssDecode_eq (data : Bytes) : cssDecode data = some (Transformations.cssDecode data) := by
  have decoded : cssDecodeLoop data.length data = (rewrite cssPiece data).1 := cssDecodeLoop_eq _ _
  have inplace : ∀ pos ≤ data.length, cssDecodeInplace data pos =
      some (data.take pos ++ (rewrite cssPiece (data.drop pos)).1, true) := by
    intro pos within
    have sliced := whileLoop_slice cssPiece (fun _ _ _ => cssRound_writes) within
    obtain ⟨last, runs, out⟩ := Option.bind_eq_some_iff.mp sliced
    rw [cssDecodeInplace, runs, Option.bind_eq_bind, Option.bind_some, out]
    rfl
  rw [Transformations.cssDecode, decoded]
  exact decodeBackslash_eq (fun _ => true) cssPiece_plain inplace

theorem escapeSeqDecode_eq (data : Bytes) :
    escapeSeqDecode data = some (Transformations.escapeSeqDecode data) := by
  have decoded : escapeSeqLoop data.length data = rewrite escapeSeqPiece data := escapeSeqLoop_eq _ _
  rw [Transformations.escapeSeqDecode, decoded]
  exact decodeBackslash_eq id escapeSeqPiece_plain fun _ =>
    whileLoop_flagged escapeSeqPiece fun _ changed _ _ => escapeSeqRound_writes changed

theorem rewrite_noBackslash {piece : UInt8 → Bytes → Piece UInt8}
    (copied : ∀ b, decide (b = byte '\\') = false → ∀ rest, piece b rest = ⟨[b], 0, false⟩)
    {data : Bytes} (plain : byte '\\' ∉ data) : (rewrite piece data).1 = data := by
  rw [rewrite_copied fun b found => copied b (decide_eq_false fun same => plain (same ▸ found))]

theorem cssDecode_rewrites (data : Bytes) :
    ∃ changed, cssDecode data = some ((rewrite cssPiece data).1, changed, none) := by
  have decoded : cssDecodeLoop data.length data = (rewrite cssPiece data).1 := cssDecodeLoop_eq _ _
  rw [cssDecode_eq, Transformations.cssDecode, decoded]
  split
  · exact ⟨true, rfl⟩
  · next plain => exact ⟨false, by rw [rewrite_noBackslash cssPiece_plain plain]⟩

theorem escapeSeqDecode_rewrites (data : Bytes) :
    ∃ changed, escapeSeqDecode data = some ((rewrite escapeSeqPiece data).1, changed, none) := by
  have decoded : escapeSeqLoop data.length data = rewrite escapeSeqPiece data := escapeSeqLoop_eq _ _
  rw [escapeSeqDecode_eq, Transformations.escapeSeqDecode, decoded]
  split
  · exact ⟨_, rfl⟩
  · next plain => exact ⟨false, by rw [rewrite_noBackslash escapeSeqPiece_plain plain]⟩

theorem cssPiece_length (b : UInt8) (rest : Bytes) : (cssPiece b rest).out.length ≤ 1 := by
  by_cases backslash : b = byte '\\'
  · cases rest with
    | nil => simp [cssPiece, backslash]
    | cons next later =>
      simp only [cssPiece, backslash, if_true]
      split
      · exact Nat.le_refl _
      · split
        · exact Nat.zero_le _
        · exact Nat.le_refl _
  · simp [cssPiece, backslash]

theorem escapeSeqPiece_length (b : UInt8) (rest : Bytes) : (escapeSeqPiece b rest).out.length ≤ 1 := by
  rw [escapeSeqPiece]
  split
  · split
    · exact Nat.le_refl 1
    · exact List.length_take_le 1 rest
  · exact Nat.le_refl 1

end

end Indexed

/-! ## Texts of CSS escapes -/

/-- The ways to write a byte in CSS, with the case of each hexadecimal digit and the white
space that ends an escape. -/
inductive CssForm where
  | plain
  | escaped
  | short (upperHigh upperLow : Bool) (blank : UInt8)
  | long (upperHigh upperLow : Bool) (blank : UInt8)
  | wide (upperFirst upperSecond upperHigh upperLow : Bool) (blank : UInt8)
deriving DecidableEq, Repr

namespace CssForm

def write (b : UInt8) : CssForm → Bytes
  | plain => [b]
  | escaped => [byte '\\', b]
  | short upperHigh upperLow blank =>
    byte '\\' :: (JsForm.hexDigits b upperHigh upperLow ++ [blank])
  | long upperHigh upperLow blank =>
    byte '\\' :: (str "0000" ++ JsForm.hexDigits b upperHigh upperLow ++ [blank])
  | wide upperFirst upperSecond upperHigh upperLow blank =>
    byte '\\' :: ([hexTable upperFirst 15, hexTable upperSecond 15] ++
      JsForm.hexDigits (b - 0x20) upperHigh upperLow ++ [blank])

def Allowed (b : UInt8) : CssForm → Prop
  | plain => b ≠ byte '\\'
  | escaped => validHex b = false ∧ b ≠ byte '\n'
  | short _ _ blank | long _ _ blank => isCSpace blank = true
  | wide _ _ _ _ blank => isCSpace blank = true ∧ 0x21 ≤ b ∧ b ≤ 0x7E

instance (b : UInt8) : (form : CssForm) → Decidable (form.Allowed b)
  | plain => inferInstanceAs (Decidable (b ≠ _))
  | escaped => inferInstanceAs (Decidable (_ ∧ _))
  | short _ _ _ | long _ _ _ => inferInstanceAs (Decidable (_ = true))
  | wide _ _ _ _ _ => inferInstanceAs (Decidable (_ ∧ _))

end CssForm

/-- A written text: bytes in their forms, and continuations of the line. -/
inductive CssItem where
  | byte (b : UInt8) (form : CssForm)
  | newline
deriving DecidableEq, Repr

namespace CssItem

def text : CssItem → Bytes
  | byte b _ => [b]
  | newline => []

def write : CssItem → Bytes
  | byte b form => form.write b
  | newline => [92, 10]

def Allowed : CssItem → Prop
  | byte b form => form.Allowed b
  | newline => True

instance : (item : CssItem) → Decidable item.Allowed
  | byte b form => inferInstanceAs (Decidable (form.Allowed b))
  | newline => inferInstanceAs (Decidable True)

end CssItem

theorem not_validHex_of_isCSpace {b : UInt8} (blank : isCSpace b = true) : validHex b = false := by
  revert b
  apply Indexed.forall_byte
  decide +kernel

theorem cssPiece_hex {hex : Bytes} {blank : UInt8} (given : 0 < hex.length) (few : hex.length ≤ 6)
    (digits : ∀ h ∈ hex, validHex h = true) (space : isCSpace blank = true) (rest : Bytes) :
    Indexed.cssPiece (byte '\\') (hex ++ blank :: rest) =
      { out := [cssEscape hex], count := hex.length + 1 } := by
  have taken : ((hex ++ blank :: rest).take 6).takeWhile validHex = hex := by
    rw [List.take_append, List.take_of_length_le few, List.takeWhile_append_of_pos digits]
    have stops : ((blank :: rest).take (6 - hex.length)).takeWhile validHex = [] := by
      cases left : 6 - hex.length with
      | zero => rfl
      | succ left =>
        rw [List.take_succ_cons,
          List.takeWhile_cons_of_neg (by simp [not_validHex_of_isCSpace space])]
    rw [stops, List.append_nil]
  obtain ⟨next, later, whole⟩ := List.exists_cons_of_ne_nil
    (show hex ++ blank :: rest ≠ [] from List.append_ne_nil_of_right_ne_nil _ (List.cons_ne_nil _ _))
  rw [whole] at taken ⊢
  simp only [Indexed.cssPiece, if_true, taken, if_pos given]
  rw [← whole, List.drop_left' rfl]
  simp only [List.head?_cons, Option.any_some, space, if_true]

theorem hexDigits_valid (b : UInt8) (upperHigh upperLow : Bool) :
    ∀ h ∈ JsForm.hexDigits b upperHigh upperLow, validHex h = true := by
  have below : b.toNat < 256 := b.toNat_lt
  intro h found
  rcases List.mem_pair.mp found with rfl | rfl
  · exact hexTable_valid upperHigh (by omega)
  · exact hexTable_valid upperLow (by omega)

theorem cssEscape_short (b : UInt8) (upperHigh upperLow : Bool) :
    cssEscape (JsForm.hexDigits b upperHigh upperLow) = b :=
  x2c_hexTable upperHigh upperLow b

theorem cssEscape_long (b : UInt8) (upperHigh upperLow : Bool) :
    cssEscape (str "0000" ++ JsForm.hexDigits b upperHigh upperLow) = b := by
  have low := x2c_hexTable upperHigh upperLow b
  have narrow : ∀ low, fullWidth (byte '0') (byte '0') low = low := fun low =>
    if_neg fun wide => absurd wide.2.2.1 (by decide)
  exact (narrow _).trans low

theorem cssEscape_wide {b : UInt8} (low : 0x21 ≤ b) (high : b ≤ 0x7E)
    (upperFirst upperSecond upperHigh upperLow : Bool) :
    cssEscape ([hexTable upperFirst 15, hexTable upperSecond 15] ++
      JsForm.hexDigits (b - 0x20) upperHigh upperLow) = b := by
  have isF : ∀ upper : Bool, hexTable upper 15 = byte 'f' ∨ hexTable upper 15 = byte 'F' := by decide
  have range : 0 < b - 0x20 ∧ b - 0x20 < 0x5F ∧ b - 0x20 + 0x20 = b := by
    revert low high b
    apply Indexed.forall_byte
    decide +kernel
  have wide : fullWidth (hexTable upperSecond 15) (hexTable upperFirst 15) (b - 0x20) = b := by
    rw [fullWidth, if_pos ⟨range.1, range.2.1, isF _, isF _⟩, range.2.2]
  have unfolded : cssEscape ([hexTable upperFirst 15, hexTable upperSecond 15] ++
      JsForm.hexDigits (b - 0x20) upperHigh upperLow) =
        fullWidth (hexTable upperSecond 15) (hexTable upperFirst 15)
          (x2c (hexTable upperHigh ((b - 0x20).toNat / 16)) (hexTable upperLow ((b - 0x20).toNat % 16))) :=
    rfl
  rw [unfolded, x2c_hexTable, wide]

/-- A byte is read back from any of its forms, whatever follows it. -/
theorem rewrite_cssForm {b : UInt8} {form : CssForm} (allowed : form.Allowed b) (rest : Bytes) :
    (rewrite Indexed.cssPiece (form.write b ++ rest)).1 = b :: (rewrite Indexed.cssPiece rest).1 := by
  -- an escape with digits is one piece that ends with its white space
  have digits : ∀ (hex : Bytes) (blank : UInt8) (count : Nat), hex.length = count → 0 < count → count ≤ 6 →
      (∀ h ∈ hex, validHex h = true) → isCSpace blank = true → cssEscape hex = b →
      (rewrite Indexed.cssPiece ((byte '\\' :: (hex ++ [blank])) ++ rest)).1 =
        b :: (rewrite Indexed.cssPiece rest).1 := by
    rintro hex blank count rfl given few valid space value
    have piece := cssPiece_hex given few valid space rest
    rw [List.cons_append, List.append_assoc, List.singleton_append, rewrite_cons, piece, value]
    simp only [← List.drop_drop, List.drop_left' rfl]
    rfl
  have valid := hexDigits_valid
  cases form with
  | plain =>
    rw [CssForm.write, List.singleton_append, rewrite_cons,
      Indexed.cssPiece_plain b (decide_eq_false allowed)]
    rfl
  | escaped =>
    have piece : Indexed.cssPiece (byte '\\') (b :: rest) = { out := [b], count := 1 } := by
      simp [Indexed.cssPiece, allowed.1, allowed.2]
    rw [CssForm.write, List.cons_append, List.singleton_append, rewrite_cons, piece]
    rfl
  | short upperHigh upperLow blank =>
    exact digits _ blank 2 rfl (by decide) (by decide) (valid b _ _) allowed (cssEscape_short b _ _)
  | long upperHigh upperLow blank =>
    refine digits _ blank 6 rfl (by decide) (by decide) ?_ allowed (cssEscape_long b _ _)
    intro h found
    rcases List.mem_append.mp found with zero | digit
    · have zeros : ∀ h ∈ str "0000", validHex h = true := by decide +kernel
      exact zeros h zero
    · exact valid b _ _ h digit
  | wide upperFirst upperSecond upperHigh upperLow blank =>
    refine digits _ blank 4 rfl (by decide) (by decide) ?_ allowed.1
      (cssEscape_wide allowed.2.1 allowed.2.2 _ _ _ _)
    intro h found
    rcases List.mem_append.mp found with first | digit
    · rcases List.mem_pair.mp first with rfl | rfl
      · exact hexTable_valid _ (by decide)
      · exact hexTable_valid _ (by decide)
    · exact valid _ _ _ h digit

theorem rewrite_cssItems {items : List CssItem} (allowed : ∀ item ∈ items, item.Allowed) :
    (rewrite Indexed.cssPiece (items.flatMap CssItem.write)).1 = items.flatMap CssItem.text := by
  induction items with
  | nil => rfl
  | cons item rest ih =>
    have later := ih fun other found => allowed other (List.mem_cons_of_mem _ found)
    have here := allowed item List.mem_cons_self
    rw [List.flatMap_cons, List.flatMap_cons]
    cases item with
    | byte b form =>
      rw [CssItem.write, rewrite_cssForm here, later]
      rfl
    | newline =>
      have piece : ∀ rest, Indexed.cssPiece 92 (10 :: rest) = { out := [], count := 1 } :=
        fun rest => rfl
      rw [CssItem.write, List.cons_append, List.singleton_append, rewrite_cons, piece,
        List.drop_one, List.tail_cons, later]
      rfl

/-- `cssDecode` undoes the escapes of CSS; on every input it ends with all its indices in
range and does not lengthen. -/
theorem cssDecode_write {items : List CssItem} (allowed : ∀ item ∈ items, item.Allowed)
    (data : Bytes) :
    (Indexed.cssDecode (items.flatMap CssItem.write)).map Prod.fst =
        some (items.flatMap CssItem.text) ∧
      ∃ decoded changed, Indexed.cssDecode data = some (decoded, changed, none) ∧
        decoded.length ≤ data.length := by
  obtain ⟨_, undone⟩ := Indexed.cssDecode_rewrites (items.flatMap CssItem.write)
  obtain ⟨changed, decoded⟩ := Indexed.cssDecode_rewrites data
  refine ⟨?_, _, changed, decoded, ?_⟩
  · rw [undone, Option.map_some, rewrite_cssItems allowed]
  · exact length_rewrite_le
      (fun b rest => Nat.le_trans (Indexed.cssPiece_length b rest) (Nat.le_add_right _ _)) data

theorem cssDecode_write_mixed :
    (Indexed.cssDecode (str "a\\\n\\5C \\0000e9 \\g\\FF21 ")).map Prod.fst =
      some [byte 'a', 92, 233, byte 'g', byte 'A'] :=
  (@cssDecode_write [.byte (byte 'a') .plain, .newline, .byte 92 (.short true true (byte ' ')),
    .byte 233 (.long false false (byte ' ')), .byte (byte 'g') .escaped,
    .byte (byte 'A') (.wide true true true true (byte ' '))] (by decide) []).1

/-! ## Texts of ANSI C escapes -/

/-- The ways to write a byte in C: as itself, with a letter, or by its digits. -/
inductive CForm where
  | plain
  | named (letter : UInt8)
  | hex (upperX upperHigh upperLow : Bool)
  | octal
deriving DecidableEq, Repr

namespace CForm

def write (b : UInt8) : CForm → Bytes
  | plain => [b]
  | named letter => [byte '\\', letter]
  | hex upperX upperHigh upperLow =>
    byte '\\' :: (if upperX then byte 'X' else byte 'x') :: JsForm.hexDigits b upperHigh upperLow
  | octal => JsForm.octal.write b

def Allowed (b : UInt8) : CForm → Prop
  | plain => b ≠ byte '\\'
  | named letter => simpleEscape letter = some b
  | hex _ _ _ | octal => True

instance (b : UInt8) : (form : CForm) → Decidable (form.Allowed b)
  | plain => inferInstanceAs (Decidable (b ≠ _))
  | named letter => inferInstanceAs (Decidable (simpleEscape letter = some b))
  | hex _ _ _ | octal => inferInstanceAs (Decidable True)

end CForm

abbrev CChoice := List (UInt8 × CForm)

namespace CChoice

def text (choice : CChoice) : Bytes := choice.map Prod.fst

def write (choice : CChoice) : Bytes := choice.flatMap fun entry => entry.2.write entry.1

def Allowed (choice : CChoice) : Prop := ∀ entry ∈ choice, entry.2.Allowed entry.1

instance (choice : CChoice) : Decidable choice.Allowed :=
  inferInstanceAs (Decidable (∀ entry ∈ choice, _))

end CChoice

theorem octalDigit_toNat {n : Nat} (below : n < 8) : (JsForm.octalDigit n).toNat = 48 + n := by
  rw [JsForm.octalDigit, UInt8.toNat_ofNat', Nat.mod_eq_of_lt (by omega)]

theorem parseOctalByte_digits (b : UInt8) :
    Indexed.parseOctalByte [JsForm.octalDigit (b.toNat / 64), JsForm.octalDigit (b.toNat / 8 % 8),
      JsForm.octalDigit (b.toNat % 8)] = b := by
  have below : b.toNat < 256 := b.toNat_lt
  have value : octalValue [JsForm.octalDigit (b.toNat / 64), JsForm.octalDigit (b.toNat / 8 % 8),
      JsForm.octalDigit (b.toNat % 8)] = b.toNat := by
    simp only [octalValue, List.foldl_cons, List.foldl_nil,
      octalDigit_toNat (show b.toNat / 64 < 8 by omega),
      octalDigit_toNat (show b.toNat / 8 % 8 < 8 by omega),
      octalDigit_toNat (show b.toNat % 8 < 8 by omega)]
    omega
  rw [Indexed.parseOctalByte, value, Nat.min_eq_right (by omega), UInt8.ofNat_toNat]

theorem simpleEscape_of_isOctal {b : UInt8} (octal : isOctal b = true) :
    simpleEscape b = none ∧ b ≠ byte 'x' ∧ b ≠ byte 'X' := by
  revert b
  apply Indexed.forall_byte
  decide +kernel

theorem escapeSeq_octal {first second third : UInt8} (octal1 : isOctal first = true)
    (octal2 : isOctal second = true) (octal3 : isOctal third = true) (rest : Bytes) :
    escapeSeq (first :: second :: third :: rest) =
      some (Indexed.parseOctalByte [first, second, third], 3) := by
  obtain ⟨simple, notX, notUpperX⟩ := simpleEscape_of_isOctal octal1
  simp [escapeSeq, simple, notX, notUpperX, octal1, octal2, octal3, Indexed.parseOctalByte]

theorem escapeSeq_hex {x high low : UInt8} (isX : x = byte 'x' ∨ x = byte 'X')
    (validHigh : validHex high = true) (validLow : validHex low = true) (rest : Bytes) :
    escapeSeq (x :: high :: low :: rest) = some (x2c high low, 3) := by
  have simple : simpleEscape x = none := by
    rcases isX with rfl | rfl <;> decide
  simp [escapeSeq, simple, isX, validHigh, validLow]

theorem rewrite_cForm {b : UInt8} {form : CForm} (allowed : form.Allowed b) (rest : Bytes) :
    (rewrite Indexed.escapeSeqPiece (form.write b ++ rest)).1 =
      b :: (rewrite Indexed.escapeSeqPiece rest).1 := by
  have below : b.toNat < 256 := b.toNat_lt
  -- an escape that is found is one piece
  have escapes : ∀ (next : UInt8) (later : Bytes) (count : Nat),
      escapeSeq (next :: later) = some (b, count) → (next :: later).drop count = rest →
      (rewrite Indexed.escapeSeqPiece (byte '\\' :: next :: later)).1 =
        b :: (rewrite Indexed.escapeSeqPiece rest).1 := by
    intro next later count found left
    have piece : Indexed.escapeSeqPiece (byte '\\') (next :: later) =
        { out := [b], count, changed := true } := by
      simp [Indexed.escapeSeqPiece, found]
    rw [rewrite_cons, piece, left]
    rfl
  cases form with
  | plain =>
    rw [CForm.write, List.singleton_append, rewrite_cons,
      Indexed.escapeSeqPiece_plain b (decide_eq_false allowed)]
    rfl
  | named letter =>
    have simple : simpleEscape letter = some b := allowed
    have found : escapeSeq (letter :: rest) = some (b, 1) := by simp [escapeSeq, simple]
    exact escapes letter rest 1 found rfl
  | hex upperX upperHigh upperLow =>
    have isX : (if upperX then byte 'X' else byte 'x') = byte 'x' ∨
        (if upperX then byte 'X' else byte 'x') = byte 'X' := by
      cases upperX <;> simp
    have found := escapeSeq_hex isX (hexTable_valid upperHigh (show b.toNat / 16 < 16 by omega))
      (hexTable_valid upperLow (show b.toNat % 16 < 16 by omega)) rest
    rw [x2c_hexTable] at found
    exact escapes _ _ 3 found rfl
  | octal =>
    have found := escapeSeq_octal (isOctal_octalDigit (show b.toNat / 64 < 8 by omega))
      (isOctal_octalDigit (show b.toNat / 8 % 8 < 8 by omega))
      (isOctal_octalDigit (show b.toNat % 8 < 8 by omega)) rest
    rw [parseOctalByte_digits] at found
    exact escapes _ _ 3 found rfl

theorem rewrite_cChoice {choice : CChoice} (allowed : choice.Allowed) :
    (rewrite Indexed.escapeSeqPiece choice.write).1 = choice.text := by
  induction choice with
  | nil => rfl
  | cons entry rest ih =>
    have later := ih fun other found => allowed other (List.mem_cons_of_mem _ found)
    have written : CChoice.write (entry :: rest) = entry.2.write entry.1 ++ CChoice.write rest := rfl
    rw [written, rewrite_cForm (allowed entry List.mem_cons_self), later]
    rfl

/-- `escapeSeqDecode` undoes the escapes of C; on every input it ends with all its indices
in range and does not lengthen. -/
theorem escapeSeqDecode_write {choice : CChoice} (allowed : choice.Allowed) (data : Bytes) :
    (Indexed.escapeSeqDecode choice.write).map Prod.fst = some choice.text ∧
      ∃ decoded changed, Indexed.escapeSeqDecode data = some (decoded, changed, none) ∧
        decoded.length ≤ data.length := by
  obtain ⟨_, undone⟩ := Indexed.escapeSeqDecode_rewrites choice.write
  obtain ⟨changed, decoded⟩ := Indexed.escapeSeqDecode_rewrites data
  refine ⟨?_, _, changed, decoded, ?_⟩
  · rw [undone, Option.map_some, rewrite_cChoice allowed]
  · exact length_rewrite_le
      (fun b rest => Nat.le_trans (Indexed.escapeSeqPiece_length b rest) (Nat.le_add_right _ _)) data

theorem escapeSeqDecode_write_mixed :
    (Indexed.escapeSeqDecode (str "a\\n7\\x417\\1017")).map Prod.fst = some (str "a\n7A7A7") :=
  (@escapeSeqDecode_write [(byte 'a', .plain), (10, .named (byte 'n')), (byte '7', .plain),
    (byte 'A', .hex false false false), (byte '7', .plain), (byte 'A', .octal), (byte '7', .plain)]
    (by decide) []).1

end Obsidian
