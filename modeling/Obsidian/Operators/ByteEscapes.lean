import Obsidian.Data.Cursors
import Obsidian.Data.Lines
import Obsidian.Data.Net
import Obsidian.Operators.Builders
import Obsidian.Transformations.Indexed

namespace Obsidian.Operators

open Obsidian.Data

/-! # Expressions that match bytes

`matchesArbitraryBytes` with its loop over indices, and what it makes of escaped backslashes.
-/

/-! ## The loop -/

/-- `strconv.UnquoteChar` of a text that begins with `\x`: the byte, unless it fails. -/
def unquoteByte (s : Bytes) : Option UInt8 := do
  let high ← hexValue (← s[2]?)
  let low ← hexValue (← s[3]?)
  some (UInt8.ofNat (high * 16 + low))

structure ByteScan where
  i : Nat := 0
  decoded : Bytes := []

def ByteScan.take (s : ByteScan) (out : Bytes) (i : Nat) : ByteScan := ⟨i, s.decoded ++ out⟩

def byteRound (expr : Bytes) (s : ByteScan) : Option ByteScan := do
  let c ← expr[s.i]?
  if c ≠ byte '\\' then some (s.take [c] (s.i + 1))
  -- the `break`: the rest is too short for an escape
  else if s.i + 3 ≥ expr.length then some (s.take (expr.drop s.i) expr.length)
  else
    let next ← expr[s.i + 1]?
    if next ≠ byte 'x' then some (s.take [c] (s.i + 1))
    else
      match unquoteByte (expr.drop s.i) with
      | none => some (s.take [c] (s.i + 1))
      | some v => some (s.take [v] (s.i + 4))

def scanMatchesArbitraryBytes (expr : Bytes) : Option Bool :=
  (whileLoop (fun s => s.i < expr.length) (byteRound expr) expr.length {}).map
    fun s => !validString s.decoded

/-! ## One escape -/

def escapedByte : Bytes → Option UInt8
  | 92 :: 120 :: high :: low :: _ =>
    if validHex high ∧ validHex low then some (x2c high low) else none
  | _ => none

theorem escapedByte_some {b v : UInt8} {rest : Bytes} (escaped : escapedByte (b :: rest) = some v) :
    b = 92 ∧ ∃ high low later, rest = 120 :: high :: low :: later ∧ validHex high = true ∧
      validHex low = true ∧ v = x2c high low := by
  unfold escapedByte at escaped
  split at escaped
  · next high low later same =>
      cases same
      split at escaped
      · next hex =>
          cases escaped
          exact ⟨rfl, high, low, later, rfl, hex.1, hex.2, rfl⟩
      · cases escaped
  · cases escaped

theorem escapedByte_of_ne {b : UInt8} (other : b ≠ 92) (rest : Bytes) :
    escapedByte (b :: rest) = none := by
  cases escaped : escapedByte (b :: rest) with
  | none => rfl
  | some v => exact absurd (escapedByte_some escaped).1 other

theorem decodeEscapes_cons (b : UInt8) (rest : Bytes) :
    decodeEscapes (b :: rest) =
      match escapedByte (b :: rest) with
      | some v => v :: decodeEscapes (rest.drop 3)
      | none => b :: decodeEscapes rest := by
  rw [decodeEscapes.eq_def]
  split
  · next same => cases same
  · next high low later same =>
      cases same
      rw [escapedByte]
      split_ifs <;> rfl
  · next c others noEscape same =>
      cases same
      cases escaped : escapedByte (b :: rest) with
      | none => rfl
      | some v =>
        obtain ⟨rfl, high, low, later, rfl, _⟩ := escapedByte_some escaped
        exact absurd rfl (noEscape high low later rfl)

theorem decodeEscapes_some {b v : UInt8} {rest : Bytes} (escaped : escapedByte (b :: rest) = some v) :
    decodeEscapes (b :: rest) = v :: decodeEscapes (rest.drop 3) := by
  rw [decodeEscapes_cons, escaped]

theorem decodeEscapes_none {b : UInt8} {rest : Bytes} (plain : escapedByte (b :: rest) = none) :
    decodeEscapes (b :: rest) = b :: decodeEscapes rest := by
  rw [decodeEscapes_cons, plain]

theorem decodeEscapes_short {text : Bytes} (short : text.length ≤ 3) : decodeEscapes text = text := by
  induction text with
  | nil => rfl
  | cons b rest ih =>
    rw [List.length_cons] at short
    have plain : escapedByte (b :: rest) = none := by
      cases escaped : escapedByte (b :: rest) with
      | none => rfl
      | some v =>
        obtain ⟨_, high, low, later, rfl, _⟩ := escapedByte_some escaped
        simp only [List.length_cons] at short
        omega
    rw [decodeEscapes_none plain, ih (by omega)]

theorem hexValue_eq (b : UInt8) :
    hexValue b = if validHex b then some (hexDigit b).toNat else none := by
  revert b
  apply Indexed.forall_byte
  decide +kernel

theorem unquoteByte_eq (high low : UInt8) (later : Bytes) :
    unquoteByte (92 :: 120 :: high :: low :: later) =
      escapedByte (92 :: 120 :: high :: low :: later) := by
  change (hexValue high).bind (fun h => (hexValue low).bind fun l => some (UInt8.ofNat (h * 16 + l))) =
    if validHex high ∧ validHex low then some (x2c high low) else none
  rw [hexValue_eq, hexValue_eq]
  cases validHex high with
  | false => simp
  | true =>
    cases validHex low with
    | false => simp
    | true => simp [x2c]

theorem byteRound_takes {expr rest : Bytes} {s : ByteScan} {b : UInt8}
    (here : expr.drop s.i = b :: rest) :
    ∃ next, byteRound expr s = some next ∧ s.i < next.i ∧
      next.decoded ++ decodeEscapes (expr.drop next.i) = s.decoded ++ decodeEscapes (b :: rest) := by
  have length := length_of_drop here
  have behind : expr.drop (s.i + 1) = rest := drop_add_of_drop here 1
  have first := getElem?_of_drop here
  -- a byte that stands for itself
  have copies : escapedByte (b :: rest) = none →
      (s.take [b] (s.i + 1)).decoded ++ decodeEscapes (expr.drop (s.i + 1)) =
        s.decoded ++ decodeEscapes (b :: rest) := by
    intro plain
    rw [decodeEscapes_none plain, behind]
    simp [ByteScan.take]
  by_cases backslash : b = byte '\\'
  swap
  · refine ⟨s.take [b] (s.i + 1), ?_, Nat.lt_succ_self _, copies (escapedByte_of_ne backslash rest)⟩
    simp [byteRound, first, backslash]
  by_cases short : s.i + 3 ≥ expr.length
  · refine ⟨s.take (expr.drop s.i) expr.length, ?_, by simp only [ByteScan.take]; omega, ?_⟩
    · simp [byteRound, first, backslash, short]
    · have few : (b :: rest).length ≤ 3 := by
        rw [List.length_cons]
        omega
      rw [decodeEscapes_short few]
      simp [ByteScan.take, here, decodeEscapes]
  obtain ⟨next, high, low, later, rfl⟩ : ∃ next high low later, rest = next :: high :: low :: later := by
    rcases rest with _ | ⟨next, _ | ⟨high, _ | ⟨low, later⟩⟩⟩
    · simp only [List.length_nil] at length
      omega
    · simp only [List.length_cons, List.length_nil] at length
      omega
    · simp only [List.length_cons, List.length_nil] at length
      omega
    · exact ⟨next, high, low, later, rfl⟩
  have second : expr[s.i + 1]? = some next := getElem?_add_of_drop here 1
  by_cases mark : next = byte 'x'
  swap
  · have plain : escapedByte (b :: next :: high :: low :: later) = none := by
      cases escaped : escapedByte (b :: next :: high :: low :: later) with
      | none => rfl
      | some v =>
        obtain ⟨_, _, _, _, same, _⟩ := escapedByte_some escaped
        exact absurd (List.cons.inj same).1 mark
    refine ⟨s.take [b] (s.i + 1), ?_, Nat.lt_succ_self _, copies plain⟩
    simp [byteRound, first, backslash, short, second, mark]
  subst backslash mark
  have unquoted : unquoteByte (expr.drop s.i) = escapedByte (92 :: 120 :: high :: low :: later) := by
    rw [here]
    exact unquoteByte_eq high low later
  cases escaped : escapedByte (92 :: 120 :: high :: low :: later) with
  | none =>
    refine ⟨s.take [byte '\\'] (s.i + 1), ?_, Nat.lt_succ_self _, copies escaped⟩
    simp [byteRound, first, short, second, unquoted, escaped]
  | some v =>
    have after : expr.drop (s.i + 4) = later := drop_add_of_drop here 4
    refine ⟨s.take [v] (s.i + 4), ?_, by simp only [ByteScan.take]; omega, ?_⟩
    · simp [byteRound, first, short, second, unquoted, escaped]
    · have decoded : decodeEscapes (byte '\\' :: byte 'x' :: high :: low :: later) =
          v :: decodeEscapes later := decodeEscapes_some escaped
      rw [decoded]
      simp [ByteScan.take, after]

theorem scanMatchesArbitraryBytes_eq (expr : Bytes) :
    scanMatchesArbitraryBytes expr = some (matchesArbitraryBytes expr) := by
  have step : ∀ (s : ByteScan) b rest, True → expr.drop s.i = b :: rest →
      ∃ next, byteRound expr s = some next ∧ True ∧ s.i < next.i ∧
        next.decoded ++ decodeEscapes (expr.drop next.i) =
          s.decoded ++ decodeEscapes (b :: rest) := by
    intro s b rest _ here
    obtain ⟨next, round, moves, joined⟩ := byteRound_takes here
    exact ⟨next, round, trivial, moves, joined⟩
  obtain ⟨last, runs, _, same⟩ := whileLoop_scans ByteScan.i (fun _ => True) decodeEscapes
    (fun s out => s.decoded ++ out) step (s := {}) trivial
  rw [scanMatchesArbitraryBytes, runs, Option.map_some, matchesArbitraryBytes]
  have decoded : last.decoded = decodeEscapes expr := by simpa [decodeEscapes] using same
  rw [decoded]

/-! ## Escaped backslashes -/

/-- What a text stands for where a backslash escapes the byte behind it, also another backslash. -/
def unescapePiece (b : UInt8) (rest : Bytes) : Piece UInt8 :=
  match escapedByte (b :: rest) with
  | some v => { out := [v], count := 3 }
  | none => if b = byte '\\' then { out := b :: rest.take 1, count := 1 } else { out := [b] }

def denotedBytes (expr : Bytes) : Bytes := (rewrite unescapePiece expr).1

/-- The bytes of the escapes whose backslash is itself escaped, which stands behind an odd run of
backslashes. -/
def escapedEscapes : (escaped : Bool) → Bytes → Bytes
  | _, [] => []
  | escaped, b :: rest =>
    (if escaped then (escapedByte (b :: rest)).toList else []) ++
      escapedEscapes (b = byte '\\' && !escaped) rest

theorem escapedEscapes_plain {b : UInt8} (other : b ≠ byte '\\') (escaped : Bool) (rest : Bytes) :
    escapedEscapes escaped (b :: rest) = escapedEscapes false rest := by
  rw [escapedEscapes, escapedByte_of_ne other]
  simp [other]

theorem ascii_of_hex : ∀ b : UInt8, validHex b = true → b ≠ byte '\\' ∧ b < 0x80 := by
  apply Indexed.forall_byte
  decide +kernel

/-! ### The two readings step by step -/

theorem denotedBytes_some {b v : UInt8} {rest : Bytes} (escaped : escapedByte (b :: rest) = some v) :
    denotedBytes (b :: rest) = v :: denotedBytes (rest.drop 3) := by
  rw [denotedBytes, rewrite_cons, unescapePiece, escaped]
  rfl

theorem denotedBytes_plain {b : UInt8} (other : b ≠ byte '\\') (rest : Bytes) :
    denotedBytes (b :: rest) = b :: denotedBytes rest := by
  rw [denotedBytes, rewrite_cons, unescapePiece, escapedByte_of_ne other]
  simp only [if_neg other]
  rfl

theorem denotedBytes_pair {c : UInt8} {rest : Bytes}
    (unescaped : escapedByte (byte '\\' :: c :: rest) = none) :
    denotedBytes (byte '\\' :: c :: rest) = byte '\\' :: c :: denotedBytes rest := by
  rw [denotedBytes, rewrite_cons, unescapePiece, unescaped]
  rfl

theorem denotedBytes_head (text : Bytes) :
    (denotedBytes text).getD 0 0 = (decodeEscapes text).getD 0 0 := by
  cases text with
  | nil => rfl
  | cons b rest =>
    cases escaped : escapedByte (b :: rest) with
    | some v => rw [denotedBytes_some escaped, decodeEscapes_some escaped]; rfl
    | none =>
      rw [decodeEscapes_none escaped]
      by_cases backslash : b = byte '\\'
      · subst backslash
        cases rest with
        | nil => rfl
        | cons c rest => rw [denotedBytes_pair escaped]; rfl
      · rw [denotedBytes_plain backslash]; rfl

/-- What the two readings of a text that begins outside of any escape have to do with its escaped
escapes, whatever is read before it. -/
structure ReadAlike (text : Bytes) : Prop where
  agree : (∀ v ∈ escapedEscapes false text, v < 0x80) → ∀ before,
    validString (before ++ denotedBytes text) = validString (before ++ decodeEscapes text)
  ascii : ∀ before, validString (before ++ denotedBytes text) = true →
    validString (before ++ decodeEscapes text) = true → ∀ v ∈ escapedEscapes false text, v < 0x80

theorem ReadAlike.of_same {text later : Bytes} (out : Bytes) (alike : ReadAlike later)
    (denoted : denotedBytes text = out ++ denotedBytes later)
    (decoded : decodeEscapes text = out ++ decodeEscapes later)
    (escapes : escapedEscapes false text = escapedEscapes false later) : ReadAlike text := by
  constructor
  · intro small before
    rw [denoted, decoded, ← List.append_assoc, ← List.append_assoc]
    exact alike.agree (escapes ▸ small) _
  · intro before valid validToo
    rw [denoted, ← List.append_assoc] at valid
    rw [decoded, ← List.append_assoc] at validToo
    rw [escapes]
    exact alike.ascii _ valid validToo

/-- An escape behind an escaped backslash: letters in one reading, a byte in the other. -/
theorem ReadAlike.of_escaped {high low : UInt8} {later : Bytes} (hexHigh : validHex high = true)
    (hexLow : validHex low = true) (alike : ReadAlike (120 :: high :: low :: later)) :
    ReadAlike (92 :: 92 :: 120 :: high :: low :: later) := by
  obtain ⟨otherHigh, asciiHigh⟩ := ascii_of_hex high hexHigh
  obtain ⟨otherLow, asciiLow⟩ := ascii_of_hex low hexLow
  have escaped : escapedByte (92 :: 120 :: high :: low :: later) = some (x2c high low) := by
    simp [escapedByte, hexHigh, hexLow]
  have escapes : escapedEscapes false (92 :: 92 :: 120 :: high :: low :: later) =
      x2c high low :: escapedEscapes false (120 :: high :: low :: later) := by
    rw [escapedEscapes, escapedEscapes, escaped]
    rfl
  have letters : denotedBytes (120 :: high :: low :: later) = 120 :: high :: low :: denotedBytes later ∧
      decodeEscapes (120 :: high :: low :: later) = 120 :: high :: low :: decodeEscapes later := by
    constructor
    · rw [denotedBytes_plain (by decide), denotedBytes_plain otherHigh, denotedBytes_plain otherLow]
    · rw [decodeEscapes_none (escapedByte_of_ne (by decide) _),
        decodeEscapes_none (escapedByte_of_ne otherHigh _),
        decodeEscapes_none (escapedByte_of_ne otherLow _)]
  have lettersValid : ∀ text, validString (120 :: high :: low :: text) = validString text := by
    intro text
    rw [validString_cons_ascii (by decide), validString_cons_ascii asciiHigh,
      validString_cons_ascii asciiLow]
  have denoted : ∀ before, validString (before ++
      denotedBytes (92 :: 92 :: 120 :: high :: low :: later)) =
        (validString before && validString (denotedBytes later)) := by
    intro before
    have pair : denotedBytes (92 :: 92 :: 120 :: high :: low :: later) =
        92 :: 92 :: denotedBytes (120 :: high :: low :: later) := denotedBytes_pair rfl
    rw [pair, validString_append_ascii (by decide), validString_cons_ascii (by decide), letters.1,
      lettersValid]
  have decoded : ∀ before, validString (before ++
      decodeEscapes (92 :: 92 :: 120 :: high :: low :: later)) =
        (validString before && validString (x2c high low :: decodeEscapes later)) := by
    intro before
    rw [decodeEscapes_none (show escapedByte (92 :: 92 :: _) = none from rfl),
      decodeEscapes_some escaped, validString_append_ascii (by decide)]
    rfl
  have agree := alike.agree
  have ascii := alike.ascii []
  simp only [letters, List.nil_append, lettersValid] at ascii
  constructor
  · intro small before
    rw [escapes, List.forall_mem_cons] at small
    have same := agree small.2 []
    simp only [letters, List.nil_append, lettersValid] at same
    rw [denoted, decoded, validString_cons_ascii small.1, same]
  · intro before valid validToo
    rw [denoted, Bool.and_eq_true] at valid
    rw [decoded, Bool.and_eq_true] at validToo
    have first : x2c high low < 0x80 := by
      by_contra long
      have continues := continues_of_valid long validToo.2
      -- the same byte begins a valid text in the other reading
      rw [← denotedBytes_head] at continues
      cases text : denotedBytes later with
      | nil => rw [text] at continues; cases continues
      | cons b rest =>
        rw [text] at continues valid
        exact absurd ((isContinuation_of_valid valid.2).symm.trans continues) Bool.false_ne_true
    rw [escapes, List.forall_mem_cons]
    refine ⟨first, ascii valid.2 ?_⟩
    rw [← validString_cons_ascii first]
    exact validToo.2

theorem readAlike (text : Bytes) : ReadAlike text := by
  induction text using rewrite_induction unescapePiece with
  | nil => exact ⟨fun _ _ => rfl, fun _ _ _ v found => absurd found List.not_mem_nil⟩
  | cons b rest ih =>
    cases escaped : escapedByte (b :: rest) with
    | some v =>
      obtain ⟨rfl, high, low, later, rfl, hexHigh, hexLow, _⟩ := escapedByte_some escaped
      have count : (unescapePiece 92 (120 :: high :: low :: later)).count = 3 := by
        rw [unescapePiece, escaped]
      rw [count] at ih
      refine ReadAlike.of_same [v] ih (denotedBytes_some escaped)
        (decodeEscapes_some escaped) ?_
      rw [escapedEscapes, escapedEscapes_plain (b := 120) (by decide),
        escapedEscapes_plain (ascii_of_hex high hexHigh).1,
        escapedEscapes_plain (ascii_of_hex low hexLow).1]
      rfl
    | none =>
      by_cases backslash : b = byte '\\'
      swap
      · have count : (unescapePiece b rest).count = 0 := by
          rw [unescapePiece, escaped]
          simp [backslash]
        rw [count] at ih
        exact ReadAlike.of_same [b] ih (denotedBytes_plain backslash rest)
          (decodeEscapes_none escaped) (escapedEscapes_plain backslash false rest)
      subst backslash
      have count : (unescapePiece (byte '\\') rest).count = 1 := by
        rw [unescapePiece, escaped]
        rfl
      rw [count] at ih
      cases rest with
      | nil => exact ⟨fun _ _ => rfl, fun _ _ _ v found => absurd found List.not_mem_nil⟩
      | cons c rest =>
        cases again : escapedByte (c :: rest) with
        | some v =>
          obtain ⟨rfl, high, low, later, rfl, hexHigh, hexLow, _⟩ := escapedByte_some again
          exact ReadAlike.of_escaped hexHigh hexLow ih
        | none =>
          refine ReadAlike.of_same [byte '\\', c] ih (denotedBytes_pair escaped) ?_ ?_
          · rw [decodeEscapes_none escaped, decodeEscapes_none again]
            rfl
          · rw [escapedEscapes, escapedEscapes, again]
            simp

/-- The binary matcher is chosen exactly for the expressions that stand for bytes that are not
UTF-8, if and only if the escapes whose backslash is escaped are of ASCII bytes, or the expression is
not UTF-8 with these escapes decoded or not. -/
theorem matchesArbitraryBytes_exact (expr : Bytes) :
    scanMatchesArbitraryBytes expr = some !validString (denotedBytes expr) ↔
      (∀ v ∈ escapedEscapes false expr, v < 0x80) ∨
        validString (denotedBytes expr) = false ∧ validString (decodeEscapes expr) = false := by
  rw [scanMatchesArbitraryBytes_eq, matchesArbitraryBytes, Option.some.injEq, Bool.not_inj_iff]
  constructor
  · intro same
    cases valid : validString (denotedBytes expr) with
    | true => exact .inl ((readAlike expr).ascii [] valid (same.trans valid))
    | false => exact .inr ⟨rfl, same.trans valid⟩
  · rintro (small | ⟨invalid, invalidToo⟩)
    · exact ((readAlike expr).agree small []).symm
    · rw [invalid, invalidToo]

/-- An escape at the very end, behind an escaped backslash, and an escaped escape of a letter. -/
theorem matchesArbitraryBytes_exact_end :
    scanMatchesArbitraryBytes (str "a\\\\\\xff") = some true ∧
      scanMatchesArbitraryBytes (str "\\\\x41") = some false :=
  ⟨((matchesArbitraryBytes_exact (str "a\\\\\\xff")).mpr (.inl (by decide +kernel))).trans
      (by decide +kernel),
    ((matchesArbitraryBytes_exact (str "\\\\x41")).mpr (.inl (by decide +kernel))).trans
      (by decide +kernel)⟩

/-- An escaped backslash and the letters behind it, which are taken for an escape. -/
theorem matchesArbitraryBytes_escaped :
    scanMatchesArbitraryBytes (str "\\\\xff") = some true ∧
      denotedBytes (str "\\\\xff") = str "\\\\xff" ∧ validString (str "\\\\xff") = true ∧
      (newRX false (str "\\\\xff")).source = .binaryRegexp (str "\\\\xff") := by
  decide +kernel

end Obsidian.Operators
