import Obsidian.Data.Except
import Obsidian.Data.Lines
import Obsidian.Seclang.Compiled
import Mathlib.Algebra.Order.BigOperators.Group.List
import Mathlib.Algebra.Order.Group.Nat
import Mathlib.Data.List.Chain

namespace Obsidian

open Obsidian.Data

/-! # Macros

The compiler of `macro.go`: the texts it takes and the tokens it makes of them.
-/

structure MacroToken where
  text : Bytes
  var : RuleVariable
  key : Bytes
deriving DecidableEq, Repr

def isValidMacroChar (c : UInt8) : Bool :=
  c = byte '[' || c = byte ']' || c = byte '.' || c = byte '_' || c = byte '-' ||
    (byte '0' ≤ c && c ≤ byte '9') || (byte 'A' ≤ c && c ≤ byte 'Z') ||
    (byte 'a' ≤ c && c ≤ byte 'z')

def literalTokens (text : Bytes) : List MacroToken :=
  if text = [] then [] else [⟨text, .unknown, []⟩]

structure MacroScan where
  isMacro : Bool := false
  currentToken : Bytes := []
  tokens : List MacroToken := []
deriving DecidableEq, Repr

namespace MacroScan

variable (host : SeclangHost)

def flush (s : MacroScan) : MacroScan :=
  { s with tokens := s.tokens ++ literalTokens s.currentToken, currentToken := [] }

def cutName (reference : Bytes) : Bytes × Bytes :=
  (cut (byte '.') reference).getD (reference, [])

/-- The closing brace of a reference, behind the byte `previous`. -/
def endReference (previous : UInt8) (s : MacroScan) : Except GoError MacroScan :=
  if previous = byte '.' then .error (str "empty variable name")
  else
    let (varName, key) := cutName s.currentToken
    match RuleVariable.parse host.toRuntime varName with
    | .error _ => .error (str "unknown variable " ++ host.quote varName)
    | .ok v => .ok { tokens := s.tokens ++ [⟨s.currentToken, v, host.toLower key⟩] }

def readChar (previous c : UInt8) (last : Bool) (s : MacroScan) : Except GoError MacroScan :=
  if s.isMacro then
    if c = byte '}' then s.endReference host previous
    else if !isValidMacroChar c then
      .error (str "malformed variable starting with " ++
        host.quote (byte '%' :: byte '{' :: s.currentToken))
    else if last then .error (str "malformed variable: no closing braces")
    else .ok { s with currentToken := s.currentToken ++ [c] }
  else .ok { s with currentToken := s.currentToken ++ [c] }

/-- The loop of `compile` over the bytes that are left. -/
def scan : UInt8 → MacroScan → Bytes → Except GoError MacroScan
  | _, s, [] => .ok s
  | previous, s, [c] => s.readChar host previous c true
  | previous, s, c :: next :: rest =>
    if c = byte '%' ∧ next = byte '{' then scan next { s.flush with isMacro := true } rest
    else do
      let s ← s.readChar host previous c false
      scan c s (next :: rest)

end MacroScan

namespace SeclangHost

def compileMacro (host : SeclangHost) (input : Bytes) : Except GoError (List MacroToken) :=
  if input = [] then .error (str "empty macro")
  else do
    let s ← MacroScan.scan host 0 {} input
    .ok s.flush.tokens

end SeclangHost

/-! ## Pieces of a text

A text that is accepted falls into literal texts, references and references that are
opened and left: behind them another one opens, or the text ends. -/

inductive MacroPiece where
  | text (text : Bytes)
  | reference (name : Bytes) (key : Option Bytes)
  | opened (inner : Bytes)
deriving DecidableEq, Repr

namespace MacroPiece

def inner : MacroPiece → Bytes
  | text t => t
  | reference name none => name
  | reference name (some key) => name ++ byte '.' :: key
  | opened inner => inner

def write : MacroPiece → Bytes
  | text t => t
  | opened inner => byte '%' :: byte '{' :: inner
  | piece => byte '%' :: byte '{' :: piece.inner ++ [byte '}']

def isText : MacroPiece → Bool
  | text _ => true
  | _ => false

@[simp] theorem write_text (t : Bytes) : (text t).write = t := rfl

@[simp] theorem write_reference (name : Bytes) (key : Option Bytes) : (reference name key).write =
    byte '%' :: byte '{' :: (reference name key).inner ++ [byte '}'] := rfl

@[simp] theorem write_opened (inner : Bytes) :
    (opened inner).write = byte '%' :: byte '{' :: inner := rfl

variable (host : SeclangHost)

def tokens : MacroPiece → List MacroToken
  | text t => literalTokens t
  | opened inner => literalTokens inner
  | reference name key =>
    match RuleVariable.parse host.toRuntime name with
    | .error _ => []
    | .ok v => [⟨(reference name key).inner, v, host.toLower (key.getD [])⟩]

/-- A reference to a variable: the key is not empty and does not end in a period. -/
structure Refers (name : Bytes) (key : Option Bytes) (v : RuleVariable) : Prop where
  name_chars : name.all isValidMacroChar = true
  known : RuleVariable.parse host.toRuntime name = .ok v
  key_chars : ∀ k ∈ key, k ≠ [] ∧ k.all isValidMacroChar = true ∧ k.getLast? ≠ some (byte '.')

inductive Accepted : List MacroPiece → Prop
  | nil : Accepted []
  | text {t : Bytes} {rest : List MacroPiece} (given : t ≠ [])
      (plain : ¬[byte '%', byte '{'] <:+: t) (next : ∀ piece ∈ rest.head?, piece.isText = false)
      (later : Accepted rest) : Accepted (.text t :: rest)
  | reference {name : Bytes} {key : Option Bytes} {v : RuleVariable} {rest : List MacroPiece}
      (refers : Refers host name key v) (later : Accepted rest) :
      Accepted (.reference name key :: rest)
  | opened {inner : Bytes} {rest : List MacroPiece} (chars : inner.all isValidMacroChar = true)
      (next : ∀ piece ∈ rest.head?, piece.isText = false) (last : rest = [] → inner = [])
      (later : Accepted rest) : Accepted (.opened inner :: rest)

end MacroPiece

def writeMacro (pieces : List MacroPiece) : Bytes := pieces.flatMap MacroPiece.write

namespace MacroScan

variable {host : SeclangHost}

theorem scan_opening (previous : UInt8) (s : MacroScan) (rest : Bytes) :
    scan host previous s (byte '%' :: byte '{' :: rest) =
      scan host (byte '{') { s.flush with isMacro := true } rest := by
  rw [scan, if_pos ⟨rfl, rfl⟩]

theorem scan_char {c : UInt8} {rest : Bytes} (plain : ¬[byte '%', byte '{'] <+: c :: rest)
    (previous : UInt8) (s : MacroScan) :
    scan host previous s (c :: rest) =
      (s.readChar host previous c rest.isEmpty).bind fun s => scan host c s rest := by
  cases rest with
  | nil =>
    rw [scan, List.isEmpty_nil]
    cases s.readChar host previous c true <;> rfl
  | cons next rest =>
    have other : ¬(c = byte '%' ∧ next = byte '{') := by
      rintro ⟨rfl, rfl⟩
      exact plain ⟨rest, rfl⟩
    rw [scan, if_neg other]
    rfl

theorem readChar_text {s : MacroScan} (outside : s.isMacro = false) (previous c : UInt8)
    (last : Bool) : s.readChar host previous c last =
      .ok { s with currentToken := s.currentToken ++ [c] } := by
  rw [readChar, outside, if_neg Bool.false_ne_true]

theorem char_ne_of_valid {c : UInt8} (valid : isValidMacroChar c = true) :
    c ≠ byte '%' ∧ c ≠ byte '}' ∧ c ≠ byte '{' := by
  refine ⟨?_, ?_, ?_⟩ <;> rintro rfl <;> exact absurd valid (by decide)

theorem readChar_inner {s : MacroScan} (inside : s.isMacro = true) {c : UInt8}
    (valid : isValidMacroChar c = true) (previous : UInt8) :
    s.readChar host previous c false = .ok { s with currentToken := s.currentToken ++ [c] } := by
  rw [readChar, if_pos inside, if_neg (char_ne_of_valid valid).2.1, valid]
  rfl

theorem readChar_close {s : MacroScan} (inside : s.isMacro = true) (previous : UInt8) (last : Bool) :
    s.readChar host previous (byte '}') last = s.endReference host previous := by
  rw [readChar, if_pos inside, if_pos rfl]

theorem not_opening_of_ne {c : UInt8} (other : c ≠ byte '%') (rest : Bytes) :
    ¬[byte '%', byte '{'] <+: c :: rest := by
  rintro ⟨tail, same⟩
  exact other (List.cons.inj same).1.symm

theorem scan_text {t rest : Bytes} (plain : ¬[byte '%', byte '{'] <:+: t)
    (next : rest.head? ≠ some (byte '{')) (previous : UInt8) {s : MacroScan}
    (outside : s.isMacro = false) :
    ∃ last, scan host previous s (t ++ rest) =
      scan host last { s with currentToken := s.currentToken ++ t } rest := by
  induction t generalizing previous s with
  | nil => exact ⟨previous, by simp⟩
  | cons c t ih =>
    have unopened : ¬[byte '%', byte '{'] <+: c :: (t ++ rest) := by
      rintro ⟨tail, same⟩
      obtain ⟨isPercent, tailSame⟩ := List.cons.inj same
      cases t with
      | nil =>
        rw [List.nil_append] at tailSame
        exact next (by rw [← tailSame]; rfl)
      | cons d t =>
        apply plain
        obtain ⟨isBrace, -⟩ := List.cons.inj tailSame
        exact ⟨[], t, by rw [← isPercent, ← isBrace]; rfl⟩
    have later : ¬[byte '%', byte '{'] <:+: t := fun found => plain (List.infix_cons found)
    obtain ⟨last, read⟩ := ih later c (s := { s with currentToken := s.currentToken ++ [c] }) outside
    refine ⟨last, ?_⟩
    rw [List.cons_append, scan_char unopened, readChar_text outside, Except.bind, read,
      List.append_assoc, List.singleton_append]

theorem scan_inner {inner rest : Bytes} (chars : inner.all isValidMacroChar = true)
    (more : rest ≠ []) (previous : UInt8) {s : MacroScan} (inside : s.isMacro = true) :
    scan host previous s (inner ++ rest) =
      scan host (inner.getLastD previous) { s with currentToken := s.currentToken ++ inner } rest := by
  induction inner generalizing previous s with
  | nil => simp
  | cons c inner ih =>
    rw [List.all_cons, Bool.and_eq_true] at chars
    have percent := (char_ne_of_valid chars.1).1
    have read := ih chars.2 c (s := { s with currentToken := s.currentToken ++ [c] }) inside
    have notLast : (inner ++ rest).isEmpty = false := by simp [more]
    rw [List.cons_append, scan_char (not_opening_of_ne percent _), notLast,
      readChar_inner inside chars.1, Except.bind, read, List.append_assoc, List.singleton_append,
      List.getLastD_cons]

end MacroScan

/-! ## References -/

theorem RuleVariable.parse_ok {rt : Runtime} {name : Bytes} {v : RuleVariable}
    (parsed : RuleVariable.parse rt name = .ok v) : v ∈ RuleVariable.all ∧ v.name = rt.toUpper name := by
  rw [RuleVariable.parse] at parsed
  split at parsed
  · next found =>
      cases parsed
      have same := List.find?_some found
      exact ⟨List.mem_of_find?_eq_some found, of_decide_eq_true same⟩
  · cases parsed

theorem lt_of_validMacroChar {c : UInt8} (valid : isValidMacroChar c = true) : c < 128 := by
  simp only [isValidMacroChar, Bool.or_eq_true, Bool.and_eq_true, decide_eq_true_eq] at valid
  rcases valid with ((single | digit) | upper) | lower
  · rcases single with (((rfl | rfl) | rfl) | rfl) | rfl <;> decide
  · exact UInt8.lt_of_le_of_lt digit.2 (by decide)
  · exact UInt8.lt_of_le_of_lt upper.2 (by decide)
  · exact UInt8.lt_of_le_of_lt lower.2 (by decide)

theorem isASCII_of_valid {text : Bytes} (chars : text.all isValidMacroChar = true) :
    isASCII text = true := by
  rw [isASCII, List.all_eq_true]
  intro c found
  exact decide_eq_true (lt_of_validMacroChar (List.all_eq_true.mp chars c found))

namespace MacroPiece

variable {host : SeclangHost} {name : Bytes} {key : Option Bytes} {v : RuleVariable}

/-- The names of variables have no period, so the first one in a reference ends its name. -/
theorem Refers.noPeriod (refers : Refers host name key v) : byte '.' ∉ name := by
  obtain ⟨listed, upper⟩ := RuleVariable.parse_ok refers.known
  intro found
  apply (RuleVariable.name_plain v listed).2.2.1
  rw [upper, Runtime.toUpper, toUpper, if_pos (isASCII_of_valid refers.name_chars)]
  exact List.mem_map_of_mem (f := upperByte) found

theorem Refers.cutName_inner (refers : Refers host name key v) :
    MacroScan.cutName (reference name key).inner = (name, key.getD []) := by
  cases key with
  | none => rw [inner, MacroScan.cutName, cut_eq_none.mpr refers.noPeriod]; rfl
  | some key => rw [inner, MacroScan.cutName, cut_append refers.noPeriod]; rfl

theorem Refers.inner_chars (refers : Refers host name key v) :
    (reference name key).inner.all isValidMacroChar = true := by
  cases key with
  | none => exact refers.name_chars
  | some key =>
    have chars := (refers.key_chars key rfl).2.1
    rw [inner, List.all_append, refers.name_chars, List.all_cons, chars]
    decide

theorem Refers.last_ne (refers : Refers host name key v) :
    (reference name key).inner.getLastD (byte '{') ≠ byte '.' := by
  cases key with
  | none =>
    rw [inner, List.getLastD_eq_getLast?]
    intro same
    cases last : name.getLast? with
    | none =>
      rw [last] at same
      exact absurd same (by decide)
    | some c =>
      rw [last, Option.getD_some] at same
      exact refers.noPeriod (same ▸ List.mem_of_getLast? last)
  | some key =>
    obtain ⟨given, -, ends⟩ := refers.key_chars key rfl
    obtain ⟨front, c, rfl⟩ := (List.eq_nil_or_concat key).resolve_left given
    rw [List.concat_eq_append, List.getLast?_append] at ends
    rw [inner, List.concat_eq_append, ← List.cons_append, ← List.append_assoc,
      List.getLastD_eq_getLast?, List.getLast?_append]
    exact fun same => ends (congrArg some same)

end MacroPiece

namespace MacroScan

variable {host : SeclangHost}

theorem endReference_refers {name : Bytes} {key : Option Bytes} {v : RuleVariable}
    (refers : MacroPiece.Refers host name key v) {s : MacroScan}
    (read : s.currentToken = (MacroPiece.reference name key).inner) :
    s.endReference host (s.currentToken.getLastD (byte '{')) =
      .ok { tokens := s.tokens ++ (MacroPiece.reference name key).tokens host } := by
  rw [read, endReference, if_neg refers.last_ne, read, refers.cutName_inner]
  simp only [refers.known, MacroPiece.tokens]

open MacroPiece in
theorem head_writeMacro {pieces : List MacroPiece}
    (opens : ∀ piece ∈ pieces.head?, piece.isText = false) :
    (writeMacro pieces).head? ≠ some (byte '{') := by
  cases pieces with
  | nil => decide
  | cons piece rest =>
    cases piece with
    | text t => cases opens _ rfl
    | reference name key => exact (by decide : some (byte '%') ≠ some (byte '{'))
    | opened inner => exact (by decide : some (byte '%') ≠ some (byte '{'))

open MacroPiece in
/-- Every text of accepted pieces is read as these pieces. -/
theorem scan_accepted {pieces : List MacroPiece} (accepted : Accepted host pieces) (previous : UInt8)
    {s : MacroScan}
    (fits : ∀ piece ∈ pieces.head?, piece.isText = true → s.isMacro = false ∧ s.currentToken = []) :
    ∃ result, scan host previous s (writeMacro pieces) = .ok result ∧
      result.flush.tokens = s.flush.tokens ++ pieces.flatMap (MacroPiece.tokens host) := by
  induction accepted generalizing previous s with
  | nil => exact ⟨s, rfl, by simp⟩
  | @text t rest given plain next later ih =>
    obtain ⟨outside, nothing⟩ := fits _ rfl rfl
    obtain ⟨last, read⟩ := scan_text plain (head_writeMacro next) previous outside
    obtain ⟨result, scanned, tokens⟩ := ih last
      (s := { s with currentToken := s.currentToken ++ t })
      (fun piece first isText => absurd isText (by simp [next piece first]))
    refine ⟨result, by rw [← scanned, ← read]; rfl, ?_⟩
    rw [tokens]
    simp [flush, nothing, MacroPiece.tokens, literalTokens]
  | @reference name key v rest refers later ih =>
    obtain ⟨result, scanned, tokens⟩ := ih (byte '}')
      (s := { tokens := s.flush.tokens ++ (MacroPiece.reference name key).tokens host })
      (fun _ _ _ => ⟨rfl, rfl⟩)
    refine ⟨result, ?_, ?_⟩
    · have written : writeMacro (.reference name key :: rest) = byte '%' :: byte '{' ::
          ((reference name key).inner ++ byte '}' :: writeMacro rest) := by
        simp [writeMacro]
      rw [written, scan_opening, scan_inner refers.inner_chars (by simp) _ rfl,
        scan_char (not_opening_of_ne (by decide) _), readChar_close rfl]
      have closed := endReference_refers refers
        (s := { s.flush with isMacro := true, currentToken := (reference name key).inner }) rfl
      exact (congrArg (Except.bind · _) closed).trans scanned
    · rw [tokens]
      simp [flush, literalTokens]
  | @opened inner rest chars next last later ih =>
    have written : writeMacro (.opened inner :: rest) =
        byte '%' :: byte '{' :: (inner ++ writeMacro rest) := by
      simp [writeMacro]
    obtain ⟨previous, read⟩ : ∃ previous,
        scan host (byte '{') { s.flush with isMacro := true } (inner ++ writeMacro rest) =
          scan host previous { s.flush with isMacro := true, currentToken := inner }
            (writeMacro rest) := by
      cases rest with
      | nil =>
        rw [last rfl]
        exact ⟨byte '{', rfl⟩
      | cons piece rest =>
        refine ⟨_, scan_inner chars ?_ _ rfl⟩
        cases piece with
        | text t => cases next _ rfl
        | reference name key => exact List.cons_ne_nil _ _
        | opened inner => exact List.cons_ne_nil _ _
    obtain ⟨result, scanned, tokens⟩ := ih previous
      (s := { s.flush with isMacro := true, currentToken := inner })
      (fun piece first isText => absurd isText (by simp [next piece first]))
    refine ⟨result, by rw [written, scan_opening, read, scanned], ?_⟩
    rw [tokens]
    simp [flush, MacroPiece.tokens]

def pending (s : MacroScan) : Bytes :=
  if s.isMacro then byte '%' :: byte '{' :: s.currentToken else s.currentToken

/-- What the loop knows in front of `rest`, where `previous` is the last byte read. -/
structure Reads (previous : UInt8) (s : MacroScan) (rest : Bytes) : Prop where
  inside : s.isMacro = true → s.currentToken.all isValidMacroChar = true ∧
    s.currentToken.getLastD (byte '{') = previous ∧ (rest = [] → s.currentToken = [])
  outside : s.isMacro = false → ¬[byte '%', byte '{'] <:+: s.currentToken ++ rest.head?.toList

theorem readChar_ok {s after : MacroScan} {previous c : UInt8} {last : Bool}
    (read : s.readChar host previous c last = .ok after) :
    (s.isMacro = true ∧ c = byte '}' ∧ s.endReference host previous = .ok after) ∨
      (s.isMacro = true → isValidMacroChar c = true ∧ last = false) ∧
        after = { s with currentToken := s.currentToken ++ [c] } := by
  rw [readChar] at read
  split at read
  · next inside =>
      split at read
      · next close => exact .inl ⟨inside, close, read⟩
      · split at read
        · cases read
        · next valid =>
            split at read
            · cases read
            · next more =>
                cases read
                exact .inr ⟨fun _ => ⟨by simpa using valid, by simpa using more⟩, rfl⟩
  · next outside =>
      cases read
      exact .inr ⟨fun inside => absurd inside outside, rfl⟩

theorem refers_of_endReference {s after : MacroScan} {previous : UInt8}
    (chars : s.currentToken.all isValidMacroChar = true)
    (last : s.currentToken.getLastD (byte '{') = previous)
    (ended : s.endReference host previous = .ok after) :
    ∃ name key v, MacroPiece.Refers host name key v ∧
      (MacroPiece.reference name key).inner = s.currentToken ∧
      after = { tokens := s.tokens ++ (MacroPiece.reference name key).tokens host } := by
  rw [endReference] at ended
  split at ended
  · cases ended
  · next noPeriod =>
      rw [← last] at noPeriod
      cases found : cut (byte '.') s.currentToken with
      | none =>
        simp only [cutName, found, Option.getD_none] at ended
        split at ended
        · cases ended
        · next v known =>
            cases ended
            refine ⟨s.currentToken, none, v, ⟨chars, known, by simp⟩, rfl, ?_⟩
            simp only [MacroPiece.tokens, known, MacroPiece.inner, Option.getD_none]
      | some parts =>
        obtain ⟨name, key⟩ := parts
        simp only [cutName, found, Option.getD_some] at ended
        split at ended
        · cases ended
        · next v known =>
            cases ended
            have whole := eq_of_cut found
            rw [whole, List.all_append, List.all_cons, Bool.and_eq_true, Bool.and_eq_true] at chars
            refine ⟨name, some key, v, ⟨chars.1, known, ?_⟩, whole.symm, ?_⟩
            · intro k same
              cases same
              refine ⟨?_, chars.2.2, ?_⟩
              · rintro rfl
                apply noPeriod
                rw [whole, List.getLastD_eq_getLast?, List.getLast?_concat]
                rfl
              · intro ends
                apply noPeriod
                rw [whole, List.getLastD_eq_getLast?, List.getLast?_append, List.getLast?_cons, ends]
                rfl
            · simp only [MacroPiece.tokens, known, MacroPiece.inner, Option.getD_some, whole]

open MacroPiece in
theorem accepted_text {t : Bytes} {rest : List MacroPiece} (plain : ¬[byte '%', byte '{'] <:+: t)
    (next : ∀ piece ∈ rest.head?, piece.isText = false) (later : Accepted host rest) :
    ∃ pieces, Accepted host pieces ∧ writeMacro pieces = t ++ writeMacro rest ∧
      pieces.flatMap (MacroPiece.tokens host) =
        literalTokens t ++ rest.flatMap (MacroPiece.tokens host) := by
  by_cases nothing : t = []
  · subst nothing
    exact ⟨rest, later, rfl, rfl⟩
  · exact ⟨.text t :: rest, .text nothing plain next later, rfl, rfl⟩

theorem Reads.longer {previous c : UInt8} {rest : Bytes} {s : MacroScan}
    (reads : Reads previous s (c :: rest)) (other : ¬[byte '%', byte '{'] <+: c :: rest)
    (valid : s.isMacro = true → isValidMacroChar c = true ∧ rest.isEmpty = false) :
    Reads c { s with currentToken := s.currentToken ++ [c] } rest := by
  constructor
  · intro inside
    obtain ⟨validChar, more⟩ := valid inside
    refine ⟨?_, ?_, ?_⟩
    · rw [List.all_append, (reads.inside inside).1, List.all_cons, validChar]
      rfl
    · rw [List.getLastD_eq_getLast?, List.getLast?_concat]
      rfl
    · rintro rfl
      cases more
  · intro outside found
    have plain := reads.outside outside
    cases rest with
    | nil => exact plain (by simpa using found)
    | cons next rest =>
      rcases List.infix_concat_iff.mp found with ⟨front, ends⟩ | early
      · have same := congrArg List.reverse ends
        simp only [List.reverse_append, List.reverse_cons, List.reverse_nil, List.nil_append,
          List.cons_append, List.cons.injEq] at same
        exact other ⟨rest, by rw [same.1, same.2.1]; rfl⟩
      · exact plain early

open MacroPiece in
/-- What is pending and what follows fall into pieces with the tokens of the result. -/
def Explained (host : SeclangHost) (s : MacroScan) (rest : Bytes) (result : MacroScan) : Prop :=
  ∃ pieces, Accepted host pieces ∧ writeMacro pieces = s.pending ++ rest ∧
    result.flush.tokens = s.tokens ++ pieces.flatMap (MacroPiece.tokens host) ∧
    (s.isMacro = true → ∀ piece ∈ pieces.head?, piece.isText = false)

open MacroPiece in
theorem explained_end {previous : UInt8} {s : MacroScan} (reads : Reads previous s []) :
    Explained host s [] s := by
  cases inside : s.isMacro with
  | true =>
    have nothing := (reads.inside inside).2.2 rfl
    refine ⟨[.opened []], .opened rfl (by simp) (fun _ => rfl) .nil, ?_, ?_, ?_⟩
    · simp [writeMacro, pending, inside, nothing]
    · simp [flush, nothing, MacroPiece.tokens]
    · simp [isText]
  | false =>
    obtain ⟨pieces, accepted, written, tokens⟩ := accepted_text (t := s.currentToken)
      (by simpa using reads.outside inside) (by simp) (.nil : Accepted host [])
    refine ⟨pieces, accepted, ?_, ?_, by simp [inside]⟩
    · simpa [pending, inside, writeMacro] using written
    · simp [flush, tokens]

open MacroPiece in
theorem explained_char {previous c : UInt8} {rest : Bytes} {s after result : MacroScan}
    (reads : Reads previous s (c :: rest)) (other : ¬[byte '%', byte '{'] <+: c :: rest)
    (read : s.readChar host previous c rest.isEmpty = .ok after)
    (later : Reads c after rest → Explained host after rest result) :
    Explained host s (c :: rest) result := by
  rcases readChar_ok read with ⟨inside, rfl, ended⟩ | ⟨valid, rfl⟩
  · obtain ⟨chars, last, -⟩ := reads.inside inside
    obtain ⟨name, key, v, refers, inner, rfl⟩ := refers_of_endReference chars last ended
    have start : Reads (byte '}') { tokens := s.tokens ++ (reference name key).tokens host } rest := by
      refine ⟨by simp, fun _ found => ?_⟩
      have short := found.length_le
      cases rest <;> simp at short
    obtain ⟨pieces, accepted, written, tokens, -⟩ := later start
    refine ⟨.reference name key :: pieces, .reference refers accepted, ?_, ?_, by simp [isText]⟩
    · rw [writeMacro, List.flatMap_cons, ← writeMacro, written]
      simp [pending, inside, inner]
    · rw [tokens]
      simp
  · obtain ⟨pieces, accepted, written, tokens, heads⟩ := later (reads.longer other valid)
    refine ⟨pieces, accepted, ?_, tokens, heads⟩
    rw [written]
    cases inside : s.isMacro <;> simp [pending, inside]

open MacroPiece in
theorem explained_opening {previous : UInt8} {rest : Bytes} {s result : MacroScan}
    (reads : Reads previous s (byte '%' :: byte '{' :: rest))
    (later : Explained host { s.flush with isMacro := true } rest result) :
    Explained host s (byte '%' :: byte '{' :: rest) result := by
  obtain ⟨pieces, accepted, written, tokens, heads⟩ := later
  have first := heads rfl
  cases inside : s.isMacro with
  | true =>
    have more : pieces ≠ [] := by
      rintro rfl
      cases written
    refine ⟨.opened s.currentToken :: pieces, .opened (reads.inside inside).1 first
      (fun none_ => absurd none_ more) accepted, ?_, ?_, ?_⟩
    · rw [writeMacro, List.flatMap_cons, ← writeMacro, written]
      simp [pending, inside, flush]
    · rw [tokens]
      simp [flush, MacroPiece.tokens]
    · simp [isText]
  | false =>
    have plain : ¬[byte '%', byte '{'] <:+: s.currentToken := by
      intro found
      exact reads.outside inside (found.trans (List.prefix_append _ _).isInfix)
    obtain ⟨all, acceptedAll, writtenAll, tokensAll⟩ := accepted_text plain first accepted
    refine ⟨all, acceptedAll, ?_, ?_, by simp [inside]⟩
    · rw [writtenAll, written]
      simp [pending, inside, flush]
    · rw [tokens, tokensAll]
      simp [flush]

theorem explained_of_scan {rest : Bytes} {previous : UInt8} {s result : MacroScan}
    (reads : Reads previous s rest) (scanned : scan host previous s rest = .ok result) :
    Explained host s rest result := by
  fun_induction scan host previous s rest with
  | case1 previous s =>
    obtain rfl : s = result := Except.ok.inj scanned
    exact explained_end reads
  | case2 previous s c => exact explained_char reads (by simp) scanned explained_end
  | case3 previous s c next rest opens ih =>
    obtain ⟨rfl, rfl⟩ := opens
    exact explained_opening reads (ih ⟨fun _ => ⟨rfl, rfl, fun _ => rfl⟩, by simp⟩ scanned)
  | case4 previous s c next rest other ih =>
    obtain ⟨after, read, left⟩ := exceptBind_ok scanned
    have unopened : ¬[byte '%', byte '{'] <+: c :: next :: rest := by
      simpa [eq_comm] using other
    exact explained_char reads unopened read fun start => ih after start left

end MacroScan

/-! ## The grammar -/

section

variable {host : SeclangHost}

open MacroPiece

/-- `compile` takes the texts that fall into accepted pieces, and makes the tokens of these. -/
theorem compileMacro_ok_iff {input : Bytes} {tokens : List MacroToken} :
    host.compileMacro input = .ok tokens ↔ input ≠ [] ∧ ∃ pieces, Accepted host pieces ∧
      writeMacro pieces = input ∧ pieces.flatMap (MacroPiece.tokens host) = tokens := by
  constructor
  · intro compiled
    rw [SeclangHost.compileMacro] at compiled
    split at compiled
    · cases compiled
    · next given =>
        obtain ⟨result, scanned, flushed⟩ := exceptBind_ok compiled
        cases flushed
        have start : MacroScan.Reads 0 {} input := by
          refine ⟨by simp, fun _ found => ?_⟩
          have short := found.length_le
          cases input <;> simp at short
        obtain ⟨pieces, accepted, written, same, -⟩ := MacroScan.explained_of_scan start scanned
        exact ⟨given, pieces, accepted, by simpa [MacroScan.pending] using written, same.symm⟩
  · rintro ⟨given, pieces, accepted, rfl, rfl⟩
    obtain ⟨result, scanned, same⟩ :=
      MacroScan.scan_accepted accepted 0 (s := {}) (fun _ _ _ => ⟨rfl, rfl⟩)
    rw [SeclangHost.compileMacro, if_neg given, scanned]
    exact congrArg Except.ok same

/-- Literal text without an opening, and references to known variables. -/
def MacroPiece.Valid (host : SeclangHost) : MacroPiece → Prop
  | text t => t ≠ [] ∧ ¬[byte '%', byte '{'] <:+: t
  | reference name key => ∃ v, v ≠ .unknown ∧ Refers host name key v
  | opened _ => False

/-- The grammar of macros.  No two literal texts are neighbours: they are one. -/
structure MacroGrammar (host : SeclangHost) (pieces : List MacroPiece) : Prop where
  valid : ∀ piece ∈ pieces, piece.Valid host
  apart : pieces.IsChain fun piece next => piece.isText = true → next.isText = false

def IsMacroText (host : SeclangHost) (input : Bytes) : Prop :=
  input ≠ [] ∧ ∃ pieces, MacroGrammar host pieces ∧ writeMacro pieces = input

def MacroToken.write (token : MacroToken) : Bytes :=
  if token.var = .unknown then token.text
  else byte '%' :: byte '{' :: token.text ++ [byte '}']

theorem MacroGrammar.tail {piece : MacroPiece} {rest : List MacroPiece}
    (grammar : MacroGrammar host (piece :: rest)) : MacroGrammar host rest :=
  ⟨fun one found => grammar.valid one (List.mem_cons_of_mem _ found), grammar.apart.tail⟩

theorem MacroGrammar.accepted {pieces : List MacroPiece} (grammar : MacroGrammar host pieces) :
    Accepted host pieces := by
  induction pieces with
  | nil => exact .nil
  | cons piece rest ih =>
    have valid := grammar.valid piece List.mem_cons_self
    have later := ih grammar.tail
    cases piece with
    | text t =>
      have next := (List.isChain_cons.mp grammar.apart).1
      exact .text valid.1 valid.2 (fun one first => next one first rfl) later
    | reference name key =>
      obtain ⟨v, -, refers⟩ := valid
      exact .reference refers later
    | opened inner => exact valid.elim

theorem MacroGrammar.write_tokens {pieces : List MacroPiece} (grammar : MacroGrammar host pieces) :
    (pieces.flatMap (MacroPiece.tokens host)).flatMap MacroToken.write = writeMacro pieces := by
  rw [List.flatMap_assoc, writeMacro]
  apply List.flatMap_congr
  intro piece found
  have valid := grammar.valid piece found
  cases piece with
  | text t => simp [MacroPiece.tokens, literalTokens, valid.1, MacroToken.write]
  | reference name key =>
    obtain ⟨v, known, refers⟩ := valid
    simp [MacroPiece.tokens, refers.known, MacroToken.write, known]
  | opened inner => exact valid.elim

theorem MacroPiece.Refers.inner_ne {name : Bytes} {key : Option Bytes} {v : RuleVariable}
    (refers : Refers host name key v) {c : UInt8} (found : c ∈ (reference name key).inner) :
    c ≠ byte '%' ∧ c ≠ byte '}' := by
  obtain ⟨percent, close, -⟩ :=
    MacroScan.char_ne_of_valid (List.all_eq_true.mp refers.inner_chars c found)
  exact ⟨percent, close⟩

/-- In a text of the grammar every opening is that of a reference. -/
theorem MacroGrammar.refers {pieces : List MacroPiece} (grammar : MacroGrammar host pieces)
    {before behind : Bytes} (written : writeMacro pieces = before ++ byte '%' :: byte '{' :: behind) :
    ∃ name key v after, v ≠ .unknown ∧ Refers host name key v ∧
      behind = (reference name key).inner ++ byte '}' :: after := by
  induction pieces generalizing before with
  | nil =>
    have same := congrArg List.length written
    simp [writeMacro] at same
  | cons piece rest ih =>
    have valid := grammar.valid piece List.mem_cons_self
    rw [writeMacro, List.flatMap_cons, ← writeMacro] at written
    rcases List.append_eq_append_iff.mp written with ⟨left, -, later⟩ | ⟨left, ends, starts⟩
    · exact ih grammar.tail later
    cases left with
    | nil =>
      have later : writeMacro rest = [] ++ byte '%' :: byte '{' :: behind := starts.symm
      exact ih grammar.tail later
    | cons first left =>
      obtain ⟨rfl, brace⟩ : byte '%' = first ∧ byte '{' :: behind = left ++ writeMacro rest :=
        List.cons.inj starts
      cases piece with
      | text t =>
        have next := (List.isChain_cons.mp grammar.apart).1
        cases left with
        | nil =>
          apply absurd _ (MacroScan.head_writeMacro fun one found => next one found rfl)
          rw [List.nil_append] at brace
          rw [← brace]
          rfl
        | cons second left =>
          obtain ⟨rfl, -⟩ := List.cons.inj brace
          exact absurd ⟨before, left, by rw [List.append_assoc]; exact ends.symm⟩ valid.2
      | reference name key =>
        obtain ⟨v, known, refers⟩ := valid
        cases before with
        | nil =>
          obtain ⟨-, rfl⟩ := List.cons.inj ends
          refine ⟨name, key, v, writeMacro rest, known, refers, ?_⟩
          simpa using brace
        | cons other before =>
          -- the bytes of a reference are no percent sign
          have same : byte '{' :: (reference name key).inner ++ [byte '}'] =
              before ++ byte '%' :: left := (List.cons.inj ends).2
          have inside : byte '%' ∈ byte '{' :: (reference name key).inner ++ [byte '}'] := by
            rw [same]
            simp
          have differs : byte '%' ≠ byte '{' ∧ byte '%' ≠ byte '}' := by decide
          exact absurd rfl (refers.inner_ne (by simpa [differs] using inside)).1
      | opened inner => exact valid.elim

theorem MacroGrammar.not_inside {pieces : List MacroPiece} (grammar : MacroGrammar host pieces)
    {before inner after : Bytes}
    (written : writeMacro pieces = before ++ byte '%' :: byte '{' :: inner ++ byte '%' :: after) :
    byte '}' ∈ inner := by
  rw [List.append_assoc, List.cons_append, List.cons_append] at written
  obtain ⟨name, key, v, rest, -, refers, behind⟩ := grammar.refers written
  rcases List.append_eq_append_iff.mp behind with ⟨left, ends, starts⟩ | ⟨left, rfl, starts⟩
  · cases left with
    | nil => exact absurd (List.cons.inj starts).1 (by decide)
    | cons c left =>
      obtain ⟨rfl, -⟩ := List.cons.inj starts
      exact absurd rfl (refers.inner_ne (by rw [ends]; simp)).1
  · cases left with
    | nil => exact absurd (List.cons.inj starts).1 (by decide)
    | cons c left =>
      obtain ⟨rfl, -⟩ := List.cons.inj starts
      simp

theorem MacroGrammar.of_accepted {pieces : List MacroPiece} (accepted : Accepted host pieces)
    (valid : ∀ piece ∈ pieces, piece.Valid host) : MacroGrammar host pieces := by
  refine ⟨valid, ?_⟩
  induction accepted with
  | nil => exact .nil
  | text given plain next later ih =>
    exact List.isChain_cons.mpr ⟨fun one first _ => next one first,
      ih fun piece found => valid piece (List.mem_cons_of_mem _ found)⟩
  | reference refers later ih =>
    exact List.isChain_cons.mpr ⟨fun one first marked => absurd marked Bool.false_ne_true,
      ih fun piece found => valid piece (List.mem_cons_of_mem _ found)⟩
  | opened chars next last later ih => exact (valid _ List.mem_cons_self).elim

/-- The tokens of a piece give it back, or less than it if it is left open or names the
placeholder. -/
theorem MacroPiece.write_tokens_length {pieces : List MacroPiece} (accepted : Accepted host pieces)
    {piece : MacroPiece} (found : piece ∈ pieces) :
    ((piece.tokens host).flatMap MacroToken.write).length ≤ piece.write.length ∧
      (((piece.tokens host).flatMap MacroToken.write).length = piece.write.length →
        piece.Valid host) := by
  induction accepted with
  | nil => cases found
  | @text t rest given plain next later ih =>
    rcases List.mem_cons.mp found with rfl | found
    · simp [MacroPiece.tokens, literalTokens, given, MacroToken.write, Valid, plain]
    · exact ih found
  | @reference name key v rest refers later ih =>
    rcases List.mem_cons.mp found with rfl | found
    · by_cases placeholder : v = .unknown
      · simp [MacroPiece.tokens, refers.known, MacroToken.write, placeholder]
        omega
      · exact ⟨by simp [MacroPiece.tokens, refers.known, MacroToken.write, placeholder],
          fun _ => ⟨v, placeholder, refers⟩⟩
    · exact ih found
  | @opened inner rest chars next last later ih =>
    rcases List.mem_cons.mp found with rfl | found
    · by_cases nothing : inner = []
      · simp [MacroPiece.tokens, literalTokens, nothing]
      · simp [MacroPiece.tokens, literalTokens, nothing, MacroToken.write]
        omega
    · exact ih found

theorem valid_of_write_tokens {pieces : List MacroPiece} (accepted : Accepted host pieces)
    (same : (pieces.flatMap (MacroPiece.tokens host)).flatMap MacroToken.write = writeMacro pieces) :
    ∀ piece ∈ pieces, piece.Valid host := by
  have each := fun (piece : MacroPiece) (found : piece ∈ pieces) => write_tokens_length accepted found
  have lengths : (pieces.map fun piece =>
      ((piece.tokens host).flatMap MacroToken.write).length).sum =
      (pieces.map fun piece => piece.write.length).sum := by
    rw [List.flatMap_assoc, writeMacro] at same
    simpa only [List.length_flatMap] using congrArg List.length same
  intro piece found
  refine (each piece found).2 ?_
  by_contra differs
  have shorter := Nat.lt_of_le_of_ne (each piece found).1 differs
  exact absurd lengths (Nat.ne_of_lt (List.sum_lt_sum _ _ (fun one listed => (each one listed).1)
    ⟨piece, found, shorter⟩))

/-- As `compile` reads the text, no reference is left open for another one or at the end, and
none names the placeholder `UNKNOWN`. -/
def ClosedReferences (host : SeclangHost) (input : Bytes) : Prop :=
  ∀ pieces, Accepted host pieces → writeMacro pieces = input → ∀ piece ∈ pieces, piece.Valid host

/-- `compile` takes the texts of the grammar, its tokens give the text back, and a reference that
is not closed or has an opening inside is an error. -/
structure CompilesExactly (host : SeclangHost) (input : Bytes) : Prop where
  accepts : (∃ tokens, host.compileMacro input = .ok tokens) ↔ IsMacroText host input
  tokens : ∀ tokens, host.compileMacro input = .ok tokens → tokens.flatMap MacroToken.write = input
  unclosed : ∀ before inner, input = before ++ byte '%' :: byte '{' :: inner → byte '}' ∉ inner →
    ∃ err, host.compileMacro input = .error err
  inside : ∀ before inner after,
    input = before ++ byte '%' :: byte '{' :: inner ++ byte '%' :: byte '{' :: after →
      byte '}' ∉ inner → ∃ err, host.compileMacro input = .error err

/-- The texts on which `compile` is exact are those it does not read with a reference left open or
one to the placeholder. -/
theorem compileMacro_grammar (host : SeclangHost) (input : Bytes) :
    CompilesExactly host input ↔ ClosedReferences host input := by
  constructor
  · intro exact pieces accepted written
    by_cases given : input = []
    · -- a piece writes something, so there is none
      intro piece found
      have nothing : piece.write = [] := by
        rw [given, writeMacro, List.flatMap_eq_nil_iff] at written
        exact written piece found
      have short := write_tokens_length accepted found
      exact short.2 (Nat.le_antisymm short.1 (by rw [nothing]; exact Nat.zero_le _))
    · have compiled := compileMacro_ok_iff.mpr ⟨given, pieces, accepted, written, rfl⟩
      exact valid_of_write_tokens accepted ((exact.tokens _ compiled).trans written.symm)
  · intro closed
    have grammar : ∀ tokens, host.compileMacro input = .ok tokens → input ≠ [] ∧ ∃ pieces,
        MacroGrammar host pieces ∧ writeMacro pieces = input ∧
          pieces.flatMap (MacroPiece.tokens host) = tokens := by
      intro tokens compiled
      obtain ⟨given, pieces, accepted, written, same⟩ := compileMacro_ok_iff.mp compiled
      exact ⟨given, pieces, .of_accepted accepted (closed pieces accepted written), written, same⟩
    refine ⟨⟨?_, ?_⟩, ?_, ?_, ?_⟩
    · rintro ⟨tokens, compiled⟩
      obtain ⟨given, pieces, valid, written, -⟩ := grammar tokens compiled
      exact ⟨given, pieces, valid, written⟩
    · rintro ⟨given, pieces, valid, written⟩
      exact ⟨_, compileMacro_ok_iff.mpr ⟨given, pieces, valid.accepted, written, rfl⟩⟩
    · intro tokens compiled
      obtain ⟨-, pieces, valid, written, rfl⟩ := grammar tokens compiled
      exact valid.write_tokens.trans written
    · intro before inner split unclosed
      cases compiled : host.compileMacro input with
      | error err => exact ⟨err, rfl⟩
      | ok tokens =>
        obtain ⟨-, pieces, valid, written, -⟩ := grammar tokens compiled
        obtain ⟨name, key, v, after, -, -, rfl⟩ := valid.refers (written.trans split)
        exact absurd (by simp) unclosed
    · intro before inner after split unclosed
      cases compiled : host.compileMacro input with
      | error err => exact ⟨err, rfl⟩
      | ok tokens =>
        obtain ⟨-, pieces, valid, written, -⟩ := grammar tokens compiled
        exact absurd (valid.not_inside (written.trans split)) unclosed

/-- A literal text and a reference. -/
theorem compileMacro_grammar_two :
    CompilesExactly SeclangHost.plain (str "a %\x7bTX.k\x7d") := by
  refine (compileMacro_grammar SeclangHost.plain _).mpr fun pieces accepted written => ?_
  have compiled : SeclangHost.plain.compileMacro (str "a %\x7bTX.k\x7d") =
      .ok [⟨str "a ", .unknown, []⟩, ⟨str "TX.k", .tx, str "k"⟩] := by
    decide +kernel
  have same := compileMacro_ok_iff.mpr ⟨by decide, pieces, accepted, written, rfl⟩
  refine valid_of_write_tokens accepted ?_
  rw [Except.ok.inj (same.symm.trans compiled), written]
  decide

/-- An opening at the end is lost, one inside a reference turns the outer one into literal text,
and `UNKNOWN` is taken for a variable. -/
theorem compileMacro_unclosed :
    let host := SeclangHost.plain
    (host.compileMacro (str "abc%\x7b") = .ok [⟨str "abc", .unknown, []⟩] ∧
      ¬CompilesExactly host (str "abc%\x7b")) ∧
    (host.compileMacro (str "%\x7btx.a%\x7btx.b\x7d") =
        .ok [⟨str "tx.a", .unknown, []⟩, ⟨str "tx.b", .tx, str "b"⟩] ∧
      ¬CompilesExactly host (str "%\x7btx.a%\x7btx.b\x7d")) ∧
    host.compileMacro (str "%\x7bunknown\x7d") = .ok [⟨str "unknown", .unknown, []⟩] ∧
      ¬CompilesExactly host (str "%\x7bunknown\x7d") := by
  intro host
  have atEnd : host.compileMacro (str "abc%\x7b") = .ok [⟨str "abc", .unknown, []⟩] := by
    decide +kernel
  have inside : host.compileMacro (str "%\x7btx.a%\x7btx.b\x7d") =
      .ok [⟨str "tx.a", .unknown, []⟩, ⟨str "tx.b", .tx, str "b"⟩] := by
    decide +kernel
  have placeholder : host.compileMacro (str "%\x7bunknown\x7d") =
      .ok [⟨str "unknown", .unknown, []⟩] := by
    decide +kernel
  -- none of the token lists gives its text back
  exact ⟨⟨atEnd, fun exact => absurd (exact.tokens _ atEnd) (by decide)⟩,
    ⟨inside, fun exact => absurd (exact.tokens _ inside) (by decide)⟩,
    placeholder, fun exact => absurd (exact.tokens _ placeholder) (by decide)⟩

end

end Obsidian
