import Obsidian.Transformations.Indexed

namespace Obsidian

open Obsidian.Data
open Obsidian.Transformations hiding none

/-! # Decoding what was encoded

The decoders of URLs undo `urlEncode` and agree with each other; `jsDecode` undoes the
escapes of JavaScript but the octal one.
-/

/-! ## URLs -/

/-- What a decoder makes of the bytes that `urlEncode` writes. -/
structure UndoesURL (piece : UInt8 → Bytes → Piece UInt8) : Prop where
  plus : ∀ rest, piece (byte '+') rest = { out := [byte ' '] }
  plain : ∀ b rest, isURLPlain b = true → piece b rest = { out := [b] }
  percent : ∀ high low rest, validHex high = true → validHex low = true →
    piece (byte '%') (high :: low :: rest) = { out := [x2c high low], count := 2 }

theorem isURLPlain_not_coded {b : UInt8} (plain : isURLPlain b = true) :
    isURLCoded b = false := by
  revert b
  apply Indexed.forall_byte
  decide +kernel

theorem percentPiece_valid {b high low : UInt8} (rest : Bytes) (validHigh : validHex high = true)
    (validLow : validHex low = true) :
    Indexed.percentPiece b (high :: low :: rest) = { out := [x2c high low], count := 2 } := by
  simp [Indexed.percentPiece, percentEscape, validHigh, validLow]

theorem urlPiece_undoes : UndoesURL Indexed.urlPiece where
  plus := fun _ => rfl
  plain := fun b rest plain => Indexed.urlPiece_plain b (isURLPlain_not_coded plain) rest
  percent := fun _ _ rest validHigh validLow => percentPiece_valid rest validHigh validLow

theorem uniPiece_undoes : UndoesURL Indexed.uniPiece where
  plus := fun rest => by cases rest <;> rfl
  plain := fun b rest plain => Indexed.uniPiece_plain b (isURLPlain_not_coded plain) rest
  percent := by
    intro high low rest validHigh validLow
    have notUnicode : Indexed.isUnicode high = false := by
      revert high
      apply Indexed.forall_byte
      decide +kernel
    simp only [Indexed.uniPiece, notUnicode, if_true, Bool.false_eq_true, if_false]
    exact percentPiece_valid rest validHigh validLow

theorem hexTable_valid (upper : Bool) {n : Nat} (below : n < 16) :
    validHex (hexTable upper n) = true := by
  have all : ∀ (upper : Bool) (n : Fin 16), validHex (hexTable upper n) = true := by decide
  exact all upper ⟨n, below⟩

theorem hexDigit_hexTable (upper : Bool) {n : Nat} (below : n < 16) :
    hexDigit (hexTable upper n) = UInt8.ofNat n := by
  have all : ∀ (upper : Bool) (n : Fin 16), hexDigit (hexTable upper n) = UInt8.ofNat n := by decide
  exact all upper ⟨n, below⟩

theorem x2c_hexTable (upperHigh upperLow : Bool) (b : UInt8) :
    x2c (hexTable upperHigh (b.toNat / 16)) (hexTable upperLow (b.toNat % 16)) = b := by
  have below : b.toNat < 256 := b.toNat_lt
  rw [x2c, hexDigit_hexTable upperHigh (by omega), hexDigit_hexTable upperLow (by omega)]
  apply UInt8.toNat_inj.mp
  simp
  omega

theorem rewrite_urlEncode {piece : UInt8 → Bytes → Piece UInt8} (undoes : UndoesURL piece)
    (s : Bytes) : (rewrite piece (urlEncode s).1).1 = s := by
  show (rewrite piece (urlEncodeLoop s).1).1 = s
  induction s with
  | nil => rfl
  | cons cc rest ih =>
    have below : cc.toNat < 256 := cc.toNat_lt
    by_cases space : cc = byte ' '
    · simp only [urlEncodeLoop, space, if_true, rewrite_cons, undoes.plus, List.drop_zero, ih]
      rfl
    · cases plain : isURLPlain cc with
      | true =>
        simp only [urlEncodeLoop, space, plain, if_true, if_false, rewrite_cons,
          undoes.plain cc _ plain, List.drop_zero, ih]
        rfl
      | false =>
        have high := hexTable_valid false (show cc.toNat / 16 < 16 by omega)
        have low := hexTable_valid false (show cc.toNat % 16 < 16 by omega)
        simp only [urlEncodeLoop, space, plain, Bool.false_eq_true, if_false, rewrite_cons,
          undoes.percent _ _ _ high low, x2c_hexTable, List.drop_succ_cons, List.drop_zero, ih]
        rfl

theorem notCoded_of_mem {data : Bytes} {b : UInt8} (plain : ¬data.any isURLCoded = true)
    (found : b ∈ data) : isURLCoded b = false := by
  rw [Bool.not_eq_true, List.any_eq_false] at plain
  simpa using plain b found

theorem urlDecode_fst (data : Bytes) :
    (Transformations.urlDecode data).1 = (rewrite Indexed.urlPiece data).1 := by
  rw [Transformations.urlDecode]
  split
  · exact Indexed.urlDecodeLoop_eq _ _
  · next plain =>
      rw [rewrite_copied]
      exact fun b found => Indexed.urlPiece_plain b (notCoded_of_mem plain found)

theorem urlDecodeUni_fst (data : Bytes) :
    (Transformations.urlDecodeUni data).1 = (rewrite Indexed.uniPiece data).1 := by
  rw [Transformations.urlDecodeUni]
  split
  · exact Indexed.uniDecodeLoop_eq _ _
  · next plain =>
      rw [rewrite_copied]
      exact fun b found => Indexed.uniPiece_plain b (notCoded_of_mem plain found)

/-- The two decoders differ at a percent sign with a `u` behind it only. -/
theorem urlPiece_eq_uniPiece {b : UInt8} {rest : Bytes}
    (noUnicode : ∀ next later, rest = next :: later → b = byte '%' → Indexed.isUnicode next = false) :
    Indexed.urlPiece b rest = Indexed.uniPiece b rest := by
  by_cases percent : b = byte '%'
  · cases rest with
    | nil => simp [Indexed.urlPiece, Indexed.uniPiece, percent, Indexed.percentPiece, percentEscape]
    | cons next later =>
      simp [Indexed.urlPiece, Indexed.uniPiece, percent, noUnicode next later rfl percent]
  · cases rest <;> simp [Indexed.urlPiece, Indexed.uniPiece, percent]

theorem rewrite_noUnicode {t : Bytes} (lower : ¬str "%u" <:+: t) (upper : ¬str "%U" <:+: t) :
    rewrite Indexed.urlPiece t = rewrite Indexed.uniPiece t := by
  apply rewrite_congr
  intro i b rest here
  apply urlPiece_eq_uniPiece
  rintro next later rfl rfl
  have inside : [byte '%', next] <:+: t := by
    refine List.IsInfix.trans ?_ (List.drop_suffix i t).isInfix
    rw [here]
    exact ⟨[], later, rfl⟩
  by_contra unicode
  simp only [Indexed.isUnicode, decide_eq_true_eq, Bool.not_eq_false] at unicode
  rcases unicode with rfl | rfl
  · exact lower inside
  · exact upper inside

theorem urlDecode_eq_urlDecodeUni {t : Bytes} (lower : ¬str "%u" <:+: t) (upper : ¬str "%U" <:+: t) :
    Transformations.urlDecode t = Transformations.urlDecodeUni t := by
  have same : urlDecodeLoop t.length t = uniDecodeLoop t.length t := by
    rw [Indexed.urlDecodeLoop_eq, Indexed.uniDecodeLoop_eq]
    exact congrArg Prod.fst (rewrite_noUnicode lower upper)
  rw [Transformations.urlDecode, Transformations.urlDecodeUni, same]

theorem urlPiece_length (b : UInt8) (rest : Bytes) : (Indexed.urlPiece b rest).out.length = 1 := by
  rw [Indexed.urlPiece, Indexed.percentPiece]
  repeat' split
  all_goals rfl

theorem uniPiece_length (b : UInt8) (rest : Bytes) :
    (Indexed.uniPiece b rest).out.length ≤ 1 + min (Indexed.uniPiece b rest).count rest.length := by
  rw [Indexed.uniPiece.eq_def]
  split
  · split
    · exact Nat.le_add_right _ _
    · rw [Indexed.unicodePiece, Indexed.percentPiece]
      repeat' split
      all_goals simp
  · exact Nat.le_add_right _ _

theorem jsPiece_length (b : UInt8) (rest : Bytes) : (Indexed.jsPiece b rest).out.length = 1 := by
  rw [Indexed.jsPiece]
  repeat' split
  all_goals rfl

theorem rewrite_urlPiece_length (t : Bytes) : (rewrite Indexed.urlPiece t).1.length ≤ t.length :=
  length_rewrite_le (fun b rest => by rw [urlPiece_length]; exact Nat.le_add_right _ _) t

/-- The decoders of URLs undo `urlEncode`, agree where they should, end with every index
in range, and do not lengthen. -/
theorem urlDecoders_agree (s t : Bytes) :
    (Indexed.urlDecode (urlEncode s).1).map Prod.fst = some s ∧
      (Indexed.urlDecodeUni (urlEncode s).1).map Prod.fst = some s ∧
      Indexed.queryUnescape t = (Indexed.urlDecode t).map Prod.fst ∧
      (¬str "%u" <:+: t ∧ ¬str "%U" <:+: t → Indexed.urlDecode t = Indexed.urlDecodeUni t) ∧
      ∃ decoded uniDecoded,
        (Indexed.urlDecode t).map Prod.fst = some decoded ∧ decoded.length ≤ t.length ∧
        (Indexed.urlDecodeUni t).map Prod.fst = some uniDecoded ∧ uniDecoded.length ≤ t.length ∧
        Indexed.queryUnescape t = some (Url.queryUnescape t) ∧
        (Url.queryUnescape t).length ≤ t.length := by
  have decodes : ∀ data, (Indexed.urlDecode data).map Prod.fst =
      some (rewrite Indexed.urlPiece data).1 := by
    intro data
    rw [Indexed.urlDecode_eq, Option.map_some, urlDecode_fst]
  have uniDecodes : ∀ data, (Indexed.urlDecodeUni data).map Prod.fst =
      some (rewrite Indexed.uniPiece data).1 := by
    intro data
    rw [Indexed.urlDecodeUni_eq, Option.map_some, urlDecodeUni_fst]
  rw [Indexed.url_queryUnescape_eq]
  refine ⟨?_, ?_, ?_, ?_, _, _, decodes t, rewrite_urlPiece_length t, uniDecodes t,
    length_rewrite_le uniPiece_length t, Indexed.queryUnescape_eq t, rewrite_urlPiece_length t⟩
  · rw [decodes, rewrite_urlEncode urlPiece_undoes]
  · rw [uniDecodes, rewrite_urlEncode uniPiece_undoes]
  · rw [decodes, Indexed.queryUnescape_eq]
  · rintro ⟨lower, upper⟩
    rw [Indexed.urlDecode_eq, Indexed.urlDecodeUni_eq, urlDecode_eq_urlDecodeUni lower upper]

/-! ## JavaScript -/

inductive JsForm where
  | plain
  | hex (upperHigh upperLow : Bool)
  | unicode (upperHigh upperLow : Bool)
  | octal
deriving DecidableEq, Repr

namespace JsForm

def hexDigits (b : UInt8) (upperHigh upperLow : Bool) : Bytes :=
  [hexTable upperHigh (b.toNat / 16), hexTable upperLow (b.toNat % 16)]

def octalDigit (n : Nat) : UInt8 := UInt8.ofNat (48 + n)

def write (b : UInt8) : JsForm → Bytes
  | plain => [b]
  | hex upperHigh upperLow => str "\\x" ++ hexDigits b upperHigh upperLow
  | unicode upperHigh upperLow => str "\\u00" ++ hexDigits b upperHigh upperLow
  | octal =>
    [byte '\\', octalDigit (b.toNat / 64), octalDigit (b.toNat / 8 % 8), octalDigit (b.toNat % 8)]

def read (b : UInt8) : JsForm → Bytes
  | octal => [0, octalDigit (b.toNat % 8)]
  | _ => [b]

end JsForm

abbrev JsChoice := List (UInt8 × JsForm)

namespace JsChoice

def text (choice : JsChoice) : Bytes := choice.map Prod.fst

def write (choice : JsChoice) : Bytes := choice.flatMap fun (b, form) => form.write b

/-- A backslash is not written plainly. -/
def Allowed (choice : JsChoice) : Prop := (byte '\\', JsForm.plain) ∉ choice

instance (choice : JsChoice) : Decidable choice.Allowed := inferInstanceAs (Decidable (_ ∉ _))

end JsChoice

section

variable {high low : UInt8} (rest : Bytes)

theorem jsPiece_hex (validHigh : validHex high = true) (validLow : validHex low = true) :
    Indexed.jsPiece (byte '\\') (byte 'x' :: high :: low :: rest) =
      { out := [x2c high low], count := 3, changed := true } := by
  have escape : jsEscape (byte 'x' :: high :: low :: rest) = some (x2c high low, 3) := by
    simp [jsEscape, validHigh, validLow, show byte 'x' ≠ byte 'u' by decide]
  simp only [Indexed.jsPiece, escape, if_true]

theorem jsPiece_unicode (validHigh : validHex high = true) (validLow : validHex low = true) :
    Indexed.jsPiece (byte '\\') (byte 'u' :: byte '0' :: byte '0' :: high :: low :: rest) =
      { out := [x2c high low], count := 5, changed := true } := by
  have zero : validHex (byte '0') = true := by decide
  have escape : jsEscape (byte 'u' :: byte '0' :: byte '0' :: high :: low :: rest) =
      some (x2c high low, 5) := by
    simp [jsEscape, validHigh, validLow, zero, fullWidth, show byte '0' ≠ byte 'f' by decide,
      show byte '0' ≠ byte 'F' by decide]
  simp only [Indexed.jsPiece, escape, if_true]

theorem jsPiece_octal {first second : UInt8} (octal : isOctal first = true) :
    Indexed.jsPiece (byte '\\') (first :: second :: rest) =
      { out := [0], count := 2, changed := true } := by
  have noLetter : first ≠ byte 'u' ∧ first ≠ byte 'x' := by
    constructor <;> rintro rfl <;> revert octal <;> decide
  have escape : jsEscape (first :: second :: rest) = some (0, 2) := by
    simp [jsEscape, noLetter.1, noLetter.2, octal, jsOctalLength]
  simp only [Indexed.jsPiece, escape, if_true]

end

theorem isOctal_octalDigit {n : Nat} (below : n < 8) : isOctal (JsForm.octalDigit n) = true := by
  have all : ∀ n : Fin 8, isOctal (JsForm.octalDigit n) = true := by decide
  exact all ⟨n, below⟩

theorem notBackslash_of_isOctal {b : UInt8} (octal : isOctal b = true) : b ≠ byte '\\' := by
  rintro rfl
  revert octal
  decide

/-- The last digit of an octal escape is left over and copied. -/
theorem rewrite_write (b : UInt8) (form : JsForm) (allowed : ¬(b = byte '\\' ∧ form = .plain))
    (rest : Bytes) :
    (rewrite Indexed.jsPiece (form.write b ++ rest)).1 =
      form.read b ++ (rewrite Indexed.jsPiece rest).1 := by
  have below : b.toNat < 256 := b.toNat_lt
  have high : ∀ upper, validHex (hexTable upper (b.toNat / 16)) = true := fun upper =>
    hexTable_valid upper (by omega)
  have low : ∀ upper, validHex (hexTable upper (b.toNat % 16)) = true := fun upper =>
    hexTable_valid upper (by omega)
  have copies : ∀ c rest, c ≠ byte '\\' →
      (rewrite Indexed.jsPiece (c :: rest)).1 = c :: (rewrite Indexed.jsPiece rest).1 := by
    intro c rest plain
    rw [rewrite_cons, Indexed.jsPiece_plain c (decide_eq_false plain)]
    rfl
  cases form with
  | plain => exact copies b rest fun backslash => allowed ⟨backslash, rfl⟩
  | hex upperHigh upperLow =>
    have piece := jsPiece_hex rest (high upperHigh) (low upperLow)
    rw [x2c_hexTable] at piece
    show (rewrite Indexed.jsPiece (byte '\\' :: byte 'x' :: _ :: _ :: rest)).1 = _
    rw [rewrite_cons, piece]
    rfl
  | unicode upperHigh upperLow =>
    have piece := jsPiece_unicode rest (high upperHigh) (low upperLow)
    rw [x2c_hexTable] at piece
    show (rewrite Indexed.jsPiece
      (byte '\\' :: byte 'u' :: byte '0' :: byte '0' :: _ :: _ :: rest)).1 = _
    rw [rewrite_cons, piece]
    rfl
  | octal =>
    have first := isOctal_octalDigit (show b.toNat / 64 < 8 by omega)
    have last := isOctal_octalDigit (show b.toNat % 8 < 8 by omega)
    show (rewrite Indexed.jsPiece (byte '\\' :: _ :: _ :: _ :: rest)).1 = _
    rw [rewrite_cons, jsPiece_octal _ first]
    exact congrArg (0 :: ·) (copies _ rest (notBackslash_of_isOctal last))

namespace JsForm

theorem read_of_ne_octal {form : JsForm} (b : UInt8) (other : form ≠ .octal) : form.read b = [b] := by
  cases form with
  | octal => exact absurd rfl other
  | _ => rfl

theorem length_read (b : UInt8) (form : JsForm) :
    (form.read b).length = if form = .octal then 2 else 1 := by
  cases form <;> rfl

end JsForm

namespace JsChoice

def read (choice : JsChoice) : Bytes := choice.flatMap fun (b, form) => form.read b

/-- Every octal escape leaves one byte too many. -/
theorem length_read (choice : JsChoice) :
    choice.read.length = choice.length + (choice.filter (·.2 = .octal)).length := by
  induction choice with
  | nil => rfl
  | cons head rest ih =>
    have lengths : (read (head :: rest)).length = (head.2.read head.1).length + (read rest).length :=
      List.length_append
    rw [lengths, ih, JsForm.length_read, List.filter_cons]
    by_cases octal : head.2 = .octal
    · simp [octal]
      omega
    · simp [octal]
      omega

theorem read_eq_text_iff (choice : JsChoice) :
    choice.read = choice.text ↔ ∀ entry ∈ choice, entry.2 ≠ .octal := by
  constructor
  · intro same entry found octal
    have lengths := congrArg List.length same
    rw [length_read, text, List.length_map] at lengths
    have none : choice.filter (·.2 = .octal) = [] := List.eq_nil_of_length_eq_zero (by omega)
    exact List.filter_eq_nil_iff.mp none entry found (decide_eq_true octal)
  · intro noOctal
    induction choice with
    | nil => rfl
    | cons head rest ih =>
      obtain ⟨here, later⟩ := List.forall_mem_cons.mp noOctal
      have first : head.2.read head.1 = [head.1] := JsForm.read_of_ne_octal head.1 here
      show head.2.read head.1 ++ read rest = head.1 :: text rest
      rw [first, ih later]
      rfl

end JsChoice

theorem rewrite_choice {choice : JsChoice} (allowed : choice.Allowed) :
    (rewrite Indexed.jsPiece choice.write).1 = choice.read := by
  induction choice with
  | nil => rfl
  | cons head rest ih =>
    obtain ⟨b, form⟩ := head
    have here : ¬(b = byte '\\' ∧ form = .plain) := by
      rintro ⟨rfl, rfl⟩
      exact allowed List.mem_cons_self
    have later : JsChoice.Allowed rest := fun found => allowed (List.mem_cons_of_mem _ found)
    show (rewrite Indexed.jsPiece (form.write b ++ JsChoice.write rest)).1 = _
    rw [rewrite_write b form here, ih later]
    rfl

theorem jsDecode_fst (data : Bytes) :
    (Transformations.jsDecode data).1 = (rewrite Indexed.jsPiece data).1 := by
  rw [Transformations.jsDecode]
  split
  · exact congrArg Prod.fst (Indexed.jsDecodeLoop_eq _ _)
  · next plain =>
      rw [rewrite_copied]
      intro b found
      exact Indexed.jsPiece_plain b (decide_eq_false fun same => plain (same ▸ found))

theorem jsDecode_noError (data : Bytes) : (Transformations.jsDecode data).2.2 = none := by
  rw [Transformations.jsDecode]
  split <;> rfl

/-- `jsDecode` undoes a choice of escapes exactly if none of them is octal; on every input
it ends with all its indices in range. -/
theorem jsDecode_write {choice : JsChoice} (allowed : choice.Allowed) (data : Bytes) :
    ((Indexed.jsDecode choice.write).map Prod.fst = some choice.text ↔
        ∀ entry ∈ choice, entry.2 ≠ .octal) ∧
      ∃ decoded changed, Indexed.jsDecode data = some (decoded, changed, none) ∧
        decoded.length ≤ data.length := by
  constructor
  · rw [Indexed.jsDecode_eq, Option.map_some, jsDecode_fst, rewrite_choice allowed, Option.some_inj]
    exact choice.read_eq_text_iff
  · have shorter : (rewrite Indexed.jsPiece data).1.length ≤ data.length :=
      length_rewrite_le (fun b rest => by rw [jsPiece_length]; exact Nat.le_add_right _ _) data
    rw [Indexed.jsDecode_eq]
    refine ⟨_, (Transformations.jsDecode data).2.1, ?_, shorter⟩
    rw [← jsDecode_fst, ← jsDecode_noError data]

/-- `C` written as `\103` is read as a zero byte and a `3`. -/
theorem jsDecode_octal :
    JsChoice.Allowed [(byte 'C', .octal)] ∧ JsChoice.write [(byte 'C', .octal)] = str "\\103" ∧
      JsChoice.text [(byte 'C', .octal)] = str "C" ∧
      (Indexed.jsDecode (str "\\103")).map Prod.fst = some [0, byte '3'] := by
  decide

theorem jsDecode_write_mixed :
    (Indexed.jsDecode (str "a\\x5C\\u00e9")).map Prod.fst = some [byte 'a', 92, 233] :=
  (@jsDecode_write [(byte 'a', .plain), (92, .hex false true), (233, .unicode false false)]
    (by decide) []).1.mpr (by decide)

end Obsidian
