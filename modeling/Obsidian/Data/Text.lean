import Obsidian.Data.Bytes

namespace Obsidian.Data

/-! # Text

The part of `strings`, `unicode` and `unicode/utf8` that works on the bytes of a
text: runes, white space, cutting and trimming.
-/

def byte (c : Char) : UInt8 := UInt8.ofNat c.toNat

/-! ## Runes -/

structure Rune where
  code : Nat
  bytes : Bytes
deriving DecidableEq, Repr

def runeError : Nat := 0xFFFD

def isContinuation (b : UInt8) : Bool := 0x80 ≤ b ∧ b ≤ 0xBF

/-- `utf8.DecodeRune` of `b0 :: rest`: the rune and its width.  What is not the
shortest encoding of a scalar value has width 1. -/
def decodeRune (b0 : UInt8) (rest : Bytes) : Nat × Nat :=
  -- a byte that is missing reads as one that does not continue
  let b1 := rest.getD 0 0
  let b2 := rest.getD 1 0
  let b3 := rest.getD 2 0
  if b0 < 0x80 then (b0.toNat, 1)
  else if 0xC2 ≤ b0 ∧ b0 ≤ 0xDF ∧ isContinuation b1 then
    ((b0.toNat - 0xC0) * 64 + (b1.toNat - 0x80), 2)
  else if 0xE0 ≤ b0 ∧ b0 ≤ 0xEF ∧ isContinuation b1 ∧ isContinuation b2 ∧
      (b0 = 0xE0 → 0xA0 ≤ b1) ∧ (b0 = 0xED → b1 ≤ 0x9F) then
    ((b0.toNat - 0xE0) * 4096 + (b1.toNat - 0x80) * 64 + (b2.toNat - 0x80), 3)
  else if 0xF0 ≤ b0 ∧ b0 ≤ 0xF4 ∧ isContinuation b1 ∧ isContinuation b2 ∧ isContinuation b3 ∧
      (b0 = 0xF0 → 0x90 ≤ b1) ∧ (b0 = 0xF4 → b1 ≤ 0x8F) then
    ((b0.toNat - 0xF0) * 262144 + (b1.toNat - 0x80) * 4096 + (b2.toNat - 0x80) * 64 +
      (b3.toNat - 0x80), 4)
  else (runeError, 1)

def runesFrom : Nat → Bytes → List Rune
  | fuel + 1, b :: rest =>
    let (code, width) := decodeRune b rest
    ⟨code, (b :: rest).take width⟩ :: runesFrom fuel ((b :: rest).drop width)
  | _, _ => []

def runes (text : Bytes) : List Rune := runesFrom text.length text

def encodeRune (r : Nat) : Bytes :=
  if r < 0x80 then [UInt8.ofNat r]
  else if r < 0x800 then [UInt8.ofNat (0xC0 + r / 64), UInt8.ofNat (0x80 + r % 64)]
  else if 0xD800 ≤ r ∧ r ≤ 0xDFFF ∨ 0x10FFFF < r then [0xEF, 0xBF, 0xBD]
  else if r < 0x10000 then
    [UInt8.ofNat (0xE0 + r / 4096), UInt8.ofNat (0x80 + r / 64 % 64), UInt8.ofNat (0x80 + r % 64)]
  else
    [UInt8.ofNat (0xF0 + r / 262144), UInt8.ofNat (0x80 + r / 4096 % 64),
      UInt8.ofNat (0x80 + r / 64 % 64), UInt8.ofNat (0x80 + r % 64)]

def Rune.valid (r : Rune) : Bool := !(r.code == runeError && r.bytes.length == 1)

def validString (text : Bytes) : Bool := (runes text).all Rune.valid

/-- `strings.Map`; `none` drops the rune. -/
def mapRunes (mapping : Nat → Option Nat) (text : Bytes) : Bytes :=
  (runes text).flatMap fun r => (mapping r.code).elim [] encodeRune

example : runes [0x61, 0xC3, 0xA9, 0xFF] = [⟨0x61, [0x61]⟩, ⟨0xE9, [0xC3, 0xA9]⟩, ⟨runeError, [0xFF]⟩] := by
  decide

theorem isContinuation_iff {b : UInt8} :
    isContinuation b = true ↔ 0x80 ≤ b.toNat ∧ b.toNat ≤ 0xBF := by
  simp [isContinuation, UInt8.le_iff_toNat_le]

theorem ofNat_eq {n : Nat} {b : UInt8} (same : n = b.toNat) : UInt8.ofNat n = b := by
  rw [same, UInt8.ofNat_toNat]

theorem getD_continues {rest : Bytes} {index : Nat}
    (continues : isContinuation (rest.getD index 0) = true) : index < rest.length := by
  by_cases inside : index < rest.length
  · exact inside
  · have missing : rest.getD index 0 = 0 := by simp [Nat.le_of_not_lt inside]
    rw [missing] at continues
    cases continues

theorem encodeRune_two {b0 b1 : UInt8} {r : Nat} (low : 0xC2 ≤ b0.toNat) (high : b0.toNat ≤ 0xDF)
    (next : isContinuation b1 = true) (code : r = (b0.toNat - 0xC0) * 64 + (b1.toNat - 0x80)) :
    encodeRune r = [b0, b1] := by
  rw [isContinuation_iff] at next
  have upper : 0xC0 + r / 64 = b0.toNat := by omega
  have lower : 0x80 + r % 64 = b1.toNat := by omega
  rw [encodeRune, if_neg (by omega), if_pos (by omega), ofNat_eq upper, ofNat_eq lower]

theorem encodeRune_three {b0 b1 b2 : UInt8} {r : Nat} (low : 0xE0 ≤ b0.toNat)
    (high : b0.toNat ≤ 0xEF) (next : isContinuation b1 = true) (last : isContinuation b2 = true)
    (shortest : b0.toNat = 0xE0 → 0xA0 ≤ b1.toNat) (scalar : b0.toNat = 0xED → b1.toNat ≤ 0x9F)
    (code : r = (b0.toNat - 0xE0) * 4096 + (b1.toNat - 0x80) * 64 + (b2.toNat - 0x80)) :
    encodeRune r = [b0, b1, b2] := by
  rw [isContinuation_iff] at next last
  have upper : 0xE0 + r / 4096 = b0.toNat := by omega
  have middle : 0x80 + r / 64 % 64 = b1.toNat := by omega
  have lower : 0x80 + r % 64 = b2.toNat := by omega
  rw [encodeRune, if_neg (by omega), if_neg (by omega), if_neg (by omega), if_pos (by omega),
    ofNat_eq upper, ofNat_eq middle, ofNat_eq lower]

theorem encodeRune_four {b0 b1 b2 b3 : UInt8} {r : Nat} (low : 0xF0 ≤ b0.toNat)
    (high : b0.toNat ≤ 0xF4) (next : isContinuation b1 = true) (third : isContinuation b2 = true)
    (last : isContinuation b3 = true) (shortest : b0.toNat = 0xF0 → 0x90 ≤ b1.toNat)
    (scalar : b0.toNat = 0xF4 → b1.toNat ≤ 0x8F)
    (code : r = (b0.toNat - 0xF0) * 262144 + (b1.toNat - 0x80) * 4096 + (b2.toNat - 0x80) * 64 +
      (b3.toNat - 0x80)) :
    encodeRune r = [b0, b1, b2, b3] := by
  rw [isContinuation_iff] at next third last
  have upper : 0xF0 + r / 262144 = b0.toNat := by omega
  have second : 0x80 + r / 4096 % 64 = b1.toNat := by omega
  have middle : 0x80 + r / 64 % 64 = b2.toNat := by omega
  have lower : 0x80 + r % 64 = b3.toNat := by omega
  rw [encodeRune, if_neg (by omega), if_neg (by omega), if_neg (by omega), if_neg (by omega),
    ofNat_eq upper, ofNat_eq second, ofNat_eq middle, ofNat_eq lower]

/-- A rune that decodes spans its encoding; one that does not is a single byte. -/
theorem decodeRune_spec (b0 : UInt8) (rest : Bytes) :
    decodeRune b0 rest = (runeError, 1) ∨
      (b0 :: rest).take (decodeRune b0 rest).2 = encodeRune (decodeRune b0 rest).1 := by
  generalize decoded : decodeRune b0 rest = result
  simp only [decodeRune] at decoded
  split at decoded
  · next ascii =>
      subst decoded
      have code : b0.toNat < 0x80 := ascii
      exact .inr (by simp [encodeRune, code])
  · split at decoded
    · next two =>
        subst decoded
        obtain ⟨low, high, next⟩ := two
        obtain ⟨b1, rest, rfl⟩ := List.exists_cons_of_length_pos (getD_continues next)
        exact .inr (encodeRune_two low high next rfl).symm
    · split at decoded
      · next three =>
          subst decoded
          obtain ⟨low, high, next, last, shortest, scalar⟩ := three
          match rest, getD_continues last with
          | b1 :: b2 :: rest, _ =>
            exact .inr (encodeRune_three low high next last
              (fun lead => shortest (UInt8.toNat_inj.mp lead))
              (fun lead => scalar (UInt8.toNat_inj.mp lead)) rfl).symm
      · split at decoded
        · next four =>
            subst decoded
            obtain ⟨low, high, next, third, last, shortest, scalar⟩ := four
            match rest, getD_continues last with
            | b1 :: b2 :: b3 :: rest, _ =>
              exact .inr (encodeRune_four low high next third last
                (fun lead => shortest (UInt8.toNat_inj.mp lead))
                (fun lead => scalar (UInt8.toNat_inj.mp lead)) rfl).symm
        · exact .inl decoded.symm

theorem decodeRune_width (b0 : UInt8) (rest : Bytes) : 0 < (decodeRune b0 rest).2 := by
  simp only [decodeRune]
  repeat' split
  all_goals exact Nat.succ_pos _

theorem runesFrom_bytes {fuel : Nat} {text : Bytes} (enough : text.length ≤ fuel) :
    (runesFrom fuel text).flatMap Rune.bytes = text := by
  induction fuel generalizing text with
  | zero => rw [List.length_eq_zero_iff.mp (Nat.le_zero.mp enough)]; rfl
  | succ fuel ih =>
    cases text with
    | nil => rfl
    | cons b rest =>
      have width := decodeRune_width b rest
      simp only [runesFrom, List.flatMap_cons]
      rw [ih (by simp only [List.length_drop, List.length_cons] at *; omega),
        List.take_append_drop]

theorem runes_bytes (text : Bytes) : (runes text).flatMap Rune.bytes = text :=
  runesFrom_bytes (Nat.le_refl _)

def Rune.Encodes (r : Rune) : Prop := r.valid = true → encodeRune r.code = r.bytes

theorem runesFrom_encodes (fuel : Nat) (text : Bytes) : ∀ r ∈ runesFrom fuel text, r.Encodes := by
  induction fuel generalizing text with
  | zero => intro r found; cases found
  | succ fuel ih =>
    cases text with
    | nil => intro r found; cases found
    | cons b rest =>
      intro r found
      simp only [runesFrom, List.mem_cons] at found
      rcases found with first | later
      · subst first
        intro valid
        rcases decodeRune_spec b rest with bad | spans
        · rw [bad] at valid
          cases valid
        · exact spans.symm
      · exact ih _ r later

theorem encodes_length {rs : List Rune} (encodes : ∀ r ∈ rs, r.Encodes) :
    (rs.flatMap Rune.bytes).length ≤ (rs.flatMap fun r => encodeRune r.code).length ∧
      ((∃ r ∈ rs, r.valid = false) →
        (rs.flatMap Rune.bytes).length < (rs.flatMap fun r => encodeRune r.code).length) := by
  induction rs with
  | nil => simp
  | cons r rest ih =>
    obtain ⟨atMost, fewer⟩ := ih fun r found => encodes r (List.mem_cons_of_mem _ found)
    simp only [List.flatMap_cons, List.length_append]
    cases valid : r.valid with
    | true =>
      rw [encodes r List.mem_cons_self valid]
      refine ⟨by omega, ?_⟩
      rintro ⟨bad, found, invalid⟩
      rcases List.mem_cons.mp found with rfl | later
      · rw [valid] at invalid
        cases invalid
      · have := fewer ⟨bad, later, invalid⟩
        omega
    | false =>
      simp only [Rune.valid, Bool.not_eq_false', Bool.and_eq_true, beq_iff_eq] at valid
      have three : (encodeRune r.code).length = 3 := by rw [valid.1]; rfl
      exact ⟨by omega, fun _ => by omega⟩

theorem mapRunes_self {mapping : Nat → Option Nat} {text : Bytes}
    (same : ∀ r ∈ runes text, mapping r.code = some r.code) :
    mapRunes mapping text = (runes text).flatMap fun r => encodeRune r.code := by
  apply List.flatMap_congr
  intro r found
  rw [same r found]
  rfl

/-- A mapping that keeps every rune keeps a valid text and lengthens any other. -/
theorem mapRunes_eq_self_iff {mapping : Nat → Option Nat} {text : Bytes}
    (same : ∀ r ∈ runes text, mapping r.code = some r.code) :
    mapRunes mapping text = text ↔ validString text = true := by
  have encodes := runesFrom_encodes text.length text
  rw [mapRunes_self same]
  constructor
  · intro equal
    by_contra invalid
    simp only [validString, List.all_eq_true, not_forall, Bool.not_eq_true] at invalid
    obtain ⟨r, found, bad⟩ := invalid
    have longer := (encodes_length encodes).2 ⟨r, found, bad⟩
    rw [show (runesFrom text.length text).flatMap Rune.bytes = text from runes_bytes text] at longer
    exact absurd (congrArg List.length equal) (Nat.ne_of_gt longer)
  · intro valid
    simp only [validString, List.all_eq_true] at valid
    calc (runes text).flatMap (fun r => encodeRune r.code)
        = (runes text).flatMap Rune.bytes :=
          List.flatMap_congr fun r found => encodes r found (valid r found)
      _ = text := runes_bytes text

/-! ## White space -/

def isSpace (r : Nat) : Bool :=
  (9 ≤ r ∧ r ≤ 13) ∨ r = 0x20 ∨ r = 0x85 ∨ r = 0xA0 ∨ r = 0x1680 ∨ (0x2000 ≤ r ∧ r ≤ 0x200A) ∨
    r = 0x2028 ∨ r = 0x2029 ∨ r = 0x202F ∨ r = 0x205F ∨ r = 0x3000

/-- `strings.TrimSpace`.  A white space rune at the end is told from its bytes, so
reading the runes backwards gives the same ones. -/
def trimSpace (text : Bytes) : Bytes :=
  let body := (runes text).dropWhile fun r => isSpace r.code
  (body.reverse.dropWhile fun r => isSpace r.code).reverse.flatMap Rune.bytes

def fieldsFrom : List Rune → Bytes → List Bytes
  | [], field => if field = [] then [] else [field]
  | r :: rest, field =>
    if isSpace r.code then
      if field = [] then fieldsFrom rest [] else field :: fieldsFrom rest []
    else fieldsFrom rest (field ++ r.bytes)

def fields (text : Bytes) : List Bytes := fieldsFrom (runes text) []

example : trimSpace (str "\t a b \r") = str "a b" := by decide
example : fields (str " 1  2-5 ARGS ") = [str "1", str "2-5", str "ARGS"] := by decide

/-! ## Cutting and trimming -/

def trimLeft (cutset : Bytes) (text : Bytes) : Bytes := text.dropWhile cutset.contains

def trimRight (cutset : Bytes) (text : Bytes) : Bytes :=
  (text.reverse.dropWhile cutset.contains).reverse

def trim (cutset : Bytes) (text : Bytes) : Bytes := trimRight cutset (trimLeft cutset text)

/-- `strings.Cut` at a one-byte separator; `none` if it is not there. -/
def cut (sep : UInt8) (text : Bytes) : Option (Bytes × Bytes) :=
  (text.idxOf? sep).map fun index => (text.take index, text.drop (index + 1))

theorem trimLeft_length {cutset text : Bytes}
    (same : (trimLeft cutset text).length = text.length) : trimLeft cutset text = text :=
  (List.dropWhile_suffix _).eq_of_length same

theorem trimRight_length {cutset text : Bytes}
    (same : (trimRight cutset text).length = text.length) : trimRight cutset text = text := by
  simp only [trimRight, List.length_reverse] at same ⊢
  rw [(List.dropWhile_suffix _).eq_of_length (same.trans text.length_reverse.symm),
    List.reverse_reverse]

theorem trim_length {cutset text : Bytes} (same : (trim cutset text).length = text.length) :
    trim cutset text = text := by
  have right : (trim cutset text).length ≤ (trimLeft cutset text).length := by
    simpa [trim, trimRight] using
      (List.dropWhile_suffix cutset.contains (l := (trimLeft cutset text).reverse)).length_le
  have left : (trimLeft cutset text).length ≤ text.length := (List.dropWhile_suffix _).length_le
  have kept : trimLeft cutset text = text := trimLeft_length (by omega)
  rw [trim, kept] at same ⊢
  exact trimRight_length same

/-! ## Paths -/

def cleanElement (rooted : Bool) (path : List Bytes) (element : Bytes) : List Bytes :=
  if element = [] ∨ element = str "." then path
  else if element = str ".." then
    match path with
    | last :: rest => if last = str ".." then element :: path else rest
    | [] => if rooted then [] else [element]
  else element :: path

/-- `path.Clean`, its elements pushed on a stack. -/
def cleanPath (path : Bytes) : Bytes :=
  let rooted := path.head? == some (byte '/')
  let stack := (path.splitOn (byte '/')).foldl (cleanElement rooted) []
  let joined := List.intercalate [byte '/'] stack.reverse
  if rooted then byte '/' :: joined
  else if joined = [] then str "." else joined

def joinPath (dir file : Bytes) : Bytes :=
  if dir = [] then (if file = [] then [] else cleanPath file)
  else cleanPath (dir ++ byte '/' :: file)

/-- `path.Dir`: all but the last element. -/
def dirPath (path : Bytes) : Bytes :=
  cleanPath (path.reverse.dropWhile (· != byte '/')).reverse

example : cleanPath (str "/a/./b//../../../c/") = str "/c" := by decide
example : cleanPath (str "../a/..") = str ".." := by decide
example : cleanPath [] = str "." := by decide
example : dirPath (joinPath (str "conf/") (str "../crs/a.conf")) = str "crs" := by decide

/-! ## Lines -/

/-- The lines of a text without their newlines.  A newline at the end starts no
line. -/
def lines (text : Bytes) : List Bytes :=
  let pieces := text.splitOn (byte '\n')
  if pieces.getLast? = some [] then pieces.dropLast else pieces

def dropCR (line : Bytes) : Bytes :=
  if line.getLast? = some (byte '\r') then line.dropLast else line

def maxScanTokenSize : Nat := 65536

/-- The lines a `bufio.Scanner` reads.  It gives up at a line that fills its buffer
and leaves that line and the lines after it unread. -/
def scanned (text : Bytes) : List Bytes :=
  (lines text).takeWhile fun line => line.length < maxScanTokenSize

def unscanned (text : Bytes) : List Bytes :=
  (lines text).dropWhile fun line => line.length < maxScanTokenSize

theorem scanned_append_unscanned (text : Bytes) : scanned text ++ unscanned text = lines text :=
  List.takeWhile_append_dropWhile

example : lines (str "a\r\n\nb\n") = [str "a\r", [], str "b"] := by decide

end Obsidian.Data
