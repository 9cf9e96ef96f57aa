import Obsidian.Transformations.Indexed

namespace Obsidian

open Obsidian.Data
open Obsidian.Transformations hiding none

/-! # Base64

`doBase64decode` with its table and its shifts, and what it makes of the standard
encoding.
-/

namespace Base64Table

def base64DecMap : List UInt8 :=
  [127, 127, 127, 127, 127, 127, 127, 127, 127, 127, 127, 127, 127, 127, 127, 127,
    127, 127, 127, 127, 127, 127, 127, 127, 127, 127, 127, 127, 127, 127, 127, 127,
    127, 127, 127, 127, 127, 127, 127, 127, 127, 127, 127, 62, 127, 127, 127, 63,
    52, 53, 54, 55, 56, 57, 58, 59, 60, 61, 127, 127, 127, 64, 127, 127,
    127, 0, 1, 2, 3, 4, 5, 6, 7, 8, 9, 10, 11, 12, 13, 14,
    15, 16, 17, 18, 19, 20, 21, 22, 23, 24, 25, 127, 127, 127, 127, 127,
    127, 26, 27, 28, 29, 30, 31, 32, 33, 34, 35, 36, 37, 38, 39, 40,
    41, 42, 43, 44, 45, 46, 47, 48, 49, 50, 51, 127, 127, 127, 127, 127]

/-- What the loop does with a byte: pass over it, stop, or take its six bits. -/
inductive Reading where
  | skip
  | stop
  | bits (decoded : UInt8)
deriving DecidableEq, Repr

/-- None if the table is read out of range. -/
def reading (ext : Bool) (currChar : UInt8) : Option Reading :=
  if ext ∧ (isSpace currChar.toNat ∨ currChar = byte '.') then some .skip
  else if currChar = byte '\r' ∨ currChar = byte '\n' then some .skip
  else if currChar = byte '=' ∨ currChar = byte ' ' ∨ 127 < currChar then some .stop
  else (base64DecMap[currChar.toNat]?).map fun decodedChar =>
    if decodedChar = 127 then .stop else .bits decodedChar

structure State where
  n : Nat := 0
  x : Nat := 0
  dst : Bytes := []
deriving DecidableEq, Repr

namespace State

def push (s : State) (decodedChar : UInt8) : State :=
  let x := (s.x <<< 6) ||| (decodedChar &&& 0x3F).toNat
  if s.n + 1 = 4 then
    { dst := s.dst ++ [UInt8.ofNat (x >>> 16), UInt8.ofNat (x >>> 8), UInt8.ofNat x] }
  else { s with n := s.n + 1, x := x }

def finish (s : State) : Bytes :=
  match s.n with
  | 2 => s.dst ++ [UInt8.ofNat ((s.x <<< 12) >>> 16)]
  | 3 => s.dst ++ [UInt8.ofNat ((s.x <<< 6) >>> 16), UInt8.ofNat ((s.x <<< 6) >>> 8)]
  | _ => s.dst

end State

def loop (ext : Bool) : Bytes → State → Option State
  | [], s => some s
  | currChar :: rest, s =>
    match reading ext currChar with
    | .none => .none
    | some .skip => loop ext rest s
    | some .stop => some s
    | some (.bits decodedChar) => loop ext rest (s.push decodedChar)

def doBase64decode (src : Bytes) (ext : Bool) : Option Bytes :=
  if src.length = 0 then some src else (loop ext src {}).map State.finish

/-! ## The table -/

/-- Six bits, or none where the loop stops. -/
def Reading.of (ext : Bool) (c : UInt8) : Reading :=
  if ext ∧ (isSpace c.toNat ∨ c = byte '.') then .skip
  else if c = byte '\r' ∨ c = byte '\n' then .skip
  else
    match Transformations.base64DecMap c with
    | .none => .stop
    | some decoded => .bits (UInt8.ofNat decoded)

/-- The table, the ranges and the alphabet say the same of a byte. -/
theorem base64DecMap_byte (c : UInt8) :
    (if c = byte '=' ∨ c = byte ' ' ∨ 127 < c then some Reading.stop
      else (base64DecMap[c.toNat]?).map fun decoded =>
        if decoded = 127 then .stop else .bits decoded) =
      some (match Transformations.base64DecMap c with
        | .none => .stop
        | some decoded => .bits (UInt8.ofNat decoded)) ∧
    ∀ decoded ∈ Transformations.base64DecMap c, decoded < 64 ∧ base64Alphabet decoded = c := by
  revert c
  apply Indexed.forall_byte
  decide +kernel

theorem reading_eq (ext : Bool) (c : UInt8) : reading ext c = some (Reading.of ext c) := by
  rw [reading, Reading.of, (base64DecMap_byte c).1]
  split
  · rfl
  · split <;> rfl

theorem push_bits {x decoded : Nat} (small : decoded < 64) :
    (x <<< 6) ||| (UInt8.ofNat decoded &&& 0x3F).toNat = x * 64 + decoded := by
  have mask : (UInt8.ofNat decoded &&& 0x3F).toNat = decoded := by
    rw [UInt8.toNat_and, UInt8.toNat_ofNat', Nat.mod_eq_of_lt (by omega)]
    exact (Nat.and_two_pow_sub_one_eq_mod decoded 6).trans (Nat.mod_eq_of_lt small)
  rw [mask, Nat.shiftLeft_eq, Nat.mul_comm, ← Nat.two_pow_add_eq_or_of_lt (i := 6) small]

theorem loop_eq (ext : Bool) (src : Bytes) {s : State} (room : s.n < 4) :
    (loop ext src s).map State.finish = some (s.dst ++ base64Loop ext src s.n s.x) := by
  have ended : ∀ s : State, s.n < 4 → s.finish = s.dst ++ base64Loop.remainder s.n s.x := by
    rintro ⟨n, x, dst⟩ room
    simp only [State.finish, base64Loop.remainder, Nat.shiftLeft_eq, Nat.shiftRight_eq_div_pow]
    match n, room with
    | 0, _ | 1, _ => simp
    | 2, _ | 3, _ => rfl
  induction src generalizing s with
  | nil => simp only [loop, Option.map_some, base64Loop, ended s room]
  | cons c rest ih =>
    simp only [loop, reading_eq, Reading.of, base64Loop]
    by_cases lenient : ext = true ∧ (isSpace c.toNat = true ∨ c = byte '.')
    · rw [if_pos lenient, if_pos lenient]
      exact ih room
    rw [if_neg lenient, if_neg lenient]
    by_cases lineBreak : c = byte '\r' ∨ c = byte '\n'
    · rw [if_pos lineBreak, if_pos lineBreak]
      exact ih room
    rw [if_neg lineBreak, if_neg lineBreak]
    cases found : Transformations.base64DecMap c with
    | none => simp only [Option.map_some, ended s room]
    | some decoded =>
      have small := ((base64DecMap_byte c).2 decoded found).1
      simp only [State.push, push_bits small]
      by_cases full : s.n = 3
      · rw [if_pos (by omega), if_pos full, ih (by simp)]
        simp [Nat.shiftRight_eq_div_pow]
      · rw [if_neg (by omega), if_neg full, ih (by simp only; omega)]

theorem doBase64decode_eq (src : Bytes) (ext : Bool) :
    doBase64decode src ext = some (Transformations.doBase64decode ext src) := by
  simp only [doBase64decode, Transformations.doBase64decode]
  split
  · next empty =>
      rw [List.length_eq_zero_iff.mp empty]
      rfl
  · rw [loop_eq ext src (by decide)]
    rfl

/-! ## The standard encoding -/

def isLineBreak (c : UInt8) : Bool := c = byte '\r' ∨ c = byte '\n'

/-- A byte at which decoding ends: not in the alphabet and no line break. -/
def Ends (c : UInt8) : Prop := c ∉ (List.range 64).map base64Alphabet ∧ isLineBreak c = false

theorem base64DecMap_alphabet {k : Nat} (sextet : k < 64) :
    Transformations.base64DecMap (base64Alphabet k) = some k ∧
      isSpace (base64Alphabet k).toNat = false ∧ base64Alphabet k ≠ byte '.' ∧
      isLineBreak (base64Alphabet k) = false ∧ base64Alphabet k ≠ byte '=' := by
  revert k
  decide +kernel

theorem base64DecMap_eq_none (c : UInt8) :
    Transformations.base64DecMap c = none ↔ c ∉ (List.range 64).map base64Alphabet := by
  constructor
  · intro undecoded listed
    obtain ⟨k, sextet, rfl⟩ := List.mem_map.mp listed
    rw [(base64DecMap_alphabet (List.mem_range.mp sextet)).1] at undecoded
    cases undecoded
  · intro unlisted
    cases found : Transformations.base64DecMap c with
    | none => rfl
    | some k =>
      obtain ⟨sextet, rfl⟩ := (base64DecMap_byte c).2 k found
      exact absurd (List.mem_map_of_mem (List.mem_range.mpr sextet)) unlisted

theorem base64Loop_lineBreak (ext : Bool) {c : UInt8} (lineBreak : isLineBreak c = true)
    (rest : Bytes) (n x : Nat) : base64Loop ext (c :: rest) n x = base64Loop ext rest n x := by
  simp only [base64Loop]
  split
  · rfl
  · rw [if_pos (of_decide_eq_true lineBreak)]

/-- Line breaks change nothing, wherever they are. -/
theorem base64Loop_filter (ext : Bool) (text : Bytes) (n x : Nat) :
    base64Loop ext (text.filter (!isLineBreak ·)) n x = base64Loop ext text n x := by
  induction text generalizing n x with
  | nil => rfl
  | cons c rest ih =>
    cases lineBreak : isLineBreak c with
    | true => rw [base64Loop_lineBreak ext lineBreak, List.filter_cons_of_neg (by simp [lineBreak]), ih]
    | false =>
      rw [List.filter_cons_of_pos (by simp [lineBreak])]
      simp only [base64Loop, ih]

theorem base64Loop_alphabet (ext : Bool) {k : Nat} (sextet : k < 64) (rest : Bytes) (n x : Nat) :
    base64Loop ext (base64Alphabet k :: rest) n x =
      if n = 3 then
        UInt8.ofNat ((x * 64 + k) / 65536) :: UInt8.ofNat ((x * 64 + k) / 256) ::
          UInt8.ofNat (x * 64 + k) :: base64Loop ext rest 0 0
      else base64Loop ext rest (n + 1) (x * 64 + k) := by
  obtain ⟨found, noSpace, noDot, noBreak, _⟩ := base64DecMap_alphabet sextet
  simp only [base64Loop, found]
  rw [if_neg (by simp [noSpace, noDot]), if_neg (of_decide_eq_false noBreak)]

theorem base64Loop_padding (ext : Bool) (rest : Bytes) (n x : Nat) :
    base64Loop ext (byte '=' :: rest) n x = base64Loop.remainder n x := by
  simp only [base64Loop]
  rw [if_neg (by cases ext <;> decide), if_neg (by decide)]
  rfl

theorem ofNat_mod {n : Nat} {b : UInt8} (same : n % 256 = b.toNat) : UInt8.ofNat n = b := by
  apply UInt8.toNat_inj.mp
  rw [UInt8.toNat_ofNat', ← same]

def encoded (padded : Bool) (s : Bytes) : Bytes := (encodeToString s).filter (padded || · ≠ byte '=')

theorem base64Loop_encoded (ext padded : Bool) (s : Bytes) : base64Loop ext (encoded padded s) 0 0 = s := by
  have kept : ∀ {k : Nat} (rest : Bytes), k < 64 →
      (base64Alphabet k :: rest).filter (padded || · ≠ byte '=') =
        base64Alphabet k :: rest.filter (padded || · ≠ byte '=') := fun rest sextet =>
    List.filter_cons_of_pos (by simp [(base64DecMap_alphabet sextet).2.2.2.2])
  have padding : ∀ rest n x,
      base64Loop ext ((byte '=' :: rest).filter (padded || · ≠ byte '=')) n x =
        if padded then base64Loop.remainder n x
        else base64Loop ext (rest.filter (padded || · ≠ byte '=')) n x := by
    intro rest n x
    cases padded with
    | true => rw [List.filter_cons_of_pos (by simp), base64Loop_padding, if_pos rfl]
    | false => rw [List.filter_cons_of_neg (by simp), if_neg (by simp)]
  simp only [encoded]
  fun_induction encodeToString s with
  | case1 a b c rest x ih =>
    have ha := a.toNat_lt
    have hb := b.toNat_lt
    have hc := c.toNat_lt
    have isX : x = a.toNat * 65536 + b.toNat * 256 + c.toNat := rfl
    rw [kept _ (by omega), kept _ (by omega), kept _ (by omega), kept _ (by omega)]
    simp only [base64Loop_alphabet ext (show x / 262144 < 64 by omega),
      base64Loop_alphabet ext (show x / 4096 % 64 < 64 by omega),
      base64Loop_alphabet ext (show x / 64 % 64 < 64 by omega),
      base64Loop_alphabet ext (show x % 64 < 64 by omega), ih]
    simp only [Nat.reduceAdd, Nat.reduceEqDiff, if_false, if_true]
    rw [ofNat_mod (b := a) (by omega), ofNat_mod (b := b) (by omega), ofNat_mod (b := c) (by omega)]
  | case2 a b x =>
    have ha := a.toNat_lt
    have hb := b.toNat_lt
    have isX : x = a.toNat * 1024 + b.toNat * 4 := rfl
    rw [kept _ (by omega), kept _ (by omega), kept _ (by omega)]
    simp only [base64Loop_alphabet ext (show x / 4096 < 64 by omega),
      base64Loop_alphabet ext (show x / 64 % 64 < 64 by omega),
      base64Loop_alphabet ext (show x % 64 < 64 by omega), padding]
    simp only [Nat.reduceAdd, Nat.reduceEqDiff, if_false, List.filter_nil, base64Loop, ite_self,
      base64Loop.remainder]
    rw [ofNat_mod (b := a) (by omega), ofNat_mod (b := b) (by omega)]
  | case3 a =>
    have ha := a.toNat_lt
    rw [kept _ (by omega), kept _ (by omega)]
    simp only [base64Loop_alphabet ext (show a.toNat / 4 < 64 by omega),
      base64Loop_alphabet ext (show a.toNat % 4 * 16 < 64 by omega), padding]
    simp only [Nat.reduceAdd, Nat.reduceEqDiff, if_false, List.filter_nil, base64Loop, ite_self,
      base64Loop.remainder]
    rw [ofNat_mod (b := a) (by omega)]
  | case4 => rfl

/-- What comes behind a byte that ends the decoding is not looked at. -/
theorem base64Loop_ends {front : Bytes} (goesOn : ∀ c ∈ front, ¬Ends c) {c : UInt8} (ends : Ends c)
    (rest : Bytes) (n x : Nat) :
    base64Loop false (front ++ c :: rest) n x = base64Loop false front n x := by
  induction front generalizing n x with
  | nil =>
    simp only [List.nil_append, base64Loop, (base64DecMap_eq_none c).mpr ends.1]
    rw [if_neg (by simp), if_neg (of_decide_eq_false ends.2)]
  | cons d front ih =>
    simp only [List.cons_append, base64Loop, ih fun c found => goesOn c (List.mem_cons_of_mem d found)]

/-- Both decoders invert the standard encoding, padded or not, with line breaks anywhere;
the strict one decodes what stands in front of the first byte that ends it; the table is
never read out of range. -/
theorem base64_decoders :
    (∀ (s text : Bytes) (padded : Bool), text.filter (!isLineBreak ·) = encoded padded s →
      (base64decode text).1 = s ∧ (base64decodeext text).1 = s) ∧
    (∀ (src : Bytes) (k : Nat) (c : UInt8), src[k]? = some c → Ends c →
      (∀ d ∈ src.take k, ¬Ends d) → (base64decode src).1 = (base64decode (src.take k)).1) ∧
    ∀ src ext, doBase64decode src ext = some (Transformations.doBase64decode ext src) := by
  refine ⟨?_, ?_, doBase64decode_eq⟩
  · intro s text padded written
    have decodes : ∀ ext, Transformations.doBase64decode ext text = s := by
      intro ext
      rw [Transformations.doBase64decode, ← base64Loop_filter, written, base64Loop_encoded]
    exact ⟨decodes false, decodes true⟩
  · intro src k c here ends goesOn
    obtain ⟨inside, isC⟩ := List.getElem?_eq_some_iff.mp here
    have split : src = src.take k ++ c :: src.drop (k + 1) := by
      rw [← isC, List.cons_getElem_drop_succ, List.take_append_drop]
    have stopped := base64Loop_ends goesOn ends (src.drop (k + 1)) 0 0
    rw [← split] at stopped
    exact stopped

theorem base64_decoders_light :
    (base64decode (str "bGln\r\naHQ")).1 = str "light" ∧
      (base64decodeext (str "bGlnaHQ=\n")).1 = str "light" ∧
      (base64decode (str "bGl*aHQ=")).1 = (base64decode (str "bGl")).1 := by
  obtain ⟨inverts, stops, _⟩ := base64_decoders
  exact ⟨(inverts (str "light") _ false (by decide)).1, (inverts (str "light") _ true (by decide)).2,
    stops (str "bGl*aHQ=") 3 (byte '*') (by decide) (by unfold Ends; decide)
      (by unfold Ends; decide +kernel)⟩

end Base64Table

end Obsidian
