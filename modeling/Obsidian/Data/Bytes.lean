import Mathlib.Algebra.Ring.Int.Defs
import Mathlib.Algebra.Ring.Nat
import Mathlib.Data.List.Basic

namespace Obsidian.Data

/-! # Byte strings and machine integers

A Go `string` or `[]byte` is a list of bytes, an `int64` an integer that wraps
at `2 ^ 64`.  Only what the source uses of `strings` and `strconv` is here.
-/

abbrev Bytes := List UInt8

def str (text : String) : Bytes :=
  text.toList.map fun c => UInt8.ofNat c.toNat

/-- An error value, identified with its message. -/
abbrev GoError := Bytes

def isASCII (text : Bytes) : Bool :=
  text.all (· < 128)

def lowerByte (b : UInt8) : UInt8 :=
  if 65 ≤ b ∧ b ≤ 90 then b + 32 else b

def upperByte (b : UInt8) : UInt8 :=
  if 97 ≤ b ∧ b ≤ 122 then b - 32 else b

/-- `strings.ToLower`: ASCII text byte by byte, anything else through the
Unicode tables, which the caller supplies. -/
def toLower (unicode : Bytes → Bytes) (text : Bytes) : Bytes :=
  if isASCII text then text.map lowerByte else unicode text

def toUpper (unicode : Bytes → Bytes) (text : Bytes) : Bytes :=
  if isASCII text then text.map upperByte else unicode text

def digits (n : Nat) : Bytes :=
  (Nat.toDigits 10 n).map fun c => UInt8.ofNat c.toNat

def itoa (n : Int) : Bytes :=
  if n < 0 then 45 :: digits n.natAbs else digits n.toNat

def parseDigits : Nat → Bytes → Option Nat
  | value, [] => some value
  | value, b :: rest =>
    if 48 ≤ b ∧ b ≤ 57 then parseDigits (value * 10 + (b.toNat - 48)) rest else none

theorem parseDigits_bytes {value n : Nat} {text : Bytes} (parsed : parseDigits value text = some n) :
    ∀ b ∈ text, 48 ≤ b ∧ b ≤ 57 := by
  induction text generalizing value with
  | nil => exact fun b found => absurd found List.not_mem_nil
  | cons c rest ih =>
    rw [parseDigits] at parsed
    split at parsed
    · next digit => exact List.forall_mem_cons.mpr ⟨digit, ih parsed⟩
    · cases parsed

def parseUnsigned (text : Bytes) : Option Nat :=
  if text = [] then none else parseDigits 0 text

def parseInt (bits : Nat) (text : Bytes) : Option Int :=
  let parsed : Option Int := match text with
    | 43 :: rest => (parseUnsigned rest).map Int.ofNat
    | 45 :: rest => (parseUnsigned rest).map fun n => -Int.ofNat n
    | _ => (parseUnsigned text).map Int.ofNat
  parsed.bind fun n =>
    if -(2 ^ (bits - 1)) ≤ n ∧ n < 2 ^ (bits - 1) then some n else none

def atoi (text : Bytes) : Option Int := parseInt 64 text

/-- Whether the digits of a text that is no `int64` are too many.  `strconv.ParseUint` stops
when the number leaves 64 bits, also if a character further on is no digit. -/
def outOfRange (text : Bytes) : Bool :=
  let leading := text.takeWhile fun b => 48 ≤ b ∧ b ≤ 57
  (parseUnsigned text).isSome || (parseUnsigned leading).any (2 ^ 64 ≤ ·)

theorem parseInt_range {bits : Nat} {text : Bytes} {n : Int}
    (parsed : parseInt bits text = some n) :
    -2 ^ (bits - 1) ≤ n ∧ n < 2 ^ (bits - 1) := by
  simp only [parseInt, Option.bind_eq_some_iff] at parsed
  obtain ⟨value, _, checked⟩ := parsed
  split at checked
  · cases checked; assumption
  · cases checked

example : parseInt 64 (str "-12") = some (-12) := by decide
example : itoa (-12) = str "-12" := by decide

/-! ## Signed 64-bit arithmetic -/

def maxInt64 : Int := 2 ^ 63 - 1

/-- The value of `strconv.Atoi`, whatever its error. -/
def atoiValue (text : Bytes) : Int :=
  let clamped (bound : Int) (digits : Bytes) : Int :=
    if outOfRange digits then bound else 0
  match atoi text with
  | some n => n
  | none =>
    match text with
    | 43 :: digits => clamped maxInt64 digits
    | 45 :: digits => clamped (-maxInt64 - 1) digits
    | digits => clamped maxInt64 digits

def IsInt64 (n : Int) : Prop := -2 ^ 63 ≤ n ∧ n < 2 ^ 63

instance (n : Int) : Decidable (IsInt64 n) := inferInstanceAs (Decidable (_ ∧ _))

def wrap64 (n : Int) : Int := Int.bmod n (2 ^ 64)

theorem wrap64_eq_self {n : Int} (fits : IsInt64 n) : wrap64 n = n := by
  simp only [IsInt64] at fits
  simp only [wrap64]
  rw [Int.bmod_def]
  omega

theorem wrap64_isInt64 (n : Int) : IsInt64 (wrap64 n) := by
  simp only [IsInt64, wrap64]
  rw [Int.bmod_def]
  omega

end Obsidian.Data
