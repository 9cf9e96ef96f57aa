import Obsidian.Data.Bytes
import Mathlib.Data.List.Induction
import Mathlib.Data.Nat.Digits.Lemmas
import Mathlib.Tactic.Common

namespace Obsidian.Data

/-! # Decimal numbers

What `strconv` prints for an integer: digits without a leading zero, which it reads back as
the integer they were printed for.
-/

def digitByte (d : Nat) : UInt8 := UInt8.ofNat (48 + d)

theorem digitChar_byte {d : Nat} (small : d < 10) : UInt8.ofNat d.digitChar.toNat = digitByte d := by
  revert d
  decide

theorem digitByte_toNat {d : Nat} (small : d < 10) : (digitByte d).toNat = 48 + d := by
  simp only [digitByte, UInt8.toNat_ofNat']
  omega

theorem digits_eq (n : Nat) :
    digits n = if n < 10 then [digitByte n] else digits (n / 10) ++ [digitByte (n % 10)] := by
  rw [digits, Nat.toDigits_eq_if (by decide)]
  split
  · next small => rw [List.map_singleton, digitChar_byte small]
  · rw [List.map_append, List.map_singleton, digitChar_byte (Nat.mod_lt _ (by decide))]
    rfl

theorem digits_mem (n : Nat) : ∀ b ∈ digits n, 48 ≤ b.toNat ∧ b.toNat ≤ 57 := by
  induction n using Nat.strongRecOn with
  | ind n ih =>
    have last : ∀ d, d < 10 → 48 ≤ (digitByte d).toNat ∧ (digitByte d).toNat ≤ 57 := by
      intro d small
      rw [digitByte_toNat small]
      omega
    rw [digits_eq]
    split
    · next small => simpa using last n small
    · next large =>
        intro b member
        rcases List.mem_append.mp member with front | final
        · exact ih (n / 10) (by omega) b front
        · rw [List.mem_singleton.mp final]
          exact last _ (Nat.mod_lt _ (by decide))

theorem parseDigits_append (value : Nat) (front back : Bytes) :
    parseDigits value (front ++ back) = (parseDigits value front).bind (parseDigits · back) := by
  induction front generalizing value with
  | nil => rfl
  | cons b rest ih =>
    simp only [List.cons_append, parseDigits]
    split
    · exact ih _
    · rfl

theorem parseDigits_digit (value : Nat) {d : Nat} (small : d < 10) :
    parseDigits value [digitByte d] = some (value * 10 + d) := by
  have code := digitByte_toNat small
  have range : 48 ≤ digitByte d ∧ digitByte d ≤ 57 := by
    simp only [UInt8.le_iff_toNat_le, code, UInt8.reduceToNat]
    omega
  simp only [parseDigits, if_pos range, code]
  congr 1
  omega

theorem parseDigits_digits (n : Nat) : parseDigits 0 (digits n) = some n := by
  induction n using Nat.strongRecOn with
  | ind n ih =>
    rw [digits_eq]
    split
    · next small =>
        rw [parseDigits_digit 0 small]
        congr 1
        omega
    · next large =>
        rw [parseDigits_append, ih (n / 10) (by omega), Option.bind_some,
          parseDigits_digit _ (Nat.mod_lt _ (by decide))]
        congr 1
        omega

theorem digits_inj {n m : Nat} (same : digits n = digits m) : n = m := by
  have read := parseDigits_digits n
  rw [same, parseDigits_digits] at read
  exact (Option.some.inj read).symm

theorem minus_notMem_digits (n : Nat) : 45 ∉ digits n := by
  intro member
  exact absurd (digits_mem n 45 member).1 (by decide)

theorem itoa_inj {n m : Int} (same : itoa n = itoa m) : n = m := by
  have signed {n m : Int} (negative : n < 0) (natural : ¬ m < 0) : itoa n ≠ itoa m := by
    intro same
    rw [itoa, itoa, if_pos negative, if_neg natural] at same
    exact minus_notMem_digits m.toNat (by simp [← same])
  by_cases negative : n < 0
  · by_cases negativeToo : m < 0
    · rw [itoa, itoa, if_pos negative, if_pos negativeToo] at same
      have abs := digits_inj (List.cons.inj same).2
      omega
    · exact absurd same (signed negative negativeToo)
  · by_cases negativeToo : m < 0
    · exact absurd same.symm (signed negativeToo negative)
    · rw [itoa, itoa, if_neg negative, if_neg negativeToo] at same
      have abs := digits_inj same
      omega

/-! ## The value of a text -/

def IsDigit (b : UInt8) : Prop := 48 ≤ b ∧ b ≤ 57

instance (b : UInt8) : Decidable (IsDigit b) := inferInstanceAs (Decidable (_ ∧ _))

def digitValue (b : UInt8) : Nat := b.toNat - 48

theorem digitValue_lt {b : UInt8} (digit : IsDigit b) : digitValue b < 10 := by
  have code : b.toNat ≤ 57 := UInt8.le_iff_toNat_le.mp digit.2
  simp only [digitValue]
  omega

theorem digitByte_digitValue {b : UInt8} (digit : IsDigit b) : digitByte (digitValue b) = b := by
  have small := digitValue_lt digit
  have code : 48 ≤ b.toNat := UInt8.le_iff_toNat_le.mp digit.1
  apply UInt8.toNat_inj.mp
  rw [digitByte_toNat small, digitValue]
  omega

@[elab_as_elim]
theorem forall_digit {P : UInt8 → Prop} (all : ∀ d : Fin 10, P (digitByte d)) {b : UInt8}
    (digit : IsDigit b) : P b := by
  rw [← digitByte_digitValue digit]
  exact all ⟨digitValue b, digitValue_lt digit⟩

def places (text : Bytes) : List Nat := text.reverse.map digitValue

def decimal (text : Bytes) : Nat := Nat.ofDigits 10 (places text)

theorem places_lt {text : Bytes} (numeric : ∀ b ∈ text, IsDigit b) : ∀ d ∈ places text, d < 10 := by
  intro d found
  obtain ⟨b, member, rfl⟩ := List.mem_map.mp found
  exact digitValue_lt (numeric b (List.mem_reverse.mp member))

theorem decimal_lt {text : Bytes} (numeric : ∀ b ∈ text, IsDigit b) :
    decimal text < 10 ^ text.length := by
  have bound := Nat.ofDigits_lt_base_pow_length (by decide : 1 < 10) (places_lt numeric)
  rwa [places, List.length_map, List.length_reverse] at bound

theorem parseDigits_decimal {text : Bytes} (numeric : ∀ b ∈ text, IsDigit b) :
    parseDigits 0 text = some (decimal text) := by
  induction text using List.reverseRecOn with
  | nil => rfl
  | append_singleton front b ih =>
    have digit : 48 ≤ b ∧ b ≤ 57 := numeric b (by simp)
    rw [parseDigits_append, ih fun c found => numeric c (List.mem_append_left _ found),
      Option.bind_some]
    simp only [parseDigits, if_pos digit, decimal, places, List.reverse_append,
      List.reverse_singleton, List.singleton_append, List.map_cons, Nat.ofDigits_cons, digitValue]
    congr 1
    omega

theorem atoi_decimal {text : Bytes} (given : text ≠ []) (numeric : ∀ b ∈ text, IsDigit b)
    (fits : decimal text < 2 ^ 63) : atoi text = some (decimal text : Int) := by
  have parsed : parseUnsigned text = some (decimal text) := by
    rw [parseUnsigned, if_neg given, parseDigits_decimal numeric]
  have bounds : IsInt64 (decimal text) := by
    simp only [IsInt64]
    omega
  unfold atoi parseInt
  split
  · exact absurd (numeric 43 List.mem_cons_self) (by decide)
  · exact absurd (numeric 45 List.mem_cons_self) (by decide)
  · rw [parsed, Option.map_some, Option.bind_some]
    exact if_pos bounds

theorem atoiValue_decimal {text : Bytes} (numeric : ∀ b ∈ text, IsDigit b)
    (fits : decimal text < 2 ^ 63) : atoiValue text = decimal text := by
  cases text with
  | nil => decide
  | cons b rest => simp only [atoiValue, atoi_decimal (List.cons_ne_nil _ _) numeric fits]

end Obsidian.Data
