import Obsidian.Data.CheckSums
import Obsidian.Data.Decimal
import Obsidian.Data.Text
import Mathlib.Data.ZMod.Basic

namespace Obsidian.App

open Obsidian.Data

/-! # Card numbers in responses

`luhnCheck` and `detectCreditCard` of the response inspector.
-/

structure Luhn where
  sum : Nat := 0
  isSecond : Bool := false

/-- One round of the loop of `luhnCheck`; the digit is a difference of bytes. -/
def Luhn.step (luhn : Luhn) (c : UInt8) : Luhn :=
  let d := (c - byte '0').toNat
  let d :=
    if luhn.isSecond then
      let d := d * 2
      if 9 < d then d - 9 else d
    else d
  { sum := luhn.sum + d, isSecond := !luhn.isSecond }

/-- The loop goes from the last byte to the first. -/
def luhnCheck (number : Bytes) : Bool := (number.reverse.foldl Luhn.step {}).sum % 10 = 0

/-! ## The code -/

def luhnWeight (place : Nat) (c : UInt8) : ZMod 10 :=
  ((Luhn.step { isSecond := place % 2 = 1 } c).sum : ℕ)

theorem luhn_step (luhn : Luhn) (c : UInt8) :
    (luhn.step c).sum = luhn.sum + (Luhn.step { isSecond := luhn.isSecond } c).sum := by
  simp only [Luhn.step, Nat.zero_add]

theorem luhn_loop (place sum : Nat) (word : Bytes) :
    ((word.foldl Luhn.step { sum, isSecond := place % 2 = 1 }).sum : ZMod 10) =
      sum + checkSum luhnWeight place word := by
  induction word generalizing place sum with
  | nil => simp [checkSum]
  | cons c rest ih =>
    have turn : (!decide (place % 2 = 1)) = decide ((place + 1) % 2 = 1) := by
      rw [← decide_not, decide_eq_decide]
      omega
    have step : Luhn.step { sum, isSecond := place % 2 = 1 } c =
        { sum := sum + (Luhn.step { isSecond := place % 2 = 1 } c).sum,
          isSecond := (place + 1) % 2 = 1 } := by
      rw [← turn, ← luhn_step { sum, isSecond := place % 2 = 1 } c]
      rfl
    rw [List.foldl_cons, step, ih, checkSum, Nat.cast_add, add_assoc, luhnWeight]

theorem luhnCheck_iff (number : Bytes) :
    luhnCheck number = true ↔ checkSum luhnWeight 0 number.reverse = 0 := by
  have total := luhn_loop 0 0 number.reverse
  rw [Nat.cast_zero, zero_add] at total
  rw [luhnCheck, decide_eq_true_iff, ← total, ZMod.natCast_eq_zero_iff]
  exact Nat.dvd_iff_mod_eq_zero.symm

theorem luhnWeight_place (place : Nat) : luhnWeight place = luhnWeight (place % 2) := by
  funext c
  rw [luhnWeight, luhnWeight, Nat.mod_mod]

/-- The doubling permutes the digits modulo 10. -/
theorem luhnWeight_inj {place : Nat} {c d : UInt8} (digit : IsDigit c) (digitToo : IsDigit d)
    (same : luhnWeight place c = luhnWeight place d) : c = d := by
  have all : ∀ second : Fin 2, ∀ x y : Fin 10,
      luhnWeight second (digitByte x) = luhnWeight second (digitByte y) →
        digitByte x = digitByte y := by
    decide
  rw [luhnWeight_place] at same
  revert same
  refine forall_digit (fun x => ?_) digit
  refine forall_digit (fun y => ?_) digitToo
  exact all ⟨place % 2, Nat.mod_lt _ (by decide)⟩ x y

theorem luhnWeight_last (sum : ZMod 10) : ∃! c, IsDigit c ∧ luhnWeight 0 c = sum := by
  have each : ∀ sum : ZMod 10, ∃ x : Fin 10,
      IsDigit (digitByte x) ∧ luhnWeight 0 (digitByte x) = sum := by
    decide
  obtain ⟨x, digit, counts⟩ := each sum
  refine ⟨digitByte x, ⟨digit, counts⟩, ?_⟩
  rintro other ⟨digitToo, countsToo⟩
  exact luhnWeight_inj digitToo digit (countsToo.trans counts.symm)

def ZeroNine (a b : UInt8) : Prop :=
  a = byte '0' ∧ b = byte '9' ∨ a = byte '9' ∧ b = byte '0'

instance (a b : UInt8) : Decidable (ZeroNine a b) := inferInstanceAs (Decidable (_ ∨ _))

theorem luhnWeight_exchange {place : Nat} {a b : UInt8} (digit : IsDigit a)
    (digitToo : IsDigit b) :
    luhnWeight place a + luhnWeight (place + 1) b =
      luhnWeight place b + luhnWeight (place + 1) a ↔ a = b ∨ ZeroNine a b := by
  have all : ∀ second : Fin 2, ∀ x y : Fin 10,
      luhnWeight second (digitByte x) + luhnWeight ((second + 1 : Nat) % 2) (digitByte y) =
        luhnWeight second (digitByte y) + luhnWeight ((second + 1 : Nat) % 2) (digitByte x) ↔
      digitByte x = digitByte y ∨ ZeroNine (digitByte x) (digitByte y) := by
    decide
  rw [luhnWeight_place place, luhnWeight_place (place + 1)]
  refine forall_digit (fun x => ?_) digit
  refine forall_digit (fun y => ?_) digitToo
  have next : (place + 1) % 2 = (place % 2 + 1) % 2 := by omega
  rw [next]
  exact all ⟨place % 2, Nat.mod_lt _ (by decide)⟩ x y

theorem luhnCheck_complete (p : Bytes) : ∃! d, IsDigit d ∧ luhnCheck (p ++ [d]) = true := by
  simp only [luhnCheck_iff, List.reverse_append, List.reverse_singleton, List.singleton_append]
  exact checkSum_complete luhnWeight 0 p.reverse luhnWeight_last

theorem luhnCheck_replace {front back : Bytes} {d e : UInt8} (digit : IsDigit d)
    (digitToo : IsDigit e) (accepted : luhnCheck (front ++ d :: back) = true) (changed : e ≠ d) :
    luhnCheck (front ++ e :: back) = false := by
  by_contra kept
  rw [Bool.not_eq_false, luhnCheck_iff] at kept
  rw [luhnCheck_iff] at accepted
  simp only [List.reverse_append, List.reverse_cons, List.append_assoc,
    List.singleton_append] at accepted kept
  have same := (checkSum_replace luhnWeight 0 back.reverse front.reverse e d).mp
    (kept.trans accepted.symm)
  exact changed (luhnWeight_inj digitToo digit same)

theorem luhnCheck_exchange {front back : Bytes} {a b : UInt8} (digit : IsDigit a)
    (digitToo : IsDigit b) (accepted : luhnCheck (front ++ a :: b :: back) = true) :
    luhnCheck (front ++ b :: a :: back) = true ↔ a = b ∨ ZeroNine a b := by
  rw [luhnCheck_iff] at accepted ⊢
  simp only [List.reverse_append, List.reverse_cons, List.append_assoc,
    List.cons_append, List.nil_append] at accepted ⊢
  rw [← accepted, checkSum_exchange, luhnWeight_exchange digit digitToo]

/-- `luhnCheck` is the Luhn code: one digit completes a number, one wrong digit is found, and of
two neighbours exchanged all but a 0 and a 9. -/
theorem luhnCheck_luhn (p : Bytes) (digits : ∀ d ∈ p, IsDigit d) :
    (∃! d, IsDigit d ∧ luhnCheck (p ++ [d]) = true) ∧
    (luhnCheck p = true →
      (∀ front d back, p = front ++ d :: back → ∀ e, IsDigit e → e ≠ d →
        luhnCheck (front ++ e :: back) = false) ∧
      ∀ front a b back, p = front ++ a :: b :: back → a ≠ b →
        (luhnCheck (front ++ b :: a :: back) = false ↔ ¬ ZeroNine a b)) := by
  refine ⟨luhnCheck_complete p, fun accepted => ⟨?_, ?_⟩⟩
  · rintro front d back rfl e digit changed
    exact luhnCheck_replace (digits d (by simp)) digit accepted changed
  · rintro front a b back rfl different
    rw [← Bool.not_eq_true, luhnCheck_exchange (digits a (by simp)) (digits b (by simp)) accepted]
    simp only [different, false_or]

theorem luhnCheck_luhn_visa : luhnCheck (str "4111111111111111") = true ∧
    luhnCheck (str "1411111111111111") = false := by
  refine ⟨by decide, ?_⟩
  have code := luhnCheck_luhn (str "4111111111111111") (by decide +kernel)
  exact ((code.2 (by decide)).2 [] (byte '4') (byte '1') (str "11111111111111") rfl
    (by decide)).mpr (by decide)

/-! ## Detection -/

inductive LeakageType where
  | ssn | creditCard | apiKey | awsKey | privateKey | jwt | password | email | ipAddress
  | phoneNumber | custom
deriving DecidableEq, Repr

structure Detection where
  type : LeakageType
  pattern : Bytes
  count : Nat
  severity : Bytes
  redacted : Bytes
deriving DecidableEq

def redact (s : Bytes) : Bytes :=
  if s.length ≤ 8 then str "****" else s.take 4 ++ str "****" ++ s.drop (s.length - 4)

def withoutSeparators (text : Bytes) : Bytes := text.filter fun b => IsDigit b

/-- The condition under which a match is counted. -/
def isCard (text : Bytes) : Bool :=
  let digits := withoutSeparators text
  13 ≤ digits.length && digits.length ≤ 19 && luhnCheck digits

structure CardCount where
  validCount : Nat := 0
  sample : Bytes := []

def CardCount.step (cards : CardCount) (text : Bytes) : CardCount :=
  if isCard text then
    { validCount := cards.validCount + 1
      sample := if cards.sample = [] then text else cards.sample }
  else cards

def cardDetection (validCount : Nat) (sample : Bytes) : Detection where
  type := .creditCard
  pattern := str "credit_card"
  count := validCount
  severity := str "critical"
  redacted := redact sample

/-- `findAll` is `FindAllString` of `creditCardPattern`. -/
def detectCreditCard (findAll : Bytes → List Bytes) (content : Bytes)
    (detections : List Detection) : List Detection :=
  let cards := (findAll content).foldl CardCount.step {}
  if 0 < cards.validCount then
    detections ++ [cardDetection cards.validCount cards.sample]
  else detections

theorem isCard_ne_nil {text : Bytes} (card : isCard text = true) : text ≠ [] := by
  rintro rfl
  exact absurd card (by decide)

theorem cardCount_run (cards : CardCount) (texts : List Bytes)
    (sampled : cards.sample = [] ↔ cards.validCount = 0) :
    texts.foldl CardCount.step cards =
      { validCount := cards.validCount + texts.countP isCard
        sample := if cards.sample = [] then (texts.find? isCard).getD [] else cards.sample } := by
  induction texts generalizing cards with
  | nil =>
    obtain ⟨validCount, sample⟩ := cards
    by_cases fresh : sample = [] <;> simp [fresh]
  | cons text rest ih =>
    rw [List.foldl_cons]
    cases card : isCard text with
    | false =>
      rw [show cards.step text = cards by simp [CardCount.step, card], ih cards sampled]
      simp [card]
    | true =>
      have given := isCard_ne_nil card
      rw [CardCount.step, if_pos card, ih]
      · by_cases fresh : cards.sample = []
        · simp [fresh, card, given, Nat.add_assoc, Nat.add_comm 1]
        · simp [fresh, card, Nat.add_assoc, Nat.add_comm 1]
      · by_cases fresh : cards.sample = [] <;> simp [fresh, given]

/-- A response is reported for the matches that are Luhn numbers of 13 to 19 digits, with their
number, and shown by the first of them. -/
theorem detectCreditCard_eq (findAll : Bytes → List Bytes) (content : Bytes)
    (detections : List Detection) :
    detectCreditCard findAll content detections = detections ++
      ((findAll content).find? isCard).toList.map
        (cardDetection ((findAll content).countP isCard)) := by
  rw [detectCreditCard, cardCount_run {} _ (by simp)]
  cases found : (findAll content).find? isCard with
  | none =>
    have absent : (findAll content).countP isCard = 0 := by
      rw [List.countP_eq_zero]
      exact List.find?_eq_none.mp found
    simp [absent]
  | some first =>
    have present : 0 < (findAll content).countP isCard :=
      List.countP_pos_iff.mpr ⟨first, List.mem_of_find?_eq_some found, List.find?_some found⟩
    simp [present]

end Obsidian.App
