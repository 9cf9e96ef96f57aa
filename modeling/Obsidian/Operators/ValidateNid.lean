import Obsidian.Api
import Obsidian.Data.Decimal
import Obsidian.Operators.Builders
import Mathlib.Tactic.Ring

namespace Obsidian.Operators

open Obsidian.Data

/-! # National identifiers

`@validateNid`.  A function of the source that may panic is `none` where it does.
-/

def slice? (s : Bytes) (low high : Int) : Option Bytes :=
  if 0 ≤ low ∧ low ≤ high ∧ high ≤ s.length then some ((s.take high.toNat).drop low.toNat) else none

def digitsOrK (nid : Bytes) : Bytes := nid.filter fun b => IsDigit b ∨ b = byte 'k'

def rutLoop (rut sum factor : Int) : Int :=
  if rut = 0 then sum
  else
    rutLoop (rut.tdiv 10) (sum + rut.tmod 10 * factor) (if factor = 7 then 2 else factor + 1)
termination_by rut.natAbs
decreasing_by
  rw [Int.natAbs_tdiv]
  exact Nat.div_lt_self (by omega) (by decide)

def checkText (sum : Int) : Bytes :=
  let val := sum.tmod 11
  if val = 0 then str "0" else if val = 1 then str "k" else itoa (11 - val)

def nidCl (rt : Runtime) (nid : Bytes) : Option Bool :=
  if nid.length < 8 then some false
  else do
    let nid := digitsOrK (rt.toLower nid)
    let front ← slice? nid 0 (nid.length - 1)
    let rut := atoiValue front
    let dv ← slice? nid (nid.length - 1) nid.length
    some (checkText (rutLoop rut 0 2) = dv)

def digitsOnly (nid : Bytes) : Bytes := nid.filter fun b => IsDigit b

/-- `digitToInt`, with the subtraction of bytes. -/
def digitToInt (d : UInt8) : Int := (d - byte '0').toNat

structure Runs where
  sequence : Bool := true
  equals : Bool := true
  prev : Int

def Runs.step (runs : Runs) (d : UInt8) : Runs :=
  let curr := digitToInt d
  { equals := if runs.prev ≠ curr then false else runs.equals
    sequence := if curr ≠ runs.prev + 1 then false else runs.sequence
    prev := curr }

def nidUs (nid : Bytes) : Option Bool :=
  let nid := digitsOnly nid
  if nid.length < 9 then some false
  else do
    let area := atoiValue (← slice? nid 0 3)
    let group := atoiValue (← slice? nid 3 5)
    let serial := atoiValue (← slice? nid 5 9)
    if area = 0 ∨ group = 0 ∨ serial = 0 ∨ 740 ≤ area ∨ area = 666 then some false
    else
      let first ← nid[0]?
      let runs := (nid.drop 1).foldl Runs.step { prev := digitToInt first }
      some (!runs.sequence && !runs.equals)

def NidType.fn (rt : Runtime) : NidType → Bytes → Option Bool
  | .cl => nidCl rt
  | .us => nidUs

/-- The loop of `Evaluate` over the matches of the expression, and whether it found any
identifier. -/
def validateNidLoop (fn : Bytes → Option Bool) :
    Nat → List (List Bytes) → Option (Bool × List OperatorEffect)
  | _, [] => some (false, [])
  | i, m :: rest =>
    if 10 ≤ i then some (false, [])
    else do
      let text ← m[0]?
      let valid ← fn text
      let (res, effects) ← validateNidLoop fn (i + 1) rest
      some (valid || res, if valid then .captureField i text :: effects else effects)

/-- `validateNid.Evaluate`; `findAll` is `FindAllStringSubmatch` of the expression. -/
def validateNid (rt : Runtime) (type : NidType) (findAll : Bytes → Nat → List (List Bytes))
    (value : Bytes) : Option (Bool × List OperatorEffect) :=
  validateNidLoop (type.fn rt) 0 (findAll value 11)

/-! ## The check character -/

def weighted : (place : Nat) → List Nat → Nat
  | _, [] => 0
  | place, d :: rest => d * (2 + place % 6) + weighted (place + 1) rest

def checkValue (c : UInt8) : Nat := if c = byte 'k' then 10 else digitValue c

def IsCheck (c : UInt8) : Prop := IsDigit c ∨ c = byte 'k'

instance (c : UInt8) : Decidable (IsCheck c) := inferInstanceAs (Decidable (_ ∨ _))

/-- A number and the character that completes its weighted digits to a multiple of 11. -/
def Checked (text : Bytes) : Prop :=
  ∃ number check, text = number ++ [check] ∧ (∀ d ∈ number, IsDigit d) ∧
    IsCheck check ∧ 11 ∣ weighted 0 (places number) + checkValue check

theorem checked_snoc {number : Bytes} {check : UInt8} :
    Checked (number ++ [check]) ↔ (∀ d ∈ number, IsDigit d) ∧
      IsCheck check ∧ 11 ∣ weighted 0 (places number) + checkValue check := by
  constructor
  · rintro ⟨number', check', same, checked⟩
    obtain ⟨rfl, rfl⟩ := List.append_singleton_inj.mp same
    exact checked
  · intro checked
    exact ⟨number, check, rfl, checked⟩

theorem rutLoop_places {ds : List Nat} (small : ∀ d ∈ ds, d < 10) (sum : Int) (place : Nat) :
    rutLoop (Nat.ofDigits 10 ds : Nat) sum (2 + place % 6 : Nat) = sum + weighted place ds := by
  induction ds generalizing sum place with
  | nil =>
    rw [rutLoop]
    simp [weighted]
  | cons d rest ih =>
    have below : d < 10 := small d List.mem_cons_self
    have later := fun sum => ih (fun e found => small e (List.mem_cons_of_mem _ found)) sum (place + 1)
    rw [Nat.ofDigits_cons, weighted]
    by_cases zero : d + 10 * Nat.ofDigits 10 rest = 0
    · -- only zeros are left, which the loop does not visit
      have none : weighted (place + 1) rest = 0 := by
        have last := later 0
        rw [show Nat.ofDigits 10 rest = 0 by omega, rutLoop] at last
        simpa using last.symm
      rw [rutLoop, none]
      obtain rfl : d = 0 := by omega
      simp_all
    · have quotient : ((d + 10 * Nat.ofDigits 10 rest : Nat) : Int).tdiv 10 =
          (Nat.ofDigits 10 rest : Nat) := by
        rw [Int.tdiv_eq_ediv_of_nonneg (by omega)]
        omega
      have remainder : ((d + 10 * Nat.ofDigits 10 rest : Nat) : Int).tmod 10 = d := by
        rw [Int.tmod_eq_emod_of_nonneg (by omega)]
        omega
      have factor : (if ((2 + place % 6 : Nat) : Int) = 7 then 2 else ((2 + place % 6 : Nat) : Int) + 1) =
          (2 + (place + 1) % 6 : Nat) := by
        split <;> omega
      rw [rutLoop, if_neg (by exact_mod_cast zero), quotient, remainder, factor, later]
      push_cast
      ring

def checkByte (value : Nat) : UInt8 := if value = 10 then byte 'k' else digitByte value

theorem checkByte_checkValue {c : UInt8} (check : IsCheck c) :
    checkByte (checkValue c) = c ∧ checkValue c < 11 := by
  rcases check with digit | rfl
  · have apart : c ≠ byte 'k' := fun same => absurd (same ▸ digit) (by decide)
    have small := digitValue_lt digit
    have low : 48 ≤ c.toNat := UInt8.le_iff_toNat_le.mp digit.1
    have same : digitByte (digitValue c) = c := by
      rw [← UInt8.toNat_inj, digitByte_toNat small, digitValue]
      omega
    rw [checkValue, if_neg apart, checkByte, if_neg (by omega)]
    exact ⟨same, by omega⟩
  · decide

theorem checkText_eq_iff (sum : Nat) {c : UInt8} (check : IsCheck c) :
    checkText sum = [c] ↔ 11 ∣ sum + checkValue c := by
  have table : ∀ val < 11, ∀ value < 11, (checkText (val : Nat) = [checkByte value] ↔
      (val + value) % 11 = 0) := by decide
  have reduced : checkText sum = checkText (sum % 11 : Nat) := by
    have same : (sum : Int).tmod 11 = ((sum % 11 : Nat) : Int).tmod 11 := by
      rw [Int.tmod_eq_emod_of_nonneg (by omega), Int.tmod_eq_emod_of_nonneg (by omega)]
      omega
    simp only [checkText, same]
  obtain ⟨byte, small⟩ := checkByte_checkValue check
  rw [reduced, ← byte, table _ (Nat.mod_lt _ (by decide)) _ small, byte]
  omega

/-! ## The Chilean identifier -/

theorem slice?_eq {s : Bytes} (low high : Nat) (ordered : low ≤ high) (inside : high ≤ s.length) :
    slice? s low high = some ((s.take high).drop low) := by
  rw [slice?, if_pos (by omega), Int.toNat_natCast, Int.toNat_natCast]

theorem nidCl_snoc {rt : Runtime} {nid front : Bytes} {last : UInt8} (long : 8 ≤ nid.length)
    (kept : digitsOrK (rt.toLower nid) = front ++ [last]) :
    nidCl rt nid = some (decide (checkText (rutLoop (atoiValue front) 0 2) = [last])) := by
  have before : (front ++ [last]).length = front.length + 1 := List.length_append
  have length : ((front ++ [last]).length : Int) - 1 = front.length := by omega
  have number : slice? (front ++ [last]) 0 front.length = some front := by
    refine (slice?_eq 0 front.length (Nat.zero_le _) (by omega)).trans ?_
    rw [List.take_left' rfl, List.drop_zero]
  have check : slice? (front ++ [last]) front.length (front ++ [last]).length = some [last] := by
    rw [slice?_eq _ _ (by omega) le_rfl, List.take_length, List.drop_left' rfl]
  rw [nidCl, if_neg (by omega)]
  simp only [kept, length, number, check, Option.bind_eq_bind, Option.bind_some]

theorem nidCl_isSome_iff {rt : Runtime} {nid : Bytes} :
    (nidCl rt nid).isSome ↔ nid.length < 8 ∨ digitsOrK (rt.toLower nid) ≠ [] := by
  by_cases short : nid.length < 8
  · rw [nidCl, if_pos short]
    simp [short]
  · by_cases kept : digitsOrK (rt.toLower nid) = []
    · -- `nid[:len(nid)-1]` has a negative bound
      have panics : nidCl rt nid = none := by
        rw [nidCl, if_neg short, kept]
        rfl
      simp [panics, short, kept]
    · rw [nidCl_snoc (by omega) (List.dropLast_append_getLast kept).symm]
      simp [kept]

theorem isCheck_of_mem {nid : Bytes} {b : UInt8} (found : b ∈ digitsOrK nid) : IsCheck b := by
  simpa [digitsOrK, IsCheck] using (List.mem_filter.mp found).2

theorem nidCl_iff {rt : Runtime} {nid front : Bytes} {last : UInt8} (long : 8 ≤ nid.length)
    (kept : digitsOrK (rt.toLower nid) = front ++ [last]) (numeric : byte 'k' ∉ front)
    (fits : decimal front < 2 ^ 63) :
    nidCl rt nid = some true ↔ Checked (front ++ [last]) := by
  have isCheck : ∀ b ∈ front ++ [last], IsCheck b := fun b found => isCheck_of_mem (kept ▸ found)
  have digits : ∀ b ∈ front, IsDigit b := by
    intro b found
    refine (isCheck b (List.mem_append_left _ found)).resolve_right ?_
    rintro rfl
    exact numeric found
  have check : IsCheck last := isCheck last (by simp)
  have sum : rutLoop (atoiValue front) 0 2 = (weighted 0 (places front) : Nat) := by
    rw [atoiValue_decimal digits fits]
    exact (rutLoop_places (places_lt digits) 0 0).trans (by simp)
  rw [nidCl_snoc long kept, sum, checked_snoc]
  simp only [Option.some.injEq, decide_eq_true_eq, checkText_eq_iff _ check]
  exact ⟨fun completed => ⟨digits, check, completed⟩, fun checked => checked.2.2⟩

def NumberRead (front : Bytes) : Prop := byte 'k' ∉ front ∧ decimal front < 2 ^ 63

instance (front : Bytes) : Decidable (NumberRead front) := inferInstanceAs (Decidable (_ ∧ _))

/-- The check character of what `strconv.Atoi` gives where it fails: of the largest `int64` for
too many digits, and of 0 for a `k` among them. -/
def failedCheck (front : Bytes) : UInt8 := if outOfRange front then byte '2' else byte '0'

theorem atoiValue_failed {front : Bytes} (isCheck : ∀ b ∈ front, IsCheck b)
    (failed : ¬NumberRead front) :
    atoiValue front = if outOfRange front then maxInt64 else 0 := by
  have parsed : ∀ n, parseUnsigned front = some n → 2 ^ 63 ≤ n := by
    intro n read
    by_contra small
    simp only [parseUnsigned] at read
    split at read
    · cases read
    have numeric : ∀ b ∈ front, IsDigit b := parseDigits_bytes read
    rw [parseDigits_decimal numeric, Option.some.injEq] at read
    refine failed ⟨fun found => absurd (numeric _ found) (by decide), by omega⟩
  have none : atoi front = none := by
    unfold atoi parseInt
    split
    · exact absurd (isCheck 43 List.mem_cons_self) (by decide)
    · exact absurd (isCheck 45 List.mem_cons_self) (by decide)
    · cases read : parseUnsigned front with
      | none => rfl
      | some n =>
        have large := parsed n read
        rw [Option.map_some, Option.bind_some]
        exact if_neg fun bounds => by
          have := bounds.2
          simp only [Int.ofNat_eq_natCast] at this
          omega
  unfold atoiValue
  simp only [none]
  split
  · exact absurd (isCheck 43 List.mem_cons_self) (by decide)
  · exact absurd (isCheck 45 List.mem_cons_self) (by decide)
  · rfl

theorem nidCl_failed {rt : Runtime} {nid front : Bytes} {last : UInt8} (long : 8 ≤ nid.length)
    (kept : digitsOrK (rt.toLower nid) = front ++ [last]) (failed : ¬NumberRead front) :
    nidCl rt nid = some true ↔ last = failedCheck front := by
  have isCheck : ∀ b ∈ front, IsCheck b := fun b found =>
    isCheck_of_mem (kept ▸ List.mem_append_left _ found)
  have largest : checkText (rutLoop maxInt64 0 2) = [byte '2'] := by decide +kernel
  have zero : checkText (rutLoop 0 0 2) = [byte '0'] := by decide +kernel
  rw [nidCl_snoc long kept, atoiValue_failed isCheck failed, Option.some.injEq, decide_eq_true_eq,
    failedCheck]
  split
  · rw [largest, List.cons.injEq, and_iff_left rfl, eq_comm]
  · rw [zero, List.cons.injEq, and_iff_left rfl, eq_comm]

/-! ## The American identifier -/

def Follows (a b : UInt8) : Prop := digitToInt b = digitToInt a + 1

def Repeats (a b : UInt8) : Prop := digitToInt a = digitToInt b

theorem foldl_step (text : Bytes) (first : UInt8) (runs : Runs) (prev : runs.prev = digitToInt first) :
    ((text.foldl Runs.step runs).sequence = true ↔
      runs.sequence = true ∧ (first :: text).IsChain Follows) ∧
    ((text.foldl Runs.step runs).equals = true ↔
      runs.equals = true ∧ (first :: text).IsChain Repeats) := by
  induction text generalizing first runs with
  | nil => simp
  | cons d rest ih =>
    obtain ⟨sequence, equals⟩ := ih d (runs.step d) rfl
    rw [List.foldl_cons, sequence, equals, List.isChain_cons_cons, List.isChain_cons_cons]
    simp only [Runs.step, prev, Follows, Repeats]
    constructor <;> split <;> simp_all

/-- A number of nine digits or more whose parts are in use, and whose digits neither count
up nor are all the same. -/
structure Plausible (text : Bytes) : Prop where
  long : 9 ≤ text.length
  area : decimal (text.take 3) ≠ 0 ∧ decimal (text.take 3) < 740 ∧ decimal (text.take 3) ≠ 666
  group : decimal ((text.take 5).drop 3) ≠ 0
  serial : decimal ((text.take 9).drop 5) ≠ 0
  counting : ¬text.IsChain Follows
  constant : ¬text.IsChain Repeats

theorem atoiValue_part {text : Bytes} (numeric : ∀ b ∈ text, IsDigit b) (low : Nat) {high : Nat}
    (few : high ≤ 18) : atoiValue ((text.take high).drop low) = decimal ((text.take high).drop low) := by
  have part : ∀ b ∈ (text.take high).drop low, IsDigit b := fun b found =>
    numeric b (List.mem_of_mem_take (List.mem_of_mem_drop found))
  have length : ((text.take high).drop low).length ≤ 18 := by
    rw [List.length_drop, List.length_take]
    omega
  refine atoiValue_decimal part ((decimal_lt part).trans ?_)
  exact (Nat.pow_le_pow_right (by decide) length).trans_lt (by decide)

theorem nidUs_accepts (nid : Bytes) :
    ∃ accepted, nidUs nid = some accepted ∧ (accepted = true ↔ Plausible (digitsOnly nid)) := by
  have numeric : ∀ b ∈ digitsOnly nid, IsDigit b := fun b found => by
    simpa [digitsOnly] using (List.mem_filter.mp found).2
  simp only [nidUs]
  generalize digitsOnly nid = text at numeric
  by_cases short : text.length < 9
  · exact ⟨false, if_pos short, by simp, fun genuine => by have := genuine.long; omega⟩
  obtain ⟨first, rest, rfl⟩ := List.exists_cons_of_length_pos (show 0 < text.length by omega)
  have area := slice?_eq 0 3 (by decide) (show 3 ≤ (first :: rest).length by omega)
  have group := slice?_eq 3 5 (by decide) (show 5 ≤ (first :: rest).length by omega)
  have serial := slice?_eq 5 9 (by decide) (show 9 ≤ (first :: rest).length by omega)
  obtain ⟨sequence, equals⟩ := foldl_step rest first { prev := digitToInt first } rfl
  simp only [Nat.cast_zero, Nat.cast_ofNat] at area group serial
  simp only [true_and] at sequence equals
  simp only [if_neg short, area, group, serial, Option.bind_eq_bind, Option.bind_some,
    atoiValue_part numeric 0 (by decide : 3 ≤ 18), atoiValue_part numeric 3 (by decide : 5 ≤ 18),
    atoiValue_part numeric 5 (by decide : 9 ≤ 18), List.getElem?_cons_zero, List.drop_one,
    List.tail_cons]
  split
  · next unused =>
      refine ⟨false, rfl, by simp, fun genuine => ?_⟩
      have := genuine.area
      have := genuine.group
      have := genuine.serial
      rw [List.drop_zero] at unused
      omega
  · next used =>
      rw [List.drop_zero] at used
      refine ⟨_, rfl, ?_⟩
      rw [Bool.and_eq_true, Bool.not_eq_true', Bool.not_eq_true', ← Bool.not_eq_true,
        ← Bool.not_eq_true, sequence, equals]
      constructor
      · rintro ⟨counting, constant⟩
        exact ⟨by omega, by omega, by omega, by omega, counting, constant⟩
      · intro genuine
        exact ⟨genuine.counting, genuine.constant⟩

/-! ## The operator -/

/-- The number is read, or the check character of what is read in its place stands behind it
exactly if its own does. -/
def ReadOrMet (kept : Bytes) : Prop :=
  NumberRead kept.dropLast ∨ (kept.getLast? = some (failedCheck kept.dropLast) ↔ Checked kept)

/-- `nidUs` always returns, and `nidCl` if it keeps any character.  Then it accepts a number with
its check character exactly if the number is read or nothing depends on it. -/
theorem validateNid_checks (rt : Runtime) (nid : Bytes) :
    (nidUs nid).isSome ∧
    ((nidCl rt nid).isSome ↔ nid.length < 8 ∨ digitsOrK (rt.toLower nid) ≠ []) ∧
    (8 ≤ nid.length → digitsOrK (rt.toLower nid) ≠ [] →
      ((nidCl rt nid = some true ↔ Checked (digitsOrK (rt.toLower nid))) ↔
        ReadOrMet (digitsOrK (rt.toLower nid)))) := by
  obtain ⟨accepted, returned, _⟩ := nidUs_accepts nid
  refine ⟨Option.isSome_of_eq_some returned, nidCl_isSome_iff, fun long given => ?_⟩
  have kept := (List.dropLast_append_getLast given).symm
  by_cases read : NumberRead (digitsOrK (rt.toLower nid)).dropLast
  · have exact := nidCl_iff long kept read.1 read.2
    rw [← kept] at exact
    exact ⟨fun _ => .inl read, fun _ => exact⟩
  · rw [nidCl_failed long kept read, ReadOrMet, or_iff_right read,
      List.getLast?_eq_some_getLast given, Option.some.injEq]

/-- A number that is read, and one with a `k` inside that is refused all the same. -/
theorem validateNid_checks_rut :
    (nidCl Host.plain.toRuntime (str "12.345.678-5") = some true ∧ Checked (str "123456785")) ∧
    nidCl Host.plain.toRuntime (str "1k234567") ≠ some true := by
  have accepted : nidCl Host.plain.toRuntime (str "12.345.678-5") = some true := by decide +kernel
  have inner : ¬Checked (str "1k23456" ++ [byte '7']) := by
    rw [checked_snoc]
    decide +kernel
  refine ⟨⟨accepted, ?_⟩, ?_⟩
  · exact (((validateNid_checks Host.plain.toRuntime (str "12.345.678-5")).2.2 (by decide)
      (by decide)).mpr (.inl (by decide))).mp accepted
  · have exact := ((validateNid_checks Host.plain.toRuntime (str "1k234567")).2.2 (by decide)
      (by decide)).mpr (.inr ⟨fun met => absurd met (by decide +kernel), fun checked =>
        absurd checked inner⟩)
    exact fun other => inner (exact.mp other)

/-- A text without any digit panics, one with a `k` among its digits is taken for the
number 0, and more digits than an `int64` has are taken for its largest value. -/
theorem nidCl_unchecked :
    nidCl Host.plain.toRuntime (str "--------") = none ∧
    (nidCl Host.plain.toRuntime (str "1k234560") = some true ∧ ¬Checked (str "1k234560")) ∧
    (nidCl Host.plain.toRuntime (str "999999999999999999992") = some true ∧
      ¬Checked (str "999999999999999999992")) := by
  have inner : ¬Checked (str "1k23456" ++ [byte '0']) := by
    rw [checked_snoc]
    decide +kernel
  have many : ¬Checked (str "99999999999999999999" ++ [byte '2']) := by
    rw [checked_snoc]
    decide +kernel
  exact ⟨by decide, ⟨by decide +kernel, inner⟩, by decide +kernel, many⟩

theorem validateNidLoop_found {fn : Bytes → Option Bool} {ms : List (List Bytes)}
    (whole : ∀ m ∈ ms, ∃ text, m[0]? = some text ∧ (fn text).isSome) (i : Nat) :
    ∃ res effects, validateNidLoop fn i ms = some (res, effects) ∧
      (res = true ↔ ∃ m ∈ ms.take (10 - i), ∃ text, m[0]? = some text ∧ fn text = some true) := by
  induction ms generalizing i with
  | nil => exact ⟨false, [], rfl, by simp⟩
  | cons m rest ih =>
    obtain ⟨text, first, returns⟩ := whole m List.mem_cons_self
    obtain ⟨valid, accepted⟩ := Option.isSome_iff_exists.mp returns
    obtain ⟨res, effects, looped, found⟩ :=
      ih (fun m member => whole m (List.mem_cons_of_mem _ member)) (i + 1)
    by_cases enough : 10 ≤ i
    · refine ⟨false, [], if_pos enough, ?_⟩
      simp [show 10 - i = 0 by omega]
    · have one : validateNidLoop fn i (m :: rest) =
          some (valid || res, if valid then .captureField i text :: effects else effects) := by
        rw [validateNidLoop, if_neg enough, first]
        simp only [Option.bind_eq_bind, Option.bind_some, accepted, looped]
      refine ⟨_, _, one, ?_⟩
      rw [show 10 - i = 10 - (i + 1) + 1 by omega, List.take_succ_cons]
      simp [found, first, accepted]

/-- `Evaluate` accepts a value if one of its first ten matches is an American identifier. -/
theorem validateNid_us (rt : Runtime) {findAll : Bytes → Nat → List (List Bytes)} {value : Bytes}
    (whole : ∀ m ∈ findAll value 11, m ≠ []) :
    ∃ res effects, validateNid rt .us findAll value = some (res, effects) ∧
      (res = true ↔ ∃ m ∈ (findAll value 11).take 10, ∃ text, m[0]? = some text ∧
        Plausible (digitsOnly text)) := by
  have returns : ∀ m ∈ findAll value 11, ∃ text, m[0]? = some text ∧ (nidUs text).isSome := by
    intro m found
    obtain ⟨text, rest, rfl⟩ := List.exists_cons_of_ne_nil (whole m found)
    obtain ⟨accepted, returned, _⟩ := nidUs_accepts text
    exact ⟨text, rfl, Option.isSome_of_eq_some returned⟩
  have genuine : ∀ text, nidUs text = some true ↔ Plausible (digitsOnly text) := by
    intro text
    obtain ⟨accepted, returned, meaning⟩ := nidUs_accepts text
    rw [returned, Option.some.injEq, meaning]
  have found := validateNidLoop_found returns 0
  simp only [genuine] at found
  exact found

end Obsidian.Operators
