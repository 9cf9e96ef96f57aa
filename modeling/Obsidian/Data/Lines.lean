import Obsidian.Data.Text
import Mathlib.Data.List.TakeWhile

namespace Obsidian.Data

/-! # Lines of a text

A text is cut at its newlines and put together again from lines.
-/

/-! ## The carriage return before a newline -/

theorem isContinuation_ascii {c : UInt8} (ascii : c < 0x80) : isContinuation c = false := by
  have low : ¬0x80 ≤ c := by
    simp only [UInt8.le_iff_toNat_le, UInt8.lt_iff_toNat_lt] at ascii ⊢
    omega
  simp [isContinuation, low]

/-- An ASCII byte behind a rune, and what follows it, do not change how it decodes. -/
theorem decodeRune_append_ascii {c : UInt8} (ascii : c < 0x80) (b0 : UInt8) (rest more : Bytes) :
    decodeRune b0 (rest ++ c :: more) = decodeRune b0 rest := by
  have stops := isContinuation_ascii ascii
  have missing : isContinuation 0 = false := rfl
  rcases rest with _ | ⟨b1, _ | ⟨b2, _ | ⟨b3, rest⟩⟩⟩ <;> simp [decodeRune, stops, missing]

theorem decodeRune_width_le (b0 : UInt8) (rest : Bytes) :
    (decodeRune b0 rest).2 ≤ rest.length + 1 := by
  simp only [decodeRune]
  repeat' split
  · exact Nat.succ_le_succ (Nat.zero_le _)
  · next two => have := getD_continues two.2.2; dsimp only; omega
  · next three => have := getD_continues three.2.2.2.1; dsimp only; omega
  · next four => have := getD_continues four.2.2.2.2.1; dsimp only; omega
  · exact Nat.succ_le_succ (Nat.zero_le _)

theorem runesFrom_fuel {fuel fuel' : Nat} {text : Bytes} (enough : text.length ≤ fuel)
    (enough' : text.length ≤ fuel') : runesFrom fuel text = runesFrom fuel' text := by
  induction fuel generalizing fuel' text with
  | zero =>
    rw [List.length_eq_zero_iff.mp (Nat.le_zero.mp enough)]
    cases fuel' <;> rfl
  | succ fuel ih =>
    cases text with
    | nil => cases fuel' <;> rfl
    | cons b rest =>
      have width := decodeRune_width b rest
      simp only [List.length_cons] at enough enough'
      obtain ⟨fuel', rfl⟩ : ∃ less, fuel' = less + 1 := ⟨fuel' - 1, by omega⟩
      have shorter : ((b :: rest).drop (decodeRune b rest).2).length ≤ rest.length := by
        simp only [List.length_drop, List.length_cons]
        omega
      exact congrArg (_ :: ·) (ih (shorter.trans (by omega)) (shorter.trans (by omega)))

theorem runes_cons (b : UInt8) (rest : Bytes) :
    runes (b :: rest) = ⟨(decodeRune b rest).1, (b :: rest).take (decodeRune b rest).2⟩ ::
      runes ((b :: rest).drop (decodeRune b rest).2) := by
  have width := decodeRune_width b rest
  have shorter : ((b :: rest).drop (decodeRune b rest).2).length ≤ rest.length := by
    simp only [List.length_drop, List.length_cons]
    omega
  exact congrArg (_ :: ·) (runesFrom_fuel shorter (Nat.le_refl _))

theorem decodeRune_ascii {c : UInt8} (ascii : c < 0x80) (rest : Bytes) :
    decodeRune c rest = (c.toNat, 1) :=
  if_pos ascii

theorem runes_cons_ascii {c : UInt8} (ascii : c < 0x80) (rest : Bytes) :
    runes (c :: rest) = ⟨c.toNat, [c]⟩ :: runes rest := by
  rw [runes, List.length_cons, runesFrom, decodeRune_ascii ascii]
  rfl

theorem runes_append_ascii {c : UInt8} (ascii : c < 0x80) (text more : Bytes) :
    runes (text ++ c :: more) = runes text ++ ⟨c.toNat, [c]⟩ :: runes more := by
  induction length : text.length using Nat.strongRecOn generalizing text with
  | ind size ih =>
    cases text with
    | nil => exact runes_cons_ascii ascii more
    | cons b rest =>
      have width := decodeRune_width b rest
      have fits : (decodeRune b rest).2 ≤ (b :: rest).length := by
        simpa using decodeRune_width_le b rest
      have shorter : ((b :: rest).drop (decodeRune b rest).2).length < size := by
        rw [List.length_drop, ← length]
        simp only [List.length_cons]
        omega
      have later := ih _ shorter _ rfl
      rw [← List.drop_append_of_le_length fits] at later
      rw [List.cons_append, runes_cons, decodeRune_append_ascii ascii, runes_cons b rest]
      simp only [← List.cons_append, later, List.take_append_of_le_length fits]

/-! ## Texts that are UTF-8 -/

theorem validString_append_ascii {c : UInt8} (ascii : c < 0x80) (text more : Bytes) :
    validString (text ++ c :: more) = (validString text && validString more) := by
  have small : c.toNat < 0x80 := UInt8.lt_iff_toNat_lt.mp ascii
  have solid : Rune.valid ⟨c.toNat, [c]⟩ = true := by
    have other : c.toNat ≠ runeError := by
      rw [runeError]
      omega
    simp [Rune.valid, other]
  simp only [validString, runes_append_ascii ascii, List.all_append, List.all_cons, solid,
    Bool.true_and]

theorem validString_cons_ascii {c : UInt8} (ascii : c < 0x80) (more : Bytes) :
    validString (c :: more) = validString more :=
  validString_append_ascii ascii [] more

theorem decodeRune_of_valid {b : UInt8} {rest : Bytes} (valid : validString (b :: rest) = true) :
    decodeRune b rest ≠ (runeError, 1) := by
  intro bad
  rw [validString, runes_cons, bad, List.all_cons, Bool.and_eq_true] at valid
  exact absurd valid.1 Bool.false_ne_true

theorem isContinuation_of_valid {b : UInt8} {rest : Bytes} (valid : validString (b :: rest) = true) :
    isContinuation b = false := by
  by_contra continues
  rw [Bool.not_eq_false, isContinuation_iff] at continues
  refine decodeRune_of_valid valid ?_
  simp only [decodeRune, UInt8.lt_iff_toNat_lt, UInt8.le_iff_toNat_le, UInt8.reduceToNat]
  rw [if_neg (by omega), if_neg (by omega), if_neg (by omega), if_neg (by omega)]

theorem continues_of_valid {b : UInt8} {rest : Bytes} (long : ¬b < 0x80)
    (valid : validString (b :: rest) = true) : isContinuation (rest.getD 0 0) = true := by
  by_contra stops
  refine decodeRune_of_valid valid ?_
  simp only [decodeRune, long, stops, if_false, and_false, false_and]

def isSolid (c : UInt8) : Bool := c < 0x80 && !isSpace c.toNat

theorem trimSpace_between {first last : UInt8} (solidFirst : isSolid first = true)
    (solidLast : isSolid last = true) (text : Bytes) :
    trimSpace (first :: text ++ [last]) = first :: text ++ [last] := by
  obtain ⟨asciiFirst, blackFirst⟩ := Bool.and_eq_true_iff.mp solidFirst
  obtain ⟨asciiLast, blackLast⟩ := Bool.and_eq_true_iff.mp solidLast
  have begins : runes (first :: text ++ [last]) = ⟨first.toNat, [first]⟩ :: runes (text ++ [last]) :=
    runes_cons_ascii (of_decide_eq_true asciiFirst) _
  have ends : runes (first :: text ++ [last]) = runes (first :: text) ++ [⟨last.toNat, [last]⟩] :=
    runes_append_ascii (of_decide_eq_true asciiLast) _ []
  simp only [trimSpace]
  rw [begins, List.dropWhile_cons_of_neg (by simpa using blackFirst), ← begins, ends,
    List.reverse_append, List.reverse_singleton, List.singleton_append,
    List.dropWhile_cons_of_neg (by simpa using blackLast), List.reverse_cons, List.reverse_reverse,
    ← ends, runes_bytes]

theorem trimSpace_singleton {c : UInt8} (solid : isSolid c = true) : trimSpace [c] = [c] := by
  obtain ⟨ascii, black⟩ := Bool.and_eq_true_iff.mp solid
  simp only [trimSpace]
  rw [runes_cons_ascii (of_decide_eq_true ascii)]
  simp [runes, runesFrom, show isSpace c.toNat = false by simpa using black]

theorem trimSpace_solid {text : Bytes} (solid : text.all isSolid = true) : trimSpace text = text := by
  rw [List.all_eq_true] at solid
  rcases List.eq_nil_or_concat text with rfl | ⟨begin, last, rfl⟩
  · rfl
  cases begin with
  | nil => exact trimSpace_singleton (solid last (by simp))
  | cons first middle =>
    rw [List.concat_eq_append]
    exact trimSpace_between (solid first (by simp)) (solid last (by simp)) middle

/-! ## Cuts -/

theorem cut_eq_none {sep : UInt8} {text : Bytes} : cut sep text = none ↔ sep ∉ text := by
  rw [cut, Option.map_eq_none_iff, List.idxOf?_eq_none_iff]

theorem cut_append {sep : UInt8} {before : Bytes} (first : sep ∉ before) (after : Bytes) :
    cut sep (before ++ sep :: after) = some (before, after) := by
  have here : (before ++ sep :: after).idxOf? sep = some before.length := by
    rw [List.idxOf?_eq_some_iff]
    refine ⟨by simp, by simp, ?_⟩
    intro index inside
    rw [List.getElem_append_left inside]
    exact fun same => first (same ▸ List.getElem_mem inside)
  rw [cut, here]
  simp

theorem cut_eq_some {sep : UInt8} {text before after : Bytes}
    (found : cut sep text = some (before, after)) : text = before ++ sep :: after := by
  have present : sep ∈ text := by
    by_contra absent
    rw [cut_eq_none.mpr absent] at found
    cases found
  obtain ⟨front, rest, rfl, first⟩ := List.eq_append_cons_of_mem present
  rw [cut_append first] at found
  cases found
  rfl

theorem eq_of_cut {sep : UInt8} {text before after : Bytes}
    (found : cut sep text = some (before, after)) : text = before ++ sep :: after := by
  obtain ⟨index, here, same⟩ := Option.map_eq_some_iff.mp found
  obtain ⟨inside, is, -⟩ := List.idxOf?_eq_some_iff.mp here
  cases same
  rw [← is, ← List.drop_eq_getElem_cons inside, List.take_append_drop]

end Obsidian.Data
