import Obsidian.Transformations.RoundTrips

namespace Obsidian.Operators

open Obsidian.Data
open Obsidian.Transformations hiding none

/-! # Validation of URL encodings

`@validateUrlEncoding` with its loop over indices; `none` is an index out of range.  What it accepts
is what `urlDecode` decodes.
-/

def isURLHex (c : UInt8) : Bool :=
  (byte '0' ≤ c ∧ c ≤ byte '9') ∨ (byte 'a' ≤ c ∧ c ≤ byte 'f') ∨ (byte 'A' ≤ c ∧ c ≤ byte 'F')

/-- The index, and what the function has returned. -/
structure URLScan where
  i : Nat := 0
  rc : Option Int := none
deriving DecidableEq

def validateRound (input : Bytes) (inputLen : Nat) (s : URLScan) : Option URLScan := do
  let c ← input[s.i]?
  if c = byte '%' then
    if s.i + 2 ≥ inputLen then some { s with rc := some (-3) }
    else
      let c1 ← input[s.i + 1]?
      let c2 ← input[s.i + 2]?
      if isURLHex c1 ∧ isURLHex c2 then some { s with i := s.i + 3 }
      else some { s with rc := some (-2) }
  else some { s with i := s.i + 1 }

def validateURLEncodingInternal (input : Bytes) (inputLen : Nat) : Option Int :=
  if inputLen = 0 then some (-1)
  else
    (whileLoop (fun s => s.rc = none ∧ s.i < inputLen) (validateRound input inputLen) inputLen {}).map
      fun s => s.rc.getD 1

/-- `Evaluate`: whether the value violates the encoding. -/
def validateURLEncoding (value : Bytes) : Option Bool :=
  if value.length = 0 then some false
  else (validateURLEncodingInternal value value.length).map fun rc => rc ≠ 1

/-! ## The grammar -/

inductive URLToken : Bytes → Prop
  | plain (b : UInt8) : b ≠ byte '%' → URLToken [b]
  | escape (high low : UInt8) : isURLHex high = true → isURLHex low = true →
      URLToken [byte '%', high, low]

/-- A text put together from bytes other than the percent sign and from escapes. -/
def WellEncoded (text : Bytes) : Prop :=
  ∃ tokens : List Bytes, (∀ token ∈ tokens, URLToken token) ∧ tokens.flatten = text

theorem wellEncoded_nil : WellEncoded [] := ⟨[], nofun, rfl⟩

theorem WellEncoded.cons {token text : Bytes} (first : URLToken token) (rest : WellEncoded text) :
    WellEncoded (token ++ text) := by
  obtain ⟨tokens, each, rfl⟩ := rest
  exact ⟨token :: tokens, List.forall_mem_cons.mpr ⟨first, each⟩, rfl⟩

theorem WellEncoded.split {b : UInt8} {rest : Bytes} (encoded : WellEncoded (b :: rest)) :
    (b ≠ byte '%' ∧ WellEncoded rest) ∨
      b = byte '%' ∧ ∃ high low later, rest = high :: low :: later ∧ isURLHex high = true ∧
        isURLHex low = true ∧ WellEncoded later := by
  obtain ⟨tokens, each, joined⟩ := encoded
  cases tokens with
  | nil => cases joined
  | cons token tokens =>
    rw [List.forall_mem_cons] at each
    rw [List.flatten_cons] at joined
    obtain ⟨first, others⟩ := each
    cases first with
    | plain c other =>
      cases joined
      exact .inl ⟨other, tokens, others, rfl⟩
    | escape high low validHigh validLow =>
      cases joined
      exact .inr ⟨rfl, high, low, tokens.flatten, rfl, validHigh, validLow, tokens, others, rfl⟩

theorem wellEncoded_plain_iff {b : UInt8} {rest : Bytes} (other : b ≠ byte '%') :
    WellEncoded (b :: rest) ↔ WellEncoded rest := by
  constructor
  · intro encoded
    rcases encoded.split with ⟨_, later⟩ | ⟨percent, _⟩
    · exact later
    · exact absurd percent other
  · intro later
    exact .cons (.plain b other) later

theorem wellEncoded_escape_iff {high low : UInt8} {rest : Bytes} (validHigh : isURLHex high = true)
    (validLow : isURLHex low = true) :
    WellEncoded (byte '%' :: high :: low :: rest) ↔ WellEncoded rest := by
  constructor
  · intro encoded
    rcases encoded.split with ⟨other, _⟩ | ⟨_, _, _, later, same, _, _, encoded⟩
    · exact absurd rfl other
    · cases same
      exact encoded
  · intro later
    exact .cons (.escape high low validHigh validLow) later

/-! ## The loop -/

/-- What is known at an index: the text is well encoded if nothing was returned and the rest is. -/
structure Scanned (input : Bytes) (s : URLScan) : Prop where
  within : s.i ≤ input.length
  encoded : WellEncoded input ↔ s.rc = none ∧ WellEncoded (input.drop s.i)
  violation : s.rc ≠ some 1

theorem Scanned.fail {input : Bytes} {s : URLScan} {rc : Int} (scanned : Scanned input s)
    (violates : ¬WellEncoded (input.drop s.i)) (other : rc ≠ 1) :
    Scanned input { s with rc := some rc } := by
  refine ⟨scanned.within, ?_, fun same => other (Option.some.inj same)⟩
  rw [scanned.encoded]
  exact iff_of_false (fun both => violates both.2) fun both => nomatch both.1

theorem Scanned.pass {input : Bytes} {s : URLScan} {k : Nat} (scanned : Scanned input s)
    (within : s.i + k ≤ input.length)
    (same : WellEncoded (input.drop s.i) ↔ WellEncoded (input.drop (s.i + k))) :
    Scanned input { s with i := s.i + k } :=
  ⟨within, by rw [scanned.encoded, same], scanned.violation⟩

theorem Scanned.percent {input rest : Bytes} {s : URLScan} (scanned : Scanned input s)
    (here : input.drop s.i = byte '%' :: rest) :
    ∃ next, validateRound input input.length s = some next ∧ Scanned input next ∧
      (next.rc ≠ none ∨ s.i < next.i) := by
  have length := length_of_drop here
  have first := getElem?_of_drop here
  by_cases short : s.i + 2 ≥ input.length
  · have violates : ¬WellEncoded (input.drop s.i) := by
      rw [here]
      intro encoded
      rcases encoded.split with ⟨other, _⟩ | ⟨_, _, _, later, rfl, _⟩
      · exact other rfl
      · simp only [List.length_cons] at length
        omega
    refine ⟨{ s with rc := some (-3) }, ?_, scanned.fail violates (by decide), .inl nofun⟩
    simp [validateRound, first, short]
  · obtain ⟨c1, c2, later, rfl⟩ : ∃ c1 c2 later, rest = c1 :: c2 :: later := by
      cases rest with
      | nil => simp at length; omega
      | cons c1 rest =>
        cases rest with
        | nil => simp at length; omega
        | cons c2 later => exact ⟨c1, c2, later, rfl⟩
    have second : input[s.i + 1]? = some c1 := getElem?_add_of_drop here 1
    have third : input[s.i + 2]? = some c2 := getElem?_add_of_drop here 2
    by_cases hex : isURLHex c1 = true ∧ isURLHex c2 = true
    · have behind : input.drop (s.i + 3) = later := drop_add_of_drop here 3
      refine ⟨{ s with i := s.i + 3 }, ?_, scanned.pass ?_ ?_, .inr (Nat.lt_add_of_pos_right (by decide))⟩
      · simp [validateRound, first, short, second, third, hex]
      · simp only [List.length_cons] at length
        omega
      · rw [here, behind]
        exact wellEncoded_escape_iff hex.1 hex.2
    · have violates : ¬WellEncoded (input.drop s.i) := by
        rw [here]
        intro encoded
        rcases encoded.split with ⟨other, _⟩ | ⟨_, _, _, _, same, validHigh, validLow, _⟩
        · exact other rfl
        · cases same
          exact hex ⟨validHigh, validLow⟩
      refine ⟨{ s with rc := some (-2) }, ?_, scanned.fail violates (by decide), .inl nofun⟩
      simp [validateRound, first, short, second, third, hex]

theorem Scanned.plain {input rest : Bytes} {s : URLScan} {b : UInt8} (scanned : Scanned input s)
    (here : input.drop s.i = b :: rest) (other : b ≠ byte '%') :
    ∃ next, validateRound input input.length s = some next ∧ Scanned input next ∧
      (next.rc ≠ none ∨ s.i < next.i) := by
  have length := length_of_drop here
  have behind : input.drop (s.i + 1) = rest := drop_add_of_drop here 1
  refine ⟨{ s with i := s.i + 1 }, ?_, scanned.pass ?_ ?_, .inr (Nat.lt_succ_self _)⟩
  · simp [validateRound, getElem?_of_drop here, other]
  · omega
  · rw [here, behind]
    exact wellEncoded_plain_iff other

/-- The loop ends, and nothing was returned exactly if the text is well encoded. -/
theorem validateLoop_ends (input : Bytes) :
    ∃ last, whileLoop (fun s => s.rc = none ∧ s.i < input.length) (validateRound input input.length)
        input.length {} = some last ∧
      last.rc ≠ some 1 ∧ (last.rc = none ↔ WellEncoded input) := by
  have start : Scanned input {} := ⟨Nat.zero_le _, by simp, nofun⟩
  have step : ∀ s, Scanned input s → decide (s.rc = none ∧ s.i < input.length) = true →
      ∃ next, validateRound input input.length s = some next ∧ Scanned input next ∧
        (if next.rc = none then input.length - next.i else 0) <
          (if s.rc = none then input.length - s.i else 0) := by
    intro s scanned goes
    obtain ⟨going, inside⟩ := of_decide_eq_true goes
    have here := List.drop_eq_getElem_cons inside
    have moves : ∃ next, validateRound input input.length s = some next ∧ Scanned input next ∧
        (next.rc ≠ none ∨ s.i < next.i) := by
      by_cases percent : input[s.i] = byte '%'
      · rw [percent] at here
        exact scanned.percent here
      · exact scanned.plain here percent
    obtain ⟨next, runs, kept, progress⟩ := moves
    refine ⟨next, runs, kept, ?_⟩
    rw [if_pos going]
    split_ifs with still
    · have further := progress.resolve_left (not_not_intro still)
      omega
    · omega
  obtain ⟨last, runs, scanned, ended⟩ :=
    whileLoop_total step start (by rw [if_pos rfl, Nat.sub_zero])
  refine ⟨last, runs, scanned.violation, ?_⟩
  have ended := of_decide_eq_false ended
  rw [scanned.encoded]
  constructor
  · intro going
    have beyond : input.length ≤ last.i := Nat.not_lt.mp fun inside => ended ⟨going, inside⟩
    rw [List.drop_eq_nil_of_le beyond]
    exact ⟨going, wellEncoded_nil⟩
  · exact And.left

/-! ## The decoder -/

theorem isURLHex_iff : ∀ c : UInt8, isURLHex c = true → validHex c = true ∧ c ≠ byte '%' := by
  apply Indexed.forall_byte
  decide +kernel

theorem length_rewrite_wellEncoded {tokens : List Bytes} (each : ∀ token ∈ tokens, URLToken token) :
    (rewrite Indexed.urlPiece tokens.flatten).1.length + 2 * tokens.flatten.count (byte '%') =
      tokens.flatten.length := by
  induction tokens with
  | nil => rfl
  | cons token tokens ih =>
    rw [List.forall_mem_cons] at each
    have later := ih each.2
    cases each.1 with
    | plain b other =>
      have piece : Indexed.urlPiece b tokens.flatten = { out := [plusSpace b] } := by
        rw [Indexed.urlPiece, if_neg other]
      rw [List.flatten_cons, List.singleton_append, rewrite_cons, piece, List.drop_zero,
        List.count_cons_of_ne other]
      simp only [List.length_append, List.length_cons, List.length_nil]
      omega
    | escape high low validHigh validLow =>
      obtain ⟨hexHigh, otherHigh⟩ := isURLHex_iff high validHigh
      obtain ⟨hexLow, otherLow⟩ := isURLHex_iff low validLow
      have piece := urlPiece_undoes.percent high low tokens.flatten hexHigh hexLow
      rw [List.flatten_cons]
      change (rewrite Indexed.urlPiece (byte '%' :: high :: low :: tokens.flatten)).1.length +
        2 * (byte '%' :: high :: low :: tokens.flatten).count (byte '%') =
          (byte '%' :: high :: low :: tokens.flatten).length
      rw [rewrite_cons, piece, List.count_cons_self, List.count_cons_of_ne otherHigh,
        List.count_cons_of_ne otherLow]
      simp only [List.length_append, List.length_cons, List.length_nil, List.drop_succ_cons,
        List.drop_zero]
      omega

/-- The operator reports no violation exactly for well encoded values, and every percent sign of such
a value is decoded. -/
theorem validateURLEncoding_agrees (value : Bytes) :
    (∃ violates, validateURLEncoding value = some violates) ∧
      (validateURLEncoding value = some false ↔ WellEncoded value) ∧
      (validateURLEncoding value = some false →
        (Indexed.urlDecode value).map (·.1.length) =
          some (value.length - 2 * value.count (byte '%'))) := by
  have accepts : (∃ violates, validateURLEncoding value = some violates) ∧
      (validateURLEncoding value = some false ↔ WellEncoded value) := by
    unfold validateURLEncoding
    split_ifs with empty
    · rw [List.length_eq_zero_iff.mp empty]
      exact ⟨⟨false, rfl⟩, iff_of_true rfl wellEncoded_nil⟩
    · obtain ⟨last, runs, other, encoded⟩ := validateLoop_ends value
      rw [validateURLEncodingInternal, if_neg empty, runs, Option.map_some, Option.map_some, ← encoded]
      refine ⟨⟨_, rfl⟩, ?_⟩
      cases returned : last.rc with
      | none => simp
      | some rc =>
        have violates : rc ≠ 1 := fun same => other (by rw [returned, same])
        simp [violates]
  refine ⟨accepts.1, accepts.2, fun valid => ?_⟩
  obtain ⟨tokens, each, rfl⟩ := accepts.2.mp valid
  have length := length_rewrite_wellEncoded each
  rw [Indexed.urlDecode_eq, Option.map_some, urlDecode_fst]
  exact congrArg some (by omega)

end Obsidian.Operators
