import Obsidian.Transformations.Registry
import Mathlib.Data.List.Chain
import Mathlib.Data.List.Infix

namespace Obsidian

open Obsidian.Data

/-! # What the changed flag tells

A transformation reports whether it changed its input next to the output.  For
each registered one, this module says on which inputs that report is right.
-/

/-- The transformation does not call its output unchanged when it is not. -/
def Transformation.Honest (t : Transformation) (value : Bytes) : Prop :=
  ∀ next, t value = (next, false, none) → next = value

theorem honest_of_pair {value next : Bytes} {changed : Bool} {t : Transformation}
    (result : t value = (next, changed, none)) :
    t.Honest value ↔ (changed = false → next = value) := by
  constructor
  · intro honest unchanged
    exact honest next (unchanged ▸ result)
  · intro told other same
    rw [result] at same
    cases same
    exact told rfl

theorem honest_of_changed {value next : Bytes} {t : Transformation}
    (result : t value = (next, true, none)) : t.Honest value :=
  (honest_of_pair result).mpr fun unchanged => by cases unchanged

theorem honest_of_same {value : Bytes} {changed : Bool} {t : Transformation}
    (result : t value = (value, changed, none)) : t.Honest value :=
  (honest_of_pair result).mpr fun _ => rfl

theorem honest_of_gate {gate : Prop} [Decidable gate] {value next : Bytes} {t : Transformation}
    (result : t value = if gate then (next, true, none) else (value, false, none)) :
    t.Honest value := by
  by_cases taken : gate
  · rw [if_pos taken] at result
    exact honest_of_changed result
  · rw [if_neg taken] at result
    exact honest_of_same result

theorem honest_of_ne {value next : Bytes} {t : Transformation}
    (result : t value = (next, decide (value ≠ next), none)) : t.Honest value := by
  rw [honest_of_pair result]
  intro same
  exact (not_not.mp (of_decide_eq_false same)).symm

theorem honest_of_length {value next : Bytes} {t : Transformation}
    (result : t value = (next, decide (value.length ≠ next.length), none)) :
    t.Honest value ↔ next = value ∨ next.length ≠ value.length := by
  rw [honest_of_pair result]
  simp only [decide_eq_false_iff_not, not_not]
  constructor
  · intro told
    by_cases same : value.length = next.length
    · exact .inl (told same)
    · exact .inr (Ne.symm same)
  · intro told same
    rcases told with equal | differ
    · exact equal
    · exact absurd same.symm differ

theorem honest_of_shorter {value next : Bytes} {t : Transformation}
    (result : t value = (next, decide (value.length ≠ next.length), none))
    (kept : next.length = value.length → next = value) : t.Honest value := by
  rw [honest_of_length result]
  exact (em (next.length = value.length)).imp_left kept

/-! ## Flags set in a loop -/

namespace Transformations

theorem urlEncodeLoop_unchanged {data : Bytes} (unchanged : (urlEncodeLoop data).2 = false) :
    (urlEncodeLoop data).1 = data := by
  induction data with
  | nil => rfl
  | cons cc rest ih =>
    simp only [urlEncodeLoop] at unchanged ⊢
    split at unchanged
    · cases unchanged
    · split at unchanged
      · next notSpace plain =>
          rw [if_neg notSpace, if_pos plain, ih unchanged]
      · cases unchanged

theorem jsEscape_cons (next : UInt8) (later : Bytes) :
    ∃ escape, jsEscape (next :: later) = some escape := by
  simp only [jsEscape]
  repeat' split
  all_goals exact ⟨_, rfl⟩

theorem jsDecodeLoop_unchanged {fuel : Nat} {data : Bytes} (enough : data.length ≤ fuel)
    (unchanged : (jsDecodeLoop fuel data).2 = false) : (jsDecodeLoop fuel data).1 = data := by
  induction fuel generalizing data with
  | zero => rw [List.length_eq_zero_iff.mp (Nat.le_zero.mp enough)]; rfl
  | succ fuel ih =>
    cases data with
    | nil => rfl
    | cons b rest =>
      simp only [jsDecodeLoop] at unchanged ⊢
      split
      · next backslash =>
          rw [if_pos backslash] at unchanged
          cases rest with
          | nil => rfl
          | cons next later =>
            obtain ⟨escape, found⟩ := jsEscape_cons next later
            rw [found] at unchanged
            cases unchanged
      · next plain =>
          rw [if_neg plain] at unchanged
          rw [ih (Nat.le_of_succ_le_succ enough) unchanged]

theorem jsDecode_honest (data : Bytes) : (jsDecode : Transformation).Honest data := by
  by_cases backslash : byte '\\' ∈ data
  · have result : jsDecode data =
        ((jsDecodeLoop data.length data).1, (jsDecodeLoop data.length data).2, .none) := by
      simp [jsDecode, backslash]
    exact (honest_of_pair result).mpr (jsDecodeLoop_unchanged (Nat.le_refl _))
  · exact honest_of_same (by simp [jsDecode, backslash]; rfl)

theorem hexDecode_honest (data : Bytes) : (hexDecode : Transformation).Honest data := by
  intro next result
  simp only [hexDecode] at result
  split at result <;> cases result

theorem removeCommentsCharLoop_unchanged {fuel : Nat} {data : Bytes}
    (enough : data.length ≤ fuel) (unchanged : (removeCommentsCharLoop fuel data).2 = false) :
    (removeCommentsCharLoop fuel data).1 = data := by
  induction fuel generalizing data with
  | zero => rw [List.length_eq_zero_iff.mp (Nat.le_zero.mp enough)]; rfl
  | succ fuel ih =>
    cases data with
    | nil => rfl
    | cons c rest =>
      simp only [removeCommentsCharLoop] at unchanged ⊢
      split at unchanged
      · cases unchanged
      · next noMark =>
          rw [if_neg noMark, ih (Nat.le_of_succ_le_succ enough) unchanged]

theorem replaceCommentsLoop_unchanged {fuel : Nat} {data : Bytes}
    (enough : data.length ≤ fuel) (unchanged : (replaceCommentsLoop fuel false data).2 = false) :
    (replaceCommentsLoop fuel false data).1 = data := by
  induction fuel generalizing data with
  | zero => rw [List.length_eq_zero_iff.mp (Nat.le_zero.mp enough)]; rfl
  | succ fuel ih =>
    cases data with
    | nil => rfl
    | cons c rest =>
      simp only [replaceCommentsLoop] at unchanged ⊢
      split at unchanged
      · cases unchanged
      · next noMark =>
          rw [if_neg noMark, ih (Nat.le_of_succ_le_succ enough) unchanged]

/-! ## White space -/

def noSpacePair (text : Bytes) : Prop :=
  text.IsChain fun a b => ¬(isLatinSpace a = true ∧ isLatinSpace b = true)

instance (text : Bytes) : Decidable (noSpacePair text) :=
  inferInstanceAs (Decidable (List.IsChain _ _))

def blank (c : UInt8) : UInt8 := if isLatinSpace c then byte ' ' else c

theorem compressLoop_unchanged_iff (inWhiteSpace : Bool) (text : Bytes) :
    (compressLoop inWhiteSpace text).2 = false ↔
      noSpacePair text ∧ (inWhiteSpace = true → ∀ c ∈ text.head?, isLatinSpace c = false) := by
  induction text generalizing inWhiteSpace with
  | nil => simp [compressLoop, noSpacePair]
  | cons c rest ih =>
    simp only [compressLoop, noSpacePair, List.isChain_cons] at ih ⊢
    by_cases space : isLatinSpace c = true
    · rw [if_pos space]
      cases inWhiteSpace with
      | true => simp [space]
      | false =>
        simp only [Bool.false_eq_true, if_false, ih]
        simp [space, and_comm]
    · rw [if_neg space]
      simp only [ih]
      simp [space]

theorem compressLoop_unchanged {inWhiteSpace : Bool} {text : Bytes}
    (unchanged : (compressLoop inWhiteSpace text).2 = false) :
    (compressLoop inWhiteSpace text).1 = text.map blank := by
  induction text generalizing inWhiteSpace with
  | nil => rfl
  | cons c rest ih =>
    simp only [compressLoop] at unchanged ⊢
    by_cases space : isLatinSpace c = true
    · rw [if_pos space] at unchanged ⊢
      cases inWhiteSpace with
      | true => cases unchanged
      | false =>
        simp only [Bool.false_eq_true, if_false] at unchanged ⊢
        rw [ih unchanged, List.map_cons, blank, if_pos space]
    · rw [if_neg space] at unchanged ⊢
      rw [ih unchanged, List.map_cons, blank, if_neg space]

theorem compressWhitespace_eq (value : Bytes) :
    compressWhitespace value =
      ((compressLoop false value).1, (compressLoop false value).2, .none) := by
  simp only [compressWhitespace]
  split
  · rfl
  · next noSpace =>
      have plain : ∀ c ∈ value, isLatinSpace c = false := by simpa using noSpace
      have unchanged : (compressLoop false value).2 = false := by
        rw [compressLoop_unchanged_iff]
        refine ⟨(List.pairwise_of_forall_mem_list ?_).isChain, by simp⟩
        intro a inA b _
        simp [plain a inA]
      rw [compressLoop_unchanged unchanged, unchanged,
        List.map_congr_left (g := id) (fun c found => by simp [blank, plain c found]), List.map_id]

theorem compressWhitespace_honest_iff (value : Bytes) :
    (compressWhitespace : Transformation).Honest value ↔
      (noSpacePair value → ∀ c ∈ value, isLatinSpace c = true → c = byte ' ') := by
  rw [honest_of_pair (compressWhitespace_eq value)]
  have unchanged_iff : (compressLoop false value).2 = false ↔ noSpacePair value := by
    simp [compressLoop_unchanged_iff]
  have same_iff : value.map blank = value ↔ ∀ c ∈ value, isLatinSpace c = true → c = byte ' ' := by
    rw [show (value.map blank = value) = (value.map blank = value.map id) by rw [List.map_id],
      List.map_inj_left]
    apply forall₂_congr
    intro c _
    by_cases space : isLatinSpace c = true
    · simp [blank, space, eq_comm]
    · simp [blank, space]
  constructor
  · intro told alone
    have unchanged := unchanged_iff.mpr alone
    rw [← same_iff, ← compressLoop_unchanged unchanged]
    exact told unchanged
  · intro told unchanged
    rw [compressLoop_unchanged unchanged, same_iff]
    exact told (unchanged_iff.mp unchanged)

theorem removeWhitespace_honest_iff (data : Bytes) :
    (removeWhitespace : Transformation).Honest data ↔
      ((runes data).any (fun r => isSpace r.code) = false → validString data = true) := by
  rw [honest_of_pair  rfl]
  apply forall_congr'
  intro noSpace
  apply mapRunes_eq_self_iff
  intro r found
  rw [List.any_eq_false] at noSpace
  rw [if_neg (noSpace r found)]

/-! ## Escape sequences -/

def startsEscape (text : Bytes) : Bool :=
  text.head? = some (byte '\\') ∧ (escapeSeq text.tail).isSome

/-- The text starts with a backslash that something follows. -/
def startsPair (text : Bytes) : Bool := text.head? = some (byte '\\') ∧ text.tail ≠ []

theorem escapeSeq_next {next : UInt8} {later : Bytes} (unknown : escapeSeq (next :: later) = .none) :
    next ≠ byte '\\' := by
  intro backslash
  subst backslash
  simp [escapeSeq, simpleEscape] at unknown

/-- Where a text begins with no escape, the loop drops the backslash of a pair and
keeps any other byte. -/
theorem escapeSeqLoop_spec {fuel : Nat} {text : Bytes} (enough : text.length ≤ fuel) :
    ((escapeSeqLoop fuel text).2 = true ↔ ∃ tail ∈ text.tails, startsEscape tail = true) ∧
      ((escapeSeqLoop fuel text).2 = false →
        (escapeSeqLoop fuel text).1.length ≤ text.length ∧
          ((escapeSeqLoop fuel text).1 = text ↔ ∀ tail ∈ text.tails, startsPair tail = false)) := by
  induction fuel generalizing text with
  | zero =>
    rw [List.length_eq_zero_iff.mp (Nat.le_zero.mp enough)]
    simp [escapeSeqLoop, startsEscape, startsPair]
  | succ fuel ih =>
    match text with
    | [] => simp [escapeSeqLoop, startsEscape, startsPair]
    | b :: rest =>
      simp only [List.length_cons] at enough
      simp only [escapeSeqLoop]
      split
      · next pair =>
          obtain ⟨backslash, more⟩ := pair
          subst backslash
          match rest, more with
          | next :: later, _ =>
            simp only [List.length_cons] at enough
            cases known : escapeSeq (next :: later) with
            | some escape => simp [startsEscape, known]
            | none =>
              have other := escapeSeq_next known
              have fits : later.length ≤ fuel := by omega
              obtain ⟨flag, kept⟩ := ih fits
              refine ⟨?_, fun unchanged => ?_⟩
              · simp [flag, startsEscape, known, other]
              · obtain ⟨short, _⟩ := kept unchanged
                have shorter : (escapeSeqLoop fuel later).1.length + 1 <
                    (byte '\\' :: next :: later).length := by
                  simp only [List.length_cons]
                  omega
                refine ⟨by simpa using Nat.le_of_lt shorter, ?_, ?_⟩
                · intro same
                  have lengths := congrArg List.length same
                  simp at lengths shorter
                  omega
                · intro none
                  have first := none _ (by simp : byte '\\' :: next :: later ∈ _)
                  simp [startsPair] at first
      · next single =>
          have fits : rest.length ≤ fuel := by omega
          obtain ⟨flag, kept⟩ := ih fits
          have noEscape : startsEscape (b :: rest) = false := by
            simp only [startsEscape, List.head?_cons, Option.some.injEq, List.tail_cons]
            by_cases backslash : b = byte '\\'
            · have last : rest = [] := by
                by_contra more
                exact single ⟨backslash, more⟩
              subst last
              simp [escapeSeq]
            · simp [backslash]
          have noPair : startsPair (b :: rest) = false := by
            simpa [startsPair] using single
          refine ⟨?_, fun unchanged => ?_⟩
          · simp [flag, noEscape]
          · obtain ⟨short, same⟩ := kept unchanged
            simp [noPair, same, short]

theorem escapeSeqDecode_honest_iff (input : Bytes) :
    (escapeSeqDecode : Transformation).Honest input ↔
      (∃ tail ∈ input.tails, startsEscape tail = true) ∨
        ∀ tail ∈ input.tails, startsPair tail = false := by
  by_cases backslash : byte '\\' ∈ input
  · have result : escapeSeqDecode input = ((escapeSeqLoop input.length input).1,
        (escapeSeqLoop input.length input).2, .none) := by
      simp [escapeSeqDecode, backslash]
    obtain ⟨flag, kept⟩ := escapeSeqLoop_spec (Nat.le_refl input.length)
    rw [honest_of_pair result]
    cases changed : (escapeSeqLoop input.length input).2 with
    | true => exact iff_of_true (fun same => by cases same) (.inl (flag.mp changed))
    | false =>
      have noEscape : ¬∃ tail ∈ input.tails, startsEscape tail = true := by
        rw [← flag, changed]
        decide
      simp only [noEscape, false_or, true_implies, (kept changed).2]
  · refine iff_of_true (honest_of_same (by simp [escapeSeqDecode, backslash]; rfl)) (.inr ?_)
    intro tail found
    have suffix := (List.mem_tails tail input).mp found
    simp only [startsPair, decide_eq_false_iff_not, not_and]
    intro head
    exact absurd (suffix.subset (List.mem_of_mem_head? head)) backslash

/-! ## Comments -/

/-- Every comment of the text is a block comment that closes.  The byte after the
mark that closes it is not looked at. -/
inductive BlocksOnly : (incomment : Bool) → Bytes → Prop
  | done : BlocksOnly false []
  | plain {c : UInt8} {rest : Bytes} (stays : commentOpen (c :: rest) = .none)
      (goesOn : lineComment (c :: rest) = false) (later : BlocksOnly false rest) :
      BlocksOnly false (c :: rest)
  | enter {c : UInt8} {rest : Bytes} {width : Nat} (mark : commentOpen (c :: rest) = some width)
      (later : BlocksOnly true ((c :: rest).drop width)) : BlocksOnly false (c :: rest)
  | inside {c : UInt8} {rest : Bytes} (stays : commentClose (c :: rest) = .none)
      (later : BlocksOnly true rest) : BlocksOnly true (c :: rest)
  | leave {c : UInt8} {rest : Bytes} {width : Nat} (mark : commentClose (c :: rest) = some width)
      (later : BlocksOnly false ((c :: rest).drop width).tail) : BlocksOnly true (c :: rest)

theorem commentOpen_width {text : Bytes} {width : Nat} (mark : commentOpen text = some width) :
    2 ≤ width := by
  simp only [commentOpen] at mark
  repeat' split at mark
  all_goals cases mark <;> decide

theorem opens_length {mark : String} {text : Bytes} (found : opens mark text = true) :
    (str mark).length ≤ text.length :=
  (List.isPrefixOf_iff_prefix.mp found).length_le

theorem commentClose_width {text : Bytes} {width : Nat} (mark : commentClose text = some width) :
    2 ≤ width ∧ width ≤ text.length := by
  simp only [commentClose] at mark
  split at mark
  · next found =>
      cases mark
      exact ⟨Nat.le_refl 2, opens_length found⟩
  · split at mark
    · next found =>
        cases mark
        exact ⟨Nat.le_succ 2, opens_length found⟩
    · cases mark

theorem removeCommentsLoop_unchanged_iff {fuel : Nat} {incomment : Bool} {text : Bytes}
    (enough : text.length ≤ fuel) :
    (removeCommentsLoop fuel incomment text).2 = false ↔ BlocksOnly incomment text := by
  induction fuel generalizing incomment text with
  | zero =>
    rw [List.length_eq_zero_iff.mp (Nat.le_zero.mp enough)]
    cases incomment with
    | false => exact ⟨fun _ => .done, fun _ => rfl⟩
    | true => exact ⟨fun unchanged => (by cases unchanged), fun blocks => by cases blocks⟩
  | succ fuel ih =>
    match text, incomment with
    | [], false => exact ⟨fun _ => .done, fun _ => rfl⟩
    | [], true => exact ⟨fun unchanged => (by cases unchanged), fun blocks => by cases blocks⟩
    | c :: rest, false =>
      simp only [List.length_cons] at enough
      simp only [removeCommentsLoop]
      cases mark : commentOpen (c :: rest) with
      | some width =>
        have wide := commentOpen_width mark
        rw [ih (by simp only [List.length_drop, List.length_cons]; omega)]
        constructor
        · intro later
          exact .enter mark later
        · intro blocks
          cases blocks with
          | plain stays _ _ => rw [mark] at stays; cases stays
          | enter other later => rw [mark] at other; cases other; exact later
      | none =>
        cases line : lineComment (c :: rest) with
        | true =>
          refine iff_of_false (by simp) ?_
          intro blocks
          cases blocks with
          | plain _ goesOn _ => rw [line] at goesOn; cases goesOn
          | enter other _ => rw [mark] at other; cases other
        | false =>
          simp only [Bool.false_eq_true, if_false]
          rw [ih (by omega)]
          constructor
          · intro later
            exact .plain mark line later
          · intro blocks
            cases blocks with
            | plain _ _ later => exact later
            | enter other _ => rw [mark] at other; cases other
    | c :: rest, true =>
      simp only [List.length_cons] at enough
      simp only [removeCommentsLoop]
      cases mark : commentClose (c :: rest) with
      | some width =>
        have wide := commentClose_width mark
        simp only
        rw [ih (by simp only [List.length_tail, List.length_drop, List.length_cons]; omega)]
        constructor
        · intro later
          exact .leave mark later
        · intro blocks
          cases blocks with
          | inside stays _ => rw [mark] at stays; cases stays
          | leave other later => rw [mark] at other; cases other; exact later
      | none =>
        simp only
        rw [ih (by omega)]
        constructor
        · intro later
          exact .inside mark later
        · intro blocks
          cases blocks with
          | inside _ later => exact later
          | leave other _ => rw [mark] at other; cases other

theorem exists_succ_of_length_le {c : UInt8} {rest : Bytes} {fuel : Nat}
    (enough : (c :: rest).length ≤ fuel) : ∃ less, fuel = less + 1 :=
  Nat.exists_eq_succ_of_ne_zero (Nat.ne_of_gt (Nat.lt_of_lt_of_le (Nat.succ_pos _) enough))

/-- Leaving a block comment out costs more bytes than the one it lets through. -/
theorem removeCommentsLoop_length {incomment : Bool} {text : Bytes}
    (blocks : BlocksOnly incomment text) {fuel : Nat} (enough : text.length ≤ fuel) :
    (removeCommentsLoop fuel incomment text).1.length + incomment.toNat ≤ text.length := by
  induction blocks generalizing fuel with
  | done => cases fuel <;> simp [removeCommentsLoop]
  | @plain c rest stays goesOn later ih =>
    obtain ⟨fuel, rfl⟩ := exists_succ_of_length_le enough
    have short := ih (Nat.le_of_succ_le_succ enough)
    simp only [removeCommentsLoop, stays, goesOn]
    simp at short ⊢
    omega
  | @enter c rest width mark later ih =>
    obtain ⟨fuel, rfl⟩ := exists_succ_of_length_le enough
    have wide := commentOpen_width mark
    simp only [List.length_cons] at enough
    have fits : ((c :: rest).drop width).length ≤ fuel := by
      simp only [List.length_drop, List.length_cons]
      omega
    have short := ih fits
    simp only [removeCommentsLoop, mark]
    simp only [List.length_drop, List.length_cons] at short ⊢
    simp at short ⊢
    omega
  | @inside c rest stays later ih =>
    obtain ⟨fuel, rfl⟩ := exists_succ_of_length_le enough
    have short := ih (Nat.le_of_succ_le_succ enough)
    simp only [removeCommentsLoop, stays]
    simp at short ⊢
    omega
  | @leave c rest width mark later ih =>
    obtain ⟨fuel, rfl⟩ := exists_succ_of_length_le enough
    have wide := commentClose_width mark
    simp only [List.length_cons] at enough
    have fits : ((c :: rest).drop width).tail.length ≤ fuel := by
      simp only [List.length_tail, List.length_drop, List.length_cons]
      omega
    have short := ih fits
    simp only [removeCommentsLoop, mark]
    simp only [List.length_tail, List.length_drop, List.length_cons] at short ⊢
    simp at short wide ⊢
    omega

theorem removeCommentsLoop_same_iff {text : Bytes} (blocks : BlocksOnly false text) {fuel : Nat}
    (enough : text.length ≤ fuel) :
    (removeCommentsLoop fuel false text).1 = text ↔ ∀ tail ∈ text.tails, commentOpen tail = .none := by
  induction text generalizing fuel with
  | nil => cases fuel <;> simp [removeCommentsLoop] <;> rfl
  | cons c rest ih =>
    obtain ⟨fuel, rfl⟩ := exists_succ_of_length_le enough
    cases blocks with
    | plain stays goesOn later =>
      have same := ih later (Nat.le_of_succ_le_succ enough)
      simp only [removeCommentsLoop, stays, goesOn, List.tails, List.forall_mem_cons]
      simp [same]
    | @enter _ _ width mark later =>
      have wide := commentOpen_width mark
      simp only [List.length_cons] at enough
      have fits : ((c :: rest).drop width).length ≤ fuel := by
        simp only [List.length_drop, List.length_cons]
        omega
      have short := removeCommentsLoop_length later fits
      refine iff_of_false ?_ ?_
      · intro same
        have lengths := congrArg List.length same
        simp only [removeCommentsLoop, mark, List.length_cons] at lengths
        simp only [List.length_drop, List.length_cons, Bool.toNat_true] at short
        omega
      · intro none
        have first := none (c :: rest) (by simp)
        rw [mark] at first
        cases first

theorem removeComments_honest_iff (value : Bytes) :
    (removeComments : Transformation).Honest value ↔
      (BlocksOnly false value → ∀ tail ∈ value.tails, commentOpen tail = .none) := by
  rw [honest_of_pair  rfl, removeCommentsLoop_unchanged_iff (Nat.le_refl _)]
  apply forall_congr'
  intro blocks
  exact removeCommentsLoop_same_iff blocks (Nat.le_refl _)

/-! ## Paths -/

theorem normalisePath_honest (data : Bytes) : (normalisePath : Transformation).Honest data := by
  simp only [Transformation.Honest, normalisePath]
  intro next result
  split at result
  · cases result
    rfl
  · split at result
    · cases result
    · split at result
      · cases result
      · simp only [Prod.mk.injEq, decide_eq_false_iff_not, not_not] at result
        exact result.1.symm.trans result.2.1.symm

theorem map_forwardSlash_eq_iff (data : Bytes) :
    data.map forwardSlash = data ↔ byte '\\' ∉ data := by
  rw [show (data.map forwardSlash = data) = (data.map forwardSlash = data.map id) by
    rw [List.map_id], List.map_inj_left]
  constructor
  · intro same found
    exact absurd (same _ found) (by decide)
  · intro none b found
    have other : b ≠ byte '\\' := by
      intro backslash
      exact none (backslash ▸ found)
    rw [forwardSlash, if_neg other]
    rfl

theorem slash_mem_of_backslash {data : Bytes} (found : byte '\\' ∈ data) :
    byte '/' ∈ data.map forwardSlash :=
  List.mem_map.mpr ⟨_, found, rfl⟩

/-- On a Windows path, the flag compares with the path whose backslashes have
been turned already. -/
theorem normalisePathWin_honest_iff (data : Bytes) :
    (normalisePathWin : Transformation).Honest data ↔
      byte '\\' ∉ data ∨ (data.map forwardSlash).getLast? = some (byte '/') ∨
        cleanPath (data.map forwardSlash) ≠ data.map forwardSlash := by
  by_cases empty : data.length < 1
  · rw [List.length_eq_zero_iff.mp (Nat.lt_one_iff.mp empty)]
    exact iff_of_true (honest_of_same rfl) (.inl (by simp))
  · have win : normalisePathWin data = normalisePath (data.map forwardSlash) := by
      rw [normalisePathWin, if_neg empty]
    have filled : ¬(data.map forwardSlash).length < 1 := by rwa [List.length_map]
    simp only [normalisePath, if_neg filled] at win
    by_cases dot : cleanPath (data.map forwardSlash) = str "."
    · rw [if_pos dot] at win
      refine iff_of_true (honest_of_changed win) ?_
      by_contra all
      simp only [not_or, not_not] at all
      have slash := slash_mem_of_backslash all.1
      rw [← all.2.2, dot] at slash
      exact absurd slash (by decide)
    · rw [if_neg dot] at win
      by_cases ends : (data.map forwardSlash).getLast? = some (byte '/')
      · rw [if_pos ends] at win
        exact iff_of_true (honest_of_changed win) (.inr (.inl ends))
      · rw [if_neg ends] at win
        rw [honest_of_pair win, ← map_forwardSlash_eq_iff]
        simp only [decide_eq_false_iff_not, not_not, ends, false_or]
        constructor
        · intro told
          by_cases clean : cleanPath (data.map forwardSlash) = data.map forwardSlash
          · exact .inl (clean.symm.trans (told clean.symm))
          · exact .inr clean
        · intro told clean
          rcases told with same | unclean
          · rw [← clean, same]
          · exact absurd clean.symm unclean

end Transformations

/-! ## All of them -/

namespace Registered

open Transformations

variable (rt : Runtime) (unescapeString : Bytes → Bytes)

/-- The inputs on which the transformation's flag is right. -/
def Told (t : Registered) (value : Bytes) : Prop :=
  match t with
  | .compressWhitespace =>
    noSpacePair value → ∀ c ∈ value, isLatinSpace c = true → c = byte ' '
  | .escapeSeqDecode =>
    (∃ tail ∈ value.tails, startsEscape tail = true) ∨
      ∀ tail ∈ value.tails, startsPair tail = false
  | .htmlEntityDecode =>
    unescapeString value = value ∨ (unescapeString value).length ≠ value.length
  | .normalisePathWin | .normalizePathWin =>
    byte '\\' ∉ value ∨ (value.map forwardSlash).getLast? = some (byte '/') ∨
      cleanPath (value.map forwardSlash) ≠ value.map forwardSlash
  | .removeComments =>
    BlocksOnly false value → ∀ tail ∈ value.tails, commentOpen tail = .none
  | .removeWhitespace =>
    (runes value).any (fun r => isSpace r.code) = false → validString value = true
  | _ => True

theorem honest_iff (t : Registered) (value : Bytes) :
    (t.function rt unescapeString).Honest value ↔ t.Told unescapeString value := by
  cases t with
  | compressWhitespace => exact compressWhitespace_honest_iff value
  | escapeSeqDecode => exact escapeSeqDecode_honest_iff value
  | htmlEntityDecode => exact honest_of_length rfl
  | normalisePathWin => exact normalisePathWin_honest_iff value
  | normalizePathWin => exact normalisePathWin_honest_iff value
  | removeComments => exact removeComments_honest_iff value
  | removeWhitespace => exact removeWhitespace_honest_iff value
  | base64Decode => exact iff_of_true (honest_of_changed rfl) trivial
  | base64DecodeExt => exact iff_of_true (honest_of_changed rfl) trivial
  | base64Encode => exact iff_of_true (honest_of_changed rfl) trivial
  | hexEncode => exact iff_of_true (honest_of_changed rfl) trivial
  | length => exact iff_of_true (honest_of_changed rfl) trivial
  | md5 => exact iff_of_true (honest_of_changed rfl) trivial
  | sha1 => exact iff_of_true (honest_of_changed rfl) trivial
  | none => exact iff_of_true (honest_of_same rfl) trivial
  | cmdLine => exact iff_of_true (honest_of_gate rfl) trivial
  | cssDecode => exact iff_of_true (honest_of_gate rfl) trivial
  | urlDecode => exact iff_of_true (honest_of_gate rfl) trivial
  | urlDecodeUni => exact iff_of_true (honest_of_gate rfl) trivial
  | utf8toUnicode => exact iff_of_true (honest_of_gate rfl) trivial
  | lowercase => exact iff_of_true (honest_of_ne rfl) trivial
  | uppercase => exact iff_of_true (honest_of_ne rfl) trivial
  | replaceNulls => exact iff_of_true (honest_of_ne rfl) trivial
  | normalisePath => exact iff_of_true (normalisePath_honest value) trivial
  | normalizePath => exact iff_of_true (normalisePath_honest value) trivial
  | hexDecode => exact iff_of_true (hexDecode_honest value) trivial
  | jsDecode => exact iff_of_true (jsDecode_honest value) trivial
  | urlEncode =>
    exact iff_of_true ((honest_of_pair rfl).mpr urlEncodeLoop_unchanged) trivial
  | removeCommentsChar =>
    exact iff_of_true
      ((honest_of_pair rfl).mpr (removeCommentsCharLoop_unchanged (Nat.le_refl _))) trivial
  | replaceComments =>
    exact iff_of_true
      ((honest_of_pair rfl).mpr (replaceCommentsLoop_unchanged (Nat.le_refl _))) trivial
  | removeNulls =>
    exact iff_of_true (honest_of_shorter rfl List.filter_sublist.eq_of_length) trivial
  | trim => exact iff_of_true (honest_of_shorter rfl trim_length) trivial
  | trimLeft => exact iff_of_true (honest_of_shorter rfl trimLeft_length) trivial
  | trimRight => exact iff_of_true (honest_of_shorter rfl trimRight_length) trivial

end Registered

end Obsidian
