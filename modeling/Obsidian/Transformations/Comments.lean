import Obsidian.Data.Thinning
import Obsidian.Transformations.Cleaning

namespace Obsidian

open Obsidian.Data

/-! # Comments that are left

What `removeComments`, `replaceComments` and `removeCommentsChar` leave in a text.
-/

namespace Transformations

theorem opens_iff {mark : String} {text : Bytes} : opens mark text = true ↔ str mark <+: text :=
  List.isPrefixOf_iff_prefix

theorem opens_eq_false_iff {mark : String} {text : Bytes} :
    opens mark text = false ↔ ¬str mark <+: text := by
  rw [← opens_iff, Bool.not_eq_true]

/-! ## Replaced comments -/

theorem replaceCommentsLoop_thins (fuel : Nat) :
    (∀ text : Bytes, text.length ≤ fuel →
      Thins [str "/*"] (· = byte ' ') text (replaceCommentsLoop fuel false text).1) ∧
    ∀ text other : Bytes, text.length ≤ fuel →
      Thins [str "/*"] (· = byte ' ') other (replaceCommentsLoop fuel true text).1 := by
  induction fuel with
  | zero =>
    constructor
    · intro text enough
      rw [List.length_eq_zero_iff.mp (Nat.le_zero.mp enough)]
      exact .stop _
    · intro text other enough
      rw [List.length_eq_zero_iff.mp (Nat.le_zero.mp enough)]
      exact .skip rfl (.stop [])
  | succ fuel ih =>
    obtain ⟨outside, inside⟩ := ih
    constructor
    · intro text enough
      cases text with
      | nil => exact .stop _
      | cons c rest =>
        simp only [List.length_cons, Nat.add_le_add_iff_right] at enough
        simp only [replaceCommentsLoop]
        split
        · exact inside _ _ (by simp only [List.drop_succ_cons, List.length_drop]; omega)
        · next none =>
            refine .keep ?_ (outside rest enough)
            simpa [opens_iff] using none
    · intro text other enough
      cases text with
      | nil => exact .skip rfl (.stop [])
      | cons c rest =>
        simp only [List.length_cons, Nat.add_le_add_iff_right] at enough
        simp only [replaceCommentsLoop]
        split
        · exact .skip rfl (outside _ (by simp only [List.drop_succ_cons, List.length_drop]; omega))
        · exact inside rest other enough

theorem replaceCommentsLoop_copies {text : Bytes} (absent : ¬str "/*" <:+: text) {fuel : Nat}
    (enough : text.length ≤ fuel) : replaceCommentsLoop fuel false text = (text, false) := by
  induction text generalizing fuel with
  | nil => cases fuel <;> rfl
  | cons c rest ih =>
    obtain ⟨notHere, notLater⟩ := not_or.mp (mt List.infix_cons_iff.mpr absent)
    obtain ⟨fuel, rfl⟩ : ∃ more, fuel = more + 1 := ⟨fuel - 1, by simp at enough; omega⟩
    rw [replaceCommentsLoop, opens_eq_false_iff.mpr notHere, if_neg (by simp),
      ih notLater (by simpa using enough)]

theorem replaceComments_free (v : Bytes) : ¬str "/*" <:+: (replaceComments v).1 :=
  ((replaceCommentsLoop_thins v.length).1 v (Nat.le_refl _)).free (by decide +kernel) _ (by simp)

theorem replaceComments_copies {v : Bytes} (absent : ¬str "/*" <:+: v) : (replaceComments v).1 = v := by
  simp only [replaceComments, replaceCommentsLoop_copies absent (Nat.le_refl _)]

/-! ## Removed comments -/

/-- The marks at which `removeComments` does something outside a comment. -/
def openingMarks : List Bytes := [str "/*", str "<!--", str "--", str "#"]

/-- What is kept of a text, part by part: text that was searched for marks, and between such the
byte that takes the place of a comment.  That is the byte behind the closing mark, unseen. -/
def removedParts : Nat → (incomment : Bool) → Bytes → List Bytes
  | fuel + 1, false, c :: rest =>
    match commentOpen (c :: rest) with
    | some width => [] :: removedParts fuel true ((c :: rest).drop width)
    | .none =>
      if lineComment (c :: rest) then [[]]
      else (removedParts fuel false rest).modifyHead (c :: ·)
  | fuel + 1, true, c :: rest =>
    match commentClose (c :: rest) with
    | some width =>
      let after := (c :: rest).drop width
      [after.headD 0] :: removedParts fuel false after.tail
    | .none => removedParts fuel true rest
  | _, true, [] => [[byte ' ']]
  | _, _, _ => [[]]

/-- No byte copied in the place of a comment is a `#`, and none makes a mark with what is kept
around it. -/
def ClosesApart (text : Bytes) : Prop :=
  str "#" ∉ removedParts text.length false text ∧
    ¬Across openingMarks (removedParts text.length false text)

theorem commentOpen_two {text : Bytes} {width : Nat} (opened : commentOpen text = some width) :
    2 ≤ width ∧ width ≤ text.length := by
  simp only [commentOpen] at opened
  split at opened
  · next star =>
      cases opened
      exact ⟨le_rfl, (opens_iff.mp star).length_le⟩
  · split at opened
    · next dashes =>
        cases opened
        exact ⟨by decide, (opens_iff.mp dashes).length_le⟩
    · cases opened

theorem commentOpen_eq_none {text : Bytes} :
    commentOpen text = .none ↔ opens "/*" text = false ∧ opens "<!--" text = false := by
  simp only [commentOpen]
  repeat' split
  all_goals simp_all

theorem openingMarks_absent {c : UInt8} {rest : Bytes} (none : commentOpen (c :: rest) = .none)
    (noLine : lineComment (c :: rest) = false) : ∀ mark ∈ openingMarks, ¬mark <+: c :: rest := by
  have free := commentOpen_eq_none.mp none
  simp only [lineComment, Bool.or_eq_false_iff] at noLine
  simpa [openingMarks, ← opens_eq_false_iff] using ⟨free.1, free.2, noLine⟩

def Searched (part : Bytes) : Prop := ∀ mark ∈ openingMarks, ¬mark <:+: part

theorem Searched.cons {c : UInt8} {rest part : Bytes} (searched : Searched part) (front : part <+: rest)
    (none : ∀ mark ∈ openingMarks, ¬mark <+: c :: rest) : Searched (c :: part) := by
  intro mark listed inside
  rcases List.infix_cons_iff.mp inside with here | later
  · exact none mark listed (here.trans (List.cons_prefix_cons.mpr ⟨rfl, front⟩))
  · exact searched mark listed later

theorem searched_nil : Searched [] := by
  simp [Searched, openingMarks, List.infix_nil]
  decide

/-- Every part was searched or is a single byte, and outside of a comment the first is what comes
next in the text. -/
theorem removedParts_searched (fuel : Nat) (text : Bytes) :
    (∃ first rest, removedParts fuel false text = first :: rest ∧ first <+: text ∧ Searched first ∧
      ∀ part ∈ rest, Searched part ∨ ∃ b, part = [b]) ∧
    ∀ part ∈ removedParts fuel true text, Searched part ∨ ∃ b, part = [b] := by
  induction fuel generalizing text with
  | zero =>
    refine ⟨⟨[], [], by cases text <;> rfl, List.nil_prefix, searched_nil, by simp⟩, ?_⟩
    cases text with
    | nil => simp [removedParts]
    | cons c rest => simp [removedParts, searched_nil]
  | succ fuel ih =>
    cases text with
    | nil =>
      exact ⟨⟨[], [], rfl, List.nil_prefix, searched_nil, by simp⟩, by simp [removedParts]⟩
    | cons c rest =>
      constructor
      · simp only [removedParts]
        split
        · exact ⟨[], _, rfl, List.nil_prefix, searched_nil, (ih _).2⟩
        · next none =>
            split
            · exact ⟨[], [], rfl, List.nil_prefix, searched_nil, by simp⟩
            · next noLine =>
                obtain ⟨first, others, same, front, searched, each⟩ := (ih rest).1
                rw [same]
                refine ⟨c :: first, others, rfl, List.cons_prefix_cons.mpr ⟨rfl, front⟩, ?_, each⟩
                exact searched.cons front (openingMarks_absent none (by simpa using noLine))
      · simp only [removedParts]
        split
        · next width closed =>
            obtain ⟨first, others, same, -, searched, each⟩ := (ih ((c :: rest).drop width).tail).1
            rw [same]
            exact List.forall_mem_cons.mpr ⟨.inr ⟨_, rfl⟩,
              List.forall_mem_cons.mpr ⟨.inl searched, each⟩⟩
        · exact (ih rest).2

theorem removedParts_flatten (fuel : Nat) (incomment : Bool) (text : Bytes) :
    (removedParts fuel incomment text).flatten = (removeCommentsLoop fuel incomment text).1 := by
  induction fuel generalizing incomment text with
  | zero => cases incomment <;> cases text <;> rfl
  | succ fuel ih =>
    cases text with
    | nil => cases incomment <;> rfl
    | cons c rest =>
      cases incomment with
      | false =>
        simp only [removedParts, removeCommentsLoop]
        cases commentOpen (c :: rest) with
        | some width => exact ih true _
        | none =>
          cases lineComment (c :: rest) with
          | true => rfl
          | false =>
            obtain ⟨first, others, same, -⟩ := (removedParts_searched fuel rest).1
            have later := ih false rest
            rw [same] at later
            simp [same, ← later]
      | true =>
        simp only [removedParts, removeCommentsLoop]
        cases commentClose (c :: rest) with
        | some width => exact congrArg (_ :: ·) (ih false _)
        | none => exact ih true rest

theorem removeComments_free_iff (v : Bytes) :
    (∀ mark ∈ openingMarks, ¬mark <:+: (removeComments v).1) ↔ ClosesApart v := by
  have out : (removeComments v).1 = (removedParts v.length false v).flatten :=
    (removedParts_flatten v.length false v).symm
  have each : ∀ part ∈ removedParts v.length false v, Searched part ∨ ∃ b, part = [b] := by
    obtain ⟨first, rest, same, -, searched, each⟩ := (removedParts_searched v.length v).1
    rw [same]
    exact List.forall_mem_cons.mpr ⟨.inl searched, each⟩
  -- of the single bytes only a `#` is a mark
  have single : (∃ part ∈ removedParts v.length false v, ∃ mark ∈ openingMarks, mark <:+: part) ↔
      str "#" ∈ removedParts v.length false v := by
    constructor
    · rintro ⟨part, found, mark, listed, inside⟩
      rcases each part found with searched | ⟨b, rfl⟩
      · exact absurd inside (searched mark listed)
      · have long : ∀ mark ∈ openingMarks, mark = str "#" ∨ 2 ≤ mark.length := by decide
        rcases long mark listed with rfl | two
        · rwa [inside.eq_of_length rfl]
        · exact absurd (two.trans inside.length_le) (by simp)
    · exact fun found => ⟨_, found, str "#", by decide, List.infix_rfl⟩
  have empty : ¬∃ mark ∈ openingMarks, mark = [] := by decide
  have split := @infix_flatten_iff _ openingMarks (removedParts v.length false v)
  rw [← out, or_iff_right empty, single] at split
  rw [ClosesApart, ← not_or, ← split]
  simp only [not_exists, not_and]

theorem removeCommentsLoop_copies {text : Bytes} (absent : ∀ mark ∈ openingMarks, ¬mark <:+: text)
    {fuel : Nat} (enough : text.length ≤ fuel) :
    removeCommentsLoop fuel false text = (text, false) := by
  induction text generalizing fuel with
  | nil => cases fuel <;> rfl
  | cons c rest ih =>
    obtain ⟨fuel, rfl⟩ : ∃ more, fuel = more + 1 := ⟨fuel - 1, by simp at enough; omega⟩
    have notHere : ∀ mark ∈ openingMarks, ¬mark <+: c :: rest := fun mark listed here =>
      absent mark listed here.isInfix
    have notLater : ∀ mark ∈ openingMarks, ¬mark <:+: rest := fun mark listed later =>
      absent mark listed (List.infix_cons_iff.mpr (.inr later))
    simp only [openingMarks, List.forall_mem_cons, ← opens_eq_false_iff] at notHere
    obtain ⟨star, dashes, line, hash, _⟩ := notHere
    have none : commentOpen (c :: rest) = .none := commentOpen_eq_none.mpr ⟨star, dashes⟩
    have noLine : lineComment (c :: rest) = false := by simp [lineComment, line, hash]
    simp only [removeCommentsLoop, none, noLine, ih notLater (by simpa using enough)]
    simp

theorem removeCommentsLoop_shortens (fuel : Nat) (text : Bytes) (enough : text.length ≤ fuel) :
    ((removeCommentsLoop fuel false text).1.length ≤ text.length ∧
      ((∃ mark ∈ openingMarks, mark <:+: text) →
        (removeCommentsLoop fuel false text).1.length < text.length)) ∧
    (removeCommentsLoop fuel true text).1.length ≤ text.length + 1 := by
  have nothing : ¬∃ mark ∈ openingMarks, mark <:+: ([] : Bytes) := by
    simp only [List.infix_nil]
    decide
  induction fuel generalizing text with
  | zero =>
    rw [List.length_eq_zero_iff.mp (Nat.le_zero.mp enough)]
    exact ⟨⟨le_rfl, fun marked => absurd marked nothing⟩, le_rfl⟩
  | succ fuel ih =>
    cases text with
    | nil => exact ⟨⟨le_rfl, fun marked => absurd marked nothing⟩, le_rfl⟩
    | cons c rest =>
      simp only [List.length_cons, Nat.add_le_add_iff_right] at enough
      constructor
      · simp only [removeCommentsLoop]
        split
        · next width opened =>
            obtain ⟨two, fits⟩ := commentOpen_two opened
            have shorter : ((c :: rest).drop width).length + width = rest.length + 1 := by
              rw [List.length_drop]
              exact Nat.sub_add_cancel fits
            have later := (ih ((c :: rest).drop width) (by omega)).2
            rw [List.length_cons]
            exact ⟨by omega, fun _ => by omega⟩
        · next none =>
            split
            · exact ⟨Nat.zero_le _, fun _ => Nat.succ_pos _⟩
            · next noLine =>
                have absent := openingMarks_absent none (by simpa using noLine)
                obtain ⟨atMost, less⟩ := (ih rest enough).1
                simp only [List.length_cons]
                refine ⟨by omega, ?_⟩
                rintro ⟨mark, listed, inside⟩
                have later := (List.infix_cons_iff.mp inside).resolve_left (absent mark listed)
                have := less ⟨mark, listed, later⟩
                omega
      · simp only [removeCommentsLoop]
        split
        · next width closed =>
            have after : ((c :: rest).drop width).tail.length ≤ rest.length := by
              rw [List.length_tail, List.length_drop, List.length_cons]
              omega
            have later := (ih _ (after.trans enough)).1.1
            simp only [List.length_cons]
            omega
        · have later := (ih rest enough).2
          simp only [List.length_cons]
          omega

theorem removeComments_copies {v : Bytes} (absent : ∀ mark ∈ openingMarks, ¬mark <:+: v) :
    (removeComments v).1 = v := by
  simp only [removeComments, removeCommentsLoop_copies absent (Nat.le_refl _)]

theorem removeComments_eq_self_iff {v : Bytes} :
    (removeComments v).1 = v ↔ ∀ mark ∈ openingMarks, ¬mark <:+: v := by
  refine ⟨fun same mark listed inside => ?_, removeComments_copies⟩
  have less := (removeCommentsLoop_shortens v.length v le_rfl).1.2 ⟨mark, listed, inside⟩
  rw [show (removeCommentsLoop v.length false v).1 = v from same] at less
  exact Nat.lt_irrefl _ less

/-- A comment that is opened and closed. -/
def HasComment (text : Bytes) : Prop :=
  ∃ front inner rest, text = front ++ str "/*" ++ inner ++ str "*/" ++ rest

theorem HasComment.opened {text : Bytes} : HasComment text → str "/*" <:+: text := by
  rintro ⟨front, inner, rest, rfl⟩
  exact ⟨front, inner ++ str "*/" ++ rest, by simp only [List.append_assoc]⟩

/-- No comment is left behind exactly if no mark runs over a byte that stands right behind a
comment: `removeComments` copies the byte there without looking at it. -/
theorem comments_leave_none (v : Bytes) :
    (¬HasComment (removeComments v).1 ∧
      (removeComments (removeComments v).1).1 = (removeComments v).1 ↔ ClosesApart v) ∧
    ¬str "/*" <:+: (replaceComments v).1 ∧
    (replaceComments (replaceComments v).1).1 = (replaceComments v).1 ∧
    ((replaceComments v).1 = v ↔ ¬str "/*" <:+: v) := by
  have replaced := replaceComments_free v
  refine ⟨?_, replaced, replaceComments_copies replaced, fun same => ?_, replaceComments_copies⟩
  · rw [removeComments_eq_self_iff, ← removeComments_free_iff]
    refine and_iff_right_of_imp fun free comment => ?_
    exact free _ (by decide) comment.opened
  · rwa [same] at replaced

theorem comments_leave_none_two :
    (removeComments (str "a/* b */ c <!-- d -->e")).1 = str "a c e" ∧
    (removeComments (removeComments (str "a/* b */ c <!-- d -->e")).1).1 =
      (removeComments (str "a/* b */ c <!-- d -->e")).1 := by
  have apart : ClosesApart (str "a/* b */ c <!-- d -->e") := by
    rw [← removeComments_free_iff]
    decide +kernel
  exact ⟨by decide +kernel, ((comments_leave_none _).1.mpr apart).2⟩

/-- The second of two adjacent comments is left, and goes when the output is taken
again. -/
theorem removeComments_leaves_adjacent :
    (removeComments (str "/**//* x */")).1 = str "/* x */" ∧
    HasComment (removeComments (str "/**//* x */")).1 ∧
    (removeComments (removeComments (str "/**//* x */")).1).1 ≠
      (removeComments (str "/**//* x */")).1 := by
  refine ⟨by decide, ⟨[], str " x ", [], by decide⟩, by decide⟩

/-! ## Removed marks -/

def commentMarks : List Bytes := [str "/*", str "*/", str "<!--", str "-->", str "--", str "#"]

/-- The text that is kept before, between and behind the marks. -/
def keptParts : Nat → Bytes → List Bytes
  | fuel + 1, c :: rest =>
    let mark := commentMark (c :: rest)
    if 0 < mark then [] :: keptParts fuel ((c :: rest).drop mark)
    else (keptParts fuel rest).modifyHead (c :: ·)
  | _, _ => [[]]

/-- What is kept on both sides of a mark makes no other one. -/
def MarksApart (text : Bytes) : Prop := ¬Across commentMarks (keptParts text.length text)

theorem commentMark_eq_zero {text : Bytes} :
    commentMark text = 0 ↔ ∀ mark ∈ commentMarks, ¬mark <+: text := by
  simp only [commentMarks, List.forall_mem_cons, ← opens_eq_false_iff, commentMark]
  repeat' split
  all_goals simp_all

/-- No mark is in a part, and the first part is what comes next in the text. -/
theorem keptParts_searched (fuel : Nat) (text : Bytes) :
    ∃ first rest, keptParts fuel text = first :: rest ∧ first <+: text ∧
      ∀ part ∈ first :: rest, ∀ mark ∈ commentMarks, ¬mark <:+: part := by
  have nothing : ∀ mark ∈ commentMarks, ¬mark <:+: ([] : Bytes) := by
    simp only [List.infix_nil]
    decide
  induction fuel generalizing text with
  | zero => exact ⟨[], [], by cases text <;> rfl, List.nil_prefix, by simpa using nothing⟩
  | succ fuel ih =>
    cases text with
    | nil => exact ⟨[], [], rfl, List.nil_prefix, by simpa using nothing⟩
    | cons c rest =>
      simp only [keptParts]
      split
      · obtain ⟨first, others, same, -, each⟩ := ih ((c :: rest).drop (commentMark (c :: rest)))
        rw [same]
        exact ⟨[], _, rfl, List.nil_prefix, List.forall_mem_cons.mpr ⟨nothing, each⟩⟩
      · next unmarked =>
          have absent := commentMark_eq_zero.mp (Nat.eq_zero_of_not_pos unmarked)
          obtain ⟨first, others, same, front, each⟩ := ih rest
          obtain ⟨searched, later⟩ := List.forall_mem_cons.mp each
          rw [same]
          refine ⟨c :: first, others, rfl, List.cons_prefix_cons.mpr ⟨rfl, front⟩,
            List.forall_mem_cons.mpr ⟨fun mark listed inside => ?_, later⟩⟩
          rcases List.infix_cons_iff.mp inside with here | further
          · exact absent mark listed (here.trans (List.cons_prefix_cons.mpr ⟨rfl, front⟩))
          · exact searched mark listed further

theorem keptParts_flatten (fuel : Nat) (text : Bytes) :
    (keptParts fuel text).flatten = (removeCommentsCharLoop fuel text).1 := by
  induction fuel generalizing text with
  | zero => cases text <;> rfl
  | succ fuel ih =>
    cases text with
    | nil => rfl
    | cons c rest =>
      simp only [keptParts, removeCommentsCharLoop]
      split
      · exact ih _
      · obtain ⟨first, others, same, -⟩ := keptParts_searched fuel rest
        have later := ih rest
        rw [same] at later
        simp [same, ← later]

theorem removeCommentsChar_free_iff (v : Bytes) :
    (∀ mark ∈ commentMarks, ¬mark <:+: (removeCommentsChar v).1) ↔ MarksApart v := by
  have out : (removeCommentsChar v).1 = (keptParts v.length v).flatten :=
    (keptParts_flatten v.length v).symm
  have none : ¬∃ part ∈ keptParts v.length v, ∃ mark ∈ commentMarks, mark <:+: part := by
    obtain ⟨first, rest, same, -, each⟩ := keptParts_searched v.length v
    rw [same]
    rintro ⟨part, found, mark, listed, inside⟩
    exact each part found mark listed inside
  have empty : ¬∃ mark ∈ commentMarks, mark = [] := by decide
  have split := @infix_flatten_iff _ commentMarks (keptParts v.length v)
  rw [← out, or_iff_right empty, or_iff_right none] at split
  rw [MarksApart, ← split]
  simp only [not_exists, not_and]

theorem commentMark_le (text : Bytes) : commentMark text ≤ text.length := by
  simp only [commentMark]
  repeat' split
  all_goals first
    | exact Nat.zero_le _
    | next starts => exact (opens_iff.mp starts).length_le

theorem removeCommentsCharLoop_shortens (fuel : Nat) (text : Bytes) (enough : text.length ≤ fuel) :
    (removeCommentsCharLoop fuel text).1.length ≤ text.length ∧
      ((∃ mark ∈ commentMarks, mark <:+: text) →
        (removeCommentsCharLoop fuel text).1.length < text.length) := by
  have nothing : ¬∃ mark ∈ commentMarks, mark <:+: ([] : Bytes) := by
    simp only [List.infix_nil]
    decide
  induction fuel generalizing text with
  | zero =>
    rw [List.length_eq_zero_iff.mp (Nat.le_zero.mp enough)]
    exact ⟨le_rfl, fun marked => absurd marked nothing⟩
  | succ fuel ih =>
    cases text with
    | nil => exact ⟨le_rfl, fun marked => absurd marked nothing⟩
    | cons c rest =>
      simp only [List.length_cons, Nat.add_le_add_iff_right] at enough
      simp only [removeCommentsCharLoop]
      split
      · next marked =>
          have fits := commentMark_le (c :: rest)
          have shorter : ((c :: rest).drop (commentMark (c :: rest))).length +
              commentMark (c :: rest) = (c :: rest).length := by
            rw [List.length_drop]
            exact Nat.sub_add_cancel fits
          rw [List.length_cons] at shorter ⊢
          have later := (ih ((c :: rest).drop (commentMark (c :: rest))) (by omega)).1
          dsimp only
          exact ⟨by omega, fun _ => by omega⟩
      · next unmarked =>
          have absent := commentMark_eq_zero.mp (Nat.eq_zero_of_not_pos unmarked)
          obtain ⟨atMost, less⟩ := ih rest enough
          simp only [List.length_cons]
          refine ⟨by omega, ?_⟩
          rintro ⟨mark, listed, inside⟩
          have later := (List.infix_cons_iff.mp inside).resolve_left (absent mark listed)
          have := less ⟨mark, listed, later⟩
          omega

theorem removeCommentsCharLoop_copies {text : Bytes}
    (absent : ∀ mark ∈ commentMarks, ¬mark <:+: text) {fuel : Nat} (enough : text.length ≤ fuel) :
    removeCommentsCharLoop fuel text = (text, false) := by
  induction text generalizing fuel with
  | nil => cases fuel <;> rfl
  | cons c rest ih =>
    obtain ⟨fuel, rfl⟩ : ∃ more, fuel = more + 1 := ⟨fuel - 1, by simp at enough; omega⟩
    have unmarked : commentMark (c :: rest) = 0 := commentMark_eq_zero.mpr fun mark listed here =>
      absent mark listed here.isInfix
    have notLater : ∀ mark ∈ commentMarks, ¬mark <:+: rest := fun mark listed later =>
      absent mark listed (List.infix_cons_iff.mpr (.inr later))
    simp [removeCommentsCharLoop, unmarked, ih notLater (by simpa using enough)]

theorem removeCommentsChar_eq_self_iff {v : Bytes} :
    (removeCommentsChar v).1 = v ↔ ∀ mark ∈ commentMarks, ¬mark <:+: v := by
  constructor
  · intro same mark listed inside
    have less := (removeCommentsCharLoop_shortens v.length v le_rfl).2 ⟨mark, listed, inside⟩
    rw [show (removeCommentsCharLoop v.length v).1 = v from same] at less
    exact Nat.lt_irrefl _ less
  · intro absent
    simp only [removeCommentsChar, removeCommentsCharLoop_copies absent (Nat.le_refl _)]

/-- No mark is left, and a second pass changes nothing, exactly if what is kept on both sides of
a mark makes no other one: it is joined without a look at it. -/
theorem removeCommentsChar_leaves_none (v : Bytes) :
    (∀ mark ∈ commentMarks, ¬mark <:+: (removeCommentsChar v).1) ∧
      (removeCommentsChar (removeCommentsChar v).1).1 = (removeCommentsChar v).1 ↔ MarksApart v := by
  rw [removeCommentsChar_eq_self_iff, and_self, removeCommentsChar_free_iff]

/-- Also of a text in which marks stand side by side. -/
theorem removeCommentsChar_leaves_none_query :
    (removeCommentsChar (str "1/**/2 ## x")).1 = str "12  x" ∧
    (removeCommentsChar (removeCommentsChar (str "1/**/2 ## x")).1).1 =
      (removeCommentsChar (str "1/**/2 ## x")).1 := by
  have apart : MarksApart (str "1/**/2 ## x") := by
    rw [← removeCommentsChar_free_iff]
    decide +kernel
  exact ⟨by decide +kernel, ((removeCommentsChar_leaves_none _).mpr apart).2⟩

/-- Removing the mark joins `/` and `*` to another one, which a second pass removes. -/
theorem removeCommentsChar_joins_mark :
    (removeCommentsChar (str "/#*")).1 = str "/*" ∧
    str "/*" ∈ commentMarks ∧
    (removeCommentsChar (removeCommentsChar (str "/#*")).1).1 ≠ (removeCommentsChar (str "/#*")).1 := by
  decide

end Transformations

end Obsidian
