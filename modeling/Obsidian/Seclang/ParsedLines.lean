import Obsidian.Seclang.Parser

namespace Obsidian

open Obsidian.Data

/-! # The directives of a text

The directives as they are written are the physical lines joined; the parser
passes on those that are complete when its scanner stops.
-/

variable {σ : Type}

/-! ## Nesting

`evaluateNested` never runs out of depth: the limit on includes is met first.
-/

/-- Two evaluators that agree on a parser that has counted `k` includes and never
count back below `k`. -/
structure AgreeAbove (k : Nat) (evaluate evaluate' : LineEvaluator σ) : Prop where
  same : ∀ p l, k ≤ p.includeCount → evaluate p l = evaluate' p l
  counts : ∀ p l, k ≤ p.includeCount → k ≤ (evaluate p l).1.includeCount

section

variable {k : Nat} {evaluate evaluate' : LineEvaluator σ}

theorem parseLine_agree (agree : AgreeAbove k evaluate evaluate') (token : Bytes)
    {st : ParseState σ} (counted : k ≤ st.parser.includeCount) :
    parseLine evaluate token st = parseLine evaluate' token st ∧
      k ≤ (parseLine evaluate token st).1.parser.includeCount := by
  simp only [parseLine]
  generalize passes : st.linebuffer ++ trimSpace token = l
  generalize counts : { st.parser with currentLine := st.parser.currentLine + 1 } = p
  have countedHere : k ≤ p.includeCount := by
    rw [← counts]
    exact counted
  rw [← agree.same p l countedHere]
  have kept := agree.counts p l countedHere
  generalize evaluate p l = answer at kept
  obtain ⟨after, failure⟩ := answer
  refine ⟨rfl, ?_⟩
  cases failure <;> (dsimp only; repeat' split) <;> assumption

theorem parseLines_agree (agree : AgreeAbove k evaluate evaluate') (tokens : List Bytes)
    {st : ParseState σ} (counted : k ≤ st.parser.includeCount) :
    parseLines evaluate tokens st = parseLines evaluate' tokens st ∧
      k ≤ (parseLines evaluate tokens st).1.parser.includeCount := by
  induction tokens generalizing st with
  | nil => exact ⟨rfl, counted⟩
  | cons token rest ih =>
    obtain ⟨same, kept⟩ := parseLine_agree agree token counted
    simp only [parseLines, ← same]
    generalize parseLine evaluate token st = result at kept
    obtain ⟨st, failure⟩ := result
    cases failure with
    | some failure => exact ⟨rfl, kept⟩
    | none => exact ih kept

theorem fromFiles_agree (host : ParserHost σ) (agree : AgreeAbove k evaluate evaluate')
    (originalDir : Bytes) (files : List Bytes) {p : Parser σ} (counted : k ≤ p.includeCount) :
    fromFiles host evaluate originalDir files p = fromFiles host evaluate' originalDir files p ∧
      k ≤ (fromFiles host evaluate originalDir files p).1.includeCount := by
  induction files generalizing p with
  | nil => exact ⟨rfl, counted⟩
  | cons file rest ih =>
    simp only [fromFiles]
    split
    · exact ⟨rfl, counted⟩
    · next data read =>
        simp only [parseWith]
        generalize started : ParseState.mk _ _ _ _ = st
        have countedHere : k ≤ st.parser.includeCount := by
          rw [← started]
          exact counted
        obtain ⟨same, kept⟩ := parseLines_agree agree ((scanned data).map dropCR) countedHere
        rw [← same]
        generalize parseLines evaluate _ st = result at kept
        obtain ⟨st, failure⟩ := result
        cases failure with
        | some failure => exact ⟨rfl, kept⟩
        | none => exact ih kept

theorem fromFileWith_agree (host : ParserHost σ) (agree : AgreeAbove k evaluate evaluate')
    (path : Bytes) {p : Parser σ} (counted : k ≤ p.includeCount) :
    fromFileWith host evaluate p path = fromFileWith host evaluate' p path ∧
      k ≤ (fromFileWith host evaluate p path).1.includeCount := by
  simp only [fromFileWith]
  split
  · split
    · exact ⟨rfl, counted⟩
    · exact fromFiles_agree host agree _ _ counted
  · exact fromFiles_agree host agree _ _ counted

end

theorem evaluateWith_agree (host : ParserHost σ)
    {fromFile fromFile' : Parser σ → Bytes → Parser σ × Option Failure} {k : Nat}
    (same : ∀ p path, k + 1 ≤ p.includeCount → p.includeCount ≤ maxIncludeRecursion →
      fromFile p path = fromFile' p path)
    (counts : ∀ p path, k + 1 ≤ p.includeCount → k ≤ (fromFile p path).1.includeCount) :
    AgreeAbove k (evaluateWith host fromFile) (evaluateWith host fromFile') := by
  constructor
  · intro p l counted
    simp only [evaluateWith]
    split
    · rfl
    · split
      · split
        · rfl
        · next room => exact same _ _ (by simpa using counted) (by simp only; omega)
      · rfl
  · intro p l counted
    simp only [evaluateWith]
    split
    · exact counted
    · split
      · split
        · exact counted
        · exact counts _ _ (by simpa using counted)
      · repeat' split
        all_goals exact counted

theorem evaluateNested_deeper (host : ParserHost σ) {depth k : Nat}
    (enough : maxIncludeRecursion ≤ k + depth) :
    AgreeAbove k (evaluateNested host depth) (evaluateNested host (depth + 1)) := by
  induction depth generalizing k with
  | zero =>
    refine evaluateWith_agree host ?_ fun _ _ counted => Nat.le_of_succ_le counted
    intro p path counted room
    omega
  | succ depth ih =>
    have deeper : AgreeAbove (k + 1) (evaluateNested host depth) (evaluateNested host (depth + 1)) :=
      ih (by omega)
    refine evaluateWith_agree host ?_ ?_
    · intro p path counted _
      exact (fromFileWith_agree host deeper path counted).1
    · intro p path counted
      exact Nat.le_of_succ_le (fromFileWith_agree host deeper path counted).2

theorem evaluateNested_enough (host : ParserHost σ) {p : Parser σ} {depth : Nat}
    (enough : maxIncludeRecursion ≤ p.includeCount + depth) (l : Bytes) :
    evaluateNested host depth p l = p.evaluateLine host l := by
  obtain ⟨more, rfl⟩ : ∃ more, depth = includesLeft p + more :=
    ⟨depth - includesLeft p, by simp only [includesLeft]; omega⟩
  clear enough
  induction more with
  | zero => rfl
  | succ more ih =>
    have deeper : AgreeAbove p.includeCount (evaluateNested host (includesLeft p + more))
        (evaluateNested host (includesLeft p + more + 1)) :=
      evaluateNested_deeper host (by simp only [includesLeft]; omega)
    rw [← ih, ← Nat.add_assoc]
    exact (deeper.same p l (Nat.le_refl _)).symm

/-- `evaluateLine` and `FromFile` call each other as they do in the source. -/
theorem evaluateLine_eq (host : ParserHost σ) (p : Parser σ) (l : Bytes) :
    p.evaluateLine host l =
      evaluateWith host (fromFileWith host (Parser.evaluateLine host)) p l := by
  have deep : p.evaluateLine host l = evaluateNested host (maxIncludeRecursion + 1) p l :=
    (evaluateNested_enough host (by omega) l).symm
  rw [deep]
  refine (evaluateWith_agree (k := 0) host ?_ fun _ _ _ => Nat.zero_le _).same p l (Nat.zero_le _)
  intro p path _ _
  refine (fromFileWith_agree (k := 0) host ?_ path (Nat.zero_le _)).1
  exact ⟨fun p l _ => evaluateNested_enough host (Nat.le_add_left _ _) l, fun _ _ _ => Nat.zero_le _⟩

/-! ## Directives as written -/

/-- A directive and the number of physical lines from the one before it to its
end. -/
structure WrittenDirective where
  lines : Nat
  text : Bytes
deriving DecidableEq, Repr

/-- Physical lines put together.  `pending` is the start of a directive that goes
on, `block` that it goes on between backticks. -/
structure JoinedLines where
  directives : List WrittenDirective := []
  read : Nat := 0
  pending : Bytes := []
  block : Bool := false
deriving DecidableEq, Repr

/-- A block is opened by a backtick at the end of a line and closed by one at the
start. -/
def inBlock (block : Bool) (line : Bytes) : Bool :=
  if block then line.head? ≠ some backtick else line.getLast? = some backtick

namespace JoinedLines

def add (j : JoinedLines) (physical : Bytes) : JoinedLines :=
  let line := trimSpace physical
  let j := { j with read := j.read + 1 }
  if line = [] ∨ line.head? = some (byte '#') then j
  else if inBlock j.block line then
    { j with pending := j.pending ++ line ++ [byte '\n'], block := true }
  else if line.getLast? = some (byte '\\') then
    { j with pending := j.pending ++ line.dropLast, block := false }
  else { directives := j.directives ++ [⟨j.read, j.pending ++ line⟩] }

/-- A directive the text breaks off in counts as well. -/
def texts (j : JoinedLines) : List Bytes :=
  j.directives.map (·.text) ++ (if j.pending = [] then [] else [j.pending])

end JoinedLines

def joinLines (physical : List Bytes) : JoinedLines := physical.foldl JoinedLines.add {}

def directivesOf (data : Bytes) : List Bytes := (joinLines ((lines data).map dropCR)).texts

/-- A line that adds nothing to a directive. -/
def AddsNothing (physical : Bytes) : Prop :=
  let line := trimSpace physical
  line = [] ∨ line.head? = some (byte '#') ∨ line = [byte '\\']

namespace JoinedLines

theorem add_of_addsNothing {j : JoinedLines} {physical : Bytes} (nothing : AddsNothing physical)
    (closed : j.block = false) : j.add physical = { j with read := j.read + 1 } := by
  simp only [AddsNothing] at nothing
  simp only [add]
  rcases nothing with blank | comment | backslash
  · rw [if_pos (.inl blank)]
  · rw [if_pos (.inr comment)]
  · rw [backslash, closed]
    simp [show byte '\\' ≠ byte '#' by decide, inBlock, show byte '\\' ≠ backtick by decide, ← closed]

theorem add_of_not_addsNothing {j : JoinedLines} {physical : Bytes}
    (something : ¬AddsNothing physical) :
    j.directives.length < (j.add physical).directives.length ∨
      j.directives = (j.add physical).directives ∧ (j.add physical).pending ≠ [] := by
  simp only [AddsNothing, not_or] at something
  obtain ⟨text, noComment, noBackslash⟩ := something
  simp only [add]
  rw [if_neg (by simp [text, noComment])]
  split
  · exact .inr ⟨rfl, by simp⟩
  · split
    · next last =>
        refine .inr ⟨rfl, ?_⟩
        intro empty
        obtain ⟨_, dropped⟩ := List.append_eq_nil_iff.mp empty
        have single := List.dropLast_append_getLast? _ last
        rw [dropped, List.nil_append] at single
        exact noBackslash single.symm
    · exact .inl (by simp)

theorem add_directives (j : JoinedLines) (physical : Bytes) :
    j.directives <+: (j.add physical).directives := by
  simp only [add]
  repeat' split
  all_goals first
    | exact List.prefix_refl _
    | exact List.prefix_append _ _

theorem add_pending (j : JoinedLines) (physical : Bytes) :
    (j.add physical).directives.length = j.directives.length →
      j.pending <+: (j.add physical).pending := by
  simp only [add]
  repeat' split
  all_goals simp

theorem foldl_add_directives (physical : List Bytes) (j : JoinedLines) :
    j.directives <+: (physical.foldl add j).directives := by
  induction physical generalizing j with
  | nil => exact List.prefix_refl _
  | cons line rest ih => exact (j.add_directives line).trans (ih _)

theorem foldl_add_pending (physical : List Bytes) {j : JoinedLines}
    (same : (physical.foldl add j).directives.length = j.directives.length) :
    j.pending <+: (physical.foldl add j).pending := by
  induction physical generalizing j with
  | nil => exact List.prefix_refl _
  | cons line rest ih =>
    have first := (j.add_directives line).length_le
    have later := (foldl_add_directives rest (j.add line)).length_le
    rw [List.foldl_cons] at same ⊢
    exact (j.add_pending line (by omega)).trans (ih (by omega))

/-- Outside a block, the lines to come say nothing exactly when no text is pending
and each of them adds nothing. -/
theorem texts_foldl_iff (physical : List Bytes) {j : JoinedLines} (closed : j.block = false) :
    (physical.foldl add j).texts = j.directives.map (·.text) ↔
      j.pending = [] ∧ ∀ line ∈ physical, AddsNothing line := by
  constructor
  · intro same
    have lengths := congrArg List.length same
    have grown := (foldl_add_directives physical j).length_le
    simp only [texts, List.length_append, List.length_map] at lengths
    have none : (physical.foldl add j).pending = [] := by
      by_contra some
      rw [if_neg some, List.length_singleton] at lengths
      omega
    rw [if_pos none] at lengths
    have equal : (physical.foldl add j).directives.length = j.directives.length := by simpa using lengths
    have before := foldl_add_pending physical equal
    rw [none, List.prefix_nil] at before
    refine ⟨before, ?_⟩
    clear lengths grown same
    induction physical generalizing j with
    | nil => simp
    | cons line rest ih =>
      have first := (j.add_directives line).length_le
      have later := (foldl_add_directives rest (j.add line)).length_le
      rw [List.foldl_cons] at none equal
      by_cases nothing : AddsNothing line
      · have next := add_of_addsNothing nothing closed
        rw [List.forall_mem_cons]
        rw [next] at none equal
        exact ⟨nothing, ih (j := { j with read := j.read + 1 }) closed none equal before⟩
      · exfalso
        rcases add_of_not_addsNothing (j := j) nothing with longer | ⟨_, pending⟩
        · omega
        · have kept := foldl_add_pending rest (j := j.add line) (by omega)
          rw [none, List.prefix_nil] at kept
          exact pending kept
  · rintro ⟨none, nothing⟩
    induction physical generalizing j with
    | nil => simp [texts, none]
    | cons line rest ih =>
      obtain ⟨first, later⟩ := List.forall_mem_cons.mp nothing
      rw [List.foldl_cons, add_of_addsNothing first closed]
      exact ih closed none later

end JoinedLines

/-! ## What is passed on -/

section

variable (evaluate : LineEvaluator σ)

/-- The directives of a text one after the other, up to one that fails. -/
def evaluateAll : List WrittenDirective → Parser σ → Parser σ × Option Failure
  | [], p => (p, none)
  | w :: rest, p =>
    match evaluate { p with currentLine := p.currentLine + w.lines } w.text with
    | (p, some failure) => (p, some failure)
    | (p, none) => evaluateAll rest p

theorem evaluateAll_append (first later : List WrittenDirective) (p : Parser σ) :
    evaluateAll evaluate (first ++ later) p =
      match evaluateAll evaluate first p with
      | (p, some failure) => (p, some failure)
      | (p, none) => evaluateAll evaluate later p := by
  induction first generalizing p with
  | nil => rfl
  | cons w rest ih =>
    simp only [List.cons_append, evaluateAll]
    generalize evaluate _ w.text = answer
    obtain ⟨p, failure⟩ := answer
    cases failure with
    | some failure => rfl
    | none => exact ih p

def accept (p : Parser σ) (written : WrittenDirective) : Option (Parser σ) :=
  match evaluate { p with currentLine := p.currentLine + written.lines } written.text with
  | (_, some _) => none
  | (p, none) => some p

def acceptAll (p : Parser σ) (written : List WrittenDirective) : Option (Parser σ) :=
  written.foldlM (accept evaluate) p

theorem acceptAll_eq (p : Parser σ) (written : List WrittenDirective) :
    acceptAll evaluate p written =
      match evaluateAll evaluate written p with
      | (_, some _) => none
      | (p, none) => some p := by
  simp only [acceptAll]
  induction written generalizing p with
  | nil => rfl
  | cons w rest ih =>
    simp only [List.foldlM_cons, accept, evaluateAll]
    generalize evaluate _ w.text = answer
    obtain ⟨p, failure⟩ := answer
    cases failure with
    | some failure => rfl
    | none => exact ih p

variable {evaluate}

theorem acceptAll_eq_some {p last : Parser σ} {written : List WrittenDirective} :
    acceptAll evaluate p written = some last ↔ evaluateAll evaluate written p = (last, none) := by
  rw [acceptAll_eq]
  generalize evaluateAll evaluate written p = run
  obtain ⟨p, failure⟩ := run
  cases failure <;> simp

/-- The parser's variables after the lines that `j` joins. -/
structure Tracks (evaluate : LineEvaluator σ) (start : Parser σ) (st : ParseState σ)
    (j : JoinedLines) : Prop where
  accepted : ∃ p, acceptAll evaluate start j.directives = some p ∧
    st.parser = { p with currentLine := p.currentLine + j.read }
  pending : st.linebuffer = j.pending
  block : st.inBackticks = j.block
  passed : st.passed = j.directives.map (·.text)

theorem backticks_eq (inBackticks : Bool) (line : Bytes) :
    (if ¬inBackticks ∧ line.getLast? = some backtick then true
      else if inBackticks ∧ line.head? = some backtick then false
      else inBackticks) = inBlock inBackticks line := by
  cases inBackticks <;> simp [inBlock]

theorem parseLine_tracks {start : Parser σ} {st : ParseState σ} {j : JoinedLines}
    (tracks : Tracks evaluate start st j) (token : Bytes) :
    match parseLine evaluate token st with
    | (st, none) => Tracks evaluate start st (j.add token)
    | (st, some failure) =>
      evaluateAll evaluate (j.add token).directives start = (st.parser, some failure) := by
  obtain ⟨⟨p, accepted, parser⟩, pending, block, passed⟩ := tracks
  have counted : { st.parser with currentLine := st.parser.currentLine + 1 } =
      { p with currentLine := p.currentLine + (j.read + 1) } := by
    rw [parser, Nat.add_assoc]
  simp only [parseLine, backticks_eq, JoinedLines.add, counted, block, pending]
  generalize trimSpace token = line
  by_cases blank : line = []
  · simp only [blank, true_or, if_true]
    exact ⟨⟨p, accepted, rfl⟩, rfl, rfl, passed⟩
  by_cases comment : line.head? = some (byte '#')
  · simp only [blank, comment, or_true, if_true, if_false]
    exact ⟨⟨p, accepted, rfl⟩, rfl, rfl, passed⟩
  simp only [blank, comment, or_self, if_false]
  by_cases inside : inBlock j.block line = true
  · simp only [inside, if_true]
    exact ⟨⟨p, accepted, rfl⟩, rfl, rfl, passed⟩
  simp only [inside]
  by_cases continued : line.getLast? = some (byte '\\')
  · simp only [continued, if_true]
    exact ⟨⟨p, accepted, rfl⟩, rfl, rfl, passed⟩
  simp only [continued, if_false]
  have step := evaluateAll_append evaluate j.directives [⟨j.read + 1, j.pending ++ line⟩] start
  rw [acceptAll_eq_some] at accepted
  simp only [accepted, evaluateAll] at step
  generalize evaluate _ _ = answer at step
  obtain ⟨after, failure⟩ := answer
  cases failure with
  | some failure => exact step
  | none => exact ⟨⟨after, acceptAll_eq_some.mpr step, rfl⟩, rfl, rfl, by simp [passed]⟩

/-- The lines to come are read to the end if the directives they join are accepted;
otherwise the parser stops in the state the first failure leaves. -/
theorem parseLines_tracks (tokens : List Bytes) {start : Parser σ} {st : ParseState σ}
    {j : JoinedLines} (tracks : Tracks evaluate start st j) :
    let joined := tokens.foldl JoinedLines.add j
    let result := parseLines evaluate tokens st
    match evaluateAll evaluate joined.directives start with
    | (_, none) => Tracks evaluate start result.1 joined ∧
        result.2 = if joined.block then some (.error errBackticksLeftOpen) else none
    | (p, some failure) => result.1.parser = p ∧ result.2 = some failure := by
  induction tokens generalizing st j with
  | nil =>
    obtain ⟨p, accepted, _⟩ := tracks.accepted
    simp only [parseLines, List.foldl_nil, acceptAll_eq_some.mp accepted, tracks.block]
    exact ⟨tracks, rfl⟩
  | cons token rest ih =>
    have first := parseLine_tracks tracks token
    simp only [List.foldl_cons, parseLines]
    generalize parseLine evaluate token st = result at first
    obtain ⟨st, failure⟩ := result
    cases failure with
    | none => exact ih first
    | some failure =>
      obtain ⟨later, split⟩ := JoinedLines.foldl_add_directives rest (j.add token)
      have stopped := evaluateAll_append evaluate (j.add token).directives later start
      rw [first] at stopped
      rw [← split, stopped]
      exact ⟨rfl, rfl⟩

theorem parseWith_tracks (evaluate : LineEvaluator σ) (p : Parser σ) (data : Bytes) :
    let joined := joinLines ((scanned data).map dropCR)
    let result := parseWith evaluate p data
    match evaluateAll evaluate joined.directives p with
    | (_, none) => Tracks evaluate p result.1 joined ∧
        result.2 = if joined.block then some (.error errBackticksLeftOpen) else none
    | (last, some failure) => result.1.parser = last ∧ result.2 = some failure :=
  parseLines_tracks _ ⟨⟨p, rfl, rfl⟩, rfl, rfl, rfl⟩

end

/-- The texts on which nothing gets lost: the parser refuses a directive it reads,
or stops inside a block, or has read all that there is. -/
def LosesNothing (host : ParserHost σ) (p : Parser σ) (data : Bytes) : Prop :=
  let joined := joinLines ((scanned data).map dropCR)
  acceptAll (Parser.evaluateLine host) p joined.directives = none ∨ joined.block = true ∨
    joined.pending = [] ∧ ∀ line ∈ unscanned data, AddsNothing (dropCR line)

theorem parseString_passed_iff (host : ParserHost σ) (p : Parser σ) (data : Bytes) :
    ((p.parseString host data).2 ≠ none ∨
        (p.parseString host data).1.passed = directivesOf data) ↔
      LosesNothing host p data := by
  have tracks := parseWith_tracks (Parser.evaluateLine host) p data
  have split : directivesOf data = (((unscanned data).map dropCR).foldl JoinedLines.add
      (joinLines ((scanned data).map dropCR))).texts := by
    simp only [directivesOf, joinLines]
    rw [← scanned_append_unscanned data, List.map_append, List.foldl_append]
  simp only [Parser.parseString, LosesNothing, split]
  generalize joinLines ((scanned data).map dropCR) = joined at tracks
  generalize parseWith _ p data = result at tracks
  rw [acceptAll_eq]
  dsimp only at tracks
  generalize evaluateAll _ joined.directives p = run at tracks
  obtain ⟨after, failure⟩ := run
  cases failure with
  | some failure => simp [tracks.2]
  | none =>
    obtain ⟨tracks, outcome⟩ := tracks
    cases block : joined.block with
    | true => simp [outcome, block]
    | false =>
      have rest := JoinedLines.texts_foldl_iff ((unscanned data).map dropCR) block
      simp only [outcome, block, Bool.false_eq_true, if_false, ne_eq, not_true_eq_false,
        false_or, reduceCtorEq, tracks.passed]
      rw [eq_comm, rest, List.forall_mem_map]

/-! ## No line is invalid -/

def ValidLine (l : Bytes) : Prop := l ≠ [] ∧ l.head? ≠ some (byte '#')

theorem validLine_append {buffer line : Bytes} (started : buffer.head? ≠ some (byte '#'))
    (valid : ValidLine line) : ValidLine (buffer ++ line) := by
  cases buffer with
  | nil => exact valid
  | cons first rest => exact ⟨List.cons_ne_nil _ _, started⟩

theorem head_append_dropLast {buffer line : Bytes} (started : buffer.head? ≠ some (byte '#'))
    (valid : ValidLine line) : (buffer ++ line.dropLast).head? ≠ some (byte '#') := by
  cases buffer with
  | cons first rest => exact started
  | nil =>
    match line, valid with
    | [_], _ => simp
    | first :: second :: rest, valid => exact valid.2

/-- `evaluateLine` was not given an invalid line. -/
def NoPanic (failure : Option Failure) : Prop := failure ≠ some .invalidLine

theorem parseLine_noPanic {evaluate : LineEvaluator σ}
    (sound : ∀ p l, ValidLine l → NoPanic (evaluate p l).2) (token : Bytes) {st : ParseState σ}
    (started : st.linebuffer.head? ≠ some (byte '#')) :
    NoPanic (parseLine evaluate token st).2 ∧
      ((parseLine evaluate token st).2 = none →
        (parseLine evaluate token st).1.linebuffer.head? ≠ some (byte '#')) := by
  have none : NoPanic none := fun failed => by cases failed
  simp only [parseLine, backticks_eq]
  generalize trimSpace token = line
  by_cases blank : line = []
  · simp only [blank, if_true]
    exact ⟨none, fun _ => started⟩
  by_cases comment : line.head? = some (byte '#')
  · simp only [blank, comment, if_true, if_false]
    exact ⟨none, fun _ => started⟩
  have whole := validLine_append started ⟨blank, comment⟩
  simp only [blank, comment, if_false]
  by_cases inside : inBlock st.inBackticks line = true
  · simp only [inside, if_true]
    refine ⟨none, fun _ => ?_⟩
    rw [List.head?_append_of_ne_nil _ whole.1]
    exact whole.2
  simp only [inside]
  by_cases continued : line.getLast? = some (byte '\\')
  · simp only [continued, if_true]
    exact ⟨none, fun _ => head_append_dropLast started ⟨blank, comment⟩⟩
  simp only [continued, if_false]
  have answered := sound { st.parser with currentLine := st.parser.currentLine + 1 } _ whole
  generalize evaluate _ (st.linebuffer ++ line) = answer at answered
  obtain ⟨after, failure⟩ := answer
  cases failure with
  | some failure => exact ⟨answered, fun accepted => by cases accepted⟩
  | none => exact ⟨answered, fun _ => by simp⟩

theorem parseLines_noPanic {evaluate : LineEvaluator σ}
    (sound : ∀ p l, ValidLine l → NoPanic (evaluate p l).2) (tokens : List Bytes)
    {st : ParseState σ} (started : st.linebuffer.head? ≠ some (byte '#')) :
    NoPanic (parseLines evaluate tokens st).2 := by
  induction tokens generalizing st with
  | nil =>
    simp only [parseLines, NoPanic]
    split <;> simp
  | cons token rest ih =>
    obtain ⟨first, goesOn⟩ := parseLine_noPanic sound token started
    simp only [parseLines]
    generalize parseLine evaluate token st = result at first goesOn
    obtain ⟨st, failure⟩ := result
    cases failure with
    | some failure => exact first
    | none => exact ih (goesOn rfl)

theorem parseWith_noPanic {evaluate : LineEvaluator σ}
    (sound : ∀ p l, ValidLine l → NoPanic (evaluate p l).2) (p : Parser σ) (data : Bytes) :
    NoPanic (parseWith evaluate p data).2 :=
  parseLines_noPanic sound _ (by simp)

theorem fromFiles_noPanic (host : ParserHost σ) {evaluate : LineEvaluator σ}
    (sound : ∀ p l, ValidLine l → NoPanic (evaluate p l).2) (originalDir : Bytes)
    (files : List Bytes) (p : Parser σ) :
    NoPanic (fromFiles host evaluate originalDir files p).2 := by
  induction files generalizing p with
  | nil => simp [fromFiles, NoPanic]
  | cons file rest ih =>
    simp only [fromFiles]
    split
    · simp [NoPanic]
    · split
      · next st failure parsed =>
          cases failure with
          | error err => simp [NoPanic, wrapFailure]
          | panic => simp [NoPanic, wrapFailure]
          | invalidLine =>
            exact absurd (congrArg Prod.snd parsed) (parseWith_noPanic sound _ _)
      · exact ih _

theorem directiveFailure_noPanic (message : Bytes) (failure : Option DirectiveFailure) :
    NoPanic (failure.map (directiveFailure message)) := by
  match failure with
  | none | some (.error _) | some .panic => simp [NoPanic, directiveFailure]

theorem evaluateWith_noPanic (host : ParserHost σ)
    {fromFile : Parser σ → Bytes → Parser σ × Option Failure}
    (quiet : ∀ p path, NoPanic (fromFile p path).2) (p : Parser σ) {l : Bytes}
    (valid : ValidLine l) : NoPanic (evaluateWith host fromFile p l).2 := by
  simp only [evaluateWith, valid.1, valid.2, or_self, if_false]
  repeat' split
  all_goals first
    | exact quiet _ _
    | exact directiveFailure_noPanic _ _
    | simp [NoPanic]

theorem evaluateNested_noPanic (host : ParserHost σ) (depth : Nat) (p : Parser σ) {l : Bytes}
    (valid : ValidLine l) : NoPanic (evaluateNested host depth p l).2 := by
  induction depth generalizing p l with
  | zero => exact evaluateWith_noPanic host (fun p path => by simp [NoPanic]) p valid
  | succ depth ih =>
    refine evaluateWith_noPanic host ?_ p valid
    intro p path
    simp only [fromFileWith]
    repeat' split
    all_goals first
      | exact fromFiles_noPanic host (fun p l valid => ih p valid) _ _ _
      | simp [NoPanic]

/-- Nothing gets lost without an error, and no line panics, exactly when the parser
refuses a directive before the scanner stops, or stops inside a block, or has
nothing pending and only blank, comment and lone backslash lines ahead of it. -/
theorem parseString_complete_iff (host : ParserHost σ) (p : Parser σ) (data : Bytes) :
    (NoPanic (p.parseString host data).2 ∧
        ((p.parseString host data).2 ≠ none ∨
          (p.parseString host data).1.passed = directivesOf data)) ↔
      LosesNothing host p data := by
  rw [parseString_passed_iff]
  refine and_iff_right ?_
  exact parseWith_noPanic (fun p l valid => evaluateNested_noPanic host _ p valid) p data

def ParserHost.bare : ParserHost Unit where
  directivesMap _ := none
  glob _ := .ok []
  readFile _ := .error (str "file does not exist")
  unicodeLower := id
  quote := id
  hasAccessToFS := false
  getwd := .ok []

/-- The last line ends in a backslash: the directive is dropped, and no error
says so. -/
theorem parseString_drops :
    let p : Parser Unit := { options := () }
    let data := str "SecRuleEngine On \\"
    (p.parseString ParserHost.bare data).2 = none ∧
      (p.parseString ParserHost.bare data).1.passed = [] ∧
      directivesOf data = [str "SecRuleEngine On "] := by
  decide

end Obsidian
