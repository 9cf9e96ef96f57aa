import Mathlib.Data.List.Basic

namespace Obsidian.Data

/-! # Readers

A reader is called with the size of a buffer and gives a piece of at most that
size, whether it has ended, and its next state.
-/

inductive ReadEnd (ε : Type) where
  | eof
  | failed (err : ε)
deriving DecidableEq, Repr

abbrev ReadCall (α ε σ : Type) := (size : Nat) → σ → List α × Option (ReadEnd ε) × σ

section

variable {α ε σ : Type} (read : ReadCall α ε σ)

/-- What a caller gets that goes on reading until the reader ends, with buffers of
these sizes; nothing if they are too few. -/
def readAll : List Nat → σ → Option (List α × ReadEnd ε)
  | [], _ => none
  | size :: sizes, s =>
    match read size s with
    | (piece, some ended, _) => some (piece, ended)
    | (piece, none, next) =>
      (readAll sizes next).map fun result => (piece ++ result.1, result.2)

/-- With buffers that are not empty, the reader gives `values` and ends after at
most `bound` calls. -/
def DeliversWithin : Nat → σ → List α → ReadEnd ε → Prop
  | 0, _, _, _ => False
  | bound + 1, s, values, ended =>
    ∀ size, 0 < size →
      match read size s with
      | (piece, some last, _) => piece = values ∧ last = ended
      | (piece, none, next) =>
        ∃ rest, values = piece ++ rest ∧ DeliversWithin bound next rest ended

def Delivers (s : σ) (values : List α) (ended : ReadEnd ε) : Prop :=
  ∃ bound, DeliversWithin read bound s values ended

variable {read}

theorem DeliversWithin.readAll {bound : Nat} {s : σ} {values : List α} {ended : ReadEnd ε}
    (delivers : DeliversWithin read bound s values ended) {sizes : List Nat}
    (positive : ∀ size ∈ sizes, 0 < size) (enough : bound ≤ sizes.length) :
    readAll read sizes s = some (values, ended) := by
  induction sizes generalizing bound s values with
  | nil =>
    obtain rfl : bound = 0 := Nat.le_zero.mp enough
    exact delivers.elim
  | cons size sizes ih =>
    obtain ⟨here, later⟩ := List.forall_mem_cons.mp positive
    cases bound with
    | zero => exact delivers.elim
    | succ bound =>
      have step := delivers size here
      simp only [Data.readAll]
      split
      · next called =>
          simp only [called] at step
          rw [step.1, step.2]
      · next called =>
          simp only [called] at step
          obtain ⟨rest, rfl, left⟩ := step
          rw [ih left later (Nat.le_of_succ_le_succ enough)]
          rfl

end

/-! ## Chunks -/

section

variable {α ε : Type}

/-- A reader whose calls give the chunks in turn, a long one in several calls. -/
def chunkRead (ended : ReadEnd ε) : ReadCall α ε (List (List α))
  | _, [] => ([], some ended, [])
  | size, chunk :: rest =>
    if chunk.length ≤ size then (chunk, none, rest)
    else (chunk.take size, none, chunk.drop size :: rest)

theorem chunkRead_deliversWithin (ended : ReadEnd ε) (bound : Nat) {chunks : List (List α)}
    (enough : chunks.length + chunks.flatten.length < bound) :
    DeliversWithin (chunkRead ended) bound chunks chunks.flatten ended := by
  induction bound generalizing chunks with
  | zero => exact absurd enough (Nat.not_lt_zero _)
  | succ bound ih =>
    intro size positive
    cases chunks with
    | nil => exact ⟨rfl, rfl⟩
    | cons chunk rest =>
      simp only [List.length_cons, List.flatten_cons, List.length_append] at enough
      by_cases short : chunk.length ≤ size
      · simp only [chunkRead, short, if_true]
        exact ⟨rest.flatten, rfl, ih (by omega)⟩
      · simp only [chunkRead, short, if_false]
        refine ⟨chunk.drop size ++ rest.flatten, ?_, ih ?_⟩
        · rw [List.flatten_cons, ← List.append_assoc, List.take_append_drop]
        · simp only [List.length_cons, List.flatten_cons, List.length_append, List.length_drop]
          omega

theorem chunkRead_delivers (ended : ReadEnd ε) (chunks : List (List α)) :
    Delivers (chunkRead ended) chunks chunks.flatten ended :=
  ⟨_, chunkRead_deliversWithin ended _ (Nat.lt_succ_self _)⟩

/-- What is left of the chunks after `count` values. -/
def dropChunks : Nat → List (List α) → List (List α)
  | _, [] => []
  | count, chunk :: rest =>
    if chunk.length ≤ count then dropChunks (count - chunk.length) rest
    else chunk.drop count :: rest

theorem flatten_dropChunks (count : Nat) (chunks : List (List α)) :
    (dropChunks count chunks).flatten = chunks.flatten.drop count := by
  induction chunks generalizing count with
  | nil => simp [dropChunks]
  | cons chunk rest ih =>
    simp only [dropChunks, List.flatten_cons]
    split
    · next short => rw [ih, List.drop_append, List.drop_eq_nil_of_le short, List.nil_append]
    · next long =>
        rw [List.flatten_cons, List.drop_append, Nat.sub_eq_zero_of_le (by omega), List.drop_zero]

end

/-! ## One reader after another -/

section

variable {α ε σ τ : Type} (first : ReadCall α ε σ) (second : ReadCall α ε τ)

def multiRead : ReadCall α ε (Option σ × τ)
  | size, (none, t) =>
    let (piece, ended, t) := second size t
    (piece, ended, (none, t))
  | size, (some s, t) =>
    match first size s with
    | (piece, none, s) => (piece, none, (some s, t))
    | (piece, some (.failed err), s) => (piece, some (.failed err), (some s, t))
    | (piece, some .eof, _) =>
      if piece = [] then
        let (piece, ended, t) := second size t
        (piece, ended, (none, t))
      else (piece, none, (none, t))

variable {first second}

theorem multiRead_second {bound : Nat} {t : τ} {values : List α} {ended : ReadEnd ε}
    (delivers : DeliversWithin second bound t values ended) :
    DeliversWithin (multiRead first second) bound (none, t) values ended := by
  induction bound generalizing t values with
  | zero => exact delivers
  | succ bound ih =>
    intro size positive
    have step := delivers size positive
    revert step
    simp only [multiRead]
    rcases second size t with ⟨piece, _ | last, next⟩
    · rintro ⟨rest, same, left⟩
      exact ⟨rest, same, ih left⟩
    · exact id

theorem DeliversWithin.mono {read : ReadCall α ε σ} {bound larger : Nat} {s : σ} {values : List α}
    {ended : ReadEnd ε} (delivers : DeliversWithin read bound s values ended)
    (le : bound ≤ larger) : DeliversWithin read larger s values ended := by
  induction bound generalizing larger s values with
  | zero => exact delivers.elim
  | succ bound ih =>
    obtain ⟨larger, rfl⟩ : ∃ n, larger = n + 1 := ⟨larger - 1, by omega⟩
    intro size positive
    have step := delivers size positive
    revert step
    rcases read size s with ⟨piece, _ | last, next⟩
    · rintro ⟨rest, same, left⟩
      exact ⟨rest, same, ih left (by omega)⟩
    · exact id

theorem multiRead_deliversWithin {bound after : Nat} {s : σ} {t : τ} {front back : List α}
    {ended : ReadEnd ε} (delivers : DeliversWithin first bound s front .eof)
    (follows : DeliversWithin second after t back ended) :
    DeliversWithin (multiRead first second) (bound + after) (some s, t) (front ++ back) ended := by
  induction bound generalizing s front with
  | zero => exact delivers.elim
  | succ bound ih =>
    rw [Nat.succ_add]
    intro size positive
    have step := delivers size positive
    revert step
    simp only [multiRead]
    rcases first size s with ⟨piece, _ | last, next⟩
    · rintro ⟨rest, rfl, left⟩
      exact ⟨rest ++ back, List.append_assoc .., ih left⟩
    · rintro ⟨rfl, rfl⟩
      by_cases empty : piece = []
      · subst empty
        have whole : DeliversWithin (multiRead first second) (bound + after + 1) (none, t) back
            ended := (multiRead_second follows).mono (by omega)
        exact whole size positive
      · simp only [empty, if_false]
        exact ⟨back, rfl, (multiRead_second follows).mono (Nat.le_add_left ..)⟩

theorem multiRead_delivers {s : σ} {t : τ} {front back : List α} {ended : ReadEnd ε}
    (delivers : Delivers first s front .eof) (follows : Delivers second t back ended) :
    Delivers (multiRead first second) (some s, t) (front ++ back) ended := by
  obtain ⟨bound, within⟩ := delivers
  obtain ⟨after, following⟩ := follows
  exact ⟨bound + after, multiRead_deliversWithin within following⟩

end

end Obsidian.Data
