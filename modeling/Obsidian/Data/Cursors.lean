import Mathlib.Data.List.Basic

namespace Obsidian.Data

/-! # Loops over a buffer

A loop that goes on while a condition holds, and two cursors into one buffer: `i`, where
the loop reads, and `c`, where it writes.  An index out of range is `none`.
-/

variable {σ α β γ : Type}

/-! ## Rewriting piece by piece -/

/-- What is made of the first element of a text: what stands in its place, how many of
the elements after it are used up, and whether that is a change. -/
structure Piece (α : Type) where
  out : List α
  count : Nat := 0
  changed : Bool := false

def rewriteLoop (piece : α → List α → Piece α) : (fuel : Nat) → List α → List α × Bool
  | fuel + 1, b :: rest =>
    let (out, changed) := rewriteLoop piece fuel (rest.drop (piece b rest).count)
    ((piece b rest).out ++ out, (piece b rest).changed || changed)
  | _, _ => ([], false)

def rewrite (piece : α → List α → Piece α) (text : List α) : List α × Bool :=
  rewriteLoop piece text.length text

section

variable {piece piece' : α → List α → Piece α}

theorem rewriteLoop_more {fuel : Nat} {text : List α} (enough : text.length ≤ fuel) :
    rewriteLoop piece (fuel + 1) text = rewriteLoop piece fuel text := by
  induction fuel generalizing text with
  | zero =>
    rw [List.length_eq_zero_iff.mp (Nat.le_zero.mp enough)]
    rfl
  | succ fuel ih =>
    cases text with
    | nil => rfl
    | cons b rest =>
      have shorter : (rest.drop (piece b rest).count).length ≤ fuel := by
        rw [List.length_cons] at enough
        rw [List.length_drop]
        omega
      rw [rewriteLoop, ih shorter]
      rfl

theorem rewriteLoop_enough {fuel : Nat} {text : List α} (enough : text.length ≤ fuel) :
    rewriteLoop piece fuel text = rewrite piece text := by
  induction enough with
  | refl => rfl
  | step enough ih => rw [rewriteLoop_more enough, ih]

@[simp] theorem rewrite_nil : rewrite piece [] = ([], false) := rfl

theorem rewrite_cons (piece : α → List α → Piece α) (b : α) (rest : List α) :
    rewrite piece (b :: rest) =
      ((piece b rest).out ++ (rewrite piece (rest.drop (piece b rest).count)).1,
        (piece b rest).changed || (rewrite piece (rest.drop (piece b rest).count)).2) := by
  have enough : (rest.drop (piece b rest).count).length ≤ rest.length := by
    rw [List.length_drop]
    exact Nat.sub_le _ _
  rw [← rewriteLoop_enough enough]
  rfl

theorem rewrite_induction (piece : α → List α → Piece α) {P : List α → Prop} (nil : P [])
    (cons : ∀ b rest, P (rest.drop (piece b rest).count) → P (b :: rest)) (text : List α) :
    P text := by
  induction size : text.length using Nat.strongRecOn generalizing text with
  | ind size ih =>
    cases text with
    | nil => exact nil
    | cons b rest =>
      refine cons b rest (ih _ ?_ _ rfl)
      rw [← size, List.length_cons, List.length_drop]
      omega

/-- Texts without a place where two rewritings differ. -/
theorem rewrite_congr {text : List α}
    (same : ∀ i b rest, text.drop i = b :: rest → piece b rest = piece' b rest) :
    rewrite piece text = rewrite piece' text := by
  induction text using rewrite_induction piece' with
  | nil => rfl
  | cons b rest ih =>
    rw [rewrite_cons, rewrite_cons, same 0 b rest rfl, ih]
    intro i c after here
    apply same (i + (piece' b rest).count + 1) c after
    rw [List.drop_succ_cons, Nat.add_comm i, ← List.drop_drop, here]

theorem length_rewrite_le
    (shorter : ∀ b rest, (piece b rest).out.length ≤ 1 + min (piece b rest).count rest.length)
    (text : List α) : (rewrite piece text).1.length ≤ text.length := by
  induction text using rewrite_induction piece with
  | nil => exact Nat.le_refl _
  | cons b rest ih =>
    have first := shorter b rest
    rw [List.length_drop] at ih
    rw [rewrite_cons, List.length_append, List.length_cons]
    omega

theorem rewrite_take {text : List α} (pos : Nat)
    (copied : ∀ b ∈ text.take pos, ∀ rest, piece b rest = ⟨[b], 0, false⟩) :
    rewrite piece text =
      (text.take pos ++ (rewrite piece (text.drop pos)).1, (rewrite piece (text.drop pos)).2) := by
  induction text generalizing pos with
  | nil => simp
  | cons b rest ih =>
    cases pos with
    | zero => rfl
    | succ pos =>
      have first := copied b (by simp) rest
      have later := ih pos fun c found => copied c (List.mem_cons_of_mem _ found)
      rw [rewrite_cons, first, List.drop_zero, later]
      simp

theorem rewrite_copied {text : List α}
    (copied : ∀ b ∈ text, ∀ rest, piece b rest = ⟨[b], 0, false⟩) :
    rewrite piece text = (text, false) := by
  rw [rewrite_take text.length (by rwa [List.take_length]), List.take_length,
    List.drop_length, rewrite_nil, List.append_nil]

theorem rewrite_findIdx {test : α → Bool} {text : List α} {pos : Nat}
    (copied : ∀ b, test b = false → ∀ rest, piece b rest = ⟨[b], 0, false⟩)
    (found : text.findIdx? test = some pos) :
    pos ≤ text.length ∧ rewrite piece text =
      (text.take pos ++ (rewrite piece (text.drop pos)).1, (rewrite piece (text.drop pos)).2) := by
  obtain ⟨inside, _, before⟩ := List.findIdx?_eq_some_iff_getElem.mp found
  refine ⟨Nat.le_of_lt inside, rewrite_take pos ?_⟩
  intro b member
  obtain ⟨j, below, rfl⟩ := List.mem_take_iff_getElem.mp member
  exact copied _ (by simpa using before j (by omega))

end

/-! ## Loops -/

/-- `none` if a round fails or the loop has not ended after `fuel` rounds. -/
def whileLoop (condition : σ → Bool) (body : σ → Option σ) : (fuel : Nat) → σ → Option σ
  | 0, s => if condition s then none else some s
  | fuel + 1, s => if condition s then (body s).bind (whileLoop condition body fuel) else some s

theorem whileLoop_round {condition : σ → Bool} {body : σ → Option σ} {s next : σ}
    (goes : condition s = true) (runs : body s = some next) (fuel : Nat) :
    whileLoop condition body (fuel + 1) s = whileLoop condition body fuel next := by
  rw [whileLoop, if_pos goes, runs, Option.bind_some]

theorem whileLoop_ended {condition : σ → Bool} {body : σ → Option σ} {s : σ}
    (ended : condition s = false) (fuel : Nat) : whileLoop condition body fuel s = some s := by
  cases fuel <;> simp [whileLoop, ended]

theorem whileLoop_total {condition : σ → Bool} {body : σ → Option σ} {Inv : σ → Prop}
    {left : σ → Nat}
    (step : ∀ s, Inv s → condition s = true →
      ∃ next, body s = some next ∧ Inv next ∧ left next < left s)
    {fuel : Nat} {s : σ} (start : Inv s) (enough : left s ≤ fuel) :
    ∃ last, whileLoop condition body fuel s = some last ∧ Inv last ∧ condition last = false := by
  induction fuel generalizing s with
  | zero =>
    cases goes : condition s with
    | false => exact ⟨s, whileLoop_ended goes _, start, goes⟩
    | true =>
      obtain ⟨next, _, _, fewer⟩ := step s start goes
      omega
  | succ fuel ih =>
    cases goes : condition s with
    | false => exact ⟨s, whileLoop_ended goes _, start, goes⟩
    | true =>
      obtain ⟨next, runs, kept, fewer⟩ := step s start goes
      obtain ⟨last, rest, inv, ended⟩ := ih kept (by omega)
      exact ⟨last, (whileLoop_round goes runs fuel).trans rest, inv, ended⟩

/-! ## Texts read by index -/

theorem getElem?_add_of_drop {text rest : List α} {i : Nat} (here : text.drop i = rest) (k : Nat) :
    text[i + k]? = rest[k]? := by
  rw [← here, List.getElem?_drop]

theorem getElem?_of_drop {text rest : List α} {i : Nat} {b : α} (here : text.drop i = b :: rest) :
    text[i]? = some b :=
  getElem?_add_of_drop here 0

theorem drop_add_of_drop {text rest : List α} {i : Nat} (here : text.drop i = rest) (k : Nat) :
    text.drop (i + k) = rest.drop k := by
  rw [← here, List.drop_drop]

theorem length_of_drop {text rest : List α} {b : α} {i : Nat} (here : text.drop i = b :: rest) :
    text.length = i + 1 + rest.length := by
  have lengths := congrArg List.length here
  rw [List.length_drop, List.length_cons] at lengths
  omega

/-- A loop over the indices of a text.  `join` puts together what a state has made of the
text so far and what `decode` makes of the rest. -/
theorem whileLoop_scans {text : List α} {body : σ → Option σ} (index : σ → Nat) (Valid : σ → Prop)
    (decode : List α → β) (join : σ → β → γ)
    (step : ∀ s b rest, Valid s → text.drop (index s) = b :: rest →
      ∃ next, body s = some next ∧ Valid next ∧ index s < index next ∧
        join next (decode (text.drop (index next))) = join s (decode (b :: rest)))
    {s : σ} (start : Valid s) :
    ∃ last, whileLoop (fun s => index s < text.length) body text.length s = some last ∧
      Valid last ∧ join last (decode []) = join s (decode (text.drop (index s))) := by
  let Inv (now : σ) : Prop :=
    Valid now ∧
      join now (decode (text.drop (index now))) = join s (decode (text.drop (index s)))
  have round : ∀ now, Inv now → decide (index now < text.length) = true →
      ∃ next, body now = some next ∧ Inv next ∧
        text.length - index next < text.length - index now := by
    rintro now ⟨valid, same⟩ inside
    have inside : index now < text.length := of_decide_eq_true inside
    have here := List.drop_eq_getElem_cons inside
    obtain ⟨next, runs, kept, moves, joined⟩ := step now _ _ valid here
    refine ⟨next, runs, ⟨kept, ?_⟩, by omega⟩
    rw [joined, ← here, same]
  have enough : text.length - index s ≤ text.length := Nat.sub_le _ _
  obtain ⟨last, runs, ⟨valid, same⟩, ended⟩ := whileLoop_total round ⟨start, rfl⟩ enough
  have ended : ¬index last < text.length := of_decide_eq_false ended
  rw [List.drop_eq_nil_of_le (by omega)] at same
  exact ⟨last, runs, valid, same⟩

/-! ## Cursors -/

structure Cursors (α : Type) where
  d : List α
  i : Nat
  c : Nat

namespace Cursors

def start (text : List α) (pos : Nat) : Cursors α := ⟨text, pos, pos⟩

def out (s : Cursors α) : List α := s.d.take s.c

/-- `s` once `b` stands at the write cursor and `count` more are read. -/
def next (s : Cursors α) (b : α) (count : Nat) : Cursors α :=
  ⟨s.d.set s.c b, s.i + count, s.c + 1⟩

@[simp] theorem next_i (s : Cursors α) (b : α) (count : Nat) : (s.next b count).i = s.i + count :=
  rfl

def put (s : Cursors α) (b : α) (count : Nat) : Option (Cursors α) :=
  if s.c < s.d.length then some (s.next b count) else none

/-- `d[0:c]` -/
def slice (s : Cursors α) : Option (List α) :=
  if s.c ≤ s.d.length then some s.out else none

/-- The write cursor is behind the read cursor, and nothing of the text that is still to
be read is overwritten. -/
structure Behind (text : List α) (s : Cursors α) : Prop where
  length : s.d.length = text.length
  behind : s.c ≤ s.i
  within : s.i ≤ text.length
  ahead : s.d.drop s.i = text.drop s.i

variable {text rest : List α} {s : Cursors α} {b : α}

theorem behind_start {pos : Nat} (within : pos ≤ text.length) : Behind text (start text pos) :=
  ⟨rfl, Nat.le_refl _, within, rfl⟩

namespace Behind

theorem getElem? (h : Behind text s) (here : text.drop s.i = b :: rest) : s.d[s.i]? = some b :=
  getElem?_of_drop (h.ahead.trans here)

theorem fits (h : Behind text s) : s.c ≤ s.d.length :=
  h.length ▸ Nat.le_trans h.behind h.within

theorem slice (h : Behind text s) : s.slice = some s.out := if_pos h.fits

theorem put (h : Behind text s) (b : α) {count : Nat} (moves : 0 < count)
    (fits : s.i + count ≤ text.length) :
    s.put b count = some (s.next b count) ∧ Behind text (s.next b count) ∧
      (s.next b count).out = s.out ++ [b] := by
  have room : s.c < s.d.length := by
    have := h.behind
    rw [h.length]
    omega
  have past : s.c < s.i + count := Nat.lt_of_le_of_lt h.behind (by omega)
  refine ⟨if_pos room, ⟨?_, past, fits, ?_⟩, ?_⟩
  · simpa only [next, List.length_set] using h.length
  · simp only [next]
    rw [List.drop_set_of_lt past, ← List.drop_drop, h.ahead, List.drop_drop]
  · simp only [out, next]
    rw [List.take_add_one, List.take_set_of_le (Nat.le_refl _), List.getElem?_set_self room]
    rfl

end Behind

structure Wrote (text : List α) (s : Cursors α) (piece : Piece α) (next : Cursors α) : Prop where
  behind : Behind text next
  moved : next.i = s.i + 1 + piece.count
  out : next.out = s.out ++ piece.out

def Writes (text : List α) (s : Cursors α) (piece : Piece α) (result : Option (Cursors α)) : Prop :=
  ∃ next, result = some next ∧ Wrote text s piece next

theorem Behind.writes (h : Behind text s) (b : α) (count : Nat)
    (fits : s.i + (count + 1) ≤ text.length) :
    Writes text s { out := [b], count } (s.put b (count + 1)) := by
  obtain ⟨runs, kept, written⟩ := h.put b (Nat.succ_pos count) fits
  refine ⟨_, runs, kept, ?_, written⟩
  rw [next_i, Nat.add_assoc, Nat.add_comm 1]

theorem Behind.skips (h : Behind text s) (count : Nat) (fits : s.i + (count + 1) ≤ text.length) :
    Writes text s { out := [], count } (some { s with i := s.i + (count + 1) }) := by
  refine ⟨_, rfl, ⟨h.length, ?_, fits, ?_⟩, ?_, (List.append_nil _).symm⟩
  · exact Nat.le_trans h.behind (Nat.le_add_right _ _)
  · rw [← List.drop_drop, h.ahead, List.drop_drop]
  · show s.i + (count + 1) = s.i + 1 + count
    omega

/-- A loop whose rounds write the pieces of a rewriting into the buffer of its state. -/
theorem whileLoop_rewrites {body : σ → Option σ} (cursors : σ → Cursors α) (flag : σ → Bool)
    (piece : α → List α → Piece α)
    (round : ∀ s b rest, Behind text (cursors s) → text.drop (cursors s).i = b :: rest →
      ∃ next, body s = some next ∧
        Wrote text (cursors s) (piece b rest) (cursors next) ∧
        flag next = (flag s || (piece b rest).changed))
    {s : σ} (begins : Behind text (cursors s)) :
    ∃ last, whileLoop (fun s => (cursors s).i < text.length) body text.length s = some last ∧
      Behind text (cursors last) ∧
      (cursors last).out = (cursors s).out ++ (rewrite piece (text.drop (cursors s).i)).1 ∧
      flag last = (flag s || (rewrite piece (text.drop (cursors s).i)).2) := by
  let join (s : σ) (rest : List α × Bool) : List α × Bool :=
    ((cursors s).out ++ rest.1, flag s || rest.2)
  have step : ∀ s b rest, Behind text (cursors s) → text.drop (cursors s).i = b :: rest →
      ∃ next, body s = some next ∧ Behind text (cursors next) ∧
        (cursors s).i < (cursors next).i ∧
        join next (rewrite piece (text.drop (cursors next).i)) =
          join s (rewrite piece (b :: rest)) := by
    intro s b rest behind here
    obtain ⟨next, runs, wrote, flagged⟩ := round s b rest behind here
    have moved := wrote.moved
    have left : text.drop (cursors next).i = rest.drop (piece b rest).count := by
      rw [moved, Nat.add_assoc, drop_add_of_drop here, Nat.add_comm 1, List.drop_succ_cons]
    refine ⟨next, runs, wrote.behind, by omega, ?_⟩
    simp only [join, left, rewrite_cons, wrote.out, flagged, List.append_assoc, Bool.or_assoc]
  obtain ⟨last, runs, behind, joined⟩ :=
    whileLoop_scans (fun s => (cursors s).i) (fun s => Behind text (cursors s)) (rewrite piece) join
      step begins
  simp only [join, rewrite_nil, List.append_nil, Bool.or_false, Prod.mk.injEq] at joined
  exact ⟨last, runs, behind, joined.1, joined.2⟩

theorem whileLoop_slice {body : Cursors α → Option (Cursors α)} (piece : α → List α → Piece α)
    (round : ∀ s b rest, Behind text s → text.drop s.i = b :: rest →
      Writes text s (piece b rest) (body s))
    {pos : Nat} (within : pos ≤ text.length) :
    (whileLoop (fun s => s.i < text.length) body text.length (start text pos)).bind slice =
      some (text.take pos ++ (rewrite piece (text.drop pos)).1) := by
  have flagged : ∀ s b rest, Behind text s → text.drop s.i = b :: rest →
      ∃ next, body s = some next ∧ Wrote text s (piece b rest) next ∧
        true = (true || (piece b rest).changed) := by
    intro s b rest behind here
    obtain ⟨next, runs, wrote⟩ := round s b rest behind here
    exact ⟨next, runs, wrote, rfl⟩
  obtain ⟨last, runs, behind, written, _⟩ :=
    whileLoop_rewrites (fun s => s) (fun _ => true) piece flagged (behind_start within)
  rw [runs, Option.bind_some, behind.slice, written]
  rfl

/-- The same for a loop that also notes whether it has changed anything. -/
theorem whileLoop_flagged {body : Cursors α × Bool → Option (Cursors α × Bool)}
    (piece : α → List α → Piece α)
    (round : ∀ s changed b rest, Behind text s → text.drop s.i = b :: rest →
      ∃ after, body (s, changed) = some (after, changed || (piece b rest).changed) ∧
        Wrote text s (piece b rest) after)
    {pos : Nat} (within : pos ≤ text.length) :
    ((whileLoop (fun state => state.1.i < text.length) body text.length
        (start text pos, false)).bind fun state => state.1.slice.bind fun out =>
          some (out, state.2)) =
      some (text.take pos ++ (rewrite piece (text.drop pos)).1,
        (rewrite piece (text.drop pos)).2) := by
  have rounds : ∀ (state : Cursors α × Bool) b rest, Behind text state.1 →
      text.drop state.1.i = b :: rest →
      ∃ next, body state = some next ∧ Wrote text state.1 (piece b rest) next.1 ∧
        next.2 = (state.2 || (piece b rest).changed) := by
    intro state b rest behind here
    obtain ⟨after, runs, wrote⟩ := round state.1 state.2 b rest behind here
    exact ⟨_, runs, wrote, rfl⟩
  have begins : Behind text (start text pos, false).1 := behind_start within
  obtain ⟨last, runs, behind, written, flagged⟩ :=
    whileLoop_rewrites Prod.fst Prod.snd piece rounds begins
  rw [runs, Option.bind_some, behind.slice, Option.bind_some, written, flagged, Bool.false_or]
  rfl

end Cursors

end Obsidian.Data
