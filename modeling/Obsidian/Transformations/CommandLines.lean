import Mathlib.Logic.Relation
import Obsidian.Transformations.Cleaning
import Obsidian.Transformations.Indexed

namespace Obsidian

open Obsidian.Data

/-! # Command lines

`cmdLine` over its buffer, the normal form it makes and the spellings it makes alike.
-/

namespace CommandLines

open Obsidian.Transformations hiding none cmdLine

/-! ## The buffer -/

/-- The bytes written and whether the last of them is a space that may still go. -/
structure Buffer where
  ret : Bytes
  space : Bool

def Buffer.take (buffer : Buffer) (a : UInt8) : Buffer :=
  if isCMDQuote a then buffer
  else if isCMDSpace a then
    if buffer.space then buffer else { ret := buffer.ret ++ [byte ' '], space := true }
  else if isCMDOpen a then
    { ret := (if buffer.space then buffer.ret.dropLast else buffer.ret) ++ [a], space := false }
  else { ret := buffer.ret ++ [lowerByte a], space := false }

def doCMDLine (input : Bytes) (pos : Nat) : Bytes :=
  ((input.drop pos).foldl Buffer.take { ret := input.take pos, space := false }).ret

def cmdLine : Transformation := fun data =>
  match data.findIdx? needsTransform with
  | some i => (doCMDLine data i, true, none)
  | none => (data, false, none)

/-- What a byte settles of the output, and whether a space is held back behind it. -/
def settle (space : Bool) (a : UInt8) : Bytes × Bool :=
  if isCMDQuote a then ([], space)
  else if isCMDSpace a then ([], true)
  else if isCMDOpen a then ([a], false)
  else ((if space then [byte ' '] else []) ++ [lowerByte a], false)

theorem cmdLineLoop_cons (space : Bool) (a : UInt8) (rest : Bytes) :
    cmdLineLoop space (a :: rest) =
      (settle space a).1 ++ cmdLineLoop (settle space a).2 rest := by
  rw [cmdLineLoop, settle]
  repeat' split
  all_goals simp

/-- The buffer whose flag is set just when its last byte is a space that may still go. -/
def Buffer.holding (settled : Bytes) (space : Bool) : Buffer :=
  { ret := settled ++ if space then [byte ' '] else [], space := space }

theorem Buffer.take_holding (settled : Bytes) (space : Bool) (a : UInt8) :
    (holding settled space).take a = holding (settled ++ (settle space a).1) (settle space a).2 := by
  rw [Buffer.take, settle]
  repeat' split
  all_goals simp_all [holding]

theorem foldl_take (settled : Bytes) (space : Bool) (rest : Bytes) :
    (rest.foldl Buffer.take (.holding settled space)).ret = settled ++ cmdLineLoop space rest := by
  induction rest generalizing settled space with
  | nil => rfl
  | cons a rest ih =>
    rw [List.foldl_cons, Buffer.take_holding, ih, cmdLineLoop_cons, List.append_assoc]

theorem settle_letter {a : UInt8} (quote : isCMDQuote a = false) (separator : isCMDSpace a = false)
    (space : Bool) : settle space a =
      if isCMDOpen a then ([a], false)
      else ((if space then [byte ' '] else []) ++ [lowerByte a], false) := by
  simp only [settle, quote, separator, Bool.false_eq_true, if_false]

theorem settle_plain {a : UInt8} (plain : needsTransform a = false) : settle false a = ([a], false) := by
  simp only [needsTransform, decide_eq_false_iff_not, not_or, Bool.not_eq_true] at plain
  obtain ⟨small, quote, separator, opening⟩ := plain
  have lower : lowerByte a = a := if_neg small
  rw [settle_letter quote separator, opening, lower]
  rfl

theorem cmdLineLoop_append {front : Bytes} (plain : ∀ a ∈ front, needsTransform a = false)
    (rest : Bytes) : cmdLineLoop false (front ++ rest) = front ++ cmdLineLoop false rest := by
  induction front with
  | nil => rfl
  | cons a front ih =>
    obtain ⟨plainByte, plainRest⟩ := List.forall_mem_cons.mp plain
    rw [List.cons_append, cmdLineLoop_cons, settle_plain plainByte, ih plainRest]
    rfl

/-- The first byte that needs the transformation is a fine place to start it. -/
theorem doCMDLine_eq {input : Bytes} {pos : Nat}
    (plain : ∀ a ∈ input.take pos, needsTransform a = false) :
    doCMDLine input pos = cmdLineLoop false input := by
  have loop := foldl_take (input.take pos) false (input.drop pos)
  rw [← cmdLineLoop_append plain, List.take_append_drop] at loop
  simpa [doCMDLine, Buffer.holding] using loop

theorem cmdLine_fst (data : Bytes) : (cmdLine data).1 = cmdLineLoop false data := by
  rw [cmdLine]
  split
  · next i found =>
      refine doCMDLine_eq fun a inFront => ?_
      rw [List.findIdx?_eq_some_iff_getElem] at found
      obtain ⟨_, _, before⟩ := found
      obtain ⟨j, bound, rfl⟩ := List.mem_iff_getElem.mp inFront
      have earlier : j < i := by
        rw [List.length_take] at bound
        omega
      simpa using before j earlier
  · next absent =>
      rw [List.findIdx?_eq_none_iff] at absent
      have copied := cmdLineLoop_append absent []
      rw [List.append_nil, cmdLineLoop] at copied
      simpa using copied.symm

theorem cmdLine_eq (data : Bytes) : cmdLine data = Transformations.cmdLine data := by
  have fst := cmdLine_fst data
  rw [Transformations.cmdLine]
  rw [cmdLine] at fst ⊢
  split at fst
  · next i found =>
      have needed : data.any needsTransform = true := by
        rw [← List.findIdx?_isSome, found, Option.isSome_some]
      rw [if_pos needed, ← fst]
  · next absent =>
      have plain : ¬data.any needsTransform = true := by
        rw [← List.findIdx?_isSome, absent, Option.isSome_none]
        exact Bool.false_ne_true
      rw [if_neg plain]

/-! ## The normal form -/

def isNormal (c : UInt8) : Bool :=
  c ∉ str "\\\"'^,;\t\r\n" ∧ ¬(byte 'A' ≤ c ∧ c ≤ byte 'Z')

def follows (b c : UInt8) : Bool := b ≠ byte ' ' || (c ≠ byte ' ' && !isCMDOpen c)

structure Normal (text : Bytes) : Prop where
  bytes : ∀ c ∈ text, isNormal c = true
  chain : text.IsChain (follows · · = true)

theorem Normal.nil : Normal [] := ⟨nofun, .nil⟩

theorem Normal.cons {c : UInt8} {out : Bytes} (normal : Normal out) (isByte : isNormal c = true)
    (noSpace : c ≠ byte ' ') : Normal (c :: out) := by
  refine ⟨List.forall_mem_cons.mpr ⟨isByte, normal.bytes⟩, ?_⟩
  refine List.isChain_cons.mpr ⟨fun b _ => ?_, normal.chain⟩
  simp [follows, noSpace]

theorem Normal.space {c : UInt8} {out : Bytes} (normal : Normal (c :: out)) (noSpace : c ≠ byte ' ')
    (notOpen : isCMDOpen c = false) : Normal (byte ' ' :: c :: out) := by
  refine ⟨List.forall_mem_cons.mpr ⟨by decide, normal.bytes⟩, ?_⟩
  refine List.isChain_cons_cons.mpr ⟨?_, normal.chain⟩
  simp [follows, noSpace, notOpen]

theorem Normal.tail {c : UInt8} {out : Bytes} (normal : Normal (c :: out)) : Normal out :=
  ⟨(List.forall_mem_cons.mp normal.bytes).2, (List.isChain_cons.mp normal.chain).2⟩

theorem isNormal_iff (a : UInt8) : isNormal a = true ↔
    isCMDQuote a = false ∧ (isCMDSpace a = true → a = byte ' ') ∧ lowerByte a = a := by
  revert a
  apply Indexed.forall_byte
  decide +kernel

theorem lowerByte_classes (a : UInt8) :
    isCMDQuote (lowerByte a) = isCMDQuote a ∧ isCMDSpace (lowerByte a) = isCMDSpace a ∧
      isCMDOpen (lowerByte a) = isCMDOpen a ∧ lowerByte (lowerByte a) = lowerByte a ∧
        (isCMDOpen a = true → lowerByte a = a) := by
  revert a
  apply Indexed.forall_byte
  decide +kernel

/-- A byte settles nothing, or a byte other than a space with the space that was held back,
unless it is an opening byte. -/
theorem settle_cases (space : Bool) (a : UInt8) :
    (settle space a).1 = [] ∨ ∃ c, c ≠ byte ' ' ∧ isNormal c = true ∧
      ((settle space a).1 = [c] ∨ (isCMDOpen c = false ∧ (settle space a).1 = [byte ' ', c])) := by
  cases quote : isCMDQuote a with
  | true => exact .inl (by rw [settle, if_pos quote])
  | false =>
    cases separator : isCMDSpace a with
    | true => exact .inl (by rw [settle, if_neg (by simp [quote]), if_pos separator])
    | false =>
      obtain ⟨sameQuote, sameSeparator, sameOpening, twice, opened⟩ := lowerByte_classes a
      rw [quote] at sameQuote
      rw [separator] at sameSeparator
      have noSpace : lowerByte a ≠ byte ' ' := by
        intro isSpace
        rw [isSpace] at sameSeparator
        cases sameSeparator
      refine .inr ⟨lowerByte a, noSpace, (isNormal_iff _).mpr ⟨sameQuote, ?_, twice⟩, ?_⟩
      · simp [sameSeparator]
      · rw [settle_letter quote separator]
        cases opening : isCMDOpen a with
        | true => exact .inl (by simp [opened opening])
        | false => cases space <;> simp [sameOpening, opening]

theorem cmdLineLoop_normal (space : Bool) (text : Bytes) : Normal (cmdLineLoop space text) := by
  induction text generalizing space with
  | nil =>
    cases space with
    | false => exact .nil
    | true => exact ⟨by decide +kernel, .singleton _⟩
  | cons a rest ih =>
    rw [cmdLineLoop_cons]
    have later := ih (settle space a).2
    rcases settle_cases space a with nothing | ⟨c, noSpace, isByte, alone | ⟨notOpen, held⟩⟩
    · rwa [nothing]
    · rw [alone]
      exact later.cons isByte noSpace
    · rw [held]
      exact (later.cons isByte noSpace).space noSpace notOpen

theorem isCMDSpace_normal {a : UInt8} (isByte : isNormal a = true) (noSpace : a ≠ byte ' ') :
    isCMDSpace a = false := by
  obtain ⟨_, separator, _⟩ := (isNormal_iff a).mp isByte
  cases separates : isCMDSpace a with
  | true => exact absurd (separator separates) noSpace
  | false => rfl

theorem settle_normal {a : UInt8} (isByte : isNormal a = true) (noSpace : a ≠ byte ' ') :
    settle false a = ([a], false) := by
  obtain ⟨quote, _, lower⟩ := (isNormal_iff a).mp isByte
  rw [settle_letter quote (isCMDSpace_normal isByte noSpace), lower]
  split <;> rfl

theorem settle_held {a : UInt8} (isByte : isNormal a = true) (after : follows (byte ' ') a = true) :
    settle true a = (byte ' ' :: (settle false a).1, (settle false a).2) := by
  obtain ⟨quote, _, lower⟩ := (isNormal_iff a).mp isByte
  have apart : a ≠ byte ' ' ∧ isCMDOpen a = false := by simpa [follows] using after
  have separator := isCMDSpace_normal isByte apart.1
  rw [settle_letter quote separator, settle_letter quote separator, apart.2]
  rfl

theorem cmdLineLoop_held {text : Bytes} (normal : Normal (byte ' ' :: text)) :
    cmdLineLoop true text = byte ' ' :: cmdLineLoop false text := by
  cases text with
  | nil => rfl
  | cons a rest =>
    have isByte := normal.tail.bytes a List.mem_cons_self
    have after := (List.isChain_cons_cons.mp normal.chain).1
    rw [cmdLineLoop_cons, cmdLineLoop_cons, settle_held isByte after, List.cons_append]

theorem cmdLineLoop_of_normal {text : Bytes} (normal : Normal text) : cmdLineLoop false text = text := by
  induction text with
  | nil => rfl
  | cons a rest ih =>
    by_cases isSpace : a = byte ' '
    · subst isSpace
      rw [cmdLineLoop_cons, show settle false (byte ' ') = ([], true) by decide, List.nil_append,
        cmdLineLoop_held normal, ih normal.tail]
    · rw [cmdLineLoop_cons, settle_normal (normal.bytes a List.mem_cons_self) isSpace,
        ih normal.tail, List.singleton_append]

/-! ## Spellings of one command -/

/-- Two texts that differ by one inserted quote, backslash or caret, by the case of one
letter, or by one run of separators that is a space. -/
inductive Respelled : Bytes → Bytes → Prop
  | quote (front rest : Bytes) {c : UInt8} (isQuote : c ∈ str "\\\"'^") :
      Respelled (front ++ rest) (front ++ c :: rest)
  | letterCase (front rest : Bytes) {c d : UInt8} (same : lowerByte c = lowerByte d) :
      Respelled (front ++ c :: rest) (front ++ d :: rest)
  | separators (front rest : Bytes) {run : Bytes} (nonempty : run ≠ [])
      (separator : ∀ c ∈ run, c ∈ str " ,;\t\r\n") :
      Respelled (front ++ run ++ rest) (front ++ byte ' ' :: rest)

theorem cmdLineLoop_congr {rest other : Bytes}
    (alike : ∀ space, cmdLineLoop space rest = cmdLineLoop space other) (front : Bytes) (space : Bool) :
    cmdLineLoop space (front ++ rest) = cmdLineLoop space (front ++ other) := by
  induction front generalizing space with
  | nil => exact alike space
  | cons a front ih => rw [List.cons_append, List.cons_append, cmdLineLoop_cons, cmdLineLoop_cons, ih]

theorem settle_quote {c : UInt8} (isQuote : c ∈ str "\\\"'^") (space : Bool) :
    settle space c = ([], space) := by
  have quote : isCMDQuote c = true := by
    revert c
    decide +kernel
  rw [settle, if_pos quote]

theorem settle_separator {c : UInt8} (separator : c ∈ str " ,;\t\r\n") (space : Bool) :
    settle space c = ([], true) := by
  have kind : isCMDQuote c = false ∧ isCMDSpace c = true := by
    revert c
    decide +kernel
  rw [settle, if_neg (by simp [kind.1]), if_pos kind.2]

theorem settle_lowerByte (space : Bool) (c : UInt8) : settle space (lowerByte c) = settle space c := by
  obtain ⟨quote, separator, opening, twice, opened⟩ := lowerByte_classes c
  rw [settle, settle, quote, separator, opening, twice]
  cases opens : isCMDOpen c with
  | true => rw [opened opens]
  | false => rfl

theorem cmdLineLoop_run {run : Bytes} (nonempty : run ≠ [])
    (separator : ∀ c ∈ run, c ∈ str " ,;\t\r\n") (space : Bool) (rest : Bytes) :
    cmdLineLoop space (run ++ rest) = cmdLineLoop true rest := by
  induction run generalizing space with
  | nil => exact absurd rfl nonempty
  | cons c run ih =>
    obtain ⟨first, others⟩ := List.forall_mem_cons.mp separator
    rw [List.cons_append, cmdLineLoop_cons, settle_separator first, List.nil_append]
    cases run with
    | nil => rfl
    | cons d run => exact ih (List.cons_ne_nil d run) others true

theorem Respelled.cmdLineLoop {text other : Bytes} (respelled : Respelled text other) :
    cmdLineLoop false text = cmdLineLoop false other := by
  cases respelled with
  | quote front rest isQuote =>
    refine cmdLineLoop_congr (fun space => ?_) front false
    rw [cmdLineLoop_cons, settle_quote isQuote, List.nil_append]
  | @letterCase front rest c d same =>
    refine cmdLineLoop_congr (fun space => ?_) front false
    rw [cmdLineLoop_cons, cmdLineLoop_cons, ← settle_lowerByte, same, settle_lowerByte]
  | separators front rest nonempty separator =>
    rw [List.append_assoc]
    refine cmdLineLoop_congr (fun space => ?_) front false
    rw [cmdLineLoop_run nonempty separator, cmdLineLoop_cons, settle_separator (by decide),
      List.nil_append]

def SameCommand : Bytes → Bytes → Prop := Relation.EqvGen Respelled

theorem SameCommand.cmdLineLoop {text other : Bytes} (same : SameCommand text other) :
    cmdLineLoop false text = cmdLineLoop false other := by
  induction same with
  | rel _ _ respelled => exact respelled.cmdLineLoop
  | refl _ => rfl
  | symm _ _ _ ih => exact ih.symm
  | trans _ _ _ _ _ first second => exact first.trans second

theorem Normal.not_infix {text : Bytes} (normal : Normal text) {b c : UInt8}
    (apart : follows b c = false) : ¬[b, c] <:+: text := by
  rintro ⟨front, rest, rfl⟩
  have chain := normal.chain
  rw [List.append_assoc, List.isChain_append] at chain
  obtain ⟨_, chain, _⟩ := chain
  rw [List.cons_append, List.cons_append, List.isChain_cons_cons, apart] at chain
  cases chain.1

/-- `cmdLine` makes a normal form, keeps it, and makes the same one of all spellings of a
command. -/
theorem cmdLine_normalises (data : Bytes) :
    (∀ c ∈ (cmdLine data).1, c ∉ str "\\\"'^,;\t\r\n" ∧ ¬(byte 'A' ≤ c ∧ c ≤ byte 'Z')) ∧
    ¬str "  " <:+: (cmdLine data).1 ∧ ¬str " /" <:+: (cmdLine data).1 ∧
    ¬str " (" <:+: (cmdLine data).1 ∧
    (cmdLine (cmdLine data).1).1 = (cmdLine data).1 ∧
    ∀ other, SameCommand data other → (cmdLine data).1 = (cmdLine other).1 := by
  have normal : Normal (cmdLine data).1 := by
    rw [cmdLine_fst]
    exact cmdLineLoop_normal false data
  refine ⟨fun c found => ?_, normal.not_infix (by decide), normal.not_infix (by decide),
    normal.not_infix (by decide), ?_, fun other same => ?_⟩
  · exact of_decide_eq_true (normal.bytes c found)
  · rw [cmdLine_fst (cmdLine data).1]
    exact cmdLineLoop_of_normal normal
  · rw [cmdLine_fst, cmdLine_fst]
    exact same.cmdLineLoop

theorem cmdLine_normalises_dir :
    SameCommand (str "cmd,; /c dir") (str "cmd /c d^IR") ∧
    (cmdLine (str "cmd,; /c dir")).1 = (cmdLine (str "cmd /c d^IR")).1 ∧
    (cmdLine (str "cmd /c d^IR")).1 = str "cmd/c dir" := by
  have separators : Respelled (str "cmd,; /c dir") (str "cmd /c dir") :=
    .separators (str "cmd") (str "/c dir") (List.cons_ne_nil (byte ',') (str "; ")) (by decide +kernel)
  have quoted : Respelled (str "cmd /c dir") (str "cmd /c d^ir") :=
    .quote (str "cmd /c d") (str "ir") (by decide : byte '^' ∈ _)
  have upperI : Respelled (str "cmd /c d^ir") (str "cmd /c d^Ir") :=
    .letterCase (str "cmd /c d^") (str "r") (by decide : lowerByte (byte 'i') = lowerByte (byte 'I'))
  have upperR : Respelled (str "cmd /c d^Ir") (str "cmd /c d^IR") :=
    .letterCase (str "cmd /c d^I") [] (by decide : lowerByte (byte 'r') = lowerByte (byte 'R'))
  have same : SameCommand (str "cmd,; /c dir") (str "cmd /c d^IR") :=
    (((Relation.EqvGen.rel _ _ separators).trans _ _ _ (.rel _ _ quoted)).trans _ _ _
      (.rel _ _ upperI)).trans _ _ _ (.rel _ _ upperR)
  exact ⟨same, (cmdLine_normalises _).2.2.2.2.2 _ same, by decide⟩

end CommandLines

end Obsidian
