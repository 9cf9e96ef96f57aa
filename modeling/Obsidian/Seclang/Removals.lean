import Obsidian.Seclang.RuleInvariants

namespace Obsidian

open Obsidian.Data

/-! # Removing rules

The four loops of `rulegroup.go` that remove rules, as they run: `none` is a panic.  They
answer what `RuleGroup` says of them.
-/

theorem eraseP_eq_filter_iff {α : Type} {named : α → Bool} (list : List α) :
    list.eraseP named = list.filter (!named ·) ↔ (list.filter named).length ≤ 1 := by
  induction list with
  | nil => simp
  | cons a rest ih =>
    cases passes : named a with
    | false => simpa [List.eraseP_cons, List.filter_cons, passes] using ih
    | true =>
      have none : rest = rest.filter (!named ·) ↔ rest.filter named = [] := by
        rw [eq_comm, List.filter_eq_self, List.filter_eq_nil_iff]
        simp
      simpa [List.eraseP_cons, List.filter_cons, passes] using none

namespace Removal

def deleteByIDFrom (rules : RuleGroup) (id : Int) : (i : Nat) → List StoredRule → Option RuleGroup
  | _, [] => some rules
  | i, r :: rest =>
    if r.head.id = id then
      -- the slices `rules[:i]` and `rules[i+1:]`
      if i + 1 ≤ rules.length then some (rules.take i ++ rules.drop (i + 1)) else none
    else deleteByIDFrom rules id (i + 1) rest

def deleteByID (rules : RuleGroup) (id : Int) : Option RuleGroup := deleteByIDFrom rules id 0 rules

/-- The loop of the other three: the rules that pass the test are appended to `kept`. -/
def keptLoop (keep : StoredRule → Option Bool) : (kept : RuleGroup) → List StoredRule →
    Option RuleGroup
  | kept, [] => some kept
  | kept, r :: rest =>
    match keep r with
    | none => none
    | some true => keptLoop keep (kept ++ [r]) rest
    | some false => keptLoop keep kept rest

def deleteByRange (rules : RuleGroup) (start stop : Int) : Option RuleGroup :=
  keptLoop (fun r => some (r.head.id < start ∨ stop < r.head.id)) [] rules

/-- `r.Msg.String()` of a nil `Msg` panics. -/
def deleteByMsg (rules : RuleGroup) (msg : Bytes) : Option RuleGroup :=
  keptLoop (fun r => r.head.msg.map (·.string ≠ msg)) [] rules

def deleteByTag (rules : RuleGroup) (tag : Bytes) : Option RuleGroup :=
  keptLoop (fun r => some (¬r.head.tags.contains tag)) [] rules

/-! ## What the loops answer -/

section

variable {keep : StoredRule → Option Bool} {test : StoredRule → Bool}

theorem keptLoop_filter {rules kept : RuleGroup} (answers : ∀ r ∈ rules, keep r = some (test r)) :
    keptLoop keep kept rules = some (kept ++ rules.filter test) := by
  induction rules generalizing kept with
  | nil => rw [keptLoop, List.filter_nil, List.append_nil]
  | cons r rest ih =>
    obtain ⟨here, later⟩ := List.forall_mem_cons.mp answers
    rw [keptLoop, here, List.filter_cons]
    cases test r with
    | true =>
      have next : keptLoop keep (kept ++ [r]) rest = some (kept ++ [r] ++ rest.filter test) :=
        ih later
      rwa [List.append_assoc] at next
    | false => exact ih later

theorem keptLoop_panics {rules kept : RuleGroup} {r : StoredRule} (found : r ∈ rules)
    (panics : keep r = none) : keptLoop keep kept rules = none := by
  induction rules generalizing kept with
  | nil => cases found
  | cons first rest ih =>
    rw [keptLoop]
    rcases List.mem_cons.mp found with rfl | later
    · rw [panics]
    · cases keep first with
      | none => rfl
      | some kept => cases kept <;> exact ih later

end

theorem deleteByIDFrom_eq {rules rest : RuleGroup} (id : Int) (before : RuleGroup)
    (split : rules = before ++ rest) :
    deleteByIDFrom rules id before.length rest = some (before ++ rest.eraseP (·.head.id = id)) := by
  induction rest generalizing before with
  | nil => rw [deleteByIDFrom, split, List.eraseP_nil]
  | cons r rest ih =>
    rw [deleteByIDFrom, List.eraseP_cons]
    by_cases named : r.head.id = id
    · have inside : before.length + 1 ≤ rules.length := by
        rw [split, List.length_append, List.length_cons]
        omega
      rw [if_pos named, if_pos inside, decide_eq_true named, cond_true, split, List.take_left,
        ← List.drop_drop, List.drop_left]
      rfl
    · have later := ih (before ++ [r]) (by rw [split, List.append_cons])
      rw [if_neg named, decide_eq_false named, cond_false]
      rw [List.length_append, List.length_singleton] at later
      rw [later, ← List.append_cons]

theorem deleteByID_eq (rules : RuleGroup) (id : Int) :
    deleteByID rules id = some (rules.deleteByID id) :=
  deleteByIDFrom_eq id [] rfl

theorem deleteByRange_eq (rules : RuleGroup) (start stop : Int) :
    deleteByRange rules start stop = some (rules.deleteByRange start stop) :=
  keptLoop_filter fun _ _ => rfl

theorem deleteByTag_eq (rules : RuleGroup) (tag : Bytes) :
    deleteByTag rules tag = some (rules.deleteByTag tag) :=
  keptLoop_filter fun _ _ => rfl

theorem deleteByMsg_eq (rules : RuleGroup) (msg : Bytes) :
    deleteByMsg rules msg = rules.deleteByMsg msg := by
  rw [RuleGroup.deleteByMsg]
  split
  · next without =>
      obtain ⟨r, found, missing⟩ := List.any_eq_true.mp without
      apply keptLoop_panics found
      rw [Option.isNone_iff_eq_none.mp missing, Option.map_none]
  · next all =>
      apply keptLoop_filter
      intro r found
      have given : r.head.msg ≠ none := fun missing =>
        all (List.any_eq_true.mpr ⟨r, found, by rw [missing]; rfl⟩)
      obtain ⟨m, text⟩ := Option.ne_none_iff_exists'.mp given
      simp [text]

end Removal

/-! ## Exactness -/

theorem deleteByMsg_exact_iff (rules : RuleGroup) (msg : Bytes) :
    Removal.deleteByMsg rules msg =
        some (rules.filter fun r => ¬r.head.msg.any (·.string = msg)) ↔
      ∀ r ∈ rules, r.head.msg.isSome := by
  constructor
  · intro removed r found
    by_contra missing
    rw [Removal.deleteByMsg, Removal.keptLoop_panics found] at removed
    · cases removed
    · rw [Option.not_isSome_iff_eq_none.mp missing, Option.map_none]
  · intro given
    apply Removal.keptLoop_filter
    intro r found
    obtain ⟨m, text⟩ := Option.isSome_iff_exists.mp (given r found)
    simp [text]

/-- `DeleteByRange` and `DeleteByTag` remove exactly what they should; `DeleteByMsg` does if
every rule has a message, and panics otherwise; `DeleteByID` does if no two rules have the
id. -/
theorem removals_exact (rules : RuleGroup) :
    (∀ start stop, Removal.deleteByRange rules start stop =
        some (rules.filter fun r => ¬(start ≤ r.head.id ∧ r.head.id ≤ stop))) ∧
      (∀ tag, Removal.deleteByTag rules tag = some (rules.filter fun r => ¬r.head.tags.contains tag)) ∧
      (∀ msg, Removal.deleteByMsg rules msg =
          some (rules.filter fun r => ¬r.head.msg.any (·.string = msg)) ↔
        ∀ r ∈ rules, r.head.msg.isSome) ∧
      ∀ id, Removal.deleteByID rules id = some (rules.filter fun r => r.head.id ≠ id) ↔
        (rules.filter fun r => r.head.id = id).length ≤ 1 := by
  refine ⟨?_, ?_, deleteByMsg_exact_iff rules, ?_⟩
  · intro start stop
    apply Removal.keptLoop_filter
    intro r _
    simp only [Option.some_inj, decide_eq_decide]
    omega
  · intro tag
    exact Removal.keptLoop_filter fun _ _ => rfl
  · intro id
    rw [Removal.deleteByID_eq, Option.some_inj, RuleGroup.deleteByID, ← eraseP_eq_filter_iff]
    simp only [ne_eq, decide_not]

/-- After a marker, `SecRuleRemoveByMsg` panics; after two of them, `SecRuleRemoveById 0`
removes one. -/
theorem removals_inexact :
    (∃ options, SeclangHost.plain.configure [(.secMarker, inlineCall 1 "END")] {} = some options ∧
      (SeclangHost.directiveSecRuleRemoveByMsg (inlineCall 2 "text") options).2 = some .panic) ∧
    (SeclangHost.plain.configure
        [(.secMarker, inlineCall 1 "BEGIN"), (.secMarker, inlineCall 2 "END"),
          (.secRuleRemoveByID, inlineCall 3 "0")] {}).map
      (·.rules.map fun r => (r.head.id, r.head.secMark)) = some [(0, str "END")] :=
  ⟨⟨_, rfl, rfl⟩, by decide⟩

end Obsidian
