import Obsidian.App.ThreatFile
import Obsidian.App.ThreatRefresh
import Mathlib.Data.Finset.Insert
import Mathlib.Data.Finset.Erase

namespace Obsidian.App.Threat

open Obsidian.Data

/-! # Addresses and their spellings

The map of single addresses is keyed by texts.  Beside it stands a list of the addresses themselves;
the two agree on an address that is always written in one way.
-/

def entryOf (feed : ThreatFeed) (text : Bytes) : Option (ThreatEntry × Option IPNet) :=
  let line := trimSpace (dropCR text)
  if isComment line then none else parseEntry line feed.name feed.type

structure Listing where
  addresses : Finset Bytes := ∅
  ranges : List IPNet := []

namespace Listing

variable (l : Listing)

def add (text : Bytes) : Listing :=
  { l with addresses := (parseIP text).elim l.addresses fun ip => insert ip l.addresses }

def remove (text : Bytes) : Listing :=
  { l with addresses := (parseIP text).elim l.addresses l.addresses.erase }

def read (feed : ThreatFeed) (text : Bytes) : Listing :=
  match entryOf feed text with
  | none => l
  | some (entry, range) => { l with ranges := l.ranges ++ range.toList }.add entry.ip

def perform : Command → Listing
  | .parseFeed _ feed body => (scanned body).foldl (fun l text => l.read feed text) l
  | .blockIP _ ip _ => l.add ip
  | .unblockIP ip => l.remove ip
  | .checkIP _ => l

def performAll (commands : List Command) : Listing := commands.foldl perform l

def Lists (ip : Bytes) : Prop := ip ∈ l.addresses ∨ l.ranges.any (·.contains ip)

variable {l}

theorem mem_add {text ip : Bytes} :
    ip ∈ (l.add text).addresses ↔ parseIP text = some ip ∨ ip ∈ l.addresses := by
  unfold add
  cases parseIP text with
  | none => simp
  | some other => simp [eq_comm]

theorem mem_remove {text ip : Bytes} :
    ip ∈ (l.remove text).addresses ↔ parseIP text ≠ some ip ∧ ip ∈ l.addresses := by
  unfold remove
  cases parseIP text with
  | none => simp
  | some other => simp [eq_comm]

end Listing

/-! ## One spelling -/

def Command.texts : Command → List Bytes
  | .parseFeed _ feed body => (scanned body).filterMap fun text => (entryOf feed text).map (·.1.ip)
  | .blockIP _ ip _ => [ip]
  | .unblockIP ip => [ip]
  | .checkIP _ => []

def Spelled (form : Bytes) (texts : List Bytes) : Prop :=
  ∀ text ∈ texts, parseIP text = parseIP form → text = form

instance (form : Bytes) (texts : List Bytes) : Decidable (Spelled form texts) :=
  inferInstanceAs (Decidable (∀ text ∈ texts, _))

namespace ThreatIntel

theorem lookup_unblockIP_self (ti : ThreatIntel) (ip : Bytes) :
    (ti.unblockIP ip).2.lookup ip = none := by
  unfold unblockIP
  split
  · next absent => exact Option.isNone_iff_eq_none.mp absent
  · cases ti.blockedIPs with
    | none => rfl
    | some blocked => exact AList.lookup_erase ip blocked

theorem cidrBlocks_unblockIP (ti : ThreatIntel) (ip : Bytes) :
    (ti.unblockIP ip).2.cidrBlocks = ti.cidrBlocks := by
  unfold unblockIP
  split <;> rfl

theorem record_some {ti after : ThreatIntel} {now : Int} {entry : ThreatEntry}
    (recorded : ti.record now entry = some after) : ∃ e, ti.store entry.ip e = some after := by
  unfold record at recorded
  split at recorded
  · exact ⟨_, recorded⟩
  · cases recorded
  · exact ⟨_, recorded⟩

theorem parseLine_eq (now : Int) (feed : ThreatFeed) (state : Nat × ThreatIntel) (text : Bytes) :
    parseLine now feed state text =
      (entryOf feed text).elim (some state) fun found =>
        ({ state.2 with cidrBlocks := state.2.cidrBlocks ++ found.2.toList }.record now found.1).map
          fun ti => (state.1 + 1, ti) := by
  unfold parseLine entryOf
  dsimp only
  split
  · rfl
  · cases parseEntry (trimSpace (dropCR text)) feed.name feed.type <;> rfl

theorem checkIP_isSome_iff {ti : ThreatIntel} {form ip : Bytes} (parsed : parseIP form = some ip) :
    (ti.checkIP form).isSome ↔ (ti.lookup form).isSome ∨ ti.cidrBlocks.any (·.contains ip) := by
  unfold checkIP
  cases ti.lookup form with
  | some entry => simp
  | none =>
    rw [parsed, Option.bind_some]
    split_ifs with covered
    · simp [covered]
    · simp [covered]

/-- What `CheckIP` answers, but for the text it was asked for. -/
def verdict (ti : ThreatIntel) (ip : Bytes) : Option (Option ThreatEntry) :=
  (ti.checkIP ip).map (Option.map fun entry => { entry with ip := [] })

theorem verdict_eq {ti : ThreatIntel} {form other : Bytes} (same : parseIP form = parseIP other)
    (first : ti.lookup form = none) (second : ti.lookup other = none) :
    ti.verdict form = ti.verdict other := by
  unfold verdict checkIP
  rw [first, second, same]
  cases parseIP other with
  | none => rfl
  | some ip =>
    dsimp only [Option.bind_some]
    split_ifs
    · rfl
    · rfl

end ThreatIntel

structure Agrees (form ip : Bytes) (ti : ThreatIntel) (l : Listing) : Prop where
  ranges : ti.cidrBlocks = l.ranges
  own : (ti.lookup form).isSome ↔ ip ∈ l.addresses
  only : ∀ text, (ti.lookup text).isSome → parseIP text = some ip → text = form

namespace Agrees

variable {form ip : Bytes} {ti after : ThreatIntel} {l : Listing}

theorem store {text : Bytes} {entry : ThreatEntry} (agrees : Agrees form ip ti l)
    (parsed : parseIP form = some ip) (spelled : parseIP text = some ip → text = form)
    (stored : ti.store text entry = some after) : Agrees form ip after (l.add text) := by
  have lookup := ThreatIntel.lookup_store stored
  obtain ⟨blocked, there, rfl⟩ := ThreatIntel.store_some stored
  refine ⟨agrees.ranges, ?_, ?_⟩
  · rw [lookup, Listing.mem_add]
    by_cases same : form = text
    · rw [if_pos same, ← same]
      exact iff_of_true rfl (.inl parsed)
    · have other : parseIP text ≠ some ip := fun reads => same (spelled reads).symm
      rw [if_neg same, agrees.own]
      exact (or_iff_right other).symm
  · intro key found reads
    rw [lookup] at found
    by_cases same : key = text
    · rw [same] at reads ⊢
      exact spelled reads
    · rw [if_neg same] at found
      exact agrees.only key found reads

theorem unblockIP {text : Bytes} (agrees : Agrees form ip ti l)
    (parsed : parseIP form = some ip) (spelled : parseIP text = some ip → text = form) :
    Agrees form ip (ti.unblockIP text).2 (l.remove text) := by
  have gone := ti.lookup_unblockIP_self text
  refine ⟨?_, ?_, ?_⟩
  · rw [ThreatIntel.cidrBlocks_unblockIP]
    exact agrees.ranges
  · rw [Listing.mem_remove]
    by_cases same : form = text
    · rw [same, gone, ← same]
      exact iff_of_false nofun fun both => both.1 parsed
    · have other : parseIP text ≠ some ip := fun reads => same (spelled reads).symm
      rw [ti.lookup_unblockIP_of_ne same, agrees.own]
      exact (and_iff_right other).symm
  · intro key found reads
    by_cases same : key = text
    · rw [same, gone] at found
      cases found
    · rw [ti.lookup_unblockIP_of_ne same] at found
      exact agrees.only key found reads

theorem read {feed : ThreatFeed} {now : Int} {text : Bytes} {before after : Nat × ThreatIntel}
    (agrees : Agrees form ip before.2 l) (parsed : parseIP form = some ip)
    (spelled : ∀ entry range, entryOf feed text = some (entry, range) →
      parseIP entry.ip = some ip → entry.ip = form)
    (recorded : ThreatIntel.parseLine now feed before text = some after) :
    Agrees form ip after.2 (l.read feed text) := by
  rw [ThreatIntel.parseLine_eq] at recorded
  unfold Listing.read
  cases line : entryOf feed text with
  | none =>
    rw [line] at recorded
    cases recorded
    exact agrees
  | some found =>
    obtain ⟨entry, range⟩ := found
    rw [line, Option.elim_some] at recorded
    obtain ⟨ti, sighted, rfl⟩ := Option.map_eq_some_iff.mp recorded
    obtain ⟨e, stored⟩ := ThreatIntel.record_some sighted
    have wider : Agrees form ip
        { before.2 with cidrBlocks := before.2.cidrBlocks ++ range.toList }
        { l with ranges := l.ranges ++ range.toList } :=
      ⟨congrArg (· ++ range.toList) agrees.ranges, agrees.own, agrees.only⟩
    exact wider.store parsed (spelled entry range line) stored

theorem perform {command : Command} (agrees : Agrees form ip ti l)
    (parsed : parseIP form = some ip) (spelled : Spelled form command.texts)
    (performed : ti.perform command = some after) : Agrees form ip after (l.perform command) := by
  cases command with
  | parseFeed now feed body =>
    obtain ⟨state, folded, rfl⟩ := Option.map_eq_some_iff.mp performed
    refine optionFoldlM_relates (R := fun state l => Agrees form ip state.2 l)
      (fun text member _ _ _ recorded sofar => sofar.read parsed ?_ recorded) folded agrees
    intro entry range line reads
    have listed : entry.ip ∈ Command.texts (.parseFeed now feed body) := by
      rw [Command.texts, List.mem_filterMap]
      exact ⟨text, member, by rw [line]; rfl⟩
    exact spelled entry.ip listed (reads.trans parsed.symm)
  | blockIP now text category =>
    have written : parseIP text = some ip → text = form := fun reads =>
      spelled text (List.mem_singleton_self text) (reads.trans parsed.symm)
    rw [ThreatIntel.perform, ThreatIntel.blockIP] at performed
    split at performed
    · next invalid =>
        have same : l.add text = l := by
          rw [Listing.add, Option.isNone_iff_eq_none.mp invalid]
          rfl
        cases performed
        rw [Listing.perform, same]
        exact agrees
    · rw [Option.map_map, Option.map_eq_some_iff] at performed
      obtain ⟨ti', stored, rfl⟩ := performed
      exact agrees.store parsed written stored
  | unblockIP text =>
    cases performed
    exact agrees.unblockIP parsed fun reads =>
      spelled text (List.mem_singleton_self text) (reads.trans parsed.symm)
  | checkIP text =>
    cases performed
    exact agrees

theorem performAll {commands : List Command} (agrees : Agrees form ip ti l)
    (parsed : parseIP form = some ip) (spelled : Spelled form (commands.flatMap Command.texts))
    (performed : ti.performAll commands = some after) :
    Agrees form ip after (l.performAll commands) := by
  refine optionFoldlM_relates (fun command member _ _ _ performed sofar =>
    sofar.perform parsed ?_ performed) performed agrees
  intro text listed
  exact spelled text (List.mem_flatMap.mpr ⟨command, member, listed⟩)

theorem new (form ip : Bytes) : Agrees form ip newThreatIntel {} where
  ranges := rfl
  own := iff_of_false nofun (Finset.notMem_empty ip)
  only _ found := nomatch found

theorem checkIP (agrees : Agrees form ip ti l) (parsed : parseIP form = some ip) :
    (ti.checkIP form).isSome ↔ l.Lists ip := by
  rw [ThreatIntel.checkIP_isSome_iff parsed, agrees.own, agrees.ranges]
  rfl

theorem verdict {other : Bytes} (agrees : Agrees form ip ti l) (agrees' : Agrees other ip ti l)
    (parsed : parseIP form = some ip) (parsed' : parseIP other = some ip) :
    ti.verdict form = ti.verdict other := by
  by_cases same : form = other
  · rw [same]
  · have first : ti.lookup form = none := by
      by_contra found
      exact same (agrees'.only form (Option.isSome_iff_ne_none.mpr found) parsed)
    have second : ti.lookup other = none := by
      by_contra found
      exact same (agrees.only other (Option.isSome_iff_ne_none.mpr found) parsed').symm
    exact ThreatIntel.verdict_eq (parsed.trans parsed'.symm) first second

end Agrees

namespace ThreatIntel

variable {ti after : ThreatIntel} {form other ip : Bytes}

theorem checkIP_after_block {now : Int} {category : Bytes} (parsed : parseIP form = some ip)
    (parsed' : parseIP other = some ip)
    (performed : ti.perform (.blockIP now form category) = some after) :
    (after.checkIP other).isSome ↔ other = form ∨ (ti.checkIP other).isSome := by
  rw [perform, blockIP, parsed, Option.isNone_some, if_neg Bool.false_ne_true,
    Option.map_map, Option.map_eq_some_iff] at performed
  obtain ⟨stored, put, rfl⟩ := performed
  have lookup := lookup_store put other
  obtain ⟨blocked, there, rfl⟩ := store_some put
  rw [checkIP_isSome_iff parsed', checkIP_isSome_iff parsed', Function.comp_apply, lookup]
  by_cases same : other = form
  · simp [same]
  · simp [same]

theorem checkIP_after_unblock (parsed' : parseIP other = some ip)
    (performed : ti.perform (.unblockIP form) = some after) :
    (after.checkIP other).isSome ↔
      (other ≠ form ∧ (ti.lookup other).isSome) ∨ ti.cidrBlocks.any (·.contains ip) := by
  cases performed
  rw [checkIP_isSome_iff parsed', cidrBlocks_unblockIP]
  by_cases same : other = form
  · rw [same, ti.lookup_unblockIP_self]
    simp
  · rw [ti.lookup_unblockIP_of_ne same]
    simp [same]

end ThreatIntel

/-- If an address is always written in one way, the verdict on it is that of the list by address, and
so is the same for all forms that are nowhere written otherwise.  Blocking and unblocking a form
tells of another form nothing but what held of it before. -/
theorem verdict_by_address (commands : List Command) (form other ip : Bytes)
    (parsed : parseIP form = some ip) (parsed' : parseIP other = some ip) :
    ∃ ti, newThreatIntel.performAll commands = some ti ∧
      (Spelled other (commands.flatMap Command.texts) →
        ((ti.checkIP other).isSome ↔ (Listing.performAll {} commands).Lists ip) ∧
        (Spelled form (commands.flatMap Command.texts) → ti.verdict form = ti.verdict other)) ∧
      (∀ now category, ∃ after, ti.perform (.blockIP now form category) = some after ∧
        ((after.checkIP other).isSome ↔ other = form ∨ (ti.checkIP other).isSome)) ∧
      ∃ after, ti.perform (.unblockIP form) = some after ∧
        ((after.checkIP other).isSome ↔
          (other ≠ form ∧ (ti.lookup other).isSome) ∨ ti.cidrBlocks.any (·.contains ip)) := by
  obtain ⟨ti, performed, sane⟩ := ThreatIntel.new_performAll commands
  refine ⟨ti, performed, fun spelled' => ?_, fun now category => ?_, ?_⟩
  · have second := (Agrees.new other ip).performAll parsed' spelled' performed
    refine ⟨second.checkIP parsed', fun spelled => ?_⟩
    exact ((Agrees.new form ip).performAll parsed spelled performed).verdict second parsed parsed'
  · obtain ⟨after, blocked, _⟩ := sane.perform (fun _ _ => trivial) (.blockIP now form category)
    exact ⟨after, blocked, ThreatIntel.checkIP_after_block parsed parsed' blocked⟩
  · exact ⟨_, rfl, ThreatIntel.checkIP_after_unblock parsed' rfl⟩

def rangeAndAddress : List Command :=
  [.parseFeed 0 dropFeed (str "10.0.0.0/8 ; SBL1\n"), .blockIP 0 (str "192.0.2.1") (str "manual")]

/-- Both forms lie in the range, and no form of the unblocked address is left. -/
theorem verdict_by_address_mapped :
    ∃ ti, newThreatIntel.performAll rangeAndAddress = some ti ∧
      ti.verdict (str "10.1.2.3") = ti.verdict (str "::FFFF:10.1.2.3") ∧
      ∃ after, ti.perform (.unblockIP (str "192.0.2.1")) = some after ∧
        (after.checkIP (str "::ffff:192.0.2.1")).isNone := by
  obtain ⟨ti, performed, same, _⟩ := verdict_by_address rangeAndAddress (str "10.1.2.3")
    (str "::FFFF:10.1.2.3") (v4InV6Prefix ++ [10, 1, 2, 3]) (by decide +kernel) (by decide +kernel)
  obtain ⟨_, performed', _, _, after, unblocked, found⟩ := verdict_by_address rangeAndAddress
    (str "192.0.2.1") (str "::ffff:192.0.2.1") (v4InV6Prefix ++ [192, 0, 2, 1])
    (by decide +kernel) (by decide +kernel)
  cases performed.symm.trans performed'
  refine ⟨ti, performed, (same (by decide +kernel)).2 (by decide +kernel), after, unblocked, ?_⟩
  have absent : (newThreatIntel.performAll rangeAndAddress).map (fun ti =>
      ((ti.lookup (str "::ffff:192.0.2.1")).isSome,
        ti.cidrBlocks.any (·.contains (v4InV6Prefix ++ [192, 0, 2, 1])))) = some (false, false) := by
    decide +kernel
  rw [performed, Option.map_some, Option.some_inj, Prod.mk.injEq] at absent
  rw [absent.1, absent.2] at found
  rw [Option.isNone_iff_eq_none, ← Option.not_isSome_iff_eq_none, found]
  decide

/-- An address is blocked in the spelling it was blocked in: not in capitals, and, blocked in both,
it stays blocked in one when the other is unblocked. -/
theorem verdict_by_spelling :
    parseIP (str "2001:db8::1") = parseIP (str "2001:DB8::1") ∧
      (newThreatIntel.performAll [.blockIP 0 (str "2001:db8::1") (str "manual")]).map (fun ti =>
        ((ti.checkIP (str "2001:db8::1")).isSome, (ti.checkIP (str "2001:DB8::1")).isSome)) =
          some (true, false) ∧
      (newThreatIntel.performAll [.blockIP 0 (str "2001:db8::1") (str "manual"),
        .blockIP 0 (str "2001:DB8::1") (str "manual"), .unblockIP (str "2001:db8::1")]).map
          (fun ti => (ti.cidrBlocks, (ti.checkIP (str "2001:db8::1")).isSome,
            (ti.checkIP (str "2001:DB8::1")).isSome)) = some ([], false, true) := by
  decide +kernel

end Obsidian.App.Threat
