import Obsidian.App.Auth
import Obsidian.App.Threat
import Obsidian.Data.Except

namespace Obsidian.App.Threat

open Obsidian.Data

/-! # The file of the threat list

What `saveToDisk` writes, how `loadFromDisk` decodes a file, and what the list can do after it.
`time.Parse` is a parameter.
-/

/-- The part of the state that is written. -/
structure Stored where
  blockedIPs : Option Blocked := none
  lastUpdate : Int := 0

/-- Every entry is copied, which panics at a nil pointer.  A nil map is written as an empty one. -/
def ThreatIntel.saveToDisk (ti : ThreatIntel) : Option Stored :=
  let blocked := ti.blockedIPs.getD ∅
  if blocked.entries.all (·.2.isSome) then some ⟨some blocked, ti.lastUpdate⟩ else none

/-! ## Decoding -/

section

variable (parseTime : Bytes → Option Int)

/-- A null leaves a field alone. -/
def decodeText (old : Bytes) : Json → Option Bytes
  | .null => some old
  | .string text => some text
  | _ => none

def decodeTime (old : Int) : Json → Option Int
  | .null => some old
  | .string text => parseTime text
  | _ => none

def decodeCount (old : Int) : Json → Option Int
  | .null => some old
  | .raw text => parseInt 64 text
  | _ => none

def setEntryMember (entry : ThreatEntry) (member : Bytes × Json) : Option ThreatEntry :=
  let (name, value) := member
  if Auth.foldName name = str "IP" then
    (decodeText entry.ip value).map ({ entry with ip := · })
  else if Auth.foldName name = str "RISK_LEVEL" then
    (decodeText entry.riskLevel value).map ({ entry with riskLevel := · })
  else if Auth.foldName name = str "CATEGORY" then
    (decodeText entry.category value).map ({ entry with category := · })
  else if Auth.foldName name = str "SOURCE" then
    (decodeText entry.source value).map ({ entry with source := · })
  else if Auth.foldName name = str "FIRST_SEEN" then
    (decodeTime parseTime entry.firstSeen value).map ({ entry with firstSeen := · })
  else if Auth.foldName name = str "LAST_SEEN" then
    (decodeTime parseTime entry.lastSeen value).map ({ entry with lastSeen := · })
  else if Auth.foldName name = str "HIT_COUNT" then
    (decodeCount entry.hitCount value).map ({ entry with hitCount := · })
  else some entry

/-- A null is a nil pointer. -/
def decodeEntry : Json → Option (Option ThreatEntry)
  | .null => some none
  | .object members => (members.foldlM (setEntryMember parseTime) {}).map some
  | _ => none

def decodeBlocked (old : Option Blocked) : Json → Option (Option Blocked)
  | .null => some none
  | .object members =>
    (members.foldlM
      (fun (blocked : Blocked) member =>
        (decodeEntry parseTime member.2).map (blocked.insert member.1))
      (old.getD ∅)).map some
  | _ => none

def setStoredMember (stored : Stored) (member : Bytes × Json) : Option Stored :=
  let (name, value) := member
  if Auth.foldName name = str "BLOCKED_IPS" then
    (decodeBlocked parseTime stored.blockedIPs value).map ({ stored with blockedIPs := · })
  else if Auth.foldName name = str "LAST_UPDATE" then
    (decodeTime parseTime stored.lastUpdate value).map ({ stored with lastUpdate := · })
  else some stored

def decodeStored : Json → Option Stored
  | .null => some {}
  | .object members => members.foldlM (setStoredMember parseTime) {}
  | _ => none

def decodeFile (content : Bytes) : Option Stored :=
  (JsonText.parse content).bind (decodeStored parseTime)

/-- What stands under the path. -/
inductive Disk
  | missing
  | unreadable (err : GoError)
  | file (content : Bytes)

/-- A file that cannot be read or decoded leaves the list alone; the caller drops the error. -/
def ThreatIntel.loadFromDisk (ti : ThreatIntel) : Disk → ThreatIntel
  | .missing | .unreadable _ => ti
  | .file content =>
    (decodeFile parseTime content).elim ti fun stored =>
      { ti with blockedIPs := stored.blockedIPs, lastUpdate := stored.lastUpdate }

end

/-! ## Commands -/

inductive Command
  | parseFeed (now : Int) (feed : ThreatFeed) (body : Bytes)
  | blockIP (now : Int) (ip category : Bytes)
  | unblockIP (ip : Bytes)
  | checkIP (ip : Bytes)

namespace ThreatIntel

def perform (ti : ThreatIntel) : Command → Option ThreatIntel
  | .parseFeed now feed body => (ti.parseFeed now feed body).map Prod.snd
  | .blockIP now ip category => (ti.blockIP now ip category).map Prod.snd
  | .unblockIP ip => some (ti.unblockIP ip).2
  | .checkIP _ => some ti

def performAll (ti : ThreatIntel) (commands : List Command) : Option ThreatIntel :=
  commands.foldlM perform ti

/-- An address or a range that a line of a feed can list. -/
def Listable (ip : Bytes) : Prop :=
  ∃ line source type entry range, parseEntry line source type = some (entry, range) ∧ entry.ip = ip

theorem Listable.parses {ip : Bytes} (listable : Listable ip) :
    (parseCIDR ip).isSome ∨ (parseIP ip).isSome := by
  obtain ⟨line, source, type, entry, range, parsed, rfl⟩ := listable
  unfold parseEntry at parsed
  split at parsed <;> split at parsed
  · cases parsed
  · obtain ⟨ipnet, known, made⟩ := Option.map_eq_some_iff.mp parsed
    cases made
    exact .inl (Option.isSome_of_eq_some known)
  · cases parsed
  · obtain ⟨address, known, made⟩ := Option.map_eq_some_iff.mp parsed
    cases made
    exact .inr (Option.isSome_of_eq_some known)

/-- Neither the map nor, under these keys, a pointer in it is nil. -/
def Sane (keys : Bytes → Prop) (ti : ThreatIntel) : Prop :=
  ∃ blocked, ti.blockedIPs = some blocked ∧ ∀ x ∈ blocked.entries, keys x.1 → x.2.isSome

variable {keys : Bytes → Prop} {ti : ThreatIntel}

theorem sane_new : newThreatIntel.Sane keys := ⟨∅, rfl, fun _ mem => absurd mem List.not_mem_nil⟩

theorem Sane.store (sane : ti.Sane keys) (ip : Bytes) (entry : ThreatEntry) :
    ∃ after, ti.store ip entry = some after ∧ after.Sane keys := by
  obtain ⟨blocked, there, pointers⟩ := sane
  refine ⟨{ ti with blockedIPs := some (blocked.insert ip (some entry)) }, ?_, _, rfl, ?_⟩
  · rw [ThreatIntel.store, there, Option.map_some]
  · intro x mem
    rw [AList.entries_insert, List.mem_cons] at mem
    rcases mem with rfl | old
    · exact fun _ => rfl
    · exact pointers x ((List.kerase_sublist ip _).mem old)

theorem Sane.record (sane : ti.Sane keys) (now : Int) {entry : ThreatEntry} (key : keys entry.ip) :
    ∃ after, ti.record now entry = some after ∧ after.Sane keys := by
  unfold ThreatIntel.record
  split
  · exact sane.store _ _
  · next found =>
      obtain ⟨blocked, there, pointers⟩ := sane
      rw [lookup, there, Option.bind_some] at found
      exact absurd (pointers _ (AList.mem_lookup_iff.mp found) key) Bool.false_ne_true
  · exact sane.store _ _

section

variable (listed : ∀ ip, Listable ip → keys ip)
include listed

theorem Sane.parseLine {state : Nat × ThreatIntel} (sane : state.2.Sane keys) (now : Int)
    (feed : ThreatFeed) (text : Bytes) :
    ∃ after, ThreatIntel.parseLine now feed state text = some after ∧ after.2.Sane keys := by
  unfold ThreatIntel.parseLine
  dsimp only
  split
  · exact ⟨state, rfl, sane⟩
  split
  · exact ⟨state, rfl, sane⟩
  · next entry range parsed =>
      have wider : Sane keys { state.2 with cidrBlocks := state.2.cidrBlocks ++ range.toList } := sane
      obtain ⟨after, stored, kept⟩ :=
        wider.record now (listed entry.ip ⟨_, _, _, entry, range, parsed, rfl⟩)
      exact ⟨(state.1 + 1, after), by rw [stored, Option.map_some], kept⟩

omit listed in
theorem Sane.unblockIP (sane : ti.Sane keys) (ip : Bytes) : (ti.unblockIP ip).2.Sane keys := by
  unfold ThreatIntel.unblockIP
  split
  · exact sane
  · obtain ⟨blocked, there, pointers⟩ := sane
    refine ⟨blocked.erase ip, by rw [there, Option.map_some], fun x mem => ?_⟩
    exact pointers x ((List.kerase_sublist ip _).mem mem)

theorem Sane.perform (sane : ti.Sane keys) (command : Command) :
    ∃ after, ti.perform command = some after ∧ after.Sane keys := by
  cases command with
  | parseFeed now feed body =>
    have begins : ((0, ti) : Nat × ThreatIntel).2.Sane keys := sane
    obtain ⟨⟨count, after⟩, parsed, kept⟩ :=
      optionFoldlM_succeeds (P := fun state : Nat × ThreatIntel => state.2.Sane keys) (scanned body)
        (fun text _ _ sofar => Sane.parseLine listed sofar now feed text) begins
    exact ⟨after, congrArg (Option.map Prod.snd) parsed, kept⟩
  | blockIP now ip category =>
    rw [ThreatIntel.perform, ThreatIntel.blockIP]
    split
    · exact ⟨ti, rfl, sane⟩
    · obtain ⟨after, stored, kept⟩ := sane.store ip
        ⟨ip, str "HIGH", category, str "Custom Blocklist", now, now, 0⟩
      exact ⟨after, by rw [stored, Option.map_some, Option.map_some], kept⟩
  | unblockIP ip => exact ⟨_, rfl, sane.unblockIP ip⟩
  | checkIP ip => exact ⟨ti, rfl, sane⟩

theorem Sane.performAll (sane : ti.Sane keys) (commands : List Command) :
    ∃ after, ti.performAll commands = some after ∧ after.Sane keys :=
  optionFoldlM_succeeds commands (fun command _ _ sofar => sofar.perform listed command) sane

end

theorem new_performAll (commands : List Command) :
    ∃ after, newThreatIntel.performAll commands = some after ∧ after.Sane fun _ => True :=
  sane_new.performAll (fun _ _ => trivial) commands

theorem Sane.saveToDisk (sane : ti.Sane fun _ => True) :
    ti.saveToDisk = some ⟨ti.blockedIPs, ti.lastUpdate⟩ := by
  obtain ⟨blocked, there, pointers⟩ := sane
  unfold ThreatIntel.saveToDisk
  rw [there, Option.getD_some,
    if_pos (List.all_eq_true.mpr fun x listed => pointers x listed trivial)]

end ThreatIntel

/-! ## A restart -/

def Stored.lookup (stored : Stored) (ip : Bytes) : Option (Option ThreatEntry) :=
  stored.blockedIPs.bind (·.lookup ip)

def Stored.Same (stored stored' : Stored) : Prop := ∀ ip, stored.lookup ip = stored'.lookup ip

/-- Neither the map of a file is nil nor a pointer in it that a feed can meet. -/
def Stored.Sane (stored : Stored) : Prop :=
  ∃ blocked, stored.blockedIPs = some blocked ∧
    ∀ x ∈ blocked.entries, ThreatIntel.Listable x.1 → x.2.isSome

def ThreatIntel.Single (ti : ThreatIntel) (ip : Bytes) : Prop :=
  (ti.lookup ip).isSome ∨
    ∀ parsed ∈ parseIP ip, ti.cidrBlocks.any (·.contains parsed) = false

instance (ti : ThreatIntel) (ip : Bytes) : Decidable (ti.Single ip) :=
  inferInstanceAs (Decidable (_ ∨ _))

theorem ThreatIntel.Single.checkIP {ti : ThreatIntel} {ip : Bytes} (single : ti.Single ip) :
    ti.checkIP ip = ti.lookup ip := by
  unfold ThreatIntel.checkIP
  cases found : ti.lookup ip with
  | some entry => rfl
  | none =>
    rcases single with there | outside
    · rw [found] at there
      cases there
    · cases parsed : parseIP ip with
      | none => rfl
      | some address => simp only [Option.bind_some, outside address parsed, Bool.false_eq_true, if_false]

theorem ThreatIntel.single_of_checkIP {ti : ThreatIntel} {ip : Bytes}
    (same : ti.checkIP ip = ti.lookup ip) : ti.Single ip := by
  cases found : ti.lookup ip with
  | some entry => exact .inl (by rw [found]; rfl)
  | none =>
    refine .inr fun parsed given => ?_
    rw [found, ThreatIntel.checkIP, found, Option.mem_def.mp given, Option.bind_some] at same
    cases inside : ti.cidrBlocks.any (·.contains parsed) with
    | false => rfl
    | true =>
      rw [inside, if_pos rfl] at same
      cases same

theorem checkIP_loaded {ti : ThreatIntel} (empty : ti.cidrBlocks = []) (ip : Bytes) :
    ti.checkIP ip = ti.lookup ip := by
  apply ThreatIntel.Single.checkIP
  right
  intro parsed _
  rw [empty]
  rfl

theorem sane_loadFromDisk {parseTime : Bytes → Option Int} {disk : Disk}
    (sane : ∀ content, disk = .file content → ∀ stored ∈ decodeFile parseTime content, stored.Sane) :
    (newThreatIntel.loadFromDisk parseTime disk).Sane ThreatIntel.Listable := by
  cases disk with
  | missing => exact ThreatIntel.sane_new
  | unreadable err => exact ThreatIntel.sane_new
  | file content =>
    unfold ThreatIntel.loadFromDisk
    dsimp only
    cases decoded : decodeFile parseTime content with
    | none => exact ThreatIntel.sane_new
    | some stored => exact sane content rfl stored decoded

/-- What is saved can be saved, and a list that is loaded from a file with the saved entries has
the same verdict on an address exactly if it is listed by itself or lies in no range.  After a file
without nulls that a feed can meet every command completes. -/
theorem restart_keeps_entries (parseTime : Bytes → Option Int) :
    (∀ commands ti, newThreatIntel.performAll commands = some ti →
      ∃ stored, ti.saveToDisk = some stored ∧
        ∀ content, ∀ decoded ∈ decodeFile parseTime content, decoded.Same stored →
          ∀ ip, (newThreatIntel.loadFromDisk parseTime (.file content)).checkIP ip = ti.checkIP ip ↔
            ti.Single ip) ∧
    ∀ disk,
      (∀ content, disk = .file content → ∀ stored ∈ decodeFile parseTime content, stored.Sane) →
      ∀ commands, ((newThreatIntel.loadFromDisk parseTime disk).performAll commands).isSome := by
  constructor
  · intro commands ti ran
    obtain ⟨after, ran', sane⟩ := ThreatIntel.new_performAll commands
    rw [ran] at ran'
    cases ran'
    refine ⟨_, sane.saveToDisk, ?_⟩
    intro content decoded found same ip
    have loaded : newThreatIntel.loadFromDisk parseTime (.file content) =
        { newThreatIntel with
          blockedIPs := decoded.blockedIPs, lastUpdate := decoded.lastUpdate } := by
      rw [ThreatIntel.loadFromDisk, Option.mem_def.mp found, Option.elim_some]
    have kept : (newThreatIntel.loadFromDisk parseTime (.file content)).checkIP ip = ti.lookup ip := by
      rw [loaded, checkIP_loaded rfl]
      exact same ip
    rw [kept]
    exact ⟨fun same => ThreatIntel.single_of_checkIP same.symm, fun single => single.checkIP.symm⟩
  · intro disk sane commands
    obtain ⟨after, ran, _⟩ := (sane_loadFromDisk sane).performAll (fun _ => id) commands
    rw [ran]
    rfl

def noTime : Bytes → Option Int := fun _ => some 0

def blocking : List Command := [.blockIP 0 (str "192.0.2.1") (str "manual")]

theorem same_of_entries {stored stored' : Stored}
    (same : stored.blockedIPs.map (·.entries) = stored'.blockedIPs.map (·.entries)) :
    stored.Same stored' := by
  have maps : stored.blockedIPs = stored'.blockedIPs :=
    Option.map_injective (fun _ _ => AList.ext) same
  intro ip
  rw [Stored.lookup, maps, Stored.lookup]

def dropFeed : ThreatFeed where
  name := str "drop"
  url := str "drop.txt"
  enabled := true
  type := .cidrList

def ranging : List Command := [.parseFeed 0 dropFeed (str "10.0.0.0/8\n")]

def fileOf (entries : Bytes) : Bytes := str "\x7b\"blocked_ips\":\x7b" ++ entries ++ str "\x7d\x7d"

def addressText : Bytes :=
  str "\"192.0.2.1\":\x7b\"ip\":\"192.0.2.1\",\"risk_level\":\"HIGH\"," ++
    str "\"category\":\"manual\",\"source\":\"Custom Blocklist\",\"hit_count\":0\x7d"

def rangeText : Bytes :=
  str "\"10.0.0.0/8\":\x7b\"ip\":\"10.0.0.0/8\",\"risk_level\":\"HIGH\"," ++
    str "\"category\":\"Malicious Network\",\"source\":\"drop\"\x7d"

def rangeFile : Bytes := fileOf rangeText

def bothFile : Bytes := fileOf (addressText ++ str "," ++ rangeText)

def emptyFile : Bytes := str "\x7b\x7d"

def nullFile : Bytes := fileOf (str "\"192.0.2.1\":null")

def strayFile : Bytes := fileOf (str "\"localhost\":null")

theorem sane_stray : ∀ stored ∈ decodeFile noTime strayFile, stored.Sane := by
  intro stored found
  have decodes : (decodeFile noTime strayFile).map (·.blockedIPs.map (·.entries)) =
      some (some [⟨str "localhost", none⟩]) := by
    decide +kernel
  rw [Option.mem_def.mp found, Option.map_some, Option.some_inj] at decodes
  obtain ⟨blocked, there, entries⟩ := Option.map_eq_some_iff.mp decodes
  refine ⟨blocked, there, fun x mem listable => ?_⟩
  rw [entries, List.mem_singleton] at mem
  subst mem
  exact absurd listable.parses (by decide)

/-- The address is still listed, what lies in the range is not, and a null that no feed meets does
no harm. -/
theorem restart_keeps_blocked :
    ∃ ti, newThreatIntel.performAll (blocking ++ ranging) = some ti ∧
      (newThreatIntel.loadFromDisk noTime (.file bothFile)).checkIP (str "192.0.2.1") =
        ti.checkIP (str "192.0.2.1") ∧
      (newThreatIntel.loadFromDisk noTime (.file bothFile)).checkIP (str "10.1.2.3") ≠
        ti.checkIP (str "10.1.2.3") ∧
      ((newThreatIntel.loadFromDisk noTime (.file strayFile)).performAll
        (blocking ++ ranging)).isSome := by
  obtain ⟨ti, ran, -⟩ := ThreatIntel.new_performAll (blocking ++ ranging)
  obtain ⟨verdicts, completes⟩ := restart_keeps_entries noTime
  obtain ⟨stored, saved, verdicts⟩ := verdicts (blocking ++ ranging) ti ran
  have decodes : (decodeFile noTime bothFile).map (·.blockedIPs.map (·.entries)) =
      (((newThreatIntel.performAll (blocking ++ ranging)).bind (·.saveToDisk)).map
        (·.blockedIPs.map (·.entries))) := by
    decide +kernel
  have singles : (newThreatIntel.performAll (blocking ++ ranging)).map
      (fun ti => (decide (ti.Single (str "192.0.2.1")), decide (ti.Single (str "10.1.2.3")))) =
        some (true, false) := by
    decide +kernel
  rw [ran, Option.bind_some, saved, Option.map_some] at decodes
  obtain ⟨decoded, found, entries⟩ := Option.map_eq_some_iff.mp decodes
  have kept := verdicts bothFile decoded found (same_of_entries entries)
  rw [ran, Option.map_some, Option.some_inj, Prod.mk.injEq] at singles
  refine ⟨ti, ran, (kept _).mpr (of_decide_eq_true singles.1),
    fun same => of_decide_eq_false singles.2 ((kept _).mp same), ?_⟩
  refine completes _ (fun content given => ?_) _
  cases given
  exact sane_stray

/-- The file has the entry of the range, but the range itself is not read back.  A file without the
map leaves it nil, so that blocking an address panics, and one with a null panics at the feed that
lists its address. -/
theorem restart_loses_ranges :
    (newThreatIntel.performAll ranging).map (fun ti => (ti.checkIP (str "10.1.2.3")).isSome) =
        some true ∧
    ((newThreatIntel.performAll ranging).bind (·.saveToDisk)).map (·.blockedIPs.map (·.entries)) =
        (decodeFile noTime rangeFile).map (·.blockedIPs.map (·.entries)) ∧
    (newThreatIntel.loadFromDisk noTime (.file rangeFile)).checkIP (str "10.1.2.3") = none ∧
    ((newThreatIntel.loadFromDisk noTime (.file emptyFile)).performAll blocking).isNone = true ∧
    ((newThreatIntel.loadFromDisk noTime (.file nullFile)).performAll
      [.parseFeed 0 dropFeed (str "192.0.2.1\n")]).isNone = true := by
  decide +kernel

end Obsidian.App.Threat
