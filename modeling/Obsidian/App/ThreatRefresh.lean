import Obsidian.App.Threat
import Obsidian.Data.Except

namespace Obsidian.App.Threat

open Obsidian.Data

/-! # Refreshing the feeds

`RefreshFeeds` takes the lock for one section at a time and downloads in between, so that requests
and commands come in at every point.
-/

inductive Refresh
  /-- The feed at this place is the next one. -/
  | fetching (feeds : List ThreatFeed) (i : Nat)
  | noting (feeds : List ThreatFeed) (i count : Nat)
deriving DecidableEq

structure System where
  intel : ThreatIntel
  refreshes : List Refresh

/-- The next atomic step.  A refresh is named by its place among those under way. -/
inductive Event
  | refreshFeeds
  | fetchFeed (r : Nat) (now : Int) (download : ThreatIntel.Download)
  | skipFeed (r : Nat)
  | noteFeed (r : Nat) (now : Int)
  | finish (r : Nat) (now : Int)
  | blockIP (now : Int) (ip category : Bytes)
  | unblockIP (ip : Bytes)
  | recordHit (now : Int) (ip : Bytes)

def ThreatFeed.Active (feed : ThreatFeed) : Prop := feed.enabled = true ∧ feed.url ≠ []

instance (feed : ThreatFeed) : Decidable feed.Active := inferInstanceAs (Decidable (_ ∧ _))

/-- The ranges go before the first download. -/
def ThreatIntel.clear (ti : ThreatIntel) : ThreatIntel := { ti with cidrBlocks := [] }

def ThreatIntel.noteFeed (ti : ThreatIntel) (i count : Nat) (now : Int) : ThreatIntel :=
  { ti with
    feeds := ti.feeds.modify i fun feed => { feed with lastUpdate := now, entryCount := count } }

namespace System

variable (s : System)

def step : Event → Option System
  | .refreshFeeds => some ⟨s.intel.clear, s.refreshes ++ [.fetching s.intel.feeds 0]⟩
  | .fetchFeed r now download =>
    match s.refreshes[r]? with
    | some (.fetching feeds i) =>
      ((feeds[i]?).filter (·.Active)).bind fun feed =>
        (s.intel.fetchFeed now feed download).map fun (result, intel) =>
          match result with
          | .error _ => ⟨intel, s.refreshes.set r (.fetching feeds (i + 1))⟩
          | .ok count => ⟨intel, s.refreshes.set r (.noting feeds i count)⟩
    | _ => none
  | .skipFeed r =>
    match s.refreshes[r]? with
    | some (.fetching feeds i) =>
      ((feeds[i]?).filter (¬ ·.Active)).map fun _ =>
        { s with refreshes := s.refreshes.set r (.fetching feeds (i + 1)) }
    | _ => none
  | .noteFeed r now =>
    match s.refreshes[r]? with
    | some (.noting feeds i count) =>
      some ⟨s.intel.noteFeed i count now, s.refreshes.set r (.fetching feeds (i + 1))⟩
    | _ => none
  | .finish r now =>
    match s.refreshes[r]? with
    | some (.fetching feeds i) =>
      if i < feeds.length then none
      else some ⟨{ s.intel with lastUpdate := now }, s.refreshes.eraseIdx r⟩
    | _ => none
  | .blockIP now ip category =>
    (s.intel.blockIP now ip category).map fun (_, intel) => { s with intel }
  | .unblockIP ip => some { s with intel := (s.intel.unblockIP ip).2 }
  | .recordHit now ip => (s.intel.recordHit now ip).map fun intel => { s with intel }

def run (events : List Event) : Option System := events.foldlM step s

end System

/-! ## Entries stay -/

/-- The entries of one list are those of another, which may have more, up to their contents. -/
def ThreatIntel.KeepsEntries (ti ti' : ThreatIntel) : Prop :=
  ∀ ip, (ti.lookup ip).isSome → (ti'.lookup ip).isSome

namespace ThreatIntel

variable {ti ti' : ThreatIntel}

theorem KeepsEntries.refl (ti : ThreatIntel) : ti.KeepsEntries ti := fun _ => id

theorem KeepsEntries.trans {ti'' : ThreatIntel} (first : ti.KeepsEntries ti')
    (second : ti'.KeepsEntries ti'') : ti.KeepsEntries ti'' :=
  fun ip there => second ip (first ip there)

theorem keepsEntries_store {ip : Bytes} {entry : ThreatEntry} (stored : ti.store ip entry = some ti') :
    ti.KeepsEntries ti' := by
  intro other there
  rw [lookup_store stored]
  split
  · rfl
  · exact there

theorem keepsEntries_record {now : Int} {entry : ThreatEntry} (stored : ti.record now entry = some ti') :
    ti.KeepsEntries ti' := by
  unfold record at stored
  split at stored
  · exact keepsEntries_store stored
  · cases stored
  · exact keepsEntries_store stored

theorem keepsEntries_parseLine {now : Int} {feed : ThreatFeed} {text : Bytes}
    {before after : Nat × ThreatIntel} (parsed : parseLine now feed before text = some after) :
    before.2.KeepsEntries after.2 := by
  unfold parseLine at parsed
  dsimp only at parsed
  split at parsed
  · cases parsed
    exact KeepsEntries.refl _
  split at parsed
  · cases parsed
    exact KeepsEntries.refl _
  · obtain ⟨_, stored, rfl⟩ := Option.map_eq_some_iff.mp parsed
    -- A range leaves the map alone.
    exact fun ip there => keepsEntries_record stored ip there

theorem keepsEntries_parseFeed {now : Int} {feed : ThreatFeed} {body : Bytes} {count : Nat}
    (parsed : ti.parseFeed now feed body = some (count, ti')) : ti.KeepsEntries ti' := by
  exact optionFoldlM_keeps (P := fun state => ti.KeepsEntries state.2)
    (fun _ _ _ _ step sofar => sofar.trans (keepsEntries_parseLine step)) parsed
    (KeepsEntries.refl ti)

theorem keepsEntries_fetchFeed {now : Int} {feed : ThreatFeed} {download : Download}
    {result : Except GoError Nat} (fetched : ti.fetchFeed now feed download = some (result, ti')) :
    ti.KeepsEntries ti' := by
  cases download with
  | failed err =>
    cases fetched
    exact KeepsEntries.refl _
  | response statusCode body broken =>
    unfold fetchFeed at fetched
    dsimp only at fetched
    split at fetched
    · cases fetched
      exact KeepsEntries.refl _
    · obtain ⟨⟨count, read⟩, parsed, answer⟩ := Option.map_eq_some_iff.mp fetched
      have same : read = ti' := by
        dsimp only at answer
        split at answer
        · exact (Prod.mk.inj answer).2
        · exact (Prod.mk.inj answer).2
      rw [← same]
      exact keepsEntries_parseFeed parsed

theorem keepsEntries_blockIP {now : Int} {ip category : Bytes} {err : Option GoError}
    (blocked : ti.blockIP now ip category = some (err, ti')) : ti.KeepsEntries ti' := by
  unfold blockIP at blocked
  split at blocked
  · cases blocked
    exact KeepsEntries.refl _
  · obtain ⟨_, stored, answer⟩ := Option.map_eq_some_iff.mp blocked
    cases answer
    exact keepsEntries_store stored

theorem keepsEntries_recordHit {now : Int} {ip : Bytes} (hit : ti.recordHit now ip = some ti') :
    ti.KeepsEntries ti' := by
  unfold recordHit at hit
  split at hit
  · cases hit
    exact KeepsEntries.refl _
  · cases hit
  · exact keepsEntries_store hit

theorem lookup_unblockIP_of_ne (ti : ThreatIntel) {ip other : Bytes} (apart : other ≠ ip) :
    (ti.unblockIP ip).2.lookup other = ti.lookup other := by
  unfold unblockIP
  split
  · rfl
  · cases there : ti.blockedIPs with
    | none => simp [lookup, there]
    | some blocked => simp [lookup, there, AList.lookup_erase_ne apart]

end ThreatIntel

theorem System.step_keeps {s s' : System} {event : Event} {ip : Bytes}
    (stepped : s.step event = some s') (kept : event ≠ .unblockIP ip)
    (there : (s.intel.lookup ip).isSome) : (s'.intel.lookup ip).isSome := by
  cases event with
  | refreshFeeds =>
    cases stepped
    exact there
  | fetchFeed r now download =>
    simp only [System.step] at stepped
    split at stepped
    · obtain ⟨feed, _, stepped⟩ := Option.bind_eq_some_iff.mp stepped
      obtain ⟨⟨result, intel⟩, fetched, answer⟩ := Option.map_eq_some_iff.mp stepped
      have same : s'.intel = intel := by
        cases result with
        | error err => rw [← answer]
        | ok count => rw [← answer]
      rw [same]
      exact ThreatIntel.keepsEntries_fetchFeed fetched ip there
    · cases stepped
  | skipFeed r =>
    simp only [System.step] at stepped
    split at stepped
    · obtain ⟨_, _, rfl⟩ := Option.map_eq_some_iff.mp stepped
      exact there
    · cases stepped
  | noteFeed r now =>
    simp only [System.step] at stepped
    split at stepped
    · cases stepped
      exact there
    · cases stepped
  | finish r now =>
    simp only [System.step] at stepped
    split at stepped
    · split at stepped
      · cases stepped
      · cases stepped
        exact there
    · cases stepped
  | blockIP now other category =>
    obtain ⟨⟨err, intel⟩, blocked, rfl⟩ := Option.map_eq_some_iff.mp stepped
    exact ThreatIntel.keepsEntries_blockIP blocked ip there
  | unblockIP other =>
    cases stepped
    have apart : ip ≠ other := by
      rintro rfl
      exact kept rfl
    rw [ThreatIntel.lookup_unblockIP_of_ne s.intel apart]
    exact there
  | recordHit now other =>
    obtain ⟨intel, hit, rfl⟩ := Option.map_eq_some_iff.mp stepped
    exact ThreatIntel.keepsEntries_recordHit hit ip there

theorem System.run_keeps {s s' : System} {events : List Event} {ip : Bytes}
    (ran : s.run events = some s') (kept : .unblockIP ip ∉ events)
    (there : (s.intel.lookup ip).isSome) : (s'.intel.lookup ip).isSome := by
  apply optionFoldlM_keeps (P := fun s : System => (s.intel.lookup ip).isSome) _ ran there
  intro event mem before after stepped sofar
  exact step_keeps stepped (fun same => kept (same ▸ mem)) sofar

theorem checkIP_of_lookup {ti : ThreatIntel} {ip : Bytes} (there : (ti.lookup ip).isSome) :
    (ti.checkIP ip).isSome := by
  obtain ⟨entry, found⟩ := Option.isSome_iff_exists.mp there
  rw [ThreatIntel.checkIP, found]
  rfl

theorem checkIP_clear (ti : ThreatIntel) (ip : Bytes) : ti.clear.checkIP ip = ti.lookup ip := by
  unfold ThreatIntel.checkIP
  have same : ti.clear.lookup ip = ti.lookup ip := rfl
  rw [same]
  cases ti.lookup ip with
  | some entry => rfl
  | none =>
    cases parseIP ip with
    | none => rfl
    | some parsed => rfl

/-- An address with an entry of its own stays blocked at every point of any number of refreshes,
whatever their downloads give.  An address without one is not blocked once a refresh has begun. -/
theorem refresh_keeps_entries (s s' : System) (events : List Event) (ip : Bytes)
    (ran : s.run events = some s') (kept : .unblockIP ip ∉ events) :
    ((s.intel.lookup ip).isSome → (s'.intel.checkIP ip).isSome) ∧
    ∀ next, s'.step .refreshFeeds = some next →
      next.intel.checkIP ip = s'.intel.lookup ip := by
  refine ⟨fun there => checkIP_of_lookup (System.run_keeps ran kept there), ?_⟩
  intro next begun
  cases begun
  exact checkIP_clear s'.intel ip

def readRun : List Event :=
  [.refreshFeeds, .fetchFeed 0 1 (.response 200 (str "10.0.0.0/8 ; SBL1\n") none), .noteFeed 0 1,
    .fetchFeed 0 1 (.failed (str "timeout")),
    .fetchFeed 0 1 (.response 200 (str "# compromised\n192.0.2.1\n") none), .noteFeed 0 1,
    .skipFeed 0, .skipFeed 0, .finish 0 1]

def lostRun : List Event :=
  [.refreshFeeds, .fetchFeed 0 2 (.failed (str "timeout")), .fetchFeed 0 2 (.response 503 [] none),
    .fetchFeed 0 2 (.response 200 [] (some (str "unexpected EOF"))), .skipFeed 0, .skipFeed 0,
    .finish 0 2]

def started : System := ⟨newThreatIntel, []⟩

def afterRead : System := (started.run readRun).getD started

theorem refresh_keeps_lostRun :
    ∃ s, afterRead.run lostRun = some s ∧ (s.intel.checkIP (str "192.0.2.1")).isSome := by
  have runs : (afterRead.run lostRun).isSome = true := by decide
  obtain ⟨s, ran⟩ := Option.isSome_iff_exists.mp runs
  have kept : .unblockIP (str "192.0.2.1") ∉ lostRun := by simp [lostRun]
  exact ⟨s, ran, (refresh_keeps_entries afterRead s lostRun _ ran kept).1 (by decide)⟩

/-- The range is in the list after the first refresh.  The second one reads no feed, comes to its
end, and the range is gone. -/
theorem lostRun_unblocks :
    (started.run readRun).map (fun s => (s.refreshes, (s.intel.checkIP (str "10.1.2.3")).isSome)) =
        some ([], true) ∧
      (afterRead.run lostRun).map (fun s => (s.refreshes, s.intel.checkIP (str "10.1.2.3"))) =
        some ([], none) := by
  decide

end Obsidian.App.Threat
