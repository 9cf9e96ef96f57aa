import Obsidian.App.RedisLimit
import Obsidian.Data.Decimal

namespace Obsidian.App.RateLimit

open Obsidian.Data Redis

/-! # Windows of the limiter in Redis

An allowed request is a member of the sorted set of its key for a minute.  Requests of one second
that drew the same number are one member.
-/

/-! ## Executions -/

structure Execution (config : RedisConfig) where
  iteration : Iteration config.endpointLimits
  now : Int
  draw : Draw
  ip : Bytes
  endpoint : Bytes

namespace Execution

variable {config : RedisConfig} (e : Execution config)

def args : ScriptArgs := config.scriptArgs e.iteration e.now e.ip e.endpoint

def time : Int := e.args.now

def limit : Int := e.args.limit

def member : Bytes := e.args.member e.draw

def result {σ : Type} (server : Server σ) (db : σ) :
    EStateM.Result Failure σ (Int × Int × Int) :=
  e.args.rateLimitScript server e.draw db

end Execution

def executeAll {σ : Type} (server : Server σ) {config : RedisConfig} (db : σ) :
    List (Execution config) → List (Execution config)
  | [] => []
  | e :: rest =>
    (if resultAllows (e.result server db) then [e] else []) ++
      executeAll server (resultState (e.result server db)) rest

theorem executeAll_sublist {σ : Type} (server : Server σ) {config : RedisConfig} (db : σ)
    (executions : List (Execution config)) :
    (executeAll server db executions).Sublist executions := by
  induction executions generalizing db with
  | nil => exact .slnil
  | cons e rest ih =>
    rw [executeAll]
    split
    · exact (ih _).cons_cons e
    · exact (ih _).cons e

/-! ## Members -/

theorem append_cons_inj {x y u v : Bytes} {c : UInt8} (notMem : c ∉ u) (notMemToo : c ∉ v)
    (same : x ++ c :: u = y ++ c :: v) : x = y ∧ u = v := by
  have inside {u v w : Bytes} (notMem : c ∉ u) (split : c :: u = w ++ c :: v) : w = [] := by
    cases w with
    | nil => rfl
    | cons b rest =>
      have tail := (List.cons.inj split).2
      exact absurd (tail ▸ List.mem_append_right rest (List.mem_cons_self ..)) notMem
  rcases List.append_eq_append_iff.mp same with ⟨w, rfl, split⟩ | ⟨w, rfl, split⟩
  · have none := inside notMem split
    subst none
    exact ⟨by simp, (List.cons.inj split).2⟩
  · have none := inside notMemToo split
    subst none
    exact ⟨by simp, (List.cons.inj split).2.symm⟩

section

variable {config : RedisConfig}

theorem member_inj {e f : Execution config} (same : e.member = f.member) :
    e.time = f.time ∧ e.draw = f.draw := by
  obtain ⟨time, draw⟩ := append_cons_inj (minus_notMem_digits _) (minus_notMem_digits _) same
  exact ⟨itoa_inj time, Draw.ext (digits_inj draw)⟩

/-! ## The sorted set of a key -/

variable {σ : Type}

structure Held (server : Server σ) (key : Bytes) (log : List (Execution config)) (now : Int)
    (db : σ) : Prop where
  past : ∀ e ∈ log, e.time ≤ now
  held : ∀ later, now ≤ later → ∀ e ∈ log, later - 60 < e.time → ∃ members expires,
    server.entry db later key = some ⟨.sorted members, expires⟩ ∧
      members.lookup e.member = some e.time

variable {server : Server σ}

namespace Held

variable {key : Bytes} {log : List (Execution config)} {now next : Int} {db after : σ}

theorem later (h : Held server key log now db) (le : now ≤ next) : Held server key log next db where
  past := fun e logged => Int.le_trans (h.past e logged) le
  held := fun t after => h.held t (Int.le_trans le after)

theorem update (h : Held server key log now db) {other : Bytes} (apart : key ≠ other)
    {entry : Option Entry} (writes : server.Writes now other entry db after) :
    Held server key log now after where
  past := h.past
  held := by
    intro t le e logged inside
    rw [writes.frame le apart]
    exact h.held t le e logged inside

variable (laws : server.Laws)
include laws

theorem of_unsorted (h : Held server key log now db) (other : σ)
    (unsorted : ∀ members expires, server.entry db now key ≠ some ⟨.sorted members, expires⟩) :
    Held server key log now other where
  past := h.past
  held := by
    intro t le e logged inside
    obtain ⟨members, expires, live, _⟩ := h.held t le e logged inside
    exact absurd (laws.entry_earlier le live).1 (unsorted members expires)

theorem found (h : Held server key log now db) {members : ZSet}
    (there : server.sorted db now key = some members) {t : Int} (le : now ≤ t)
    {e : Execution config} (logged : e ∈ log) (inside : t - 60 < e.time) :
    (members.above (now - 60)).lookup e.member = some e.time ∧
      (server.ttl db now key).all (t ≤ ·) = true := by
  obtain ⟨own, expires, live, found⟩ := h.held t le e logged inside
  obtain ⟨liveNow, alive⟩ := laws.entry_earlier le live
  have same : own = members := by
    simpa [Server.sorted, liveNow] using there
  subst same
  refine ⟨ZSet.lookup_above found (by omega), ?_⟩
  rw [Server.ttl, liveNow]
  exact alive

theorem trim (h : Held server key log now db) {members : ZSet}
    (there : server.sorted db now key = some members)
    (writes : server.Writes now key (stored (members.above (now - 60)) (server.ttl db now key))
      db after) : Held server key log now after where
  past := h.past
  held := by
    intro t le e logged inside
    obtain ⟨kept, alive⟩ := h.found laws there le logged inside
    have nonempty : (members.above (now - 60)).entries ≠ [] := by
      intro none
      rw [AList.ext (show _ = (∅ : ZSet).entries from none)] at kept
      cases kept
    refine ⟨_, server.ttl db now key, ?_, kept⟩
    rw [writes.own le, stored, if_neg nonempty, Option.filter_some]
    exact if_pos alive

/-- An allowed request is added for a minute. -/
theorem insert (h : Held server key log now db) {members : ZSet}
    (there : server.sorted db now key = some members) {x : Execution config} (current : x.time = now)
    (writes : server.Writes now key
      (some ⟨.sorted ((members.above (now - 60)).insert x.member now), some (now + 60)⟩) db after) :
    Held server key (log ++ [x]) now after := by
  have past : ∀ e ∈ log ++ [x], e.time ≤ now := by
    intro e logged
    rcases List.mem_append.mp logged with earlier | last
    · exact h.past e earlier
    · rw [List.mem_singleton.mp last, current]
  refine ⟨past, ?_⟩
  intro t le e logged inside
  have alive : t ≤ now + 60 := by
    have := past e logged
    omega
  have lookup : ((members.above (now - 60)).insert x.member now).lookup e.member = some e.time := by
    by_cases same : e.member = x.member
    · rw [same, AList.lookup_insert, (member_inj same).1, current]
    · rcases List.mem_append.mp logged with earlier | last
      · rw [AList.lookup_insert_ne same]
        exact (h.found laws there le earlier inside).1
      · exact absurd (congrArg Execution.member (List.mem_singleton.mp last)) same
  refine ⟨_, some (now + 60), ?_, lookup⟩
  rw [writes.own le, Option.filter_some]
  exact if_pos (decide_eq_true alive)

theorem size_le (h : Held server key log now db) {members : ZSet}
    (there : server.sorted db now key = some members) :
    (Measure.distinct Execution.member).size (recent Execution.time 60 now log) ≤
      (members.above (now - 60)).entries.length := by
  have keys : (members.above (now - 60)).entries.length =
      (members.above (now - 60)).keys.toFinset.card := by
    rw [List.toFinset_card_of_nodup (members.above (now - 60)).keys_nodup]
    simp [AList.keys, List.keys]
  rw [keys]
  apply Measure.distinct_size_le
  intro e counts
  simp only [recent, List.mem_filter, decide_eq_true_eq] at counts
  have lookup := (h.found laws there (Int.le_refl now) counts.1 counts.2).1
  exact List.mem_toFinset.mpr (AList.lookup_isSome.mp (by rw [lookup]; rfl))

end Held

/-! ## Runs -/

structure Logged (server : Server σ) (key : Bytes) (log : List (Execution config)) (now : Int)
    (db : σ) : Prop extends Held server key log now db where
  admitted : Admitted Execution.time 60 (.distinct Execution.member) Execution.limit log

section

variable {key : Bytes} {log : List (Execution config)} {now : Int} {db cleared trimmed after : σ}
  {x : Execution config} (laws : server.Laws)
include laws

theorem Held.clear (h : Held server key log x.time db) (clear : x.args.Cleared server db cleared) :
    Held server key log x.time cleared := by
  cases clear with
  | absent => exact h
  | expired live =>
    by_cases own : key = x.args.blockKey
    · apply h.of_unsorted laws
      intro members expires sorted
      rw [own] at sorted
      cases live.symm.trans sorted
    · exact h.update own (laws.del _ _ _)

theorem Held.block (h : Held server key log x.time cleared)
    (clear : x.args.Cleared server db cleared) (hTrimmed : Held server key log x.time trimmed)
    {entry : Option Entry} (writes : server.Writes x.time x.args.blockKey entry trimmed after) :
    Held server key log x.time after := by
  by_cases own : key = x.args.blockKey
  · apply h.of_unsorted laws
    intro members expires sorted
    rw [own] at sorted
    cases (clear.live laws).symm.trans sorted
  · exact hTrimmed.update own writes

theorem Held.trimAt (h : Held server key log x.time cleared) {members : ZSet}
    (there : server.sorted cleared x.time x.args.key = some members)
    (writes : server.Writes x.time x.args.key
      (stored (x.args.counted members) (server.ttl cleared x.time x.args.key)) cleared after) :
    Held server key log x.time after := by
  by_cases own : key = x.args.key
  · subst own
    exact h.trim laws there writes
  · exact h.update own writes

theorem Logged.step (logged : Logged server key log now db) (x : Execution config)
    (le : now ≤ x.time) :
    Logged server key
      (log ++ (if resultAllows (x.result server db) then [x] else []).filter (·.args.key = key))
      x.time (resultState (x.result server db)) := by
  have executed : x.args.Executed server x.draw db (x.result server db) :=
    ScriptArgs.rateLimitScript_executed laws ..
  generalize x.result server db = result at executed ⊢
  have begun := logged.toHeld.later le
  have unlogged {after : σ} (h : Held server key log x.time after) :
      Logged server key (log ++ [].filter (·.args.key = key)) x.time after := by
    rw [List.filter_nil, List.append_nil]
    exact ⟨h, logged.admitted⟩
  cases executed with
  | wrongType => exact unlogged begun
  | notNumber => exact unlogged begun
  | blocked => exact unlogged begun
  | counted clear counted =>
    have h := begun.clear laws clear
    cases counted with
    | wrongType => exact unlogged h
    | unblockable there trim => exact unlogged (h.trimAt laws there trim)
    | full there trim _ block => exact unlogged (h.block laws clear (h.trimAt laws there trim) block)
    | admitted there room added =>
      show Logged server key (log ++ [x].filter (·.args.key = key)) x.time _
      by_cases own : x.args.key = key
      · subst own
        rw [List.filter_cons_of_pos (by simp), List.filter_nil]
        refine ⟨h.insert laws there rfl added, .snoc logged.admitted ?_⟩
        exact Int.lt_of_le_of_lt (Int.ofNat_le.mpr (h.size_le laws there)) room
      · rw [List.filter_cons_of_neg (by simpa using own)]
        exact unlogged (h.update (Ne.symm own) added)

theorem Logged.run (logged : Logged server key log now db) {executions : List (Execution config)}
    (ordered : executions.Pairwise fun e f => e.time ≤ f.time)
    (after : ∀ e ∈ executions, now ≤ e.time) :
    Admitted Execution.time 60 (.distinct Execution.member) Execution.limit
      (log ++ (executeAll server db executions).filter (·.args.key = key)) := by
  induction executions generalizing log now db with
  | nil =>
    rw [executeAll, List.filter_nil, List.append_nil]
    exact logged.admitted
  | cons x rest ih =>
    obtain ⟨first, ordered⟩ := List.pairwise_cons.mp ordered
    rw [executeAll, List.filter_append, ← List.append_assoc]
    exact ih (logged.step laws x (after x (List.mem_cons_self ..))) ordered first

end

structure Execution.Within (ip endpoint : Bytes) (start : Int) (L : Nat) (e : Execution config) :
    Prop where
  address : normalizeIP e.ip = normalizeIP ip
  path : e.endpoint = endpoint
  inside : start ≤ e.time ∧ e.time < start + 60
  limited : e.limit ≤ L

instance (ip endpoint : Bytes) (start : Int) (L : Nat) (e : Execution config) :
    Decidable (e.Within ip endpoint start L) :=
  decidable_of_iff (normalizeIP e.ip = normalizeIP ip ∧ e.endpoint = endpoint ∧
      (start ≤ e.time ∧ e.time < start + 60) ∧ e.limit ≤ L)
    ⟨fun ⟨address, path, inside, limited⟩ => ⟨address, path, inside, limited⟩,
      fun ⟨address, path, inside, limited⟩ => ⟨address, path, inside, limited⟩⟩

/-- A minute holds at most `L` allowed requests with such a limit, if the requests of one second
draw different numbers. -/
theorem executeAll_window_le (server : Server σ) (laws : server.Laws) (db : σ)
    (executions : List (Execution config))
    (ordered : executions.Pairwise fun e f => e.now ≤ f.now) (ip endpoint : Bytes) (start : Int)
    (L : Nat)
    (apart : (executions.filter (·.Within ip endpoint start L)).Pairwise
      fun e f => e.time = f.time → e.draw ≠ f.draw) :
    ((executeAll server db executions).filter (·.Within ip endpoint start L)).length ≤ L := by
  have times : executions.Pairwise fun e f => e.time ≤ f.time := by
    apply ordered.imp
    intro e f le
    exact Int.ediv_le_ediv (by decide) le
  obtain ⟨now, after⟩ : ∃ now, ∀ e ∈ executions, now ≤ e.time := by
    cases executions with
    | nil => exact ⟨0, nofun⟩
    | cons first rest =>
      refine ⟨first.time, ?_⟩
      intro e listed
      rcases List.mem_cons.mp listed with rfl | later
      · exact Int.le_refl _
      · exact (List.pairwise_cons.mp times).1 e later
  have begun : Logged server (config.key ip endpoint) ([] : List (Execution config)) now db :=
    ⟨⟨nofun, nofun⟩, .nil⟩
  have bound := (begun.run laws times after).window_le start L
  rw [List.nil_append, List.filter_filter] at bound
  have part : ((executeAll server db executions).filter (·.Within ip endpoint start L)).Sublist
      ((executeAll server db executions).filter fun e =>
        ((start ≤ e.time ∧ e.time < start + 60) ∧ e.limit ≤ L : Bool) &&
          (e.args.key = config.key ip endpoint : Bool)) := by
    apply List.monotone_filter_right
    intro e within
    obtain ⟨address, path, inside, limited⟩ := of_decide_eq_true within
    have sameKey : e.args.key = config.key ip endpoint := by
      show config.key e.ip e.endpoint = _
      rw [RedisConfig.key, address, path, RedisConfig.key]
    simp [inside, limited, sameKey]
  have members : (((executeAll server db executions).filter (·.Within ip endpoint start L)).map
      Execution.member).Nodup := by
    apply List.pairwise_map.mpr
    apply (apart.sublist ((executeAll_sublist server db executions).filter _)).imp
    intro e f differ same
    obtain ⟨time, draw⟩ := member_inj same
    exact differ time draw
  rw [← Measure.distinct_size members]
  exact Nat.le_trans (Measure.le_of_sublist _ part) bound

end

def pairConfig : RedisConfig where
  requestsPerMinute := 2
  burstSize := 2
  blockDuration := minute
  whitelist := []
  endpointLimits := ∅
  keyPrefix := str "obsidian:rl:"
  enableFallback := true

def drawn (draw : Draw) : Execution pairConfig where
  iteration := .own _
  now := 0
  draw
  ip := str "10.0.0.1"
  endpoint := str "/a"

def drawnApart : List (Execution pairConfig) :=
  [drawn ⟨7, by decide⟩, drawn ⟨8, by decide⟩, drawn ⟨9, by decide⟩]

theorem executeAll_window_drawnApart :
    ((executeAll Keyspace.server ∅ drawnApart).filter (·.Within (str "10.0.0.1") (str "/a") 0 2)).length = 2 ∧
      ((executeAll Keyspace.server ∅ drawnApart).filter (·.Within (str "10.0.0.1") (str "/a") 0 2)).length ≤ 2 :=
  ⟨by decide, executeAll_window_le Keyspace.server Keyspace.laws ∅ drawnApart (by decide) _ _ 0 2 (by decide)⟩

/-- Three requests of one second that draw the same number, where two are the limit. -/
theorem executeAll_sameDraw :
    ((executeAll Keyspace.server ∅ (List.replicate 3 (drawn ⟨7, by decide⟩))).filter
      (·.Within (str "10.0.0.1") (str "/a") 0 2)).length = 3 := by
  decide

end Obsidian.App.RateLimit
