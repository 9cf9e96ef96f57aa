import Obsidian.App.RatePolicy

namespace Obsidian.App.RateLimit

open Obsidian.Data

/-! # Runs of the rate limiter

No run can tell whether a cleanup took place, and no minute holds more allowed requests than the
limits let through.
-/

section

variable {config : Config}

/-- The clock never goes back.  A pass of `cleanup` reads it before it waits for the locks, so
only what comes later is after that reading. -/
def InOrder (calls : List (Timed config)) : Prop :=
  calls.Pairwise fun first second => second.isCleanup = true ∨ first.now ≤ second.now

instance (calls : List (Timed config)) : Decidable (InOrder calls) :=
  inferInstanceAs (Decidable (List.Pairwise _ _))

structure AllowedRequest where
  now : Int
  ip : Bytes
  endpoint : Bytes
deriving DecidableEq

namespace RateLimiter

def decisions (rl : RateLimiter) : List (Timed config) → List Bool
  | [] => []
  | t :: rest => (rl.step t).1.toList ++ decisions (rl.step t).2 rest

def logged (rl : RateLimiter) (t : Timed config) : List AllowedRequest :=
  if (rl.step t).1 = some true then
    t.asks.toList.map fun asked => ⟨t.now, asked.1, asked.2⟩
  else []

def allowed (rl : RateLimiter) : List (Timed config) → List AllowedRequest
  | [] => []
  | t :: rest => rl.logged t ++ allowed (rl.step t).2 rest

end RateLimiter

def After (now : Int) (calls : List (Timed config)) : Prop :=
  ∀ t ∈ calls, t.isCleanup = true ∨ now ≤ t.now

theorem exists_after (calls : List (Timed config)) : ∃ now, After now calls := by
  induction calls with
  | nil => exact ⟨0, nofun⟩
  | cons t rest ih =>
    obtain ⟨now, after⟩ := ih
    refine ⟨min now t.now, ?_⟩
    intro u listed
    rcases List.mem_cons.mp listed with rfl | listed
    · exact .inr (min_le_right ..)
    · exact (after u listed).imp id (le_trans (min_le_left ..))

theorem After.max {now next : Int} {calls : List (Timed config)} (after : After now calls)
    (afterNext : After next calls) : After (max now next) calls := by
  intro t listed
  rcases after t listed with cleanup | le
  · exact .inl cleanup
  · exact (afterNext t listed).imp id fun leNext => max_le le leNext

/-! ## Cleanups -/

section

variable (limits : config.LimitsPositive) {a b : RateLimiter}
include limits

/-- Limiters that the policy cannot tell apart answer alike and stay so. -/
theorem step_alike {t : Timed config} (use : t.isCleanup = false)
    (alike : a.policy t.now = b.policy t.now) :
    (a.step t).1 = (b.step t).1 ∧ (a.step t).2.policy t.now = (b.step t).2.policy t.now := by
  obtain ⟨decision, after⟩ := RateLimiter.step_policy limits a t use
  obtain ⟨decisionToo, afterToo⟩ := RateLimiter.step_policy limits b t use
  rw [decision, after, decisionToo, afterToo, alike]
  exact ⟨rfl, rfl⟩

theorem decisions_alike {calls : List (Timed config)} (ordered : InOrder calls) {now : Int}
    (after : After now calls) (alike : a.policy now = b.policy now) :
    a.decisions calls = b.decisions (calls.filter fun t => !t.isCleanup) := by
  induction calls generalizing a b now with
  | nil => rfl
  | cons t rest ih =>
    obtain ⟨first, orderedRest⟩ := List.pairwise_cons.mp ordered
    have afterRest : After now rest := fun u listed => after u (List.mem_cons_of_mem t listed)
    cases use : t.isCleanup with
    | true =>
      rw [List.filter_cons_of_neg (by simp [use])]
      obtain ⟨reading, call⟩ := t
      cases call with
      | cleanupShard i =>
        apply ih orderedRest (afterRest.max first)
        show (a.cleanupShard reading i).policy _ = _
        rw [RateLimiter.cleanupShard_policy (le_max_right ..),
          RateLimiter.policy_later (le_max_left now reading),
          RateLimiter.policy_later (le_max_left now reading), alike]
      | _ => cases use
    | false =>
      have le : now ≤ t.now := (after t (List.mem_cons_self ..)).resolve_left (by simp [use])
      have alikeNow : a.policy t.now = b.policy t.now := by
        rw [RateLimiter.policy_later le, RateLimiter.policy_later le, alike]
      obtain ⟨decision, next⟩ := step_alike limits use alikeNow
      rw [List.filter_cons_of_pos (by simp [use])]
      simp only [RateLimiter.decisions, decision]
      rw [ih orderedRest first next]

end

/-- The decisions of a run are those of the same run without its cleanups. -/
theorem decisions_without_cleanup (limits : config.LimitsPositive) (rl : RateLimiter)
    (calls : List (Timed config)) (ordered : InOrder calls) :
    rl.decisions calls = rl.decisions (calls.filter fun t => !t.isCleanup) := by
  obtain ⟨now, after⟩ := exists_after calls
  exact decisions_alike limits ordered after rfl

def strictConfig : Config where
  requestsPerMinute := 1
  burstSize := 1
  blockDuration := 2 * second
  whitelist := []
  endpointLimits := ∅

theorem strictConfig_limitsPositive : strictConfig.LimitsPositive := ⟨by decide, nofun⟩

def cleanedRun : List (Timed strictConfig) :=
  [⟨0, .allow (.own _) (str "a")⟩, ⟨second, .allow (.own _) (str "a")⟩,
    ⟨minute, .cleanupShard (getShard (str "a"))⟩, ⟨minute + second, .allow (.own _) (str "a")⟩]

theorem decisions_cleanedRun :
    (newRateLimiter strictConfig).decisions cleanedRun = [true, false, true] ∧
      (newRateLimiter strictConfig).decisions cleanedRun =
        (newRateLimiter strictConfig).decisions (cleanedRun.filter fun t => !t.isCleanup) :=
  ⟨by decide, decisions_without_cleanup strictConfig_limitsPositive _ cleanedRun (by decide)⟩

/-! ## Windows -/

namespace Policy

variable (p : Policy) (now : Int) (ip endpoint : Bytes)

theorem request_lists : (p.request config now ip endpoint).2.whitelisted = p.whitelisted := by
  unfold request
  split
  · rfl
  split
  · rfl
  · rfl

theorem request_other {other : Bytes} (apart : other ≠ ip) :
    (p.request config now ip endpoint).2.standing other = p.standing other := by
  unfold request
  split
  · rfl
  split
  · rfl
  · exact Function.update_of_ne apart _ _

theorem request_times (unlisted : ¬ (ip ∈ p.whitelisted ∨ normalizeIP ip ∈ p.whitelisted)) :
    ((p.request config now ip endpoint).1 = false ∧
        ((p.request config now ip endpoint).2.standing ip).times = (p.standing ip).times) ∨
      ((p.request config now ip endpoint).1 = true ∧
        ((p.standing ip).times.length : Int) < (config.endpointConfig endpoint).requestsPerMinute ∧
        ((p.request config now ip endpoint).2.standing ip).times = (p.standing ip).times ++ [now]) := by
  unfold request
  rw [if_neg unlisted]
  split
  · exact .inl ⟨rfl, rfl⟩
  · dsimp only
    rw [Function.update_self]
    unfold Standing.decideOn
    split
    · exact .inl ⟨rfl, rfl⟩
    split
    · exact .inl ⟨rfl, rfl⟩
    · next room => exact .inr ⟨rfl, Int.not_le.mp room, rfl⟩

end Policy

def AllowedRequest.limit (config : Config) (r : AllowedRequest) : Int :=
  (config.endpointConfig r.endpoint).requestsPerMinute

structure Tracks (config : Config) (ip : Bytes) (log : List AllowedRequest) (now : Int)
    (rl : RateLimiter) : Prop where
  unlisted : ¬ rl.Passes ip
  times : ((rl.policy now).standing ip).times = recent id minute now (log.map AllowedRequest.now)
  admitted : Admitted AllowedRequest.now minute .length (AllowedRequest.limit config) log

namespace Tracks

variable {ip : Bytes} {log : List AllowedRequest} {now next : Int} {rl : RateLimiter} {t : Timed config}

theorem later (tracks : Tracks config ip log now rl) (le : now ≤ next) :
    Tracks config ip log next rl where
  unlisted := tracks.unlisted
  times := by
    rw [RateLimiter.policy_later le]
    simp only [Policy.later, Standing.later]
    rw [tracks.times, recent_recent le]
  admitted := tracks.admitted

theorem cleanupShard (tracks : Tracks config ip log now rl) {reading : Int} (le : reading ≤ now)
    (i : Fin numShards) : Tracks config ip log now (rl.cleanupShard reading i) where
  unlisted := tracks.unlisted
  times := by
    rw [RateLimiter.cleanupShard_policy le]
    exact tracks.times
  admitted := tracks.admitted

theorem step (tracks : Tracks config ip log t.now rl) (limits : config.LimitsPositive)
    {asked : Bytes × Bytes} (asks : t.asks = some asked) :
    Tracks config ip (log ++ (rl.logged t).filter (·.ip = ip)) t.now (rl.step t).2 := by
  obtain ⟨decision, after⟩ := RateLimiter.step_asks limits rl asks
  have lists : (rl.step t).2.whitelisted = rl.whitelisted :=
    (congrArg Policy.whitelisted after).trans (Policy.request_lists ..)
  have unlisted : ¬ (rl.step t).2.Passes ip := by
    unfold RateLimiter.Passes
    rw [lists]
    exact tracks.unlisted
  have times : (((rl.step t).2.policy t.now).standing ip).times = recent id minute t.now
      (((rl.policy t.now).request config t.now asked.1 asked.2).2.standing ip).times := by
    rw [after]
    rfl
  have old : recent id minute t.now ((rl.policy t.now).standing ip).times =
      recent id minute t.now (log.map AllowedRequest.now) := by
    rw [tracks.times, recent_recent (Int.le_refl _)]
  -- The log grows only by an allowed request of the address itself.
  have unlogged (same : (((rl.policy t.now).request config t.now asked.1 asked.2).2.standing ip).times =
      ((rl.policy t.now).standing ip).times) (none : (rl.logged t).filter (·.ip = ip) = []) :
      Tracks config ip (log ++ (rl.logged t).filter (·.ip = ip)) t.now (rl.step t).2 := by
    rw [none, List.append_nil]
    exact ⟨unlisted, by rw [times, same, old], tracks.admitted⟩
  by_cases own : asked.1 = ip
  · subst own
    rcases Policy.request_times (rl.policy t.now) t.now asked.1 asked.2 tracks.unlisted with
      ⟨refused, same⟩ | ⟨allowed, room, grown⟩
    · apply unlogged same
      simp [RateLimiter.logged, decision, refused]
    · have entry : (rl.logged t).filter (·.ip = asked.1) = [⟨t.now, asked.1, asked.2⟩] := by
        simp [RateLimiter.logged, decision, allowed, asks]
      rw [entry]
      refine ⟨unlisted, ?_, .snoc tracks.admitted ?_⟩
      · rw [times, grown, recent_append, old, List.map_append, recent_append]
        rfl
      · rw [tracks.times, recent_map, List.length_map] at room
        exact room
  · refine unlogged (congrArg Standing.times (Policy.request_other _ _ _ _ (Ne.symm own))) ?_
    unfold RateLimiter.logged
    split
    · simp [asks, own]
    · rfl

theorem run (tracks : Tracks config ip log now rl) (limits : config.LimitsPositive)
    {calls : List (Timed config)} (serving : ∀ t ∈ calls, t.isCleanup = true ∨ t.asks.isSome = true)
    (ordered : InOrder calls) (after : After now calls) :
    Admitted AllowedRequest.now minute .length (AllowedRequest.limit config)
      (log ++ (rl.allowed calls).filter (·.ip = ip)) := by
  induction calls generalizing rl log now with
  | nil =>
    rw [RateLimiter.allowed, List.filter_nil, List.append_nil]
    exact tracks.admitted
  | cons t rest ih =>
    obtain ⟨first, orderedRest⟩ := List.pairwise_cons.mp ordered
    have afterRest : After now rest := fun u listed => after u (List.mem_cons_of_mem t listed)
    have servingRest : ∀ u ∈ rest, u.isCleanup = true ∨ u.asks.isSome = true := fun u listed =>
      serving u (List.mem_cons_of_mem t listed)
    rw [RateLimiter.allowed, List.filter_append, ← List.append_assoc]
    cases asks : t.asks with
    | none =>
      have cleanup := (serving t (List.mem_cons_self ..)).resolve_right (by simp [asks])
      obtain ⟨reading, call⟩ := t
      cases call with
      | cleanupShard i =>
        have cleaned := (tracks.later (le_max_left now reading)).cleanupShard
          (le_max_right now reading) i
        rw [show rl.logged (⟨reading, .cleanupShard i⟩ : Timed config) = [] from rfl,
          List.filter_nil, List.append_nil]
        exact ih cleaned servingRest orderedRest (afterRest.max first)
      | _ => cases cleanup
    | some asked =>
      have use : ¬ t.isCleanup = true := by
        obtain ⟨reading, call⟩ := t
        cases call with
        | cleanupShard i => cases asks
        | _ => exact Bool.false_ne_true
      have le : now ≤ t.now := (after t (List.mem_cons_self ..)).resolve_left use
      exact ih ((tracks.later le).step limits asks) servingRest orderedRest first

end Tracks

/-- A minute holds at most `L` allowed requests of an address to endpoints with such a limit. -/
theorem allowed_window_le (limits : config.LimitsPositive) (calls : List (Timed config))
    (serving : ∀ t ∈ calls, t.isCleanup = true ∨ t.asks.isSome = true) (ordered : InOrder calls)
    (ip : Bytes) (unlisted : ip ∉ config.whitelist ∧ normalizeIP ip ∉ config.whitelist) (L : Nat)
    (start : Int) :
    (((newRateLimiter config).allowed calls).filter fun r => r.ip = ip ∧
      (start ≤ r.now ∧ r.now < start + minute) ∧
        (config.endpointConfig r.endpoint).requestsPerMinute ≤ L).length ≤ L := by
  obtain ⟨now, after⟩ := exists_after calls
  have begun : Tracks config ip [] now (newRateLimiter config) := by
    refine ⟨?_, rfl, .nil⟩
    simp only [RateLimiter.Passes, newRateLimiter, List.mem_toFinset]
    exact not_or.mpr unlisted
  have bound := (begun.run limits serving ordered after).window_le start L
  rw [List.nil_append, List.filter_filter] at bound
  refine le_trans (le_of_eq (congrArg List.length (List.filter_congr ?_))) bound
  intro r _
  rw [← Bool.decide_and]
  exact decide_eq_decide.mpr and_comm

theorem allowed_window_cleanedRun :
    (((newRateLimiter strictConfig).allowed cleanedRun).filter fun r => r.ip = str "a" ∧
      (0 ≤ r.now ∧ r.now < 0 + minute) ∧
        (strictConfig.endpointConfig r.endpoint).requestsPerMinute ≤ (1 : Nat)).length ≤ 1 :=
  allowed_window_le strictConfig_limitsPositive cleanedRun (by decide) (by decide) (str "a")
    (by decide) 1 0

end

end Obsidian.App.RateLimit
