import Obsidian.App.RateLimit

namespace Obsidian.App.RateLimit

open Obsidian.Data

/-! # The policy of the rate limiter

What a visitor's record means at a time: the block that is still on and the requests of the last
minute.  The limiter in memory is a refinement of the policy that keeps just that.
-/

/-! ## Standings -/

@[ext] structure Standing where
  blockedUntil : Option Int
  times : List Int
deriving DecidableEq

namespace Standing

def fresh : Standing := ⟨none, []⟩

def later (now : Int) (s : Standing) : Standing :=
  ⟨s.blockedUntil.filter (now ≤ · * second), recent id minute now s.times⟩

def decideOn (cfg : EndpointConfig) (now : Int) (s : Standing) : Bool × Standing :=
  if s.blockedUntil.isSome then (false, s)
  else if cfg.requestsPerMinute ≤ s.times.length then
    (false, { s with blockedUntil := some (unix (now + cfg.blockDuration)) })
  else (true, { s with times := s.times ++ [now] })

@[simp] theorem later_fresh (now : Int) : fresh.later now = fresh := rfl

end Standing

namespace Visitor

def standing (now : Int) : Option Visitor → Standing
  | none => .fresh
  | some v =>
    ⟨if v.blocked ∧ v.expired now = false then some v.blockUntil else none,
      recent id minute now v.timestamps⟩

theorem expired_iff {now : Int} {v : Visitor} : v.expired now = true ↔ v.blockUntil * second < now :=
  decide_eq_true_iff

theorem expired_later {now next : Int} (le : now ≤ next) {v : Visitor}
    (expired : v.expired now = true) : v.expired next = true := by
  rw [expired_iff] at expired ⊢
  omega

theorem blockedUntil_filter (now : Int) (v : Visitor) :
    (some v.blockUntil).filter (now ≤ · * second) =
      if v.expired now = false then some v.blockUntil else none := by
  by_cases on : now ≤ v.blockUntil * second
  · simp [Option.filter, expired, on]
  · simp [Option.filter, expired, on]

theorem standing_later {now next : Int} (le : now ≤ next) (v : Option Visitor) :
    standing next v = (standing now v).later next := by
  cases v with
  | none => rfl
  | some v =>
    ext1
    · simp only [standing, Standing.later]
      by_cases on : v.blocked = true ∧ v.expired now = false
      · rw [if_pos on, blockedUntil_filter]
        simp [on.1]
      · rw [if_neg on, if_neg]
        · rfl
        · rintro ⟨blocked, unexpired⟩
          refine on ⟨blocked, ?_⟩
          by_contra expired
          rw [expired_later le (by simpa using expired)] at unexpired
          cases unexpired
    · exact (recent_recent le v.timestamps).symm

theorem admit_standing {cfg : EndpointConfig} (positive : 1 ≤ cfg.requestsPerMinute) (now : Int)
    (v : Option Visitor) :
    (decideOn cfg now v).1 = ((standing now v).decideOn cfg now).1 ∧
      standing now (some (decideOn cfg now v).2) = ((standing now v).decideOn cfg now).2.later now := by
  have inside : recent id minute now [now] = [now] := by
    apply recent_singleton
    simp only [id, minute, second]
    omega
  cases v with
  | none =>
    have room : ¬ cfg.requestsPerMinute ≤ 0 := by omega
    simp [decideOn, standing, Standing.fresh, Standing.decideOn, Standing.later, room, inside]
  | some v =>
    by_cases on : v.blocked = true ∧ v.expired now = false
    · have kept : standing now (some v) = (standing now (some v)).later now :=
        standing_later (Int.le_refl now) _
      have blocked : (standing now (some v)).blockedUntil.isSome := by
        simp [standing, on]
      simp only [decideOn, if_pos on, Standing.decideOn, if_pos blocked]
      exact ⟨trivial, kept⟩
    · have unblocked : (standing now (some v)).blockedUntil = none := if_neg on
      simp only [decideOn, if_neg on, removeOld, Standing.decideOn, unblocked, Option.isSome_none,
        Bool.false_eq_true, if_false]
      by_cases full : cfg.requestsPerMinute ≤ ((recent id minute now v.timestamps).length : Int)
      · simp only [standing, full, ↓reduceIte, true_and, Standing.later]
        ext1
        · exact (blockedUntil_filter now _).symm
        · rfl
      · simp only [standing, full, ↓reduceIte, true_and, Standing.later]
        ext1
        · simp
        · simp only [recent_append, inside, recent_recent (Int.le_refl now)]

/-- A cleanup, even with an old reading of the clock, changes no standing. -/
theorem cleanup_standing {now next : Int} (le : now ≤ next) (v : Option Visitor) :
    standing next (v.bind (cleanup now)) = standing next v := by
  cases v with
  | none => rfl
  | some v =>
    have unblocked (expired : v.blocked = true ∧ v.expired now = true) :
        standing next (some { v with blocked := false }) = standing next (some v) := by
      ext1
      · simp [standing, expired_later le expired.2]
      · rfl
    have filtered (v : Visitor) : standing next (some (v.removeOld now)) = standing next (some v) := by
      ext1
      · rfl
      · exact recent_recent le v.timestamps
    have kept (v : Visitor) : standing next
        (if v.timestamps.length = 0 ∧ v.blocked = false then none else some v) =
          standing next (some v) := by
      split
      · next idle =>
          ext1
          · simp [standing, Standing.fresh, idle.2]
          · simp [standing, Standing.fresh, List.length_eq_zero_iff.mp idle.1]
      · rfl
    simp only [Option.bind_some, cleanup]
    rw [kept, filtered]
    split
    · next expired => exact unblocked expired
    · rfl

end Visitor

/-! ## Calls -/

inductive Call (config : Config)
  | allowEndpoint (iteration : Iteration config.endpointLimits) (ip endpoint : Bytes)
  | allow (iteration : Iteration config.endpointLimits) (ip : Bytes)
  | cleanupShard (i : Fin numShards)
  | reset (ip : Bytes)
  | unblock (ip : Bytes)
  | blacklist (ip : Bytes)
  | whitelist (ip : Bytes)
  | removeFromBlacklist (ip : Bytes)
  | removeFromWhitelist (ip : Bytes)

structure Timed (config : Config) where
  now : Int
  call : Call config

namespace Timed

variable {config : Config} (t : Timed config)

def isCleanup : Bool := t.call matches .cleanupShard _

def asks : Option (Bytes × Bytes) :=
  match t.call with
  | .allowEndpoint _ ip endpoint => some (ip, endpoint)
  | .allow _ ip => some (ip, [])
  | _ => none

end Timed

def RateLimiter.step {config : Config} (rl : RateLimiter) (t : Timed config) :
    Option Bool × RateLimiter :=
  match t.call with
  | .allowEndpoint iteration ip endpoint =>
    let (allowed, rl) := rl.allowEndpoint config iteration t.now ip endpoint
    (some allowed, rl)
  | .allow iteration ip =>
    let (allowed, rl) := rl.allow config iteration t.now ip
    (some allowed, rl)
  | .cleanupShard i => (none, rl.cleanupShard t.now i)
  | .reset ip => (none, rl.reset ip)
  | .unblock ip => (none, rl.unblock ip)
  | .blacklist ip => (none, rl.blacklist ip)
  | .whitelist ip => (none, rl.whitelist ip)
  | .removeFromBlacklist ip => (none, rl.removeFromBlacklist ip)
  | .removeFromWhitelist ip => (none, rl.removeFromWhitelist ip)

/-! ## The policy -/

@[ext] structure Policy where
  standing : Bytes → Standing
  whitelisted : Finset Bytes
  blacklisted : Finset Bytes

namespace Policy

def later (now : Int) (p : Policy) : Policy :=
  { p with standing := fun ip => (p.standing ip).later now }

def request (config : Config) (now : Int) (ip endpoint : Bytes) (p : Policy) : Bool × Policy :=
  if ip ∈ p.whitelisted ∨ normalizeIP ip ∈ p.whitelisted then (true, p)
  else if ip ∈ p.blacklisted then (false, p)
  else
    let (allowed, s) := (p.standing ip).decideOn (config.endpointConfig endpoint) now
    (allowed, { p with standing := Function.update p.standing ip s })

def step {config : Config} (p : Policy) (t : Timed config) : Option Bool × Policy :=
  match t.call with
  | .allowEndpoint _ ip endpoint => (p.request config t.now ip endpoint).map some id
  | .allow _ ip => (p.request config t.now ip []).map some id
  | .cleanupShard _ => (none, p)
  | .reset ip =>
    (none, { p with standing := fun other =>
      if ip = [] ∨ other = ip then .fresh else p.standing other })
  | .unblock ip => (none, { p with standing := Function.update p.standing ip .fresh })
  | .blacklist ip =>
    (none, { p with
      blacklisted := insert ip p.blacklisted, whitelisted := p.whitelisted.erase ip })
  | .whitelist ip =>
    (none, { p with
      whitelisted := insert ip p.whitelisted, blacklisted := p.blacklisted.erase ip })
  | .removeFromBlacklist ip => (none, { p with blacklisted := p.blacklisted.erase ip })
  | .removeFromWhitelist ip => (none, { p with whitelisted := p.whitelisted.erase ip })

end Policy

/-! ## Refinement -/

namespace RateLimiter

variable {config : Config} {rl : RateLimiter}

def policy (now : Int) (rl : RateLimiter) : Policy where
  standing := fun ip => Visitor.standing now (rl.visitor ip)
  whitelisted := rl.whitelisted
  blacklisted := rl.blacklisted

theorem policy_later {now next : Int} (le : now ≤ next) (rl : RateLimiter) :
    rl.policy next = (rl.policy now).later next := by
  ext1
  · funext ip
    exact Visitor.standing_later le _
  · rfl
  · rfl

theorem cleanupShard_policy {now next : Int} (le : now ≤ next) (i : Fin numShards) :
    (rl.cleanupShard now i).policy next = rl.policy next := by
  ext1
  · funext ip
    simp only [policy, visitor_cleanupShard]
    split
    · exact Visitor.cleanup_standing le _
    · rfl
  · rfl
  · rfl

theorem setVisitor_policy (now : Int) (ip : Bytes) (v : Option Visitor) :
    (rl.setVisitor ip v).policy now =
      { rl.policy now with
        standing := Function.update (rl.policy now).standing ip (Visitor.standing now v) } := by
  ext1
  · funext other
    simp only [policy, visitor_setVisitor, Function.update_apply]
    split
    · rfl
    · rfl
  · rfl
  · rfl

theorem allowEndpoint_policy (limits : config.LimitsPositive) (rl : RateLimiter)
    (iteration : Iteration config.endpointLimits) (now : Int) (ip endpoint : Bytes) :
    (rl.allowEndpoint config iteration now ip endpoint).1 =
        ((rl.policy now).request config now ip endpoint).1 ∧
      (rl.allowEndpoint config iteration now ip endpoint).2.policy now =
        ((rl.policy now).request config now ip endpoint).2.later now := by
  have same : rl.policy now = (rl.policy now).later now := policy_later (Int.le_refl now) rl
  by_cases passes : rl.Passes ip
  · have listed : ip ∈ (rl.policy now).whitelisted ∨ normalizeIP ip ∈ (rl.policy now).whitelisted :=
      passes
    simp only [allowEndpoint, if_pos passes, Policy.request, if_pos listed, true_and]
    exact same
  · have unlisted : ¬ (ip ∈ (rl.policy now).whitelisted ∨
        normalizeIP ip ∈ (rl.policy now).whitelisted) := passes
    simp only [allowEndpoint, if_neg passes, Policy.request, if_neg unlisted]
    by_cases blocked : ip ∈ rl.blacklisted
    · have listed : ip ∈ (rl.policy now).blacklisted := blocked
      simp only [if_pos blocked, if_pos listed, true_and]
      exact same
    · have free : ip ∉ (rl.policy now).blacklisted := blocked
      simp only [if_neg blocked, if_neg free, limitEndpoint, config.getEndpointConfig_eq]
      obtain ⟨decision, standing⟩ := Visitor.admit_standing (limits.endpointConfig endpoint) now
        (rl.visitor ip)
      refine ⟨decision, ?_⟩
      rw [setVisitor_policy, standing]
      ext1
      · funext other
        simp only [Policy.later, Function.update_apply]
        split
        · rfl
        · exact Visitor.standing_later (Int.le_refl now) _
      · rfl
      · rfl

theorem step_asks (limits : config.LimitsPositive) (rl : RateLimiter) {t : Timed config}
    {asked : Bytes × Bytes} (asks : t.asks = some asked) :
    (rl.step t).1 = some ((rl.policy t.now).request config t.now asked.1 asked.2).1 ∧
      (rl.step t).2.policy t.now =
        ((rl.policy t.now).request config t.now asked.1 asked.2).2.later t.now := by
  obtain ⟨now, call⟩ := t
  cases call with
  | allowEndpoint iteration ip endpoint =>
    cases asks
    obtain ⟨decision, after⟩ := allowEndpoint_policy limits rl iteration now ip endpoint
    exact ⟨congrArg some decision, after⟩
  | allow iteration ip =>
    cases asks
    obtain ⟨decision, after⟩ := allowEndpoint_policy limits rl iteration now ip []
    exact ⟨congrArg some decision, after⟩
  | _ => cases asks

/-- Every call but a cleanup decides and leaves what the policy says. -/
theorem step_policy (limits : config.LimitsPositive) (rl : RateLimiter) (t : Timed config)
    (use : t.isCleanup = false) :
    (rl.step t).1 = ((rl.policy t.now).step t).1 ∧
      (rl.step t).2.policy t.now = ((rl.policy t.now).step t).2.later t.now := by
  obtain ⟨now, call⟩ := t
  have same (rl : RateLimiter) : rl.policy now = (rl.policy now).later now :=
    policy_later (Int.le_refl now) rl
  cases call with
  | allowEndpoint iteration ip endpoint =>
    exact step_asks (t := ⟨now, .allowEndpoint iteration ip endpoint⟩) limits rl rfl
  | allow iteration ip => exact step_asks (t := ⟨now, .allow iteration ip⟩) limits rl rfl
  | cleanupShard i => cases use
  | reset ip =>
    refine ⟨rfl, (same _).trans (congrArg (Policy.later now) ?_)⟩
    ext1
    · funext other
      simp only [step, policy, Policy.step, visitor_reset]
      split
      · rfl
      · rfl
    · simp only [step, policy, Policy.step, reset]
      split <;> rfl
    · simp only [step, policy, Policy.step, reset]
      split <;> rfl
  | unblock ip =>
    refine ⟨rfl, (same _).trans (congrArg (Policy.later now) ?_)⟩
    have cleared : Visitor.standing now ((rl.visitor ip).map Visitor.unblock) = .fresh := by
      cases rl.visitor ip with
      | none => rfl
      | some v => rfl
    simp only [step, unblock, setVisitor_policy, cleared, Policy.step]
  | blacklist ip => exact ⟨rfl, same _⟩
  | whitelist ip => exact ⟨rfl, same _⟩
  | removeFromBlacklist ip => exact ⟨rfl, same _⟩
  | removeFromWhitelist ip => exact ⟨rfl, same _⟩

end RateLimiter

end Obsidian.App.RateLimit
