import Obsidian.App.RateWindows

namespace Obsidian.App.RateLimit

open Obsidian.Data

/-! # How long a block lasts

The end of a block is kept in whole seconds.  A block lasts up to that second, and no longer.
-/

namespace Visitor

def Held (now : Int) (v : Visitor) : Prop := v.blocked = true ∧ v.expired now = false

/-- The limit is reached at a time, and no block is on. -/
def Full (cfg : EndpointConfig) (now : Int) (v : Visitor) : Prop :=
  ¬ v.Held now ∧ cfg.requestsPerMinute ≤ (v.removeOld now).timestamps.length

instance (now : Int) (v : Visitor) : Decidable (v.Held now) := inferInstanceAs (Decidable (_ ∧ _))

instance (cfg : EndpointConfig) (now : Int) (v : Visitor) : Decidable (v.Full cfg now) :=
  inferInstanceAs (Decidable (_ ∧ _))

theorem decideOn_held {cfg : EndpointConfig} {now : Int} {v : Visitor} (held : v.Held now) :
    decideOn cfg now (some v) = (false, v) :=
  if_pos held

theorem decideOn_full {cfg : EndpointConfig} {now : Int} {v : Visitor} (full : v.Full cfg now) :
    decideOn cfg now (some v) =
      (false,
        { v.removeOld now with
          blocked := true, blockUntil := unix (now + cfg.blockDuration) }) := by
  have free : ¬ (v.blocked = true ∧ v.expired now = false) := full.1
  rw [decideOn, if_neg free]
  exact if_pos full.2

theorem decideOn_room {cfg : EndpointConfig} {now : Int} {v : Visitor} (free : ¬ v.Held now)
    (room : ¬ v.Full cfg now) : (decideOn cfg now (some v)).2.blocked = false := by
  have short : ¬ cfg.requestsPerMinute ≤ (v.removeOld now).timestamps.length :=
    fun reached => room ⟨free, reached⟩
  have free : ¬ (v.blocked = true ∧ v.expired now = false) := free
  rw [decideOn, if_neg free]
  exact congrArg (fun pair : Bool × Visitor => pair.2.blocked) (if_neg short)

theorem held_of_le {now last : Int} {v : Visitor} (blocked : v.blocked = true)
    (set : v.blockUntil = last) (within : now ≤ last * second) : v.Held now := by
  refine ⟨blocked, ?_⟩
  rw [expired, set, decide_eq_false_iff_not]
  omega

theorem cleanup_held {now : Int} {v : Visitor} (held : v.Held now) :
    v.cleanup now = some (v.removeOld now) := by
  have kept : ¬ (v.blocked = true ∧ v.expired now = true) := by
    rintro ⟨_, beyond⟩
    rw [held.2] at beyond
    cases beyond
  have blocked : (v.removeOld now).blocked = true := held.1
  simp only [cleanup, if_neg kept, blocked, Bool.true_eq_false, and_false, if_false]

theorem cleanup_blocked {now : Int} {v after : Visitor} (cleaned : v.cleanup now = some after)
    (blocked : after.blocked = true) : v.blocked = true ∧ after.blockUntil = v.blockUntil := by
  have whole : ((if v.blocked = true ∧ v.expired now = true then { v with blocked := false }
      else v).removeOld now) = after := by
    unfold cleanup at cleaned
    dsimp only at cleaned
    generalize (if v.blocked = true ∧ v.expired now = true then { v with blocked := false }
      else v).removeOld now = kept at cleaned ⊢
    split_ifs at cleaned
    exact Option.some.inj cleaned
  subst whole
  by_cases beyond : v.blocked = true ∧ v.expired now = true
  · rw [if_pos beyond] at blocked
    cases blocked
  · rw [if_neg beyond] at blocked ⊢
    exact ⟨blocked, rfl⟩

end Visitor

section

variable {config : Config}

/-! ## Calls that leave a block alone -/

def Timed.Leaves (ip : Bytes) (t : Timed config) : Prop :=
  match t.call with
  | .reset _ | .unblock _ => False
  | .whitelist other => other ≠ ip ∧ other ≠ normalizeIP ip
  | _ => True

namespace RateLimiter

def after (rl : RateLimiter) (calls : List (Timed config)) : RateLimiter :=
  calls.foldl (fun rl t => (rl.step t).2) rl

def LimitReached (rl : RateLimiter) (config : Config) (now : Int) (ip endpoint : Bytes) : Prop :=
  ¬ rl.Passes ip ∧ ip ∉ rl.blacklisted ∧
    ∃ v, rl.visitor ip = some v ∧ v.Full (config.endpointConfig endpoint) now

def Blocks (rl : RateLimiter) (now : Int) (ip : Bytes) : Prop :=
  ∃ v, rl.visitor ip = some v ∧ v.Held now

theorem step_of_asks (rl : RateLimiter) {t : Timed config} {ip endpoint : Bytes}
    (asks : t.asks = some (ip, endpoint)) :
    ∃ iteration, rl.step t = (some (rl.allowEndpoint config iteration t.now ip endpoint).1,
      (rl.allowEndpoint config iteration t.now ip endpoint).2) := by
  obtain ⟨now, call⟩ := t
  cases call with
  | allowEndpoint iteration =>
    cases asks
    exact ⟨iteration, rfl⟩
  | allow iteration =>
    cases asks
    exact ⟨iteration, rfl⟩
  | _ => cases asks

inductive Changed (rl : RateLimiter) (t : Timed config) (ip : Bytes) : Option Visitor → Prop
  | same : Changed rl t ip (rl.visitor ip)
  | decided {endpoint : Bytes} (asks : t.asks = some (ip, endpoint)) (limited : ¬ rl.Passes ip)
      (unlisted : ip ∉ rl.blacklisted) :
      Changed rl t ip
        (some (Visitor.decideOn (config.endpointConfig endpoint) t.now (rl.visitor ip)).2)
  | cleaned (cleanup : t.isCleanup = true) :
      Changed rl t ip ((rl.visitor ip).bind (Visitor.cleanup t.now))

theorem changed_allowEndpoint (rl : RateLimiter) {t : Timed config} {asked endpoint : Bytes}
    (asks : t.asks = some (asked, endpoint)) (ip : Bytes) :
    Changed rl t ip ((rl.step t).2.visitor ip) := by
  obtain ⟨iteration, step⟩ := step_of_asks rl asks
  rw [step, allowEndpoint]
  split_ifs with passes listed
  · exact .same
  · exact .same
  · simp only [limitEndpoint, config.getEndpointConfig_eq iteration, visitor_setVisitor]
    split_ifs with same
    · subst same
      exact .decided asks passes listed
    · exact .same

theorem changed_step (rl : RateLimiter) {t : Timed config} {ip : Bytes} (leaves : t.Leaves ip) :
    Changed rl t ip ((rl.step t).2.visitor ip) := by
  obtain ⟨now, call⟩ := t
  cases call with
  | allowEndpoint iteration asked endpoint => exact changed_allowEndpoint rl rfl ip
  | allow iteration asked => exact changed_allowEndpoint rl rfl ip
  | cleanupShard i =>
    simp only [step, visitor_cleanupShard]
    split_ifs
    · exact .cleaned rfl
    · exact .same
  | reset _ | unblock _ => cases leaves
  | blacklist _ | whitelist _ | removeFromBlacklist _ | removeFromWhitelist _ => exact .same

theorem passes_step {rl : RateLimiter} {t : Timed config} {ip : Bytes} (leaves : t.Leaves ip)
    (limited : ¬ rl.Passes ip) : ¬ (rl.step t).2.Passes ip := by
  have kept {asked endpoint : Bytes} (asks : t.asks = some (asked, endpoint)) :
      (rl.step t).2.whitelisted = rl.whitelisted := by
    obtain ⟨iteration, step⟩ := step_of_asks rl asks
    rw [step, allowEndpoint]
    split_ifs <;> rfl
  obtain ⟨now, call⟩ := t
  cases call with
  | allowEndpoint iteration asked endpoint =>
    rw [Passes, kept rfl]
    exact limited
  | allow iteration asked =>
    rw [Passes, kept rfl]
    exact limited
  | cleanupShard _ | removeFromBlacklist _ => exact limited
  | reset _ | unblock _ => cases leaves
  | blacklist other | removeFromWhitelist other =>
    rintro (own | normal)
    · exact limited (.inl (Finset.mem_of_mem_erase own))
    · exact limited (.inr (Finset.mem_of_mem_erase normal))
  | whitelist other =>
    rintro (own | normal)
    · rcases Finset.mem_insert.mp own with same | before
      · exact leaves.1 same.symm
      · exact limited (.inl before)
    · rcases Finset.mem_insert.mp normal with same | before
      · exact leaves.2 same.symm
      · exact limited (.inr before)

theorem passes_after {rl : RateLimiter} {calls : List (Timed config)} {ip : Bytes}
    (leaves : ∀ t ∈ calls, t.Leaves ip) (limited : ¬ rl.Passes ip) :
    ¬ (rl.after calls).Passes ip := by
  induction calls generalizing rl with
  | nil => exact limited
  | cons t rest ih =>
    rw [List.forall_mem_cons] at leaves
    exact ih leaves.2 (passes_step leaves.1 limited)

/-! ## The block of a refusal -/

def BlockedUntil (rl : RateLimiter) (ip : Bytes) (last : Int) : Prop :=
  ∃ v, rl.visitor ip = some v ∧ v.blocked = true ∧ v.blockUntil = last

theorem BlockedUntil.step {rl : RateLimiter} {t : Timed config} {ip : Bytes} {last : Int}
    (blocked : rl.BlockedUntil ip last) (leaves : t.Leaves ip) (within : t.now ≤ last * second) :
    (rl.step t).2.BlockedUntil ip last := by
  obtain ⟨v, found, on, set⟩ := blocked
  have held := Visitor.held_of_le on set within
  have changed := changed_step rl leaves
  unfold BlockedUntil
  generalize (rl.step t).2.visitor ip = after at changed ⊢
  cases changed with
  | same => exact ⟨v, found, on, set⟩
  | decided =>
    rw [found, Visitor.decideOn_held held]
    exact ⟨v, rfl, on, set⟩
  | cleaned =>
    rw [found, Option.bind_some, Visitor.cleanup_held held]
    exact ⟨_, rfl, on, set⟩

theorem BlockedUntil.after {rl : RateLimiter} {calls : List (Timed config)} {ip : Bytes}
    {last : Int} (blocked : rl.BlockedUntil ip last) (leaves : ∀ t ∈ calls, t.Leaves ip)
    (within : ∀ t ∈ calls, t.now ≤ last * second) : (rl.after calls).BlockedUntil ip last := by
  induction calls generalizing rl with
  | nil => exact blocked
  | cons t rest ih =>
    rw [List.forall_mem_cons] at leaves within
    exact ih (blocked.step leaves.1 within.1) leaves.2 within.2

/-- A block that is set on the address, on or not, ends with a second. -/
def Ends (rl : RateLimiter) (ip : Bytes) (last : Int) : Prop :=
  ∀ v, rl.visitor ip = some v → v.blocked = true → v.blockUntil = last

theorem Ends.step {rl : RateLimiter} {t : Timed config} {ip : Bytes} {last : Int}
    (ends : rl.Ends ip last) (leaves : t.Leaves ip)
    (short : ∀ endpoint, t.asks = some (ip, endpoint) →
      ¬ rl.LimitReached config t.now ip endpoint) :
    (rl.step t).2.Ends ip last := by
  have changed := changed_step rl leaves
  unfold Ends
  generalize (rl.step t).2.visitor ip = after at changed ⊢
  intro v found on
  cases changed with
  | same => exact ends v found on
  | decided asks limited unlisted =>
    cases before : rl.visitor ip with
    | none =>
      rw [before] at found
      cases found
      cases on
    | some old =>
      rw [before, Option.some.injEq] at found
      by_cases held : old.Held t.now
      · rw [Visitor.decideOn_held held] at found
        subst found
        exact ends _ before on
      · have room : ¬ old.Full (config.endpointConfig _) t.now := fun full =>
          short _ asks ⟨limited, unlisted, old, before, full⟩
        have free := Visitor.decideOn_room held room
        rw [found, on] at free
        cases free
  | cleaned =>
    obtain ⟨old, before, cleaned⟩ := Option.bind_eq_some_iff.mp found
    obtain ⟨was, same⟩ := Visitor.cleanup_blocked cleaned on
    rw [same]
    exact ends old before was

/-- Unless the limit is reached again, the block set on the address is the same one. -/
theorem Ends.after {rl : RateLimiter} {calls : List (Timed config)} {ip : Bytes} {last : Int}
    (ends : rl.Ends ip last) (leaves : ∀ t ∈ calls, t.Leaves ip) :
    (rl.after calls).Ends ip last ∨
      ∃ front t back endpoint, calls = front ++ t :: back ∧ t.asks = some (ip, endpoint) ∧
        (rl.after front).LimitReached config t.now ip endpoint := by
  induction calls generalizing rl with
  | nil => exact .inl ends
  | cons t rest ih =>
    rw [List.forall_mem_cons] at leaves
    by_cases again : ∃ endpoint, t.asks = some (ip, endpoint) ∧
        rl.LimitReached config t.now ip endpoint
    · obtain ⟨endpoint, asks, reached⟩ := again
      exact .inr ⟨[], t, rest, endpoint, rfl, asks, reached⟩
    · rcases ih (ends.step leaves.1 fun endpoint asks reached => again ⟨endpoint, asks, reached⟩)
        leaves.2 with same | ⟨front, later, back, endpoint, rfl, asks, reached⟩
      · exact .inl same
      · exact .inr ⟨t :: front, later, back, endpoint, rfl, asks, reached⟩

theorem step_limitReached {rl : RateLimiter} {t : Timed config} {ip endpoint : Bytes}
    (asks : t.asks = some (ip, endpoint)) (reached : rl.LimitReached config t.now ip endpoint) :
    (rl.step t).1 = some false ∧
      (rl.step t).2.BlockedUntil ip
        (unix (t.now + (config.endpointConfig endpoint).blockDuration)) := by
  obtain ⟨limited, unlisted, v, found, full⟩ := reached
  obtain ⟨iteration, step⟩ := step_of_asks rl asks
  rw [step, allowEndpoint, if_neg limited, if_neg unlisted]
  simp only [limitEndpoint, config.getEndpointConfig_eq iteration, found,
    Visitor.decideOn_full full]
  exact ⟨trivial, _, visitor_setVisitor_self .., rfl, rfl⟩

theorem step_blocks {rl : RateLimiter} {t : Timed config} {ip endpoint : Bytes}
    (asks : t.asks = some (ip, endpoint)) (limited : ¬ rl.Passes ip) (blocks : rl.Blocks t.now ip) :
    (rl.step t).1 = some false := by
  obtain ⟨v, found, held⟩ := blocks
  obtain ⟨iteration, step⟩ := step_of_asks rl asks
  rw [step, allowEndpoint, if_neg limited]
  split_ifs
  · rfl
  · simp only [limitEndpoint, found, Visitor.decideOn_held held]

end RateLimiter

/-- After a refusal for the limit, the requests of the address are refused up to the second in
which the block ends: for the whole block, if it ends with a second.  After the block, a request is
refused for a block only if the limit was reached once more. -/
theorem block_lasts (rl : RateLimiter) (r u : Timed config) (middle : List (Timed config))
    (ip endpoint other : Bytes) (asked : r.asks = some (ip, endpoint))
    (again : u.asks = some (ip, other)) (ordered : InOrder (r :: middle ++ [u]))
    (leaves : ∀ t ∈ middle, t.Leaves ip) (reached : rl.LimitReached config r.now ip endpoint) :
    let ends := r.now + (config.endpointConfig endpoint).blockDuration
    let later := rl.after (r :: middle)
    (rl.step r).1 = some false ∧
    (u.now ≤ ends → (second ∣ ends ∨ u.now ≤ unix ends * second) → (later.step u).1 = some false) ∧
    (ends < u.now → later.Blocks u.now ip →
      ∃ front t back stem, middle = front ++ t :: back ∧ t.asks = some (ip, stem) ∧
        (rl.after (r :: front)).LimitReached config t.now ip stem) := by
  intro ends later
  obtain ⟨refused, blocked⟩ := RateLimiter.step_limitReached asked reached
  have leavesFirst : r.Leaves ip := by
    obtain ⟨now, call⟩ := r
    cases call with
    | allowEndpoint | allow => trivial
    | _ => cases asked
  refine ⟨refused, fun within exact => ?_, fun beyond blocks => ?_⟩
  · have whole : u.now ≤ unix ends * second := by
      rcases exact with divides | early
      · rw [unix, Int.ediv_mul_cancel divides]
        exact within
      · exact early
    have before : ∀ t ∈ middle, t.now ≤ unix ends * second := by
      intro t member
      have pairs := (List.pairwise_append.mp ordered).2.2 t (List.mem_cons_of_mem _ member) u
        (List.mem_singleton.mpr rfl)
      rcases pairs with cleanup | le
      · obtain ⟨now, call⟩ := u
        cases call with
        | cleanupShard => cases again
        | _ => cases cleanup
      · exact le.trans whole
    obtain ⟨v, found, on, set⟩ := blocked.after leaves before
    exact RateLimiter.step_blocks again
      (RateLimiter.passes_after (List.forall_mem_cons.mpr ⟨leavesFirst, leaves⟩) reached.1)
      ⟨v, found, Visitor.held_of_le on set whole⟩
  · have set : (rl.step r).2.Ends ip (unix ends) := by
      intro v found _
      obtain ⟨own, same, _, last⟩ := blocked
      obtain rfl := Option.some.inj (found.symm.trans same)
      exact last
    rcases set.after leaves with same | ⟨front, t, back, stem, split, asks, reached⟩
    · obtain ⟨v, found, on, unexpired⟩ := blocks
      have last := same v found on
      rw [Visitor.expired, decide_eq_false_iff_not, last, unix] at unexpired
      have floor : ends / second * second ≤ ends := Int.ediv_mul_le _ (by decide)
      omega
    · exact ⟨front, t, back, stem, split, asks, reached⟩

end

/-! One request each minute, and blocks of a minute. -/

def minuteConfig : Config where
  requestsPerMinute := 1
  burstSize := 1
  blockDuration := minute
  whitelist := []
  endpointLimits := ∅

def tenths (n : Int) : Timed minuteConfig := ⟨n * 100000000, .allow (.own _) (str "a")⟩

def visited : RateLimiter := (newRateLimiter minuteConfig).after [tenths 0]

theorem visited_limitReached (n : Int) (early : n = 5 ∨ n = 10) :
    visited.LimitReached minuteConfig (tenths n).now (str "a") [] := by
  refine ⟨by decide, by decide, ⟨[0], false, 0⟩, by decide, ?_⟩
  rcases early with rfl | rfl <;> decide

/-- A cleanup of the visitor's shard, half a minute later, leaves the block. -/
theorem block_lasts_second :
    ((visited.after [tenths 10, ⟨30 * second, .cleanupShard (getShard (str "a"))⟩]).step
      (tenths 610)).1 = some false := by
  refine (block_lasts visited (tenths 10) (tenths 610)
    [⟨30 * second, .cleanupShard (getShard (str "a"))⟩] (str "a") [] [] rfl rfl (by decide) ?_
    (visited_limitReached 10 (.inr rfl))).2.1 (by decide) (.inl (by decide))
  intro t member
  rw [List.mem_singleton.mp member]
  trivial

/-- Refused at half a second with a block of a minute, and allowed at 60.2 seconds. -/
theorem block_cut_short :
    visited.LimitReached minuteConfig (tenths 5).now (str "a") [] ∧
      (visited.step (tenths 5)).1 = some false ∧
      (tenths 602).now ≤ (tenths 5).now + (minuteConfig.endpointConfig []).blockDuration ∧
      ((visited.after [tenths 5]).step (tenths 602)).1 = some true :=
  ⟨visited_limitReached 5 (.inl rfl), by decide, by decide, by decide⟩

end Obsidian.App.RateLimit
