import Obsidian.App.RedisLimit

namespace Obsidian.App.RateLimit

open Obsidian.Data Redis

/-! # Access lists

The limiter with its optional backend, and what is left of the lists after any sequence of
commands.
-/

structure Backed (σ : Type) where
  own : RateLimiter
  redisBackend : Option (RedisRateLimiter σ)

structure Configs (σ : Type) where
  own : Config
  redis : RedisConfig
  server : Server σ

variable {σ : Type}

structure Circumstances (configs : Configs σ) where
  now : Int
  iteration : Iteration configs.own.endpointLimits
  redisIteration : Iteration configs.redis.endpointLimits
  draw : Draw

namespace Backed

variable (configs : Configs σ) (b : Backed σ)

def allowEndpoint (c : Circumstances configs) (ip endpoint : Bytes) : Bool × Backed σ :=
  if b.own.Passes ip then (true, b)
  else if ip ∈ b.own.blacklisted then (false, b)
  else
    match b.redisBackend with
    | none =>
      let (allowed, own) := b.own.limitEndpoint configs.own c.iteration c.now ip endpoint
      (allowed, { b with own })
    | some redis =>
      if redis.isBlacklisted configs.server configs.redis c.now (normalizeIP ip) ∨
          redis.isBlacklisted configs.server configs.redis c.now ip then (false, b)
      else
        let (allowed, redis) := redis.allowEndpoint configs.server configs.redis c.redisIteration
          c.now c.draw ip endpoint
        (allowed, { b with redisBackend := some redis })

def blacklist (ip : Bytes) : Backed σ where
  own := b.own.blacklist ip
  redisBackend := b.redisBackend.map (·.blacklist configs.server configs.redis ip)

def whitelist (ip : Bytes) : Backed σ where
  own := b.own.whitelist ip
  redisBackend := b.redisBackend.map (·.whitelist configs.server configs.redis ip)

def removeFromBlacklist (ip : Bytes) : Backed σ where
  own := b.own.removeFromBlacklist ip
  redisBackend := b.redisBackend.map (·.removeFromBlacklist configs.server configs.redis ip)

def removeFromWhitelist (ip : Bytes) : Backed σ where
  own := b.own.removeFromWhitelist ip
  redisBackend := b.redisBackend.map (·.removeFromWhitelist ip)

def reset (ip : Bytes) : Backed σ where
  own := b.own.reset ip
  redisBackend := b.redisBackend.map (·.reset configs.server configs.redis ip)

def unblock (ip : Bytes) : Backed σ where
  own := b.own.unblock ip
  redisBackend := b.redisBackend.map (·.unblock configs.server configs.redis ip)

end Backed

/-! ## Commands -/

inductive ListKind
  | blacklist
  | whitelist
  | removeFromBlacklist
  | removeFromWhitelist
deriving DecidableEq

inductive Command (configs : Configs σ)
  | list (kind : ListKind) (ip : Bytes)
  | reset (ip : Bytes)
  | unblock (ip : Bytes)
  | allowEndpoint (c : Circumstances configs) (ip endpoint : Bytes)

namespace Backed

variable {configs : Configs σ}

def step (b : Backed σ) : Command configs → Backed σ
  | .list .blacklist ip => b.blacklist configs ip
  | .list .whitelist ip => b.whitelist configs ip
  | .list .removeFromBlacklist ip => b.removeFromBlacklist configs ip
  | .list .removeFromWhitelist ip => b.removeFromWhitelist ip
  | .reset ip => b.reset configs ip
  | .unblock ip => b.unblock configs ip
  | .allowEndpoint c ip endpoint => (b.allowEndpoint configs c ip endpoint).2

def run (b : Backed σ) (commands : List (Command configs)) : Backed σ := commands.foldl step b

end Backed

def Command.about {configs : Configs σ} (a : Bytes) : Command configs → Option ListKind
  | .list kind ip => if normalizeIP ip = normalizeIP a then some kind else none
  | _ => none

def lastAbout {configs : Configs σ} (a : Bytes) (commands : List (Command configs)) :
    Option ListKind :=
  (commands.filterMap (Command.about a)).getLast?

theorem lastAbout_snoc {configs : Configs σ} (a : Bytes) (commands : List (Command configs))
    (command : Command configs) :
    lastAbout a (commands ++ [command]) = (command.about a).or (lastAbout a commands) := by
  unfold lastAbout
  rw [List.filterMap_append]
  cases about : command.about a with
  | none => simp [about]
  | some kind => simp [about]

/-! ## The local lists -/

section

variable {configs : Configs σ} {b : Backed σ} {a : Bytes}

theorem reset_lists (rl : RateLimiter) (ip : Bytes) :
    (rl.reset ip).whitelisted = rl.whitelisted ∧ (rl.reset ip).blacklisted = rl.blacklisted := by
  unfold RateLimiter.reset
  split
  · exact ⟨rfl, rfl⟩
  · exact ⟨rfl, rfl⟩

theorem allowEndpoint_lists (c : Circumstances configs) (ip endpoint : Bytes) :
    (b.allowEndpoint configs c ip endpoint).2.own.whitelisted = b.own.whitelisted ∧
      (b.allowEndpoint configs c ip endpoint).2.own.blacklisted = b.own.blacklisted := by
  unfold Backed.allowEndpoint
  split
  · exact ⟨rfl, rfl⟩
  split
  · exact ⟨rfl, rfl⟩
  cases b.redisBackend with
  | none => exact ⟨rfl, rfl⟩
  | some redis =>
    dsimp only
    split
    · exact ⟨rfl, rfl⟩
    · exact ⟨rfl, rfl⟩

def Stands (a : Bytes) (b : Backed σ) : Option ListKind → Prop
  | some .blacklist => a ∈ b.own.blacklisted ∧ a ∉ b.own.whitelisted
  | some .whitelist => a ∈ b.own.whitelisted
  | _ => True

theorem Stands.congr {b' : Backed σ} {last : Option ListKind} (stands : Stands a b last)
    (white : a ∈ b'.own.whitelisted ↔ a ∈ b.own.whitelisted)
    (black : a ∈ b'.own.blacklisted ↔ a ∈ b.own.blacklisted) : Stands a b' last := by
  match last, stands with
  | some .blacklist, stands => exact ⟨black.mpr stands.1, fun listed => stands.2 (white.mp listed)⟩
  | some .whitelist, stands => exact white.mpr stands
  | some .removeFromBlacklist, _ => trivial
  | some .removeFromWhitelist, _ => trivial
  | none, _ => trivial

theorem list_other (configs : Configs σ) (b : Backed σ) (kind : ListKind) {ip : Bytes} (apart : a ≠ ip) :
    (a ∈ (b.step (.list kind ip : Command configs)).own.whitelisted ↔ a ∈ b.own.whitelisted) ∧
      (a ∈ (b.step (.list kind ip : Command configs)).own.blacklisted ↔ a ∈ b.own.blacklisted) := by
  cases kind with
  | blacklist =>
    simp [Backed.step, Backed.blacklist, RateLimiter.blacklist, apart]
  | whitelist =>
    simp [Backed.step, Backed.whitelist, RateLimiter.whitelist, apart]
  | removeFromBlacklist =>
    simp [Backed.step, Backed.removeFromBlacklist, RateLimiter.removeFromBlacklist, apart]
  | removeFromWhitelist =>
    simp [Backed.step, Backed.removeFromWhitelist, RateLimiter.removeFromWhitelist, apart]

theorem list_own (kind : ListKind) :
    Stands a (b.step (.list kind a : Command configs)) (some kind) := by
  cases kind with
  | blacklist =>
    simp [Stands, Backed.step, Backed.blacklist, RateLimiter.blacklist]
  | whitelist => simp [Stands, Backed.step, Backed.whitelist, RateLimiter.whitelist]
  | removeFromBlacklist => trivial
  | removeFromWhitelist => trivial

def Spells (a : Bytes) : Command configs → Prop
  | .list _ ip => normalizeIP ip = normalizeIP a → ip = a
  | _ => True

instance (a : Bytes) : DecidablePred (@Spells σ configs a)
  | .list _ _ => inferInstanceAs (Decidable (_ → _))
  | .reset _ => isTrue trivial
  | .unblock _ => isTrue trivial
  | .allowEndpoint _ _ _ => isTrue trivial

theorem Stands.step {last : Option ListKind} (stands : Stands a b last)
    {command : Command configs} (spelled : Spells a command) :
    Stands a (b.step command) ((command.about a).or last) := by
  cases command with
  | list kind ip =>
    by_cases same : normalizeIP ip = normalizeIP a
    · rw [spelled same, Command.about, if_pos rfl]
      exact list_own kind
    · rw [Command.about, if_neg same]
      have apart : a ≠ ip := fun alike => same (congrArg normalizeIP alike.symm)
      obtain ⟨white, black⟩ := list_other configs b kind apart
      exact stands.congr white black
  | reset ip =>
    obtain ⟨white, black⟩ := reset_lists b.own ip
    exact stands.congr (iff_of_eq (congrArg (a ∈ ·) white)) (iff_of_eq (congrArg (a ∈ ·) black))
  | unblock ip => exact stands
  | allowEndpoint c ip endpoint =>
    obtain ⟨white, black⟩ := allowEndpoint_lists (b := b) c ip endpoint
    exact stands.congr (iff_of_eq (congrArg (a ∈ ·) white)) (iff_of_eq (congrArg (a ∈ ·) black))

theorem stands_run (commands : List (Command configs)) (spelled : ∀ command ∈ commands, Spells a command) :
    Stands a (b.run commands) (lastAbout a commands) := by
  induction commands using List.reverseRecOn with
  | nil => trivial
  | append_singleton commands command ih =>
    have sofar := ih fun earlier mem => spelled earlier (List.mem_append_left _ mem)
    rw [Backed.run, List.foldl_append, lastAbout_snoc]
    exact sofar.step (spelled command (List.mem_append_right _ (List.mem_singleton_self command)))

/-! ## Reset and Unblock -/

namespace Backed

def redisBlacklisted (b : Backed σ) (configs : Configs σ) (now : Int) (ip : Bytes) : Bool :=
  b.redisBackend.elim false (·.isBlacklisted configs.server configs.redis now ip)

structure SameLists (configs : Configs σ) (b b' : Backed σ) : Prop where
  whitelisted : b'.own.whitelisted = b.own.whitelisted
  blacklisted : b'.own.blacklisted = b.own.blacklisted
  redisWhitelisted :
    b'.redisBackend.map (·.whitelisted) = b.redisBackend.map (·.whitelisted)
  redisBlacklisted : ∀ now ip,
    b'.redisBlacklisted configs now ip = b.redisBlacklisted configs now ip

end Backed

theorem keyExists_delMatching {server : Server σ} (laws : server.Laws) {pattern key : Bytes}
    (apart : server.globMatches pattern key = false) (now : Int) (db : σ) :
    server.keyExists now key (RedisRateLimiter.delMatching server pattern db) =
      server.keyExists now key db := by
  unfold RedisRateLimiter.delMatching
  have scanned : ∀ found ∈ server.scan pattern db, key ≠ found := by
    rintro found listed rfl
    rw [laws.scan listed] at apart
    cases apart
  generalize server.scan pattern db = keys at scanned
  induction keys generalizing db with
  | nil => rfl
  | cons found rest ih =>
    rw [List.foldl_cons, ih _ fun key listed => scanned key (List.mem_cons_of_mem _ listed),
      laws.keyExists, laws.keyExists, (laws.del now found db).frame (Int.le_refl now)
        (scanned found List.mem_cons_self)]

theorem isPrefix_of_snoc {α : Type} {c : α} {stem rest text : List α} (absent : c ∉ stem)
    (front : text ++ [c] <+: stem ++ c :: rest) : stem <+: text := by
  induction stem generalizing text with
  | nil => exact List.nil_prefix
  | cons d stem ih =>
    rw [List.mem_cons, not_or] at absent
    cases text with
    | nil => exact absurd (List.cons_prefix_cons.mp front).1 absent.1
    | cons e text =>
      obtain ⟨same, front⟩ := List.cons_prefix_cons.mp front
      exact List.cons_prefix_cons.mpr ⟨same.symm, ih absent.2 front⟩

section

variable {server : Server σ} (laws : server.Laws) {config : RedisConfig}
  (plain : ∀ x ∈ config.keyPrefix, Literal x)
include laws plain

theorem isPrefix_of_blacklistKey {front rest other : Bytes} (literal : ∀ x ∈ front, Literal x)
    (found : server.globMatches (config.keyPrefix ++ front ++ rest) (config.blacklistKey other) = true) :
    front <+: str "blacklist" ++ byte ':' :: other := by
  have whole : config.keyPrefix ++ front <+: config.blacklistKey other := by
    apply laws.literal _ found
    intro x mem
    exact (List.mem_append.mp mem).elim (plain x) (literal x)
  rw [RedisConfig.blacklistKey, List.append_assoc] at whole
  exact (List.prefix_append_right_inj _).mp whole

theorem blockPattern_apart (ip other : Bytes) :
    server.globMatches (config.keyPrefix ++ str "block:" ++ ip ++ str ":*")
      (config.blacklistKey other) = false := by
  rw [Bool.eq_false_iff]
  intro found
  rw [List.append_assoc (_ ++ _)] at found
  have literal : (str "block:").all (fun x => Literal x) = true := by decide
  have front := isPrefix_of_blacklistKey laws plain
    (fun x mem => of_decide_eq_true (List.all_eq_true.mp literal x mem)) found
  -- The two part at their third byte.
  exact absurd front (by simp [str])

theorem resetPattern_apart {ip : Bytes} (literal : ∀ x ∈ ip, Literal x)
    (apart : ¬ str "blacklist" <+: ip) (other : Bytes) :
    server.globMatches (config.keyPrefix ++ ip ++ str ":*") (config.blacklistKey other) = false := by
  rw [Bool.eq_false_iff]
  intro found
  have split : config.keyPrefix ++ ip ++ str ":*" =
      config.keyPrefix ++ (ip ++ [byte ':']) ++ str "*" := by
    simp only [List.append_assoc]
    rfl
  rw [split] at found
  have front := isPrefix_of_blacklistKey laws plain
    (fun x mem => (List.mem_append.mp mem).elim (literal x)
      fun last => List.mem_singleton.mp last ▸ (by decide)) found
  exact apart (isPrefix_of_snoc (by decide) front)

end

namespace Backed

/-- What keeps the keys of the blacklist away from `Unblock`. -/
def UnblockApart (configs : Configs σ) (b : Backed σ) : Prop :=
  b.redisBackend = none ∨ ∀ x ∈ configs.redis.keyPrefix, Literal x

/-- What keeps the keys of the blacklist away from `Reset`. -/
def ResetApart (configs : Configs σ) (b : Backed σ) (ip : Bytes) : Prop :=
  b.redisBackend = none ∨
    ip ≠ [] ∧ (∀ x ∈ configs.redis.keyPrefix, Literal x) ∧ (∀ x ∈ ip, Literal x) ∧
      ¬ str "blacklist" <+: ip

theorem unblock_sameLists (laws : configs.server.Laws) (apart : b.UnblockApart configs) (ip : Bytes) :
    SameLists configs b (b.unblock configs ip) := by
  obtain ⟨own, redisBackend⟩ := b
  cases redisBackend with
  | none => exact ⟨rfl, rfl, rfl, fun _ _ => rfl⟩
  | some redis =>
    rcases apart with none | plain
    · cases none
    refine ⟨rfl, rfl, rfl, fun now other => ?_⟩
    exact keyExists_delMatching laws (blockPattern_apart laws plain ip other) (unix now) redis.db

theorem reset_sameLists (laws : configs.server.Laws) {ip : Bytes} (apart : b.ResetApart configs ip) :
    SameLists configs b (b.reset configs ip) := by
  obtain ⟨own, redisBackend⟩ := b
  obtain ⟨white, black⟩ := reset_lists own ip
  cases redisBackend with
  | none => exact ⟨white, black, rfl, fun _ _ => rfl⟩
  | some redis =>
    rcases apart with none | ⟨some, plain, literal, apart⟩
    · cases none
    have whole : redis.reset configs.server configs.redis ip =
        { redis with
          db := RedisRateLimiter.delMatching configs.server
            (configs.redis.keyPrefix ++ str "block:" ++ ip ++ str ":*")
            (RedisRateLimiter.delMatching configs.server
              (configs.redis.keyPrefix ++ ip ++ str ":*") redis.db) } := if_neg some
    simp only [reset, Option.map_some, whole]
    refine ⟨white, black, rfl, fun now other => ?_⟩
    exact (keyExists_delMatching laws (blockPattern_apart laws plain ip other) (unix now) _).trans
      (keyExists_delMatching laws (resetPattern_apart laws plain literal apart other) (unix now)
        redis.db)

end Backed

theorem Stands.refused (own : normalizeIP a = a) (stands : Stands a b (some .blacklist))
    (c : Circumstances configs) (endpoint : Bytes) :
    (b.allowEndpoint configs c a endpoint).1 = false := by
  obtain ⟨black, white⟩ := stands
  have stopped : ¬ b.own.Passes a := by
    unfold RateLimiter.Passes
    rw [own, or_self]
    exact white
  rw [Backed.allowEndpoint, if_neg stopped, if_pos black]

theorem Stands.accepted (stands : Stands a b (some .whitelist)) {ip : Bytes}
    (same : normalizeIP ip = a) (c : Circumstances configs) (endpoint : Bytes) :
    (b.allowEndpoint configs c ip endpoint).1 = true := by
  have passes : b.own.Passes ip := by
    right
    rw [same]
    exact stands
  rw [Backed.allowEndpoint, if_pos passes]

end

/-! ## The last command -/

/-- The last list command on an address decides about its requests, and `Reset` and `Unblock`
leave the lists alone, when every command writes the address in one way, the way the limiter
normalises to, requests of a blacklisted address write it so too, and the pattern of a reset
cannot be read as one of blacklist keys. -/
theorem lists_obey_last (configs : Configs σ) (laws : configs.server.Laws) (b : Backed σ)
    (commands : List (Command configs)) (a : Bytes) (own : normalizeIP a = a)
    (spelled : ∀ command ∈ commands, Spells a command) :
    (lastAbout a commands = some .blacklist → ∀ c ip endpoint, ip = a →
      ((b.run commands).allowEndpoint configs c ip endpoint).1 = false) ∧
    (lastAbout a commands = some .whitelist → ∀ c ip endpoint, normalizeIP ip = a →
      ((b.run commands).allowEndpoint configs c ip endpoint).1 = true) ∧
    (∀ ip, (b.run commands).UnblockApart configs →
      (b.run commands).SameLists configs ((b.run commands).unblock configs ip)) ∧
    (∀ ip, (b.run commands).ResetApart configs ip →
      (b.run commands).SameLists configs ((b.run commands).reset configs ip)) := by
  have stands := stands_run (b := b) commands spelled
  refine ⟨?_, ?_, ?_, ?_⟩
  · rintro last c ip endpoint rfl
    exact (last ▸ stands).refused own c endpoint
  · intro last c ip endpoint same
    exact (last ▸ stands).accepted same c endpoint
  · intro ip apart
    exact Backed.unblock_sameLists laws apart ip
  · intro ip apart
    exact Backed.reset_sameLists laws apart

def defaultConfigs : Configs Keyspace where
  own := defaultConfig
  redis := defaultRedisConfig
  server := Keyspace.server

def backed : Backed Keyspace where
  own := newRateLimiter defaultConfig
  redisBackend := some (newRedisRateLimiter defaultRedisConfig ∅)

def atStart : Circumstances defaultConfigs where
  now := 0
  iteration := .own _
  redisIteration := .own _
  draw := ⟨1, by decide⟩

def reviewed : List (Command defaultConfigs) :=
  [.list .whitelist (str "10.0.0.9"), .allowEndpoint atStart (str "10.0.0.9") (str "/"),
    .list .blacklist (str "10.0.0.9"), .reset (str "10.0.0.9"), .list .whitelist (str "::1")]

theorem lists_obey_last_reviewed :
    ((backed.run reviewed).allowEndpoint defaultConfigs atStart (str "10.0.0.9") (str "/")).1 =
        false ∧
      (backed.run reviewed).SameLists defaultConfigs
        ((backed.run reviewed).reset defaultConfigs (str "10.0.0.9")) := by
  have obeyed := lists_obey_last defaultConfigs Keyspace.laws backed reviewed (str "10.0.0.9") (by decide)
    (by decide)
  refine ⟨obeyed.1 (by decide) atStart _ (str "/") rfl, obeyed.2.2.2 _ (Or.inr ⟨by decide, ?_, ?_, ?_⟩)⟩
  · have literal : (str "obsidian:rl:").all (fun x => Literal x) = true := by decide
    exact fun x mem => of_decide_eq_true (List.all_eq_true.mp literal x mem)
  · have literal : (str "10.0.0.9").all (fun x => Literal x) = true := by decide
    exact fun x mem => of_decide_eq_true (List.all_eq_true.mp literal x mem)
  · decide

/-- Without a backend, `::1` is on the whitelist under its normal form and stays there when it is
blacklisted, and passes when `127.0.0.1` is; `127.0.0.1` stays on the blacklist when `::1` is
whitelisted.  With a backend, a reset of all counters takes its blacklist with them. -/
theorem lists_disobey :
    let none : Backed Keyspace := ⟨newRateLimiter defaultConfig, none⟩
    let black : List (Command defaultConfigs) := [.list .blacklist (str "::1")]
    let white : List (Command defaultConfigs) :=
      [.list .blacklist (str "127.0.0.1"), .list .whitelist (str "::1")]
    let banned := backed.blacklist defaultConfigs (str "10.0.0.9")
    (lastAbout (str "::1") black = some .blacklist ∧
      ((none.run black).allowEndpoint defaultConfigs atStart (str "::1") (str "/")).1 = true) ∧
    ((none.blacklist defaultConfigs (str "127.0.0.1")).allowEndpoint defaultConfigs atStart
      (str "::1") (str "/")).1 = true ∧
    (lastAbout (str "127.0.0.1") white = some .whitelist ∧
      ((none.run white).allowEndpoint defaultConfigs atStart (str "127.0.0.1") (str "/")).1 =
        false) ∧
    banned.redisBlacklisted defaultConfigs 0 (str "10.0.0.9") = true ∧
    (banned.reset defaultConfigs []).redisBlacklisted defaultConfigs 0 (str "10.0.0.9") = false := by
  decide

end Obsidian.App.RateLimit
