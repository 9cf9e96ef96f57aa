import Obsidian.App.RateLimit
import Obsidian.Data.Decimal
import Obsidian.Data.Redis
import Obsidian.Data.Text

namespace Obsidian.App.RateLimit

open Obsidian.Data Redis

/-! # The rate limiter in Redis

The script that counts the requests of an address to an endpoint, and the `RedisRateLimiter` that
runs it, over any server.  The server can be reached, runs a script without interruption, and its
clock is the one of the caller.
-/

/-! ## The script -/

/-- What `math.random(1000000)` returned. -/
@[ext] structure Draw where
  value : Nat
  inRange : 1 ≤ value ∧ value ≤ 1000000
deriving DecidableEq

structure ScriptArgs where
  key : Bytes
  blockKey : Bytes
  now : Int
  window : Int
  limit : Int
  blockDuration : Int

namespace ScriptArgs

variable (a : ScriptArgs)

def member (draw : Draw) : Bytes := itoa a.now ++ byte '-' :: digits draw.value

section

variable {σ : Type} (server : Server σ)

def count (draw : Draw) : EStateM Failure σ (Int × Int × Int) := do
  server.zremrangebyscore a.now a.key (a.now - a.window)
  let count ← server.zcard a.now a.key
  if a.limit ≤ count then
    server.setEX a.now a.blockKey (itoa (a.now + a.blockDuration)) a.blockDuration
    pure (0, count, a.blockDuration)
  else
    server.zadd a.now a.key a.now (a.member draw)
    modifyGet fun db => ((1, count + 1, 0), server.expire a.now a.key a.window db)

/-- `tonumber` of a decimal number; a comparison with what is none fails. -/
def tonumber (text : Bytes) : Except Failure Int :=
  let unsigned := if text.head? = some 45 then text.drop 1 else text
  match parseUnsigned unsigned with
  | none => .error .notNumber
  | some n => .ok (if text.head? = some 45 then -(n : Int) else n)

def rateLimitScript (draw : Draw) : EStateM Failure σ (Int × Int × Int) := do
  match ← server.get a.now a.blockKey with
  | none => a.count server draw
  | some text =>
    match tonumber text with
    | .error failure => throw failure
    | .ok blockedUntil =>
      if a.now < blockedUntil then pure (0, -1, blockedUntil - a.now)
      else
        modifyGet fun db => ((), server.del a.blockKey db)
        a.count server draw

end

end ScriptArgs

/-! ## The limiter -/

structure RedisConfig extends Config where
  keyPrefix : Bytes
  enableFallback : Bool

def defaultRedisConfig : RedisConfig where
  requestsPerMinute := 200
  burstSize := 300
  blockDuration := minute
  whitelist := [localHostIP, str "::1"]
  endpointLimits :=
    (∅ : AList fun _ : Bytes => EndpointConfig).insert (str "/api/login") ⟨5, 10, 15 * minute⟩
  keyPrefix := str "obsidian:rl:"
  enableFallback := true

structure RedisRateLimiter (σ : Type) where
  db : σ
  whitelisted : Finset Bytes
  fallback : Option RateLimiter

def newRedisRateLimiter {σ : Type} (config : RedisConfig) (db : σ) : RedisRateLimiter σ where
  db
  whitelisted := config.whitelist.toFinset
  fallback := if config.enableFallback then some (newRateLimiter config.toConfig) else none

namespace RedisConfig

variable (config : RedisConfig)

/-- The first configured stem that the `range` over the map meets. -/
def getEndpointConfig (iteration : Iteration config.endpointLimits) (endpoint : Bytes) :
    EndpointConfig :=
  match iteration.prefixes.find? (·.isPrefixOf endpoint) with
  | some path => (config.endpointLimits.lookup path).getD ⟨0, 0, 0⟩
  | none => config.toEndpointConfig

def key (ip endpoint : Bytes) : Bytes := config.keyPrefix ++ normalizeIP ip ++ byte ':' :: endpoint

def blockKey (ip endpoint : Bytes) : Bytes :=
  config.keyPrefix ++ str "block:" ++ normalizeIP ip ++ byte ':' :: endpoint

def blacklistKey (ip : Bytes) : Bytes := config.keyPrefix ++ str "blacklist:" ++ ip

def scriptArgs (iteration : Iteration config.endpointLimits) (now : Int) (ip endpoint : Bytes) :
    ScriptArgs :=
  let cfg := config.getEndpointConfig iteration endpoint
  { key := config.key ip endpoint
    blockKey := config.blockKey ip endpoint
    now := unix now
    window := 60
    limit := cfg.requestsPerMinute
    blockDuration := cfg.blockDuration.tdiv second }

end RedisConfig

namespace RedisRateLimiter

variable {σ : Type} (server : Server σ) (config : RedisConfig) (rl : RedisRateLimiter σ)

def isBlacklisted (now : Int) (ip : Bytes) : Bool :=
  server.keyExists (unix now) (config.blacklistKey ip) rl.db

def allowEndpoint (iteration : Iteration config.endpointLimits) (now : Int) (draw : Draw)
    (ip endpoint : Bytes) : Bool × RedisRateLimiter σ :=
  if ip ∈ rl.whitelisted ∨ normalizeIP ip ∈ rl.whitelisted then (true, rl)
  else if rl.isBlacklisted server config now (normalizeIP ip) ∨
      rl.isBlacklisted server config now ip then (false, rl)
  else
    match (config.scriptArgs iteration now ip endpoint).rateLimitScript server draw rl.db with
    | .ok (verdict, _, _) db => (verdict = 1, { rl with db })
    | .error _ db =>
      match rl.fallback with
      | none => (true, { rl with db })
      | some fallback =>
        let (allowed, fallback) :=
          fallback.allowEndpoint config.toConfig iteration now ip endpoint
        (allowed, { rl with db, fallback := some fallback })

def blacklist (ip : Bytes) : RedisRateLimiter σ :=
  { rl with db := server.set (config.blacklistKey ip) (str "1") rl.db }

def whitelist (ip : Bytes) : RedisRateLimiter σ :=
  { rl with
    whitelisted := insert ip rl.whitelisted, db := server.del (config.blacklistKey ip) rl.db }

def removeFromBlacklist (ip : Bytes) : RedisRateLimiter σ :=
  { rl with db := server.del (config.blacklistKey ip) rl.db }

def removeFromWhitelist (ip : Bytes) : RedisRateLimiter σ :=
  { rl with whitelisted := rl.whitelisted.erase ip }

def delMatching (pattern : Bytes) (db : σ) : σ :=
  (server.scan pattern db).foldl (fun db key => server.del key db) db

def reset (ip : Bytes) : RedisRateLimiter σ :=
  if ip = [] then { rl with db := delMatching server (config.keyPrefix ++ str "*") rl.db }
  else
    { rl with
      db := delMatching server (config.keyPrefix ++ str "block:" ++ ip ++ str ":*")
        (delMatching server (config.keyPrefix ++ ip ++ str ":*") rl.db) }

def unblock (ip : Bytes) : RedisRateLimiter σ :=
  { rl with db := delMatching server (config.keyPrefix ++ str "block:" ++ ip ++ str ":*") rl.db }

end RedisRateLimiter

/-! ## What an execution can do -/

section

variable {σ : Type}

def resultState : EStateM.Result Failure σ (Int × Int × Int) → σ
  | .ok _ db | .error _ db => db

def resultAllows : EStateM.Result Failure σ (Int × Int × Int) → Bool
  | .ok (verdict, _, _) _ => verdict = 1
  | .error _ _ => false

namespace ScriptArgs

variable {server : Server σ} {a : ScriptArgs} {draw : Draw} {db : σ}

def counted (a : ScriptArgs) (members : ZSet) : ZSet := members.above (a.now - a.window)

inductive Cleared (server : Server σ) (a : ScriptArgs) (db : σ) : σ → Prop
  | absent (live : server.entry db a.now a.blockKey = none) : Cleared server a db db
  | expired {text : Bytes} {expires : Option Int} {blockedUntil : Int}
      (live : server.entry db a.now a.blockKey = some ⟨.text text, expires⟩)
      (number : tonumber text = .ok blockedUntil) (past : blockedUntil ≤ a.now) :
      Cleared server a db (server.del a.blockKey db)

inductive Counted (server : Server σ) (a : ScriptArgs) (draw : Draw) (db : σ) :
    EStateM.Result Failure σ (Int × Int × Int) → Prop
  | wrongType (wrong : server.sorted db a.now a.key = none) :
      Counted server a draw db (.error .wrongType db)
  | unblockable {members : ZSet} {trimmed : σ} (there : server.sorted db a.now a.key = some members)
      (trim : server.Writes a.now a.key (stored (a.counted members) (server.ttl db a.now a.key))
        db trimmed)
      (full : a.limit ≤ (a.counted members).entries.length) (nonpositive : a.blockDuration ≤ 0) :
      Counted server a draw db (.error .invalidExpire trimmed)
  | full {members : ZSet} {trimmed after : σ} (there : server.sorted db a.now a.key = some members)
      (trim : server.Writes a.now a.key (stored (a.counted members) (server.ttl db a.now a.key))
        db trimmed)
      (full : a.limit ≤ (a.counted members).entries.length)
      (block : server.Writes a.now a.blockKey
        (some ⟨.text (itoa (a.now + a.blockDuration)), some (a.now + a.blockDuration)⟩)
        trimmed after) :
      Counted server a draw db (.ok (0, (a.counted members).entries.length, a.blockDuration) after)
  | admitted {members : ZSet} {after : σ} (there : server.sorted db a.now a.key = some members)
      (room : (a.counted members).entries.length < a.limit)
      (added : server.Writes a.now a.key (some ⟨.sorted ((a.counted members).insert (a.member draw)
        a.now), some (a.now + a.window)⟩) db after) :
      Counted server a draw db (.ok (1, (a.counted members).entries.length + 1, 0) after)

inductive Executed (server : Server σ) (a : ScriptArgs) (draw : Draw) (db : σ) :
    EStateM.Result Failure σ (Int × Int × Int) → Prop
  | wrongType {members : ZSet} {expires : Option Int}
      (live : server.entry db a.now a.blockKey = some ⟨.sorted members, expires⟩) :
      Executed server a draw db (.error .wrongType db)
  | notNumber {text : Bytes} {expires : Option Int} {failure : Failure}
      (live : server.entry db a.now a.blockKey = some ⟨.text text, expires⟩)
      (other : tonumber text = .error failure) : Executed server a draw db (.error failure db)
  | blocked {text : Bytes} {expires : Option Int} {blockedUntil : Int}
      (live : server.entry db a.now a.blockKey = some ⟨.text text, expires⟩)
      (number : tonumber text = .ok blockedUntil) (on : a.now < blockedUntil) :
      Executed server a draw db (.ok (0, -1, blockedUntil - a.now) db)
  | counted {cleared : σ} {result : EStateM.Result Failure σ (Int × Int × Int)}
      (clear : Cleared server a db cleared) (counted : Counted server a draw cleared result) :
      Executed server a draw db result

variable (laws : server.Laws)
include laws

theorem Cleared.live {cleared : σ} (clear : Cleared server a db cleared) :
    server.entry cleared a.now a.blockKey = none := by
  cases clear with
  | absent live => exact live
  | expired => exact (laws.del a.now a.blockKey db).own (Int.le_refl _)

theorem admit_writes (draw : Draw) {members : ZSet} {trimmed : σ}
    (still : server.sorted trimmed a.now a.key = some members) :
    ∃ added, server.zadd a.now a.key a.now (a.member draw) trimmed = .ok () added ∧
      server.Writes a.now a.key (some ⟨.sorted (members.insert (a.member draw) a.now),
        some (a.now + a.window)⟩) trimmed (server.expire a.now a.key a.window added) := by
  have modified := laws.zadd a.now a.key a.now (a.member draw) trimmed
  generalize server.zadd a.now a.key a.now (a.member draw) trimmed = result at modified ⊢
  cases modified with
  | wrongType wrong => cases still.symm.trans wrong
  | @changed own added there writes =>
    obtain rfl : own = members := Option.some.inj (there.symm.trans still)
    refine ⟨added, rfl, ?_⟩
    have entry : server.entry added a.now a.key =
        some ⟨.sorted (own.insert (a.member draw) a.now), server.ttl trimmed a.now a.key⟩ := by
      rw [writes.own (Int.le_refl _), stored, if_neg (by simp), Option.filter_some]
      exact if_pos laws.ttl_alive
    have expired := laws.expire a.now a.key a.window added
    rw [entry] at expired
    exact writes.trans expired

theorem count_counted (a : ScriptArgs) (draw : Draw) (db : σ) :
    Counted server a draw db (a.count server draw db) := by
  have modified := laws.zremrangebyscore a.now a.key (a.now - a.window) db
  simp only [count, bind, EStateM.bind]
  generalize server.zremrangebyscore a.now a.key (a.now - a.window) db = result at modified ⊢
  cases modified with
  | wrongType wrong => exact .wrongType wrong
  | @changed members trimmed there trim =>
    have still : server.sorted trimmed a.now a.key = some (a.counted members) :=
      laws.sorted_stored trim
    simp only [laws.zcard, still]
    by_cases full : a.limit ≤ (a.counted members).entries.length
    · simp only [full, ↓reduceIte]
      by_cases positive : 0 < a.blockDuration
      · obtain ⟨after, set, block⟩ := laws.setEX a.now a.blockKey
          (itoa (a.now + a.blockDuration)) positive trimmed
        simp only [EStateM.bind, set]
        exact .full there trim full block
      · have nonpositive := Int.not_lt.mp positive
        simp only [EStateM.bind, laws.setEX_invalid _ _ _ nonpositive]
        exact .unblockable there trim full nonpositive
    · obtain ⟨added, add, writes⟩ := admit_writes laws draw still
      simp only [full, ↓reduceIte, EStateM.bind, add]
      exact .admitted there (Int.not_le.mp full) (trim.trans writes)

theorem rateLimitScript_executed (a : ScriptArgs) (draw : Draw) (db : σ) :
    Executed server a draw db (a.rateLimitScript server draw db) := by
  simp only [rateLimitScript, bind, EStateM.bind, laws.get]
  rcases live : server.entry db a.now a.blockKey with _ | ⟨text | members, expires⟩
  · exact .counted (.absent live) (count_counted laws a draw db)
  · cases number : tonumber text with
    | error failure =>
      dsimp only
      rw [number]
      exact .notNumber live number
    | ok blockedUntil =>
      dsimp only
      rw [number]
      by_cases on : a.now < blockedUntil
      · simp only [on, ↓reduceIte]
        exact .blocked live number on
      · simp only [on, ↓reduceIte]
        exact .counted (.expired live number (Int.not_lt.mp on)) (count_counted laws a draw _)
  · exact .wrongType live

end ScriptArgs

end

end Obsidian.App.RateLimit
