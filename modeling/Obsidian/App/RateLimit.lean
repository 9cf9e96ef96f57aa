import Obsidian.Data.Bytes
import Obsidian.Data.Windows
import Mathlib.Data.Finset.Basic
import Mathlib.Data.List.AList
import Mathlib.Data.List.Sort
import Mathlib.Logic.Function.Basic

namespace Obsidian.App

open Obsidian.Data

/-! # The rate limiter in memory

The `RateLimiter` of the `ratelimit` package without a Redis backend.  A map is the function that
looks it up, a time is its number of nanoseconds, and the reading of the clock is an argument.
-/

namespace RateLimit

def second : Int := 1000000000

def minute : Int := 60 * second

def unix (t : Int) : Int := t / second

abbrev numShards : Nat := 256

def localHostIP : Bytes := str "127.0.0.1"

/-! ## Configurations -/

structure EndpointConfig where
  requestsPerMinute : Int
  burstSize : Int
  blockDuration : Int
deriving DecidableEq, Repr

structure Config extends EndpointConfig where
  whitelist : List Bytes
  endpointLimits : AList fun _ : Bytes => EndpointConfig

def defaultConfig : Config where
  requestsPerMinute := 200
  burstSize := 300
  blockDuration := minute
  whitelist := [localHostIP, str "::1", str "[::1]", str "localhost"]
  endpointLimits :=
    ((∅ : AList fun _ : Bytes => EndpointConfig).insert (str "/api/admin")
      ⟨30, 50, 5 * minute⟩).insert (str "/api/login") ⟨5, 10, 15 * minute⟩

structure Iteration (limits : AList fun _ : Bytes => EndpointConfig) where
  prefixes : List Bytes
  perm : prefixes.Perm limits.keys

def Iteration.own (limits : AList fun _ : Bytes => EndpointConfig) : Iteration limits :=
  ⟨limits.keys, .refl _⟩

namespace Config

variable (config : Config)

def getEndpointConfig (iteration : Iteration config.endpointLimits) (endpoint : Bytes) :
    EndpointConfig :=
  let prefixes := iteration.prefixes.insertionSort fun p q => q.length ≤ p.length
  match prefixes.find? (·.isPrefixOf endpoint) with
  | some path => (config.endpointLimits.lookup path).getD ⟨0, 0, 0⟩
  | none => config.toEndpointConfig

/-- The configuration under which an endpoint falls: that of its longest configured stem, or the
global one. -/
inductive Governs (endpoint : Bytes) : EndpointConfig → Prop
  | longest {path : Bytes} {cfg : EndpointConfig}
      (found : config.endpointLimits.lookup path = some cfg) (matching : path <+: endpoint)
      (longest : ∀ other ∈ config.endpointLimits.keys, other <+: endpoint →
        other.length ≤ path.length) : Governs endpoint cfg
  | fallback (unmatched : ∀ path ∈ config.endpointLimits.keys, ¬ path <+: endpoint) :
      Governs endpoint config.toEndpointConfig

variable {config} {endpoint : Bytes} {cfg other : EndpointConfig}

theorem mem_keys_of_lookup {path : Bytes} (found : config.endpointLimits.lookup path = some cfg) :
    path ∈ config.endpointLimits.keys :=
  AList.lookup_isSome.mp (by rw [found]; rfl)

theorem Governs.unique (governs : config.Governs endpoint cfg)
    (governsToo : config.Governs endpoint other) : other = cfg := by
  cases governs with
  | longest found matching longest =>
    cases governsToo with
    | longest foundToo matchingToo longestToo =>
      have shorter := longest _ (mem_keys_of_lookup foundToo) matchingToo
      have longer := longestToo _ (mem_keys_of_lookup found) matching
      have same := (List.prefix_of_prefix_length_le matchingToo matching shorter).eq_of_length
        (Nat.le_antisymm shorter longer)
      rw [same, found] at foundToo
      exact (Option.some.inj foundToo).symm
    | fallback unmatched => exact absurd matching (unmatched _ (mem_keys_of_lookup found))
  | fallback unmatched =>
    cases governsToo with
    | longest found matching => exact absurd matching (unmatched _ (mem_keys_of_lookup found))
    | fallback => rfl

theorem governs_getEndpointConfig (iteration : Iteration config.endpointLimits) (endpoint : Bytes) :
    config.Governs endpoint (config.getEndpointConfig iteration endpoint) := by
  have listed (path : Bytes) :
      path ∈ iteration.prefixes.insertionSort (fun p q => q.length ≤ p.length) ↔
        path ∈ config.endpointLimits.keys :=
    (List.mem_insertionSort _).trans iteration.perm.mem_iff
  have sorted := List.pairwise_insertionSort (fun p q : Bytes => q.length ≤ p.length)
    iteration.prefixes
  simp only [getEndpointConfig]
  cases search : (iteration.prefixes.insertionSort fun p q => q.length ≤ p.length).find?
      (·.isPrefixOf endpoint) with
  | none =>
    rw [List.find?_eq_none] at search
    apply Governs.fallback
    intro path known matching
    exact search path ((listed path).mpr known) (List.isPrefixOf_iff_prefix.mpr matching)
  | some path =>
    obtain ⟨matching, before, after, split, unmatched⟩ := List.find?_eq_some_iff_append.mp search
    have known : path ∈ config.endpointLimits.keys := (listed path).mp (by rw [split]; simp)
    obtain ⟨cfg, found⟩ := Option.isSome_iff_exists.mp (AList.lookup_isSome.mpr known)
    simp only [found, Option.getD_some]
    apply Governs.longest found (List.isPrefixOf_iff_prefix.mp matching)
    intro other knownToo matchingToo
    rw [split] at sorted listed
    rcases List.mem_append.mp ((listed other).mpr knownToo) with earlier | rest
    · have stays := unmatched other earlier
      rw [List.isPrefixOf_iff_prefix.mpr matchingToo] at stays
      cases stays
    · rcases List.mem_cons.mp rest with rfl | later
      · exact Nat.le_refl _
      · exact (List.pairwise_cons.mp (List.pairwise_append.mp sorted).2.1).1 other later

variable (config)

/-- Whatever the order of the map. -/
def endpointConfig (endpoint : Bytes) : EndpointConfig :=
  config.getEndpointConfig (.own _) endpoint

theorem getEndpointConfig_eq (iteration : Iteration config.endpointLimits) (endpoint : Bytes) :
    config.getEndpointConfig iteration endpoint = config.endpointConfig endpoint :=
  (governs_getEndpointConfig (.own _) endpoint).unique (governs_getEndpointConfig iteration endpoint)

structure LimitsPositive : Prop where
  all : 1 ≤ config.requestsPerMinute
  endpoints : ∀ entry ∈ config.endpointLimits.entries, 1 ≤ entry.2.requestsPerMinute

variable {config}

theorem LimitsPositive.endpointConfig (limits : config.LimitsPositive) (endpoint : Bytes) :
    1 ≤ (config.endpointConfig endpoint).requestsPerMinute := by
  have governs := governs_getEndpointConfig (.own config.endpointLimits) endpoint
  rw [getEndpointConfig_eq] at governs
  generalize config.endpointConfig endpoint = cfg at governs ⊢
  cases governs with
  | longest found => exact limits.endpoints ⟨_, _⟩ (AList.mem_lookup_iff.mp found)
  | fallback => exact limits.all

end Config

/-! ## Visitors -/

structure Visitor where
  timestamps : List Int
  blocked : Bool := false
  blockUntil : Int := 0
deriving DecidableEq, Repr

namespace Visitor

/-- `now.After(time.Unix(blockUntil, 0))`. -/
def expired (now : Int) (v : Visitor) : Bool := v.blockUntil * second < now

def removeOld (now : Int) (v : Visitor) : Visitor :=
  { v with timestamps := recent id minute now v.timestamps }

def decideOn (cfg : EndpointConfig) (now : Int) : Option Visitor → Bool × Visitor
  | none => (true, { timestamps := [now] })
  | some v =>
    if v.blocked ∧ v.expired now = false then (false, v)
    else
      let v := { v with blocked := false }.removeOld now
      if cfg.requestsPerMinute ≤ v.timestamps.length then
        (false, { v with blocked := true, blockUntil := unix (now + cfg.blockDuration) })
      else (true, { v with timestamps := v.timestamps ++ [now] })

/-- The body of the loop of `cleanup`. -/
def cleanup (now : Int) (v : Visitor) : Option Visitor :=
  let v := (if v.blocked ∧ v.expired now then { v with blocked := false } else v).removeOld now
  if v.timestamps.length = 0 ∧ v.blocked = false then none else some v

def unblock (v : Visitor) : Visitor := { v with blocked := false, timestamps := [] }

end Visitor

/-! ## The limiter -/

abbrev Shard := Bytes → Option Visitor

structure RateLimiter where
  shards : Fin numShards → Shard
  whitelisted : Finset Bytes
  blacklisted : Finset Bytes

def newRateLimiter (config : Config) : RateLimiter where
  shards := fun _ _ => none
  whitelisted := config.whitelist.toFinset
  blacklisted := ∅

def fnv32a (data : Bytes) : UInt32 :=
  data.foldl (fun hash b => (hash ^^^ b.toUInt32) * 16777619) 2166136261

abbrev shardAt (i : Nat) : Fin numShards := Fin.ofNat numShards i

def getShard (ip : Bytes) : Fin numShards := shardAt (fnv32a ip).toNat

def normalizeIP (ip : Bytes) : Bytes :=
  if ip = str "[::1]" ∨ ip = str "::1" ∨ ip = str "localhost" then localHostIP else ip

namespace RateLimiter

variable (config : Config) (rl : RateLimiter)

def visitor (ip : Bytes) : Option Visitor := rl.shards (getShard ip) ip

def setVisitor (ip : Bytes) (v : Option Visitor) : RateLimiter :=
  { rl with
    shards := Function.update rl.shards (getShard ip)
      (Function.update (rl.shards (getShard ip)) ip v) }

def Passes (ip : Bytes) : Prop := ip ∈ rl.whitelisted ∨ normalizeIP ip ∈ rl.whitelisted

instance (ip : Bytes) : Decidable (rl.Passes ip) := inferInstanceAs (Decidable (_ ∨ _))

def limitEndpoint (iteration : Iteration config.endpointLimits) (now : Int) (ip endpoint : Bytes) :
    Bool × RateLimiter :=
  let cfg := config.getEndpointConfig iteration endpoint
  let (allowed, v) := Visitor.decideOn cfg now (rl.visitor ip)
  (allowed, rl.setVisitor ip (some v))

def allowEndpoint (iteration : Iteration config.endpointLimits) (now : Int) (ip endpoint : Bytes) :
    Bool × RateLimiter :=
  if rl.Passes ip then (true, rl)
  else if ip ∈ rl.blacklisted then (false, rl)
  else rl.limitEndpoint config iteration now ip endpoint

def allow (iteration : Iteration config.endpointLimits) (now : Int) (ip : Bytes) :
    Bool × RateLimiter :=
  rl.allowEndpoint config iteration now ip []

/-- What `cleanup` does while it holds the lock of one shard. -/
def cleanupShard (now : Int) (i : Fin numShards) : RateLimiter :=
  { rl with
    shards := Function.update rl.shards i fun ip => (rl.shards i ip).bind (Visitor.cleanup now) }

def blacklist (ip : Bytes) : RateLimiter :=
  { rl with blacklisted := insert ip rl.blacklisted, whitelisted := rl.whitelisted.erase ip }

def whitelist (ip : Bytes) : RateLimiter :=
  { rl with whitelisted := insert ip rl.whitelisted, blacklisted := rl.blacklisted.erase ip }

def removeFromBlacklist (ip : Bytes) : RateLimiter :=
  { rl with blacklisted := rl.blacklisted.erase ip }

def removeFromWhitelist (ip : Bytes) : RateLimiter :=
  { rl with whitelisted := rl.whitelisted.erase ip }

def reset (ip : Bytes) : RateLimiter :=
  if ip = [] then { rl with shards := fun _ _ => none } else rl.setVisitor ip none

def unblock (ip : Bytes) : RateLimiter :=
  rl.setVisitor ip ((rl.visitor ip).map Visitor.unblock)

/-! ### One visitor -/

variable {rl} {config}

@[simp] theorem visitor_setVisitor_self (ip : Bytes) (v : Option Visitor) :
    (rl.setVisitor ip v).visitor ip = v := by
  simp [visitor, setVisitor]

theorem visitor_setVisitor (ip : Bytes) (v : Option Visitor) (other : Bytes) :
    (rl.setVisitor ip v).visitor other = if other = ip then v else rl.visitor other := by
  by_cases same : other = ip
  · rw [same, visitor_setVisitor_self, if_pos rfl]
  · rw [if_neg same]
    by_cases shard : getShard other = getShard ip
    · simp [visitor, setVisitor, shard, same]
    · simp [visitor, setVisitor, shard]

theorem visitor_cleanupShard (now : Int) (i : Fin numShards) (ip : Bytes) :
    (rl.cleanupShard now i).visitor ip =
      if getShard ip = i then (rl.visitor ip).bind (Visitor.cleanup now) else rl.visitor ip := by
  by_cases own : getShard ip = i
  · simp [visitor, cleanupShard, own]
  · simp [visitor, cleanupShard, own]

theorem visitor_reset (ip other : Bytes) :
    (rl.reset ip).visitor other = if ip = [] ∨ other = ip then none else rl.visitor other := by
  by_cases all : ip = []
  · simp [reset, all, visitor]
  · simp only [reset, all, if_false, visitor_setVisitor, false_or]

end RateLimiter

end RateLimit

end Obsidian.App
