import Obsidian.App.RateLimit
import Mathlib.Algebra.BigOperators.Fin
import Mathlib.Algebra.Order.BigOperators.Group.Finset
import Mathlib.Algebra.Order.Ring.Int

namespace Obsidian.App.RateLimit

open Obsidian.Data

/-! # The visitor counter

The limiter with the maps of its shards and its counter of visitors, for calls whose sections
interleave.  What a call does under the lock of a shard, the update of the counter included, is one
step; so is the one update without a lock.
-/

abbrev Visitors := AList fun _ : Bytes => Visitor

/-! ## Sizes -/

theorem keys_length_insert (visitors : Visitors) (ip : Bytes) (v : Visitor) :
    ((visitors.insert ip v).keys.length : Int) =
      visitors.keys.length + if (visitors.lookup ip).isNone then 1 else 0 := by
  rw [AList.keys_insert, List.length_cons]
  by_cases known : ip ∈ visitors
  · have present : (visitors.lookup ip).isNone = false := by
      rw [Option.isNone_eq_false_iff]
      exact AList.lookup_isSome.mpr known
    have positive : 0 < visitors.keys.length := List.length_pos_of_mem known
    have shorter := @List.length_erase_of_mem _ instBEqOfDecidableEq inferInstance _ _ known
    rw [shorter, present, if_neg Bool.false_ne_true]
    omega
  · have same := @List.erase_of_not_mem _ instBEqOfDecidableEq inferInstance _ _ known
    rw [same, AList.lookup_eq_none.mpr known, Option.isNone_none, if_pos rfl]
    omega

theorem keys_length_erase {visitors : Visitors} {ip : Bytes} {v : Visitor}
    (found : visitors.lookup ip = some v) :
    ((visitors.erase ip).keys.length : Int) = visitors.keys.length - 1 := by
  have known : ip ∈ visitors := AList.lookup_isSome.mp (by rw [found]; rfl)
  have positive : 0 < visitors.keys.length := List.length_pos_of_mem known
  have shorter := @List.length_erase_of_mem _ instBEqOfDecidableEq inferInstance _ _ known
  rw [AList.keys_erase, shorter]
  omega

theorem erase_of_lookup {visitors : Visitors} {ip : Bytes} (absent : visitors.lookup ip = none) :
    visitors.erase ip = visitors :=
  AList.ext (List.kerase_of_notMem_keys (AList.lookup_eq_none.mp absent))

structure CountedLimiter where
  shards : Fin numShards → Visitors
  whitelisted : Finset Bytes
  blacklisted : Finset Bytes
  totalVisitors : Int

namespace CountedLimiter

variable (config : Config) (s : CountedLimiter)

/-- The limiter that looks the maps up. -/
def limiter : RateLimiter where
  shards i ip := (s.shards i).lookup ip
  whitelisted := s.whitelisted
  blacklisted := s.blacklisted

def stored : Nat := ∑ i, (s.shards i).keys.length

def setShard (i : Fin numShards) (visitors : Visitors) : CountedLimiter :=
  { s with shards := Function.update s.shards i visitors }

/-! ## Sections -/

def allowEndpoint (now : Int) (ip endpoint : Bytes) : CountedLimiter :=
  if s.limiter.Passes ip then s
  else if ip ∈ s.blacklisted then s
  else
    let visitors := s.shards (getShard ip)
    let v := (Visitor.decideOn (config.endpointConfig endpoint) now (visitors.lookup ip)).2
    { s.setShard (getShard ip) (visitors.insert ip v) with
      totalVisitors := s.totalVisitors + if (visitors.lookup ip).isNone then 1 else 0 }

/-- The body of the loop of `cleanup` over the visitors of a shard, with the counter. -/
def sweep (now : Int) (state : Visitors × Int) (ip : Bytes) : Visitors × Int :=
  match state.1.lookup ip with
  | none => state
  | some v =>
    match v.cleanup now with
    | none => (state.1.erase ip, state.2 - 1)
    | some v => (state.1.insert ip v, state.2)

def cleanupShard (now : Int) (i : Fin numShards) : CountedLimiter :=
  let swept := (s.shards i).keys.foldl (sweep now) (s.shards i, s.totalVisitors)
  { s.setShard i swept.1 with totalVisitors := swept.2 }

def resetVisitor (ip : Bytes) : CountedLimiter :=
  match (s.shards (getShard ip)).lookup ip with
  | none => s
  | some _ =>
    { s.setShard (getShard ip) ((s.shards (getShard ip)).erase ip) with
      totalVisitors := s.totalVisitors - 1 }

def clearShard (i : Fin numShards) : CountedLimiter := s.setShard i ∅

/-- The end of `Reset` of all addresses, without a lock. -/
def storeZero : CountedLimiter := { s with totalVisitors := 0 }

def unblock (ip : Bytes) : CountedLimiter :=
  match (s.shards (getShard ip)).lookup ip with
  | none => s
  | some v => s.setShard (getShard ip) ((s.shards (getShard ip)).insert ip v.unblock)

/-! ### What the sections do to the maps -/

variable {s}

theorem shards_setShard_self (i : Fin numShards) (visitors : Visitors) :
    (s.setShard i visitors).shards i = visitors :=
  Function.update_self ..

theorem shards_setShard_of_ne {i j : Fin numShards} (apart : j ≠ i) (visitors : Visitors) :
    (s.setShard i visitors).shards j = s.shards j :=
  Function.update_of_ne apart ..

theorem limiter_setShard {ip : Bytes} {visitors : Visitors} {entry : Option Visitor}
    (own : visitors.lookup ip = entry)
    (others : ∀ other ≠ ip, visitors.lookup other = (s.shards (getShard ip)).lookup other) :
    (s.setShard (getShard ip) visitors).limiter = s.limiter.setVisitor ip entry := by
  simp only [limiter, setShard, RateLimiter.setVisitor, RateLimiter.mk.injEq, and_true]
  funext i other
  by_cases shard : i = getShard ip
  · subst shard
    rw [Function.update_self, Function.update_self]
    by_cases same : other = ip
    · rw [same, Function.update_self, own]
    · rw [Function.update_of_ne same, others other same]
  · rw [Function.update_of_ne shard, Function.update_of_ne shard]

theorem limiter_setShard_insert (ip : Bytes) (v : Visitor) :
    (s.setShard (getShard ip) ((s.shards (getShard ip)).insert ip v)).limiter =
      s.limiter.setVisitor ip (some v) :=
  limiter_setShard (AList.lookup_insert _) fun _ apart => AList.lookup_insert_ne apart

theorem limiter_setShard_erase (ip : Bytes) :
    (s.setShard (getShard ip) ((s.shards (getShard ip)).erase ip)).limiter =
      s.limiter.setVisitor ip none :=
  limiter_setShard (AList.lookup_erase _ _) fun _ apart => AList.lookup_erase_ne apart

theorem limiter_allowEndpoint (iteration : Iteration config.endpointLimits) (now : Int)
    (ip endpoint : Bytes) :
    (s.allowEndpoint config now ip endpoint).limiter =
      (s.limiter.allowEndpoint config iteration now ip endpoint).2 := by
  unfold allowEndpoint RateLimiter.allowEndpoint
  by_cases passes : s.limiter.Passes ip
  · rw [if_pos passes, if_pos passes]
  · rw [if_neg passes, if_neg passes]
    by_cases listed : ip ∈ s.blacklisted
    · rw [if_pos listed, if_pos (show ip ∈ s.limiter.blacklisted from listed)]
    · rw [if_neg listed, if_neg (show ip ∉ s.limiter.blacklisted from listed)]
      simp only [RateLimiter.limitEndpoint, config.getEndpointConfig_eq iteration]
      exact limiter_setShard_insert ip _

theorem limiter_resetVisitor (ip : Bytes) (one : ip ≠ []) :
    (s.resetVisitor ip).limiter = s.limiter.reset ip := by
  unfold resetVisitor
  rw [RateLimiter.reset, if_neg one, ← limiter_setShard_erase]
  cases found : (s.shards (getShard ip)).lookup ip with
  | none => rw [erase_of_lookup found, setShard, Function.update_eq_self]
  | some v => rfl

theorem limiter_unblock (ip : Bytes) : (s.unblock ip).limiter = s.limiter.unblock ip := by
  unfold unblock RateLimiter.unblock
  cases found : (s.shards (getShard ip)).lookup ip with
  | none =>
    have absent : s.limiter.visitor ip = none := found
    rw [absent, Option.map_none, ← limiter_setShard_erase, erase_of_lookup found, setShard,
      Function.update_eq_self]
  | some v =>
    have present : s.limiter.visitor ip = some v := found
    rw [present, Option.map_some, ← limiter_setShard_insert]

theorem lookup_sweep (now : Int) {order : List Bytes} (once : order.Nodup)
    (state : Visitors × Int) (ip : Bytes) :
    (order.foldl (sweep now) state).1.lookup ip =
      if ip ∈ order then (state.1.lookup ip).bind (Visitor.cleanup now) else state.1.lookup ip := by
  induction order generalizing state with
  | nil => rfl
  | cons first rest ih =>
    obtain ⟨fresh, others⟩ := List.nodup_cons.mp once
    have swept : (sweep now state first).1.lookup ip =
        if ip = first then (state.1.lookup ip).bind (Visitor.cleanup now)
        else state.1.lookup ip := by
      unfold sweep
      by_cases same : ip = first
      · subst same
        rw [if_pos rfl]
        cases found : state.1.lookup ip with
        | none => simpa using found
        | some v => cases kept : v.cleanup now <;> simp [kept]
      · rw [if_neg same]
        cases state.1.lookup first with
        | none => rfl
        | some v =>
          dsimp only
          cases v.cleanup now with
          | none => exact AList.lookup_erase_ne same
          | some v => exact AList.lookup_insert_ne same
    rw [List.foldl_cons, ih others, swept]
    by_cases same : ip = first
    · simp [same, fresh]
    · simp [same]

theorem limiter_cleanupShard (now : Int) (i : Fin numShards) :
    (s.cleanupShard now i).limiter = s.limiter.cleanupShard now i := by
  simp only [limiter, cleanupShard, setShard, RateLimiter.cleanupShard, RateLimiter.mk.injEq,
    and_true]
  funext j ip
  by_cases own : j = i
  · subst own
    rw [Function.update_self, Function.update_self, lookup_sweep now (AList.keys_nodup _)]
    split_ifs with known
    · rfl
    · rw [AList.lookup_eq_none.mpr known]
      rfl
  · rw [Function.update_of_ne own, Function.update_of_ne own]

/-! ### What the sections do to the counter -/

variable (s) in
def excess : Int := s.totalVisitors - s.stored

theorem stored_setShard (i : Fin numShards) (visitors : Visitors) :
    (s.setShard i visitors).stored + (s.shards i).keys.length =
      s.stored + visitors.keys.length := by
  have before : s.stored = (s.shards i).keys.length +
      ∑ j ∈ Finset.univ.erase i, (s.shards j).keys.length :=
    (Finset.add_sum_erase _ _ (Finset.mem_univ i)).symm
  have after : (s.setShard i visitors).stored = ((s.setShard i visitors).shards i).keys.length +
      ∑ j ∈ Finset.univ.erase i, ((s.setShard i visitors).shards j).keys.length :=
    (Finset.add_sum_erase _ _ (Finset.mem_univ i)).symm
  have others : ∑ j ∈ Finset.univ.erase i, ((s.setShard i visitors).shards j).keys.length =
      ∑ j ∈ Finset.univ.erase i, (s.shards j).keys.length := by
    refine Finset.sum_congr rfl fun j apart => ?_
    rw [shards_setShard_of_ne (Finset.ne_of_mem_erase apart)]
  rw [shards_setShard_self, others] at after
  omega

theorem excess_setShard (i : Fin numShards) (visitors : Visitors) (total : Int) :
    ({ s.setShard i visitors with totalVisitors := total } : CountedLimiter).excess =
      total - s.stored + (s.shards i).keys.length - visitors.keys.length := by
  have count := stored_setShard (s := s) i visitors
  change total - ((s.setShard i visitors).stored : Int) = _
  omega

theorem excess_allowEndpoint (now : Int) (ip endpoint : Bytes) :
    (s.allowEndpoint config now ip endpoint).excess = s.excess := by
  unfold allowEndpoint
  split_ifs
  · rfl
  · rfl
  · rw [excess_setShard, keys_length_insert, excess]
    omega

theorem sweep_size (now : Int) (state : Visitors × Int) (ip : Bytes) :
    (sweep now state ip).2 - (sweep now state ip).1.keys.length =
      state.2 - state.1.keys.length := by
  unfold sweep
  cases found : state.1.lookup ip with
  | none => rfl
  | some v =>
    dsimp only
    cases v.cleanup now with
    | none =>
      dsimp only
      rw [keys_length_erase found]
      omega
    | some v =>
      dsimp only
      rw [keys_length_insert, found, Option.isNone_some, if_neg Bool.false_ne_true]
      omega

theorem sweeps_size (now : Int) (order : List Bytes) (state : Visitors × Int) :
    (order.foldl (sweep now) state).2 - (order.foldl (sweep now) state).1.keys.length =
      state.2 - state.1.keys.length := by
  induction order generalizing state with
  | nil => rfl
  | cons ip rest ih => rw [List.foldl_cons, ih, sweep_size]

theorem excess_cleanupShard (now : Int) (i : Fin numShards) :
    (s.cleanupShard now i).excess = s.excess := by
  have same := sweeps_size now (s.shards i).keys (s.shards i, s.totalVisitors)
  dsimp only at same
  rw [cleanupShard, excess_setShard, excess]
  omega

theorem excess_resetVisitor (ip : Bytes) : (s.resetVisitor ip).excess = s.excess := by
  unfold resetVisitor
  cases found : (s.shards (getShard ip)).lookup ip with
  | none => rfl
  | some v =>
    dsimp only
    rw [excess_setShard, keys_length_erase found, excess]
    omega

theorem excess_unblock (ip : Bytes) : (s.unblock ip).excess = s.excess := by
  unfold unblock
  cases found : (s.shards (getShard ip)).lookup ip with
  | none => rfl
  | some v =>
    have count := excess_setShard (s := s) (getShard ip)
      ((s.shards (getShard ip)).insert ip v.unblock) s.totalVisitors
    rw [keys_length_insert, found, Option.isNone_some, if_neg Bool.false_ne_true] at count
    refine count.trans ?_
    rw [excess]
    omega

theorem excess_clearShard (i : Fin numShards) :
    (s.clearShard i).excess = s.excess + (s.shards i).keys.length := by
  have count := excess_setShard (s := s) i ∅ s.totalVisitors
  rw [AList.keys_empty, List.length_nil] at count
  refine count.trans ?_
  rw [excess]
  omega

theorem stored_of_empty (empty : ∀ i, s.shards i = ∅) : s.stored = 0 :=
  Finset.sum_eq_zero fun i _ => by rw [empty i]; rfl

/-! ### Empty shards -/

variable (s) in
def Adds (ip : Bytes) : Prop :=
  ¬ s.limiter.Passes ip ∧ ip ∉ s.blacklisted ∧ (s.shards (getShard ip)).lookup ip = none

instance (ip : Bytes) : Decidable (s.Adds ip) := inferInstanceAs (Decidable (_ ∧ _ ∧ _))

theorem setShard_empty {i j : Fin numShards} {visitors : Visitors} (empty : s.shards j = ∅)
    (own : i = j → visitors = ∅) : (s.setShard i visitors).shards j = ∅ := by
  by_cases same : j = i
  · subst same
    rw [shards_setShard_self]
    exact own rfl
  · rw [shards_setShard_of_ne same]
    exact empty

theorem allowEndpoint_empty {j : Fin numShards} {now : Int} {ip endpoint : Bytes}
    (apart : s.Adds ip → getShard ip ≠ j) (empty : s.shards j = ∅) :
    (s.allowEndpoint config now ip endpoint).shards j = ∅ := by
  unfold allowEndpoint
  split_ifs with passes listed
  · exact empty
  · exact empty
  · refine setShard_empty empty fun own => ?_
    -- the address would be a new one in this shard
    refine absurd own (apart ⟨passes, listed, ?_⟩)
    rw [own, empty]
    rfl

theorem cleanupShard_empty {i j : Fin numShards} {now : Int} (empty : s.shards j = ∅) :
    (s.cleanupShard now i).shards j = ∅ := by
  refine setShard_empty empty fun own => ?_
  rw [own, empty]
  rfl

theorem resetVisitor_empty {j : Fin numShards} {ip : Bytes} (empty : s.shards j = ∅) :
    (s.resetVisitor ip).shards j = ∅ := by
  unfold resetVisitor
  cases found : (s.shards (getShard ip)).lookup ip with
  | none => exact empty
  | some v =>
    refine setShard_empty empty fun own => ?_
    rw [own, empty] at found
    cases found

theorem unblock_empty {j : Fin numShards} {ip : Bytes} (empty : s.shards j = ∅) :
    (s.unblock ip).shards j = ∅ := by
  unfold unblock
  cases found : (s.shards (getShard ip)).lookup ip with
  | none => exact empty
  | some v =>
    refine setShard_empty empty fun own => ?_
    rw [own, empty] at found
    cases found

end CountedLimiter

/-! ## Calls -/

inductive Operation where
  | allowEndpoint (now : Int) (ip endpoint : Bytes)
  | cleanup (now : Int)
  | reset (ip : Bytes)
  | unblock (ip : Bytes)
deriving DecidableEq, Repr

namespace Operation

def sections : Operation → Nat
  | .allowEndpoint .. => 1
  | .cleanup _ => numShards
  | .reset ip => if ip = [] then numShards + 1 else 1
  | .unblock _ => 1

variable (config : Config)

def advance (op : Operation) (finished : Nat) (s : CountedLimiter) : CountedLimiter :=
  match op with
  | .allowEndpoint now ip endpoint => s.allowEndpoint config now ip endpoint
  | .cleanup now => s.cleanupShard now (shardAt finished)
  | .reset ip =>
    if ip = [] then
      if finished < numShards then s.clearShard (shardAt finished) else s.storeZero
    else s.resetVisitor ip
  | .unblock ip => s.unblock ip

variable {config} {op : Operation} {s : CountedLimiter}

theorem advance_excess (partly : op ≠ .reset []) (finished : Nat) :
    (op.advance config finished s).excess = s.excess := by
  cases op with
  | allowEndpoint now ip endpoint => exact s.excess_allowEndpoint config now ip endpoint
  | cleanup now => exact s.excess_cleanupShard now _
  | reset ip =>
    have one : ip ≠ [] := fun all => partly (by rw [all])
    rw [advance, if_neg one]
    exact s.excess_resetVisitor ip
  | unblock ip => exact s.excess_unblock ip

theorem advance_empty (partly : op ≠ .reset []) (finished : Nat) {j : Fin numShards}
    (apart : ∀ now ip endpoint, op = .allowEndpoint now ip endpoint → s.Adds ip → getShard ip ≠ j)
    (empty : s.shards j = ∅) : (op.advance config finished s).shards j = ∅ := by
  cases op with
  | allowEndpoint now ip endpoint =>
    exact CountedLimiter.allowEndpoint_empty config (apart now ip endpoint rfl) empty
  | cleanup now => exact CountedLimiter.cleanupShard_empty empty
  | reset ip =>
    have one : ip ≠ [] := fun all => partly (by rw [all])
    rw [advance, if_neg one]
    exact CountedLimiter.resetVisitor_empty empty
  | unblock ip => exact CountedLimiter.unblock_empty empty

end Operation

structure Running where
  op : Operation
  finished : Nat := 0
deriving DecidableEq, Repr

def Running.InProgress (call : Running) : Prop :=
  0 < call.finished ∧ call.finished < call.op.sections

instance (call : Running) : Decidable call.InProgress := inferInstanceAs (Decidable (_ ∧ _))

structure Concurrent where
  limiter : CountedLimiter
  calls : List Running

namespace Concurrent

variable (config : Config)

def step (w : Concurrent) (turn : Nat) : Concurrent :=
  match w.calls[turn]? with
  | none => w
  | some call =>
    if call.finished < call.op.sections then
      { limiter := call.op.advance config call.finished w.limiter
        calls := w.calls.set turn { call with finished := call.finished + 1 } }
    else w

def run (w : Concurrent) (turns : List Nat) : Concurrent := turns.foldl (step config) w

/-- No visitor is added to a shard that a `Reset` of all addresses, still under way, has been
through. -/
def Undisturbed (w : Concurrent) (turn : Nat) : Prop :=
  match w.calls[turn]? with
  | some ⟨.allowEndpoint _ ip _, 0⟩ =>
    w.limiter.Adds ip → ∀ call ∈ w.calls, call.op = .reset [] → call.finished ≤ numShards →
      call.finished ≤ (getShard ip).val
  | _ => True

/-- No turn of a run does. -/
def AllUndisturbed (w : Concurrent) : List Nat → Prop
  | [] => True
  | turn :: rest => w.Undisturbed turn ∧ (w.step config turn).AllUndisturbed rest

instance (w : Concurrent) (turn : Nat) : Decidable (w.Undisturbed turn) :=
  match found : w.calls[turn]? with
  | none | some ⟨.cleanup _, _⟩ | some ⟨.reset _, _⟩ | some ⟨.unblock _, _⟩
  | some ⟨.allowEndpoint .., _ + 1⟩ => .isTrue (by rw [Undisturbed, found]; trivial)
  | some ⟨.allowEndpoint now ip endpoint, 0⟩ =>
    decidable_of_iff (w.limiter.Adds ip → ∀ call ∈ w.calls, call.op = .reset [] →
      call.finished ≤ numShards → call.finished ≤ (getShard ip).val)
      (by rw [Undisturbed, found]; exact Iff.rfl)

instance decidableAllUndisturbed : (w : Concurrent) → (turns : List Nat) →
    Decidable (w.AllUndisturbed config turns)
  | _, [] => inferInstanceAs (Decidable True)
  | w, turn :: rest =>
    have := decidableAllUndisturbed (w.step config turn) rest
    inferInstanceAs (Decidable (_ ∧ (w.step config turn).AllUndisturbed config rest))

/-! ## The counter is exact -/

variable {config}

/-- The counter is never below the number of visitors, and above it only while a `Reset` of all
addresses is under way, which has left the shards behind it empty. -/
structure Exact (w : Concurrent) : Prop where
  cleared : ∀ call ∈ w.calls, call.op = .reset [] → call.finished ≤ numShards →
    ∀ j : Fin numShards, j.val < call.finished → w.limiter.shards j = ∅
  above : 0 ≤ w.limiter.excess
  settled : (∀ call ∈ w.calls, call.op = .reset [] → ¬ call.InProgress) → w.limiter.excess = 0

theorem mem_set_of_ne {calls : List Running} {turn : Nat} {call other changed : Running}
    (held : calls[turn]? = some call) (member : other ∈ calls) (apart : other ≠ call) :
    other ∈ calls.set turn changed := by
  obtain ⟨place, found⟩ := List.getElem?_of_mem member
  have elsewhere : turn ≠ place := by
    rintro rfl
    exact apart (Option.some.inj (found.symm.trans held))
  exact List.mem_of_getElem? ((List.getElem?_set_ne elsewhere).trans found)

theorem Exact.advance {w : Concurrent} (exact : w.Exact) {turn : Nat} {call : Running}
    (held : w.calls[turn]? = some call) (unfinished : call.finished < call.op.sections)
    (partly : call.op ≠ .reset []) (undisturbed : w.Undisturbed turn) :
    Exact ⟨call.op.advance config call.finished w.limiter,
      w.calls.set turn { call with finished := call.finished + 1 }⟩ := by
  have old {other : Running} (member : other ∈ w.calls.set turn
      { call with finished := call.finished + 1 }) (all : other.op = .reset []) :
      other ∈ w.calls := by
    rcases List.mem_or_eq_of_mem_set member with before | rfl
    · exact before
    · exact absurd all partly
  refine
    { cleared := fun other member all under j behind => ?_
      above := by
        rw [Operation.advance_excess partly]
        exact exact.above
      settled := fun idle => ?_ }
  · have before := old member all
    refine Operation.advance_empty partly _ ?_ (exact.cleared other before all under j behind)
    rintro now ip endpoint asks adds rfl
    obtain ⟨op, finished⟩ := call
    subst asks
    obtain rfl : finished = 0 := Nat.lt_one_iff.mp unfinished
    simp only [Undisturbed, held] at undisturbed
    have ahead := undisturbed adds other before all under
    omega
  · rw [Operation.advance_excess partly]
    refine exact.settled fun other member all => ?_
    refine idle other (mem_set_of_ne held member ?_) all
    rintro rfl
    exact partly all

theorem Exact.reset {w : Concurrent} (exact : w.Exact) {turn finished : Nat}
    (held : w.calls[turn]? = some ⟨.reset [], finished⟩) (unfinished : finished < numShards + 1) :
    Exact ⟨Operation.advance config (.reset []) finished w.limiter,
      w.calls.set turn ⟨.reset [], finished + 1⟩⟩ := by
  have own : ∀ j : Fin numShards, j.val < finished → w.limiter.shards j = ∅ :=
    exact.cleared _ (List.mem_of_getElem? held) rfl (Nat.lt_succ_iff.mp unfinished)
  by_cases locked : finished < numShards
  · have position : (shardAt finished).val = finished := Nat.mod_eq_of_lt locked
    have step : Operation.advance config (.reset []) finished w.limiter =
        w.limiter.clearShard (shardAt finished) := by
      rw [Operation.advance, if_pos rfl, if_pos locked]
    rw [step]
    refine
      { cleared := fun other member all under j behind => ?_
        above := ?_
        settled := fun idle => ?_ }
    · by_cases here : j = shardAt finished
      · rw [here]
        exact CountedLimiter.shards_setShard_self ..
      · refine CountedLimiter.setShard_empty ?_ fun _ => rfl
        rcases List.mem_or_eq_of_mem_set member with before | rfl
        · exact exact.cleared other before all under j behind
        · have apart : j.val ≠ finished := fun same => here (Fin.ext (same.trans position.symm))
          dsimp only at behind
          exact own j (by omega)
    · rw [CountedLimiter.excess_clearShard]
      have above := exact.above
      omega
    · -- this call itself is under way
      have inside := (List.getElem?_eq_some_iff.mp held).1
      refine absurd ⟨Nat.succ_pos _, ?_⟩ (idle ⟨.reset [], finished + 1⟩
        (List.mem_iff_getElem?.mpr ⟨turn, List.getElem?_set_self inside⟩) rfl)
      exact Nat.succ_lt_succ locked
  · have last : finished = numShards := by omega
    have step : Operation.advance config (.reset []) finished w.limiter = w.limiter.storeZero := by
      rw [Operation.advance, if_pos rfl, if_neg locked]
    have empty : ∀ j, w.limiter.shards j = ∅ := fun j => own j (by rw [last]; exact j.isLt)
    have none : w.limiter.storeZero.excess = 0 := by
      have nothing : w.limiter.storeZero.stored = 0 := CountedLimiter.stored_of_empty empty
      rw [CountedLimiter.excess, nothing]
      rfl
    rw [step]
    exact
      { cleared := fun _ _ _ _ j _ => empty j
        above := none.ge
        settled := fun _ => none }

theorem Exact.step {w : Concurrent} (exact : w.Exact) {turn : Nat}
    (undisturbed : w.Undisturbed turn) : (w.step config turn).Exact := by
  unfold Concurrent.step
  cases held : w.calls[turn]? with
  | none => exact exact
  | some call =>
    dsimp only
    by_cases unfinished : call.finished < call.op.sections
    · rw [if_pos unfinished]
      by_cases all : call.op = .reset []
      · obtain ⟨op, finished⟩ := call
        subst all
        exact exact.reset held unfinished
      · exact exact.advance held unfinished all undisturbed
    · rw [if_neg unfinished]
      exact exact

theorem Exact.run {w : Concurrent} (exact : w.Exact) {turns : List Nat}
    (undisturbed : w.AllUndisturbed config turns) : (w.run config turns).Exact := by
  induction turns generalizing w with
  | nil => exact exact
  | cons turn rest ih => exact ih (exact.step undisturbed.1) undisturbed.2

theorem allUndisturbed_of_ne {w : Concurrent} (partly : ∀ call ∈ w.calls, call.op ≠ .reset [])
    (turns : List Nat) : w.AllUndisturbed config turns := by
  induction turns generalizing w with
  | nil => trivial
  | cons turn rest ih =>
    refine ⟨?_, ih ?_⟩
    · unfold Undisturbed
      split
      · exact fun _ call member all => absurd all (partly call member)
      · trivial
    · intro call member
      unfold step at member
      cases held : w.calls[turn]? with
      | none => exact partly call (by simpa [held] using member)
      | some own =>
        simp only [held] at member
        split at member
        · rcases List.mem_or_eq_of_mem_set member with before | rfl
          · exact partly call before
          · exact partly own (List.mem_of_getElem? held)
        · exact partly call member

end Concurrent

def newCountedLimiter (config : Config) : CountedLimiter where
  shards _ := ∅
  whitelisted := config.whitelist.toFinset
  blacklisted := ∅
  totalVisitors := 0

theorem exact_new (config : Config) (operations : List Operation) :
    Concurrent.Exact ⟨newCountedLimiter config, operations.map fun op => { op }⟩ := by
  have none : (newCountedLimiter config).excess = 0 := by
    rw [CountedLimiter.excess, CountedLimiter.stored_of_empty fun _ => rfl]
    rfl
  exact
    { cleared := fun _ _ _ _ _ _ => rfl
      above := none.ge
      settled := fun _ => none }

/-- If no visitor is added to a shard that a `Reset` of all addresses under way has been through,
the counter is never negative, and exact whenever no call is under way. -/
theorem totalVisitors_exact (config : Config) (operations : List Operation) (turns : List Nat)
    (undisturbed : Concurrent.AllUndisturbed config
      ⟨newCountedLimiter config, operations.map fun op => { op }⟩ turns) :
    let w := Concurrent.run config ⟨newCountedLimiter config, operations.map fun op => { op }⟩ turns
    0 ≤ w.limiter.totalVisitors ∧
      ((∀ call ∈ w.calls, ¬ call.InProgress) → w.limiter.totalVisitors = w.limiter.stored) := by
  intro w
  have exact : w.Exact := (exact_new config operations).run undisturbed
  refine ⟨?_, fun idle => ?_⟩
  · have above := exact.above
    rw [CountedLimiter.excess] at above
    omega
  · have settled := exact.settled fun call member _ => idle call member
    rw [CountedLimiter.excess] at settled
    omega

/-- While the shards are cleared one by one, a visitor comes to one that is still ahead. -/
theorem totalVisitors_exact_removed :
    let w := Concurrent.run defaultConfig ⟨newCountedLimiter defaultConfig,
      [.allowEndpoint 0 (str "10.0.0.1") [], .reset [], .allowEndpoint 0 (str "10.0.0.2") [],
        .allowEndpoint 0 (str "10.0.0.3") [], .reset (str "10.0.0.1")].map fun op => { op }⟩
      ([0] ++ List.replicate 150 1 ++ [2] ++ List.replicate 107 1 ++ [3, 4])
    w.limiter.totalVisitors = w.limiter.stored ∧ w.limiter.stored = 1 :=
  ⟨(totalVisitors_exact defaultConfig _ _ (by decide +kernel)).2 (by decide +kernel),
    by decide +kernel⟩

/-- A visitor that comes between the last shard and the counter is stored and not counted; when
it is reset the counter is negative. -/
theorem totalVisitors_lost :
    let operations : List Operation :=
      [.reset [], .allowEndpoint 0 (str "10.0.0.1") [], .reset (str "10.0.0.1")]
    let start : Concurrent := ⟨newCountedLimiter defaultConfig, operations.map fun op => { op }⟩
    let w := start.run defaultConfig (List.replicate 256 0 ++ [1, 0])
    (∀ call ∈ w.calls, ¬ call.InProgress) ∧ w.limiter.totalVisitors = 0 ∧ w.limiter.stored = 1 ∧
      (w.run defaultConfig [2]).limiter.totalVisitors = -1 := by
  decide +kernel

end Obsidian.App.RateLimit
