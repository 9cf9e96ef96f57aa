import Obsidian.App.ApiKeys
import Obsidian.Data.FixedWindows

namespace Obsidian.App.ApiKeys

open Obsidian.Data

/-! # The quota of an API key

Calls of `ValidateKey` whose critical sections interleave: the key is looked up under the lock,
checked without it, and counted under it again.
-/

/-! ## Calls -/

inductive Stage where
  | begun
  | found (key : APIKey)
  /-- Every check has passed but that of the quota. -/
  | passed (key : APIKey)
  | accepted (key : APIKey)
  | failed (err : GoError)
deriving DecidableEq, Repr

structure Call where
  plaintext : Bytes
  requiredScope : Scope
  stage : Stage := .begun
deriving DecidableEq, Repr

structure Success where
  time : Int
  keyHash : Bytes
  /-- Whether it began a window of the counter. -/
  opened : Bool
deriving DecidableEq, Repr

structure World where
  manager : Manager
  calls : List Call
  log : List Success := []

section

variable (sha256 : Bytes → Bytes)

def Call.keyHash (call : Call) : Bytes := (sha256 call.plaintext).flatMap hexByte

/-- Whether the next count begins a window. -/
def Manager.expired (m : Manager) (now : Int) (keyHash : Bytes) : Bool :=
  (m.usage.lookup keyHash).all fun used => minute ≤ now - used.windowStart

def Call.advance (call : Call) (now : Int) (m : Manager) : Stage × Manager × List Success :=
  let keyHash := call.keyHash sha256
  match call.stage with
  | .begun =>
    match m.keys.lookup keyHash with
    | none => (.failed errKeyNotFound, m, [])
    | some key => (.found key, m, [])
  | .found key =>
    match checkKey now key call.requiredScope with
    | some err => (.failed err, m, [])
    | none =>
      if 0 < key.rateLimit then (.passed key, m, [])
      else (.accepted key, m, [⟨now, keyHash, false⟩])
  | .passed key =>
    match m.checkRateLimit now keyHash key.rateLimit with
    | (some err, m) => (.failed err, m, [])
    | (none, after) => (.accepted key, after, [⟨now, keyHash, m.expired now keyHash⟩])
  | stage => (stage, m, [])

def World.step (w : World) (turn : Nat × Int) : World :=
  match w.calls[turn.1]? with
  | none => w
  | some call =>
    let (stage, manager, successes) := call.advance sha256 turn.2 w.manager
    { manager
      calls := w.calls.set turn.1 { call with stage }
      log := w.log ++ successes }

def World.run (w : World) (turns : List (Nat × Int)) : World := turns.foldl (World.step sha256) w

def Stage.result : Stage → Except GoError APIKey
  | .accepted key => .ok key
  | .failed err => .error err
  | _ => .error []

/-- The sections of a call that nobody interrupts are `ValidateKey`. -/
theorem validateKey_eq_sections (m : Manager) (call : Call) (begun : call.stage = .begun)
    (looked checked counted : Int) :
    let first := call.advance sha256 looked m
    let second := { call with stage := first.1 }.advance sha256 checked first.2.1
    let third := { call with stage := second.1 }.advance sha256 counted second.2.1
    m.validateKey sha256 checked counted call.plaintext call.requiredScope =
      (third.1.result, third.2.1) := by
  obtain ⟨plaintext, requiredScope, stage⟩ := call
  subst begun
  simp only [Call.advance, Manager.validateKey, Call.keyHash]
  cases found : m.keys.lookup ((sha256 plaintext).flatMap hexByte) with
  | none => rfl
  | some key =>
    dsimp only
    cases checkKey checked key requiredScope with
    | some err => rfl
    | none =>
      dsimp only
      by_cases limited : 0 < key.rateLimit
      · rw [if_pos limited, if_pos limited]
        dsimp only
        rcases m.checkRateLimit counted ((sha256 plaintext).flatMap hexByte) key.rateLimit with
          ⟨_ | err, after⟩ <;> rfl
      · rw [if_neg limited, if_neg limited]
        rfl

/-! ## What a section may do -/

def Stage.pending : Stage → Option APIKey
  | .found key | .passed key => some key
  | _ => none

def Stage.isAccepted : Stage → Bool
  | .accepted _ => true
  | _ => false

inductive Call.Advanced (call : Call) (now : Int) (m : Manager) :
    Stage → Manager → List Success → Prop
  | idle {stage : Stage}
      (holds : ∀ key, stage.pending = some key →
        call.stage.pending = some key ∨ m.keys.lookup (call.keyHash sha256) = some key)
      (final : stage.isAccepted = call.stage.isAccepted) : Advanced call now m stage m []
  | unlimited {key : APIKey} (held : call.stage = .found key) (free : ¬ 0 < key.rateLimit) :
      Advanced call now m (.accepted key) m [⟨now, call.keyHash sha256, false⟩]
  | opened {key : APIKey} (held : call.stage = .passed key)
      (late : ∀ used, m.usage.lookup (call.keyHash sha256) = some used →
        used.windowStart + minute ≤ now) :
      Advanced call now m (.accepted key)
        { m with usage := m.usage.insert (call.keyHash sha256) ⟨1, now⟩ }
        [⟨now, call.keyHash sha256, true⟩]
  | counted {key : APIKey} {used : KeyUsage} (held : call.stage = .passed key)
      (given : m.usage.lookup (call.keyHash sha256) = some used)
      (soon : now < used.windowStart + minute) (room : used.count < key.rateLimit) :
      Advanced call now m (.accepted key)
        { m with usage := m.usage.insert (call.keyHash sha256) ⟨used.count + 1, used.windowStart⟩ }
        [⟨now, call.keyHash sha256, false⟩]

theorem Call.advance_passed {call : Call} {key : APIKey} (held : call.stage = .passed key)
    (now : Int) (m : Manager) :
    call.Advanced sha256 now m (call.advance sha256 now m).1 (call.advance sha256 now m).2.1
      (call.advance sha256 now m).2.2 := by
  simp only [Call.advance, held, Manager.checkRateLimit, Manager.expired]
  cases given : m.usage.lookup (call.keyHash sha256) with
  | none => exact .opened held (by simp [given])
  | some used =>
    dsimp only
    by_cases late : minute ≤ now - used.windowStart
    · simp only [if_pos late, Option.all_some, decide_eq_true late]
      refine .opened held fun other same => ?_
      rw [given, Option.some.injEq] at same
      subst same
      omega
    · simp only [if_neg late]
      by_cases full : key.rateLimit ≤ used.count
      · simp only [if_pos full]
        exact .idle (by simp [Stage.pending]) (by simp [Stage.isAccepted, held])
      · simp only [if_neg full, Option.all_some, decide_eq_false late]
        exact .counted held given (by omega) (by omega)

theorem Call.advance_advanced (call : Call) (now : Int) (m : Manager) :
    call.Advanced sha256 now m (call.advance sha256 now m).1 (call.advance sha256 now m).2.1
      (call.advance sha256 now m).2.2 := by
  cases held : call.stage with
  | begun =>
    simp only [Call.advance, held]
    cases found : m.keys.lookup (call.keyHash sha256) with
    | none => exact .idle (by simp [Stage.pending]) (by simp [Stage.isAccepted, held])
    | some key =>
      refine .idle (fun other same => .inr ?_) (by simp [Stage.isAccepted, held])
      rw [found, ← same]
      rfl
  | found key =>
    simp only [Call.advance, held]
    cases checkKey now key call.requiredScope with
    | some err => exact .idle (by simp [Stage.pending]) (by simp [Stage.isAccepted, held])
    | none =>
      dsimp only
      by_cases limited : 0 < key.rateLimit
      · rw [if_pos limited]
        refine .idle (fun other same => .inl ?_) (by simp [Stage.isAccepted, held])
        rw [held, ← same]
        rfl
      · rw [if_neg limited]
        exact .unlimited held limited
  | passed key => exact advance_passed sha256 held now m
  | accepted key =>
    simp only [Call.advance, held]
    exact .idle (by simp [Stage.pending]) (by rw [held])
  | failed err =>
    simp only [Call.advance, held]
    exact .idle (by simp [Stage.pending]) (by rw [held])

variable {sha256} in
theorem Call.Advanced.keys {call : Call} {now : Int} {m after : Manager} {stage : Stage}
    {successes : List Success} (advanced : call.Advanced sha256 now m stage after successes) :
    after.keys = m.keys := by
  cases advanced <;> rfl

/-! ## Runs -/

/-- One entry of the log for each call that was accepted. -/
def World.Logged (w : World) : Prop :=
  w.calls.countP (fun call => call.stage.isAccepted) = w.log.length

variable {sha256} in
theorem Call.Advanced.logged {call : Call} {now : Int} {m after : Manager} {stage : Stage}
    {successes : List Success} (advanced : call.Advanced sha256 now m stage after successes) :
    stage.isAccepted.toNat = call.stage.isAccepted.toNat + successes.length := by
  cases advanced with
  | idle _ final => rw [final, List.length_nil, Nat.add_zero]
  | unlimited held | opened held | counted held => rw [held]; rfl

theorem World.step_none {w : World} {turn : Nat × Int} (absent : w.calls[turn.1]? = none) :
    w.step sha256 turn = w := by
  rw [World.step, absent]

theorem World.step_some {w : World} {turn : Nat × Int} {call : Call}
    (given : w.calls[turn.1]? = some call) :
    w.step sha256 turn =
      { manager := (call.advance sha256 turn.2 w.manager).2.1
        calls := w.calls.set turn.1 { call with stage := (call.advance sha256 turn.2 w.manager).1 }
        log := w.log ++ (call.advance sha256 turn.2 w.manager).2.2 } := by
  rw [World.step, given]

theorem World.Logged.step {w : World} (logged : w.Logged) (turn : Nat × Int) :
    (w.step sha256 turn).Logged := by
  cases given : w.calls[turn.1]? with
  | none => rwa [step_none sha256 given]
  | some call =>
    obtain ⟨bound, same⟩ := List.getElem?_eq_some_iff.mp given
    have more := (call.advance_advanced sha256 turn.2 w.manager).logged
    have counted : 0 < w.calls.countP (fun call => call.stage.isAccepted) ∨
        call.stage.isAccepted = false := by
      cases accepted : call.stage.isAccepted with
      | false => exact .inr rfl
      | true => exact .inl (List.countP_pos_iff.mpr ⟨call, List.mem_of_getElem? given, accepted⟩)
    rw [step_some sha256 given, Logged, List.length_append, List.countP_set bound, same, ← logged]
    generalize (call.advance sha256 turn.2 w.manager).1.isAccepted = after at more ⊢
    generalize call.stage.isAccepted = before at more counted ⊢
    cases before <;> cases after <;> simp_all <;> omega

theorem World.Logged.run {w : World} (logged : w.Logged) (turns : List (Nat × Int)) :
    (w.run sha256 turns).Logged := by
  induction turns generalizing w with
  | nil => exact logged
  | cons turn rest ih => exact ih (logged.step sha256 turn)

theorem World.accepted_step {w : World} {i : Nat}
    (accepted : ∃ call, w.calls[i]? = some call ∧ call.stage.isAccepted = true)
    (turn : Nat × Int) :
    ∃ call, (w.step sha256 turn).calls[i]? = some call ∧ call.stage.isAccepted = true := by
  obtain ⟨call, held, final⟩ := accepted
  cases given : w.calls[turn.1]? with
  | none => exact ⟨call, by rwa [step_none sha256 given], final⟩
  | some other =>
    rw [step_some sha256 given]
    by_cases same : turn.1 = i
    · subst same
      obtain rfl : other = call := Option.some.inj (given.symm.trans held)
      refine ⟨_, List.getElem?_set_self (List.getElem?_eq_some_iff.mp given).1, ?_⟩
      have more := (other.advance_advanced sha256 turn.2 w.manager).logged
      rw [final] at more
      cases after : (other.advance sha256 turn.2 w.manager).1.isAccepted with
      | true => rfl
      | false =>
        rw [after, Bool.toNat_true, Bool.toNat_false] at more
        omega
    · exact ⟨call, by rw [List.getElem?_set_ne same, held], final⟩

theorem World.accepted_run {w : World} {i : Nat}
    (accepted : ∃ call, w.calls[i]? = some call ∧ call.stage.isAccepted = true)
    (turns : List (Nat × Int)) :
    ∃ call, (w.run sha256 turns).calls[i]? = some call ∧ call.stage.isAccepted = true := by
  induction turns generalizing w with
  | nil => exact accepted
  | cons turn rest ih => exact ih (accepted_step sha256 accepted turn)

theorem World.run_append (w : World) (front back : List (Nat × Int)) :
    w.run sha256 (front ++ back) = (w.run sha256 front).run sha256 back :=
  List.foldl_append

theorem World.usage_step (w : World) (turn : Nat × Int) :
    (w.step sha256 turn).manager.usage = w.manager.usage ∨
      ∃ call, (w.step sha256 turn).calls[turn.1]? = some call ∧ call.stage.isAccepted = true := by
  cases given : w.calls[turn.1]? with
  | none => exact .inl (by rw [step_none sha256 given])
  | some call =>
    rw [step_some sha256 given]
    have bound := (List.getElem?_eq_some_iff.mp given).1
    generalize call.advance sha256 turn.2 w.manager = result,
      call.advance_advanced sha256 turn.2 w.manager = advanced
    obtain ⟨stage, after, successes⟩ := result
    cases advanced with
    | idle | unlimited => exact .inl rfl
    | opened | counted => exact .inr ⟨_, List.getElem?_set_self bound, rfl⟩

/-- A call that ends in an error has consumed no quota. -/
theorem World.usage_failed (w : World) (front back : List (Nat × Int)) (i : Nat) (now : Int)
    {call : Call} {err : GoError}
    (ended : (w.run sha256 (front ++ (i, now) :: back)).calls[i]? = some call)
    (failed : call.stage = .failed err) :
    ((w.run sha256 front).step sha256 (i, now)).manager.usage =
      (w.run sha256 front).manager.usage := by
  rcases (w.run sha256 front).usage_step sha256 (i, now) with same | accepted
  · exact same
  · obtain ⟨other, held, final⟩ := accepted_run sha256 accepted back
    rw [run_append] at ended
    obtain rfl : other = call := Option.some.inj (held.symm.trans ended)
    rw [failed] at final
    cases final

/-! ## The counter of a key -/

def World.successes (w : World) (keyHash : Bytes) : List Success :=
  w.log.filter fun s => s.keyHash = keyHash

structure Tracked (keys : AList fun _ : Bytes => APIKey) (keyHash : Bytes) (n : Nat) (now : Int)
    (w : World) : Prop where
  kept : w.manager.keys = keys
  pending : ∀ call ∈ w.calls, ∀ key, call.stage.pending = some key →
    keys.lookup (call.keyHash sha256) = some key
  counter : (w.manager.usage.lookup keyHash = none ∧ w.successes keyHash = []) ∨
    ∃ (start : Int) (count : Nat), w.manager.usage.lookup keyHash = some ⟨count, start⟩ ∧
      start ≤ now ∧
      Windowed Success.time Success.opened minute n (w.successes keyHash) start count

section

variable {sha256} {keys : AList fun _ : Bytes => APIKey} {keyHash : Bytes} {n : Nat} {key : APIKey}

theorem Tracked.later {now later : Int} {w : World} (tracked : Tracked sha256 keys keyHash n now w)
    (after : now ≤ later) : Tracked sha256 keys keyHash n later w where
  kept := tracked.kept
  pending := tracked.pending
  counter := by
    rcases tracked.counter with fresh | ⟨start, count, given, before, windowed⟩
    · exact .inl fresh
    · exact .inr ⟨start, count, given, before.trans after, windowed⟩

theorem Tracked.counter_advanced {now : Int} {w : World}
    (tracked : Tracked sha256 keys keyHash n now w) (given : keys.lookup keyHash = some key)
    (limit : key.rateLimit = n) (positive : 0 < n) {call : Call} (member : call ∈ w.calls)
    {stage : Stage} {after : Manager} {successes : List Success}
    (advanced : call.Advanced sha256 now w.manager stage after successes) (calls : List Call) :
    (after.usage.lookup keyHash = none ∧
        (World.mk after calls (w.log ++ successes)).successes keyHash = []) ∨
      ∃ (start : Int) (count : Nat), after.usage.lookup keyHash = some ⟨count, start⟩ ∧
        start ≤ now ∧
        Windowed Success.time Success.opened minute n
          ((World.mk after calls (w.log ++ successes)).successes keyHash) start count := by
  have own {held : APIKey} (pending : call.stage.pending = some held)
      (same : call.keyHash sha256 = keyHash) : held.rateLimit = n := by
    have found := tracked.pending call member held pending
    rw [same, given, Option.some.injEq] at found
    rw [← found, limit]
  have log : (World.mk after calls (w.log ++ successes)).successes keyHash =
      w.successes keyHash ++ successes.filter fun s => s.keyHash = keyHash :=
    List.filter_append ..
  rw [log]
  by_cases same : call.keyHash sha256 = keyHash
  · cases advanced with
    | idle => simpa using tracked.counter
    | unlimited held free =>
      have limited := own (by rw [held]; rfl) same
      omega
    | opened held late =>
      subst same
      simp only [decide_true, List.filter_cons_of_pos, List.filter_nil, AList.lookup_insert]
      refine .inr ⟨now, 1, rfl, le_rfl, ?_⟩
      rcases tracked.counter with fresh | ⟨start, count, used, before, windowed⟩
      · rw [fresh.2]
        exact .first rfl
      · exact .opened windowed rfl (late _ used)
    | counted held used soon room =>
      subst same
      simp only [decide_true, List.filter_cons_of_pos, List.filter_nil, AList.lookup_insert]
      rw [own (by rw [held]; rfl) rfl] at room
      rcases tracked.counter with fresh | ⟨start, count, used', before, windowed⟩
      · rw [fresh.1] at used
        cases used
      · obtain rfl := Option.some.inj (used'.symm.trans used)
        exact .inr ⟨start, count + 1, rfl, before,
          .counted windowed rfl before soon (by simpa using room)⟩
  · have apart : successes.filter (fun s => s.keyHash = keyHash) = [] := by
      cases advanced <;> simp [same]
    have usage : after.usage.lookup keyHash = w.manager.usage.lookup keyHash := by
      cases advanced <;> first | rfl | exact AList.lookup_insert_ne (Ne.symm same)
    rw [apart, List.append_nil, usage]
    exact tracked.counter

theorem Tracked.step {now : Int} {w : World} (tracked : Tracked sha256 keys keyHash n now w)
    (given : keys.lookup keyHash = some key) (limit : key.rateLimit = n) (positive : 0 < n)
    {turn : Nat × Int} (after : now ≤ turn.2) :
    Tracked sha256 keys keyHash n turn.2 (w.step sha256 turn) := by
  have tracked := tracked.later after
  cases held : w.calls[turn.1]? with
  | none => rwa [World.step_none sha256 held]
  | some call =>
    have member := List.mem_of_getElem? held
    have advanced := call.advance_advanced sha256 turn.2 w.manager
    rw [World.step_some sha256 held]
    refine
      { kept := advanced.keys.trans tracked.kept
        pending := fun other inside key pending => ?_
        counter := tracked.counter_advanced given limit positive member advanced _ }
    rcases List.mem_or_eq_of_mem_set inside with old | rfl
    · exact tracked.pending other old key pending
    · -- the call itself holds the key it held before, or the one it has just found
      have source : call.stage.pending = some key ∨
          w.manager.keys.lookup (call.keyHash sha256) = some key := by
        dsimp only at pending
        generalize call.advance sha256 turn.2 w.manager = result at advanced pending
        obtain ⟨stage, after, successes⟩ := result
        cases advanced with
        | idle holds => exact holds key pending
        | unlimited | opened | counted => cases pending
      rcases source with before | found
      · exact tracked.pending call member key before
      · rw [tracked.kept] at found
        exact found

theorem Tracked.run {now : Int} {w : World} (tracked : Tracked sha256 keys keyHash n now w)
    (given : keys.lookup keyHash = some key) (limit : key.rateLimit = n) (positive : 0 < n)
    {turns : List (Nat × Int)} (ordered : (now :: turns.map Prod.snd).Pairwise (· ≤ ·)) :
    ∃ later, Tracked sha256 keys keyHash n later (w.run sha256 turns) := by
  induction turns generalizing now w with
  | nil => exact ⟨now, tracked⟩
  | cons turn rest ih =>
    obtain ⟨first, others⟩ := List.pairwise_cons.mp ordered
    exact ih (tracked.step given limit positive (first _ (by simp))) others

theorem Tracked.of_begun (m : Manager) (calls : List Call)
    (begun : ∀ call ∈ calls, call.stage = .begun) (unused : m.usage.lookup keyHash = none)
    (given : m.keys.lookup keyHash = some key) (limit : key.rateLimit = n) (positive : 0 < n)
    {turns : List (Nat × Int)} (ordered : (turns.map Prod.snd).Pairwise (· ≤ ·)) :
    ∃ later, Tracked sha256 m.keys keyHash n later (World.run sha256 ⟨m, calls, []⟩ turns) := by
  have initial (now : Int) : Tracked sha256 m.keys keyHash n now ⟨m, calls, []⟩ :=
    { kept := rfl
      pending := fun call member held pending => by
        rw [begun call member] at pending
        cases pending
      counter := .inl ⟨unused, rfl⟩ }
  cases turns with
  | nil => exact ⟨0, initial 0⟩
  | cons turn rest =>
    refine (initial turn.2).run given limit positive (List.pairwise_cons.mpr ⟨?_, ordered⟩)
    intro time member
    rcases List.mem_cons.mp member with rfl | inside
    · exact le_rfl
    · exact (List.pairwise_cons.mp ordered).1 time inside

end

/-! ## The quota -/

/-- A minute that begins with a window of the counter holds at most `n` successes of a key of limit
`n`, and so does every minute where `n` is one or no window opens within a minute of a success before
it; any other minute holds at most `2 * n - 1`.  A call that fails leaves the usage as it was. -/
theorem validateKey_quota (m : Manager) (calls : List Call) (turns : List (Nat × Int))
    (keyHash : Bytes) (key : APIKey) (n : Nat) (begun : ∀ call ∈ calls, call.stage = .begun)
    (unused : m.usage.lookup keyHash = none) (given : m.keys.lookup keyHash = some key)
    (limit : key.rateLimit = n) (positive : 0 < n)
    (ordered : (turns.map Prod.snd).Pairwise (· ≤ ·)) :
    let w : World := ⟨m, calls, []⟩
    let successes := (w.run sha256 turns).successes keyHash
    (∀ start, (n = 1 ∨ ∃ s ∈ successes, s.opened = true ∧ s.time = start) →
      between Success.time start (start + minute) successes ≤ n) ∧
    ((successes.Pairwise fun earlier s => s.opened = true → earlier.time + minute ≤ s.time) →
      ∀ start, between Success.time start (start + minute) successes ≤ n) ∧
    (∀ start, between Success.time start (start + minute) successes ≤ 2 * n - 1) ∧
    ∀ front i now back call err, turns = front ++ (i, now) :: back →
      (w.run sha256 turns).calls[i]? = some call → call.stage = .failed err →
      ((w.run sha256 front).step sha256 (i, now)).manager.usage =
        (w.run sha256 front).manager.usage := by
  intro w successes
  obtain ⟨later, tracked⟩ := Tracked.of_begun m calls begun unused given limit positive ordered
  have minutes : (∀ start, between Success.time start (start + minute) successes ≤ 2 * n - 1) ∧
      (∀ s ∈ successes, s.opened = true →
        between Success.time s.time (s.time + minute) successes ≤ n) ∧
      ((successes.Pairwise fun earlier s => s.opened = true → earlier.time + minute ≤ s.time) →
        ∀ start, between Success.time start (start + minute) successes ≤ n) := by
    rcases tracked.counter with fresh | ⟨start, count, _, _, windowed⟩
    · have empty : successes = [] := fresh.2
      rw [empty]
      exact ⟨fun _ => Nat.zero_le _, fun s member => absurd member List.not_mem_nil,
        fun _ _ => Nat.zero_le _⟩
    · have holds := windowed.holds positive (by decide)
      exact ⟨holds.any, fun s member opening => (holds.openings s member opening).2,
        fun apart => (windowed.between_le positive (by decide) apart).2⟩
  refine ⟨fun start aligned => ?_, minutes.2.2, minutes.1, ?_⟩
  · rcases aligned with rfl | ⟨s, member, opening, rfl⟩
    · exact minutes.1 start
    · exact minutes.2.1 s member opening
  · rintro front i now back call err rfl ended failed
    exact w.usage_failed sha256 front back i now ended failed

end

/-! A key of two requests a minute, used at 0, 59, 60 and 61 seconds. -/

def twicePerMinute : APIKey where
  id := str "01"
  name := str "probe"
  keyHash := (str "k").flatMap hexByte
  keyPrefix := str "obs_"
  scopes := [.read]
  createdAt := 0
  expiresAt := none
  enabled := true
  rateLimit := 2
  description := []
  createdBy := str "admin"

def probed : Manager where
  keys := (∅ : AList fun _ : Bytes => APIKey).insert ((str "k").flatMap hexByte) twicePerMinute
  prefixes := ∅
  usage := ∅

def sections (i : Nat) (second : Int) : List (Nat × Int) :=
  List.replicate 3 (i, second * 1000000000)

def fourTurns : List (Nat × Int) := sections 0 0 ++ sections 1 59 ++ sections 2 60 ++ sections 3 61

def fourCalls : World := ⟨probed, List.replicate 4 ⟨str "k", .read, .begun⟩, []⟩

/-- The first minute, and every minute if the third call waits until 119 seconds. -/
theorem validateKey_quota_four :
    between Success.time 0 (0 + minute)
        ((fourCalls.run id fourTurns).successes ((str "k").flatMap hexByte)) ≤ 2 ∧
      ∀ start, between Success.time start (start + minute) ((fourCalls.run id
        (sections 0 0 ++ sections 1 59 ++ sections 2 119 ++ sections 3 120)).successes
          ((str "k").flatMap hexByte)) ≤ 2 :=
  ⟨(validateKey_quota id probed (List.replicate 4 ⟨str "k", .read, .begun⟩) fourTurns
      ((str "k").flatMap hexByte) twicePerMinute 2 (by decide) (by decide) (by decide +kernel) rfl
      (by decide) (by decide)).1 0 (.inr (by decide +kernel)),
    (validateKey_quota id probed (List.replicate 4 ⟨str "k", .read, .begun⟩) _
      ((str "k").flatMap hexByte) twicePerMinute 2 (by decide) (by decide) (by decide +kernel) rfl
      (by decide) (by decide)).2.1 (by decide +kernel)⟩

/-- The minute from 59 seconds on holds three successes of a key of limit two. -/
theorem validateKey_overrun :
    probed.keys.lookup ((str "k").flatMap hexByte) = some twicePerMinute ∧
      twicePerMinute.rateLimit = 2 ∧ (fourTurns.map Prod.snd).Pairwise (· ≤ ·) ∧
      between Success.time 59000000000 (59000000000 + minute)
        ((fourCalls.run id fourTurns).successes ((str "k").flatMap hexByte)) = 3 := by
  decide +kernel

end Obsidian.App.ApiKeys
