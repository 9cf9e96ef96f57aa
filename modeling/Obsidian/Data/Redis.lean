import Obsidian.Data.Bytes
import Mathlib.Data.List.AList
import Mathlib.Tactic.Common

namespace Obsidian.Data.Redis

/-! # A key-value server with expiring keys

The commands on strings and sorted sets that scripts use, and the laws a client of the server
relies on.  A command that meets a value of another type, or a time to live that is not positive,
ends its script; what was written before stays.
-/

abbrev ZSet := AList fun _ : Bytes => Int

inductive Value
  | text (content : Bytes)
  | sorted (members : ZSet)

structure Entry where
  value : Value
  expires : Option Int := none

def Entry.alive (now : Int) (entry : Entry) : Bool := entry.expires.all (now ≤ ·)

inductive Failure
  | wrongType
  | invalidExpire
  | notNumber
deriving DecidableEq, Repr

/-- A server, with what a client finds at a key at a time. -/
structure Server (σ : Type) where
  entry : σ → (now : Int) → (key : Bytes) → Option Entry
  get : (now : Int) → (key : Bytes) → EStateM Failure σ (Option Bytes)
  keyExists : (now : Int) → (key : Bytes) → σ → Bool
  set : (key content : Bytes) → σ → σ
  del : (key : Bytes) → σ → σ
  /-- `SET key content EX seconds`. -/
  setEX : (now : Int) → (key content : Bytes) → (seconds : Int) → EStateM Failure σ Unit
  /-- `ZREMRANGEBYSCORE key -inf bound`. -/
  zremrangebyscore : (now : Int) → (key : Bytes) → (bound : Int) → EStateM Failure σ Unit
  zcard : (now : Int) → (key : Bytes) → EStateM Failure σ Nat
  zadd : (now : Int) → (key : Bytes) → (score : Int) → (member : Bytes) → EStateM Failure σ Unit
  expire : (now : Int) → (key : Bytes) → (seconds : Int) → σ → σ
  /-- All that `SCAN` returns for a pattern until its cursor is back at zero. -/
  scan : (pattern : Bytes) → σ → List Bytes
  globMatches : (pattern text : Bytes) → Bool

def ZSet.above (bound : Int) (members : ZSet) : ZSet :=
  ⟨members.entries.filter fun entry => bound < entry.2,
    members.nodupKeys.sublist List.filter_sublist⟩

/-- A sorted set without members does not exist. -/
def stored (members : ZSet) (expires : Option Int) : Option Entry :=
  if members.entries = [] then none else some ⟨.sorted members, expires⟩

def Literal (b : UInt8) : Prop := b ≠ 42 ∧ b ≠ 63 ∧ b ≠ 91 ∧ b ≠ 92

instance (b : UInt8) : Decidable (Literal b) := inferInstanceAs (Decidable (_ ∧ _))

/-! ## Laws -/

namespace Server

variable {σ : Type} (server : Server σ)

/-- From now on the entry is at the key, and all else is as it was. -/
def Writes (now : Int) (key : Bytes) (entry : Option Entry) (db after : σ) : Prop :=
  ∀ later, now ≤ later → ∀ other, server.entry after later other =
    if other = key then entry.filter (Entry.alive later) else server.entry db later other

def sorted (db : σ) (now : Int) (key : Bytes) : Option ZSet :=
  match server.entry db now key with
  | none => some ∅
  | some ⟨.sorted members, _⟩ => some members
  | some ⟨.text _, _⟩ => none

/-- When the key will expire. -/
def ttl (db : σ) (now : Int) (key : Bytes) : Option Int := (server.entry db now key).bind Entry.expires

/-- A sorted set is changed and keeps its time to live. -/
inductive Modified (now : Int) (key : Bytes) (change : ZSet → ZSet) (db : σ) :
    EStateM.Result Failure σ Unit → Prop
  | wrongType (wrong : server.sorted db now key = none) :
      Modified now key change db (.error .wrongType db)
  | changed {members : ZSet} {after : σ} (there : server.sorted db now key = some members)
      (writes : server.Writes now key (stored (change members) (server.ttl db now key)) db after) :
      Modified now key change db (.ok () after)

structure Laws : Prop where
  /-- In time nothing happens to an entry but that it expires. -/
  entry_later : ∀ {now later : Int}, now ≤ later → ∀ (db : σ) (key : Bytes),
    server.entry db later key = (server.entry db now key).filter (Entry.alive later)
  get : ∀ (now : Int) (key : Bytes) (db : σ), server.get now key db =
    match server.entry db now key with
    | none => .ok none db
    | some ⟨.text content, _⟩ => .ok (some content) db
    | some ⟨.sorted _, _⟩ => .error .wrongType db
  keyExists : ∀ (now : Int) (key : Bytes) (db : σ),
    server.keyExists now key db = (server.entry db now key).isSome
  set : ∀ (now : Int) (key content : Bytes) (db : σ),
    server.Writes now key (some ⟨.text content, none⟩) db (server.set key content db)
  del : ∀ (now : Int) (key : Bytes) (db : σ), server.Writes now key none db (server.del key db)
  setEX_invalid : ∀ (now : Int) (key content : Bytes) {seconds : Int}, seconds ≤ 0 → ∀ db : σ,
    server.setEX now key content seconds db = .error .invalidExpire db
  setEX : ∀ (now : Int) (key content : Bytes) {seconds : Int}, 0 < seconds → ∀ db : σ, ∃ after,
    server.setEX now key content seconds db = .ok () after ∧
      server.Writes now key (some ⟨.text content, some (now + seconds)⟩) db after
  zremrangebyscore : ∀ (now : Int) (key : Bytes) (bound : Int) (db : σ),
    server.Modified now key (ZSet.above bound) db (server.zremrangebyscore now key bound db)
  zcard : ∀ (now : Int) (key : Bytes) (db : σ), server.zcard now key db =
    match server.sorted db now key with
    | none => .error .wrongType db
    | some members => .ok members.entries.length db
  zadd : ∀ (now : Int) (key : Bytes) (score : Int) (member : Bytes) (db : σ),
    server.Modified now key (AList.insert member score) db (server.zadd now key score member db)
  expire : ∀ (now : Int) (key : Bytes) (seconds : Int) (db : σ), server.Writes now key
    ((server.entry db now key).map ({ · with expires := some (now + seconds) })) db
      (server.expire now key seconds db)
  scan : ∀ {pattern key : Bytes} {db : σ}, key ∈ server.scan pattern db →
    server.globMatches pattern key = true
  /-- What a pattern begins with literally, its matches begin with. -/
  literal : ∀ {front rest text : Bytes}, (∀ b ∈ front, Literal b) →
    server.globMatches (front ++ rest) text = true → front <+: text

/-! ## What is written -/

section

variable {server} {now later : Int} {key other : Bytes} {db mid after : σ} {members : ZSet}
  {entry first : Option Entry}

theorem Writes.trans (before : server.Writes now key first db mid)
    (then_ : server.Writes now key entry mid after) : server.Writes now key entry db after := by
  intro t le other
  rw [then_ t le other]
  by_cases same : other = key
  · rw [if_pos same, if_pos same]
  · rw [if_neg same, if_neg same, before t le other, if_neg same]

theorem Writes.own (writes : server.Writes now key entry db after) (le : now ≤ later) :
    server.entry after later key = entry.filter (Entry.alive later) := by
  rw [writes later le key, if_pos rfl]

theorem Writes.frame (writes : server.Writes now key entry db after) (le : now ≤ later)
    (apart : other ≠ key) : server.entry after later other = server.entry db later other := by
  rw [writes later le other, if_neg apart]

variable (laws : server.Laws)
include laws

theorem Laws.entry_earlier (le : now ≤ later) {found : Entry}
    (live : server.entry db later key = some found) :
    server.entry db now key = some found ∧ found.alive later = true := by
  rw [laws.entry_later le] at live
  exact Option.filter_eq_some_iff.mp live

theorem Laws.ttl_alive : (server.ttl db now key).all (now ≤ ·) = true := by
  unfold ttl
  cases live : server.entry db now key with
  | none => rfl
  | some found => exact (laws.entry_earlier (Int.le_refl now) live).2

theorem Laws.sorted_stored
    (writes : server.Writes now key (stored members (server.ttl db now key)) db after) :
    server.sorted after now key = some members := by
  unfold sorted
  rw [writes.own (Int.le_refl now), stored]
  by_cases none : members.entries = []
  · rw [if_pos none, AList.ext (show members.entries = (∅ : ZSet).entries from none)]
    rfl
  · have alive : Entry.alive now ⟨.sorted members, server.ttl db now key⟩ = true := laws.ttl_alive
    rw [if_neg none, Option.filter_some, if_pos alive]

end

end Server

theorem ZSet.lookup_above {members : ZSet} {member : Bytes} {score bound : Int}
    (found : members.lookup member = some score) (above : bound < score) :
    (members.above bound).lookup member = some score := by
  apply AList.mem_lookup_iff.mpr
  exact List.mem_filter.mpr ⟨AList.mem_lookup_iff.mp found, by simpa using above⟩

/-! ## A server in memory

Its patterns know the star at their end only.
-/

abbrev Keyspace := AList fun _ : Bytes => Entry

namespace Keyspace

def entry (db : Keyspace) (now : Int) (key : Bytes) : Option Entry :=
  (db.lookup key).filter (Entry.alive now)

def write (key : Bytes) (entry : Option Entry) (db : Keyspace) : Keyspace :=
  entry.elim (db.erase key) fun entry => db.insert key entry

def modify (now : Int) (key : Bytes) (change : ZSet → ZSet) : EStateM Failure Keyspace Unit :=
  fun db => match db.entry now key with
  | none => .ok () (db.write key (stored (change ∅) none))
  | some ⟨.sorted members, expires⟩ => .ok () (db.write key (stored (change members) expires))
  | some ⟨.text _, _⟩ => .error .wrongType db

def starMatches (pattern text : Bytes) : Bool :=
  if pattern.getLast? = some 42 then pattern.dropLast.isPrefixOf text else pattern = text

def server : Server Keyspace where
  entry := entry
  get now key db :=
    match db.entry now key with
    | none => .ok none db
    | some ⟨.text content, _⟩ => .ok (some content) db
    | some ⟨.sorted _, _⟩ => .error .wrongType db
  keyExists now key db := (db.entry now key).isSome
  set key content := write key (some ⟨.text content, none⟩)
  del key := write key none
  setEX now key content seconds db :=
    if seconds ≤ 0 then .error .invalidExpire db
    else .ok () (db.write key (some ⟨.text content, some (now + seconds)⟩))
  zremrangebyscore now key bound := modify now key (ZSet.above bound)
  zcard now key db :=
    match db.entry now key with
    | none => .ok 0 db
    | some ⟨.sorted members, _⟩ => .ok members.entries.length db
    | some ⟨.text _, _⟩ => .error .wrongType db
  zadd now key score member := modify now key (AList.insert member score)
  expire now key seconds db :=
    db.write key ((db.entry now key).map ({ · with expires := some (now + seconds) }))
  scan pattern db := db.keys.filter (starMatches pattern)
  globMatches := starMatches

theorem write_writes (now : Int) (key : Bytes) (entry : Option Entry) (db : Keyspace) :
    server.Writes now key entry db (db.write key entry) := by
  intro later _ other
  have lookup : (db.write key entry).lookup other =
      if other = key then entry else db.lookup other := by
    by_cases same : other = key
    · subst same
      cases entry <;> simp [write]
    · cases entry <;> simp [write, same]
  simp only [server, Keyspace.entry, lookup]
  split <;> rfl

theorem modify_modified (now : Int) (key : Bytes) (change : ZSet → ZSet) (db : Keyspace) :
    server.Modified now key change db (modify now key change db) := by
  have written (expires : Option Int) (members : ZSet) :=
    write_writes now key (stored (change members) expires) db
  unfold modify
  rcases live : db.entry now key with _ | ⟨_ | members, expires⟩
  · refine .changed (show server.sorted db now key = some ∅ from ?_) ?_
    · simp [Server.sorted, server, live]
    · simpa [Server.ttl, server, live] using written none ∅
  · exact .wrongType (by simp [Server.sorted, server, live])
  · refine .changed (show server.sorted db now key = some members from ?_) ?_
    · simp [Server.sorted, server, live]
    · simpa [Server.ttl, server, live] using written expires members

theorem literal_starMatches {front rest text : Bytes} (literal : ∀ b ∈ front, Literal b)
    (found : starMatches (front ++ rest) text = true) : front <+: text := by
  unfold starMatches at found
  split at found
  · next star =>
      rcases List.eq_nil_or_concat rest with rfl | ⟨rest, last, rfl⟩
      · rw [List.append_nil] at star
        exact absurd rfl (literal 42 (List.mem_of_getLast? star)).1
      · rw [List.isPrefixOf_iff_prefix, List.concat_eq_append, ← List.append_assoc,
          List.dropLast_concat] at found
        exact (List.prefix_append front rest).trans found
  · rw [← of_decide_eq_true found]
    exact List.prefix_append front rest

theorem laws : server.Laws where
  entry_later le db key := by
    show Option.filter _ _ = Option.filter _ (Option.filter _ _)
    rw [Option.filter_filter]
    congr 1
    funext found
    cases ends : found.expires with
    | none => simp [Entry.alive, ends]
    | some last =>
      simp only [Entry.alive, ends, Option.all_some, ← Bool.decide_and, decide_eq_decide]
      omega
  get _ _ _ := rfl
  keyExists _ _ _ := rfl
  set now key _ db := write_writes now key _ db
  del now key db := write_writes now key none db
  setEX_invalid _ _ _ _ nonpositive _ := if_pos nonpositive
  setEX now key content seconds positive db :=
    ⟨_, if_neg (Int.not_le.mpr positive), write_writes now key _ db⟩
  zremrangebyscore now key _ db := modify_modified now key _ db
  zcard now key db := by
    simp only [server, Server.sorted]
    rcases db.entry now key with _ | ⟨_ | members, expires⟩ <;> rfl
  zadd now key _ _ db := modify_modified now key _ db
  expire now key _ db := write_writes now key _ db
  scan found := (List.mem_filter.mp found).2
  literal := literal_starMatches

end Keyspace

end Obsidian.Data.Redis
