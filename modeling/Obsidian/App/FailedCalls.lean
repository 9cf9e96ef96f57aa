import Obsidian.App.IPAllow
import Obsidian.App.ApiKeys
import Obsidian.App.RuleStore

namespace Obsidian.App.Admin

open Obsidian.Data

/-! # Failed administrative calls

The operations of the allowlist, of the API keys and of the store as one interface, and what an
operation leaves in memory that returns an error.
-/

structure Services where
  sha256 : Bytes → Bytes
  bcrypt : Bytes → Except GoError Bytes
  unicodeLower : Bytes → Bytes

structure Administration where
  allowlist : IPAllow.Manager
  apiKeys : ApiKeys.Manager
  store : RuleStore

/-- A call, with the iteration order of a map where it reads one, and what comes back from the
store, the database or the file system. -/
inductive Operation
  | addIP (id ip : Bytes) (saved : Option GoError)
  | addCIDR (id cidr : Bytes) (saved : Option GoError)
  | removeEntry (order : List Bytes) (id : Bytes) (deleted : Option GoError)
  | setEnabled (order : List Bytes) (id : Bytes) (enabled : Bool) (saved : Option GoError)
  | generateKey (request : ApiKeys.KeyRequest) (now : Int) (drawn : ApiKeys.Drawn)
      (saved : Option GoError)
  | revokeKey (order : List Bytes) (keyID : Bytes) (saved : Option GoError)
  | deleteKey (order : List Bytes) (keyID : Bytes) (deleted : Option GoError)
  | createRule (rule : Rule) (disk : Disk)
  | updateRule (rule : Rule) (disk : Disk)
  | deleteRule (id : Int) (disk : Disk)
  | updateUser (db : Option RuleStore.Database) (update : RuleStore.UserUpdate)

def Services.hashPassword (services : Services) : Bytes → Except GoError Bytes :=
  Auth.hashPassword services.unicodeLower services.bcrypt

def errorOf {α : Type} : Except GoError α → Option GoError
  | .ok _ => none
  | .error err => some err

namespace Administration

variable (services : Services) (a : Administration)

def onAllowlist (result : Option GoError × IPAllow.Manager) : IPAllow.Outcome × Administration :=
  (.returned result.1, { a with allowlist := result.2 })

def onKeys (result : Option GoError × ApiKeys.Manager) : IPAllow.Outcome × Administration :=
  (.returned result.1, { a with apiKeys := result.2 })

def onStore (result : Option GoError × RuleStore) : IPAllow.Outcome × Administration :=
  (.returned result.1, { a with store := result.2 })

def perform : Operation → IPAllow.Outcome × Administration
  | .addIP id ip saved => a.onAllowlist (a.allowlist.addIP id ip saved)
  | .addCIDR id cidr saved => a.onAllowlist (a.allowlist.addCIDR id cidr saved)
  | .removeEntry order id deleted =>
    let (outcome, allowlist) := a.allowlist.removeEntry order id deleted
    (outcome, { a with allowlist })
  | .setEnabled order id enabled saved =>
    a.onAllowlist (a.allowlist.setEnabled order id enabled saved)
  | .generateKey request now drawn saved =>
    let (result, apiKeys) := a.apiKeys.generateKey services.sha256 request now drawn saved
    a.onKeys (errorOf result, apiKeys)
  | .revokeKey order keyID saved => a.onKeys (a.apiKeys.revokeKey order keyID saved)
  | .deleteKey order keyID deleted => a.onKeys (a.apiKeys.deleteKey order keyID deleted)
  | .createRule rule disk => a.onStore (a.store.createRule rule disk)
  | .updateRule rule disk => a.onStore (a.store.updateRule rule disk)
  | .deleteRule id disk => a.onStore (a.store.deleteRule id disk)
  | .updateUser db update => a.onStore (a.store.updateUser services.hashPassword db update)

end Administration

/-- The same allowlist.  A record that nothing points to may be left over. -/
structure SameEntries (m m' : IPAllow.Manager) : Prop where
  entries : m'.entries = m.entries
  cidrs : m'.cidrs = m.cidrs
  config : m'.config = m.config
  records : m.allocated <+: m'.allocated

structure Unchanged (a a' : Administration) : Prop where
  allowlist : SameEntries a.allowlist a'.allowlist
  apiKeys : a'.apiKeys = a.apiKeys
  store : a'.store = a.store

/-- When a failure leaves no traces: the call is refused before it changes anything, or what it
changes is so already, or was not there before it is taken back. -/
def Traceless (services : Services) (a : Administration) : Operation → Prop
  | .addIP _ _ _ | .addCIDR _ _ _ => True
  | .removeEntry order id _ =>
    ∀ ref ∈ a.allowlist.find order id,
      (a.allowlist.allocated[ref]?.map (·.ip)).getD [] ∉ a.allowlist.entries ∧
        ((a.allowlist.rangeAt ref).isSome →
          ∀ other ∈ a.allowlist.cidrs, a.allowlist.idAt other ≠ some id)
  | .setEnabled order id enabled _ =>
    ∀ ref ∈ a.allowlist.find order id, ∀ entry ∈ a.allowlist.allocated[ref]?,
      entry.enabled = enabled
  | .generateKey _ _ drawn _ =>
    ∀ rawKey idBytes, drawn.rawKey = .ok rawKey → drawn.idBytes = .ok idBytes →
      ApiKeys.keyHash services.sha256 rawKey ∉ a.apiKeys.keys ∧
        ApiKeys.keyPrefix rawKey ∉ a.apiKeys.prefixes
  | .revokeKey order keyID _ => ∀ found ∈ a.apiKeys.find order keyID, found.2.enabled = false
  | .deleteKey order keyID _ => a.apiKeys.find order keyID = none
  | .createRule rule _ =>
    (validateRuleIDRange (if rule.source = [] then str "custom" else rule.source) rule.id).isSome ∨
      a.store.rules.any (·.id = rule.id)
  | .updateRule rule _ =>
    ∀ old ∈ a.store.rules.find? (·.id = rule.id), (old.readOnly ∨ old.source = str "crs") ∨
      let rule :=
        { rule with
          source := if rule.source = [] then old.source else rule.source, readOnly := false }
      (validateRuleIDRange rule.source rule.id).isSome ∨
        RuleStore.replaceFirst a.store.rules rule = a.store.rules ∧
          RuleStore.replaceFirst a.store.customRules rule = a.store.customRules
  | .deleteRule id _ =>
    ∀ old ∈ a.store.rules.find? (·.id = id), old.readOnly ∨ old.source = str "crs"
  | .updateUser db update =>
    db.isSome ∨ ∀ i ∈ a.store.users.findIdx? (·.username = update.username),
      ∀ user ∈ a.store.users[i]?, user.role = update.role ∧ user.enabled = update.enabled

/-! ## The allowlist -/

section

variable {m : IPAllow.Manager} {err : GoError}

theorem SameEntries.refl (m : IPAllow.Manager) : SameEntries m m :=
  ⟨rfl, rfl, rfl, List.prefix_refl _⟩

theorem erase_insert_of_notMem {β : Bytes → Type} {key : Bytes} {value : β key} {map : AList β}
    (absent : key ∉ map) : (map.insert key value).erase key = map := by
  apply AList.ext
  change List.kerase key (map.insert key value).entries = map.entries
  rw [AList.entries_insert_of_notMem absent]
  exact List.kerase_cons_eq rfl

theorem add_ok {added : IPAllow.Manager} {entry : IPAllow.AllowlistEntry}
    (done : m.add entry = .ok added) :
    added.entries.erase entry.ip = m.entries ∧ m.allocated <+: added.allocated ∧
      added.config = m.config ∧
      added.cidrs = if entry.cidr.isSome then m.cidrs ++ [m.allocated.length] else m.cidrs := by
  unfold IPAllow.Manager.add at done
  split at done
  · cases done
  · next absent =>
      cases done
      exact ⟨erase_insert_of_notMem absent, List.prefix_append _ _, rfl, rfl⟩

theorem addIP_failed (id ip : Bytes) (saved : Option GoError)
    (failed : (m.addIP id ip saved).1 = some err) : SameEntries m (m.addIP id ip saved).2 := by
  revert failed
  unfold IPAllow.Manager.addIP IPAllow.ipEntry
  cases parseIP ip with
  | none => exact fun _ => SameEntries.refl m
  | some parsed =>
    dsimp only
    split
    · exact fun _ => SameEntries.refl m
    · next added done =>
        intro failed
        obtain ⟨entries, records, config, cidrs⟩ := add_ok done
        rw [if_pos (Option.isSome_of_eq_some failed)]
        exact ⟨entries, cidrs, config, records⟩

theorem addCIDR_failed (id cidr : Bytes) (saved : Option GoError)
    (failed : (m.addCIDR id cidr saved).1 = some err) :
    SameEntries m (m.addCIDR id cidr saved).2 := by
  revert failed
  unfold IPAllow.Manager.addCIDR IPAllow.cidrEntry
  cases parseCIDR cidr with
  | none => exact fun _ => SameEntries.refl m
  | some ipNet =>
    dsimp only
    split
    · exact fun _ => SameEntries.refl m
    · next added done =>
        intro failed
        obtain ⟨entries, records, config, cidrs⟩ := add_ok done
        -- The range that was appended is the last one.
        have popped : added.cidrs.dropLast = m.cidrs := by
          rw [cidrs]
          exact List.dropLast_concat
        rw [if_pos (Option.isSome_of_eq_some failed)]
        exact ⟨entries, popped, config, records⟩

theorem erase_eq_self_iff {β : Bytes → Type} {key : Bytes} {map : AList β} :
    map.erase key = map ↔ key ∉ map := by
  constructor
  · intro same present
    rw [← same, AList.mem_erase] at present
    exact present.1 rfl
  · exact fun absent => AList.ext (List.kerase_of_notMem_keys absent)

theorem modify_eq_self_iff {α : Type} {f : α → α} {xs : List α} {i : Nat} :
    xs.modify i f = xs ↔ ∀ x ∈ xs[i]?, f x = x := by
  constructor
  · intro same x there
    have here := congrArg (·[i]?) same
    simp only [List.getElem?_modify, Option.mem_def.mp there] at here
    simpa using here
  · intro same
    apply List.ext_getElem?
    intro j
    rw [List.getElem?_modify]
    by_cases own : i = j
    · cases there : xs[j]? with
      | none => rfl
      | some x => simp [own, same x (own ▸ there)]
    · simp [own]

theorem removeEntry_failed {order : List Bytes} {id : Bytes} {deleted : Option GoError}
    (failed : (m.removeEntry order id deleted).1 = .returned (some err)) :
    SameEntries m (m.removeEntry order id deleted).2 ↔ ∀ ref ∈ m.find order id,
      (m.allocated[ref]?.map (·.ip)).getD [] ∉ m.entries ∧
        ((m.rangeAt ref).isSome → ∀ other ∈ m.cidrs, m.idAt other ≠ some id) := by
  revert failed
  unfold IPAllow.Manager.removeEntry
  cases found : m.find order id with
  | none => exact fun _ => iff_of_true (.refl m) (by simp)
  | some ref =>
    simp only [Option.mem_some_iff, forall_eq', ← erase_eq_self_iff]
    split
    · next address =>
        have noRange : ¬(m.rangeAt ref).isSome := by simpa using address
        exact fun _ => ⟨fun same => ⟨same.entries, fun range => absurd range noRange⟩,
          fun same => ⟨same.1, rfl, rfl, List.prefix_refl _⟩⟩
    split
    · exact nofun
    · next range _ =>
        have isRange : (m.rangeAt ref).isSome := by simpa [Option.isSome_iff_ne_none] using range
        have kept : m.cidrs.filter (fun other => m.idAt other ≠ some id) = m.cidrs ↔
            ∀ other ∈ m.cidrs, m.idAt other ≠ some id := by
          simp [List.filter_eq_self]
        rw [← kept]
        exact fun _ => ⟨fun same => ⟨same.entries, fun _ => same.cidrs⟩,
          fun same => ⟨same.1, same.2 isRange, rfl, List.prefix_refl _⟩⟩

theorem setEnabled_failed {order : List Bytes} {id : Bytes} {enabled : Bool} {saved : Option GoError} :
    SameEntries m (m.setEnabled order id enabled saved).2 ↔
      ∀ ref ∈ m.find order id, ∀ entry ∈ m.allocated[ref]?, entry.enabled = enabled := by
  unfold IPAllow.Manager.setEnabled
  cases m.find order id with
  | none => exact iff_of_true (.refl m) (by simp)
  | some ref =>
    have flag : m.allocated.modify ref (fun entry => { entry with enabled }) = m.allocated ↔
        ∀ entry ∈ m.allocated[ref]?, entry.enabled = enabled := by
      rw [modify_eq_self_iff]
      refine forall₂_congr fun entry _ => ⟨fun same => ?_, fun same => by rw [← same]⟩
      exact (congrArg IPAllow.AllowlistEntry.enabled same).symm
    simp only [Option.mem_some_iff, forall_eq', ← flag]
    refine ⟨fun same => ?_, fun same => ⟨rfl, rfl, rfl, by simp only [same, List.prefix_refl]⟩⟩
    exact (same.records.eq_of_length (by simp)).symm

end

/-! ## The API keys -/

section

variable {m : ApiKeys.Manager} {err : GoError}

theorem forget_remember_iff {key : ApiKeys.APIKey} : (m.remember key).forget key = m ↔
    key.keyHash ∉ m.keys ∧ key.keyPrefix ∉ m.prefixes := by
  unfold ApiKeys.Manager.remember ApiKeys.Manager.forget
  constructor
  · intro same
    rw [← same]
    simp [AList.mem_erase]
  · rintro ⟨hash, front⟩
    dsimp only
    rw [erase_insert_of_notMem hash, erase_insert_of_notMem front]

theorem generateKey_failed {sha256 : Bytes → Bytes} {request : ApiKeys.KeyRequest} {now : Int}
    {drawn : ApiKeys.Drawn} {saved : Option GoError}
    (failed : (m.generateKey sha256 request now drawn saved).1 = .error err) :
    (m.generateKey sha256 request now drawn saved).2 = m ↔
      ∀ rawKey idBytes, drawn.rawKey = .ok rawKey → drawn.idBytes = .ok idBytes →
        ApiKeys.keyHash sha256 rawKey ∉ m.keys ∧ ApiKeys.keyPrefix rawKey ∉ m.prefixes := by
  revert failed
  unfold ApiKeys.Manager.generateKey
  cases drawn.rawKey with
  | error _ => simp
  | ok rawKey =>
    cases drawn.idBytes with
    | error _ => simp
    | ok idBytes =>
      cases saved with
      | none => exact nofun
      | some refused =>
        intro _
        refine forget_remember_iff.trans ⟨fun free other _ same _ => ?_, fun free =>
          free rawKey idBytes rfl rfl⟩
        cases same
        exact free

theorem find_lookup {order : List Bytes} {keyID hash : Bytes} {key : ApiKeys.APIKey}
    (found : m.find order keyID = some (hash, key)) : m.keys.lookup hash = some key := by
  obtain ⟨other, _, picked⟩ := List.exists_of_findSome?_eq_some found
  obtain ⟨value, kept, same⟩ := Option.map_eq_some_iff.mp picked
  cases same
  exact (Option.filter_eq_some_iff.mp kept).1

theorem mem_kreplace {β : Bytes → Type} {key : Bytes} (value : β key) {entries : List (Sigma β)}
    (present : key ∈ entries.keys) : ⟨key, value⟩ ∈ List.kreplace key value entries := by
  induction entries with
  | nil => cases present
  | cons entry rest ih =>
    by_cases here : key = entry.1
    · rw [List.kreplace, List.lookmap_cons_some _ _ (dif_pos here)]
      exact List.mem_cons_self
    · rw [List.kreplace, List.lookmap_cons_none _ _ (dif_neg here)]
      exact List.mem_cons_of_mem _ (ih ((List.mem_cons.mp present).resolve_left here))

theorem revokeKey_failed {order : List Bytes} {keyID : Bytes} {saved : Option GoError} :
    (m.revokeKey order keyID saved).2 = m ↔
      ∀ found ∈ m.find order keyID, found.2.enabled = false := by
  unfold ApiKeys.Manager.revokeKey
  cases found : m.find order keyID with
  | none => exact iff_of_true rfl (by simp)
  | some located =>
    obtain ⟨hash, key⟩ := located
    have there := find_lookup found
    simp only [Option.mem_some_iff, forall_eq']
    constructor
    · intro same
      have keys : m.keys.replace hash { key with enabled := false } = m.keys :=
        congrArg ApiKeys.Manager.keys same
      have present : hash ∈ m.keys := AList.lookup_isSome.mp (Option.isSome_of_eq_some there)
      have replaced := mem_kreplace { key with enabled := false } (AList.mem_keys.mp present)
      rw [show List.kreplace hash _ m.keys.entries = m.keys.entries from
        congrArg AList.entries keys, ← AList.mem_lookup_iff, there] at replaced
      exact congrArg ApiKeys.APIKey.enabled (Option.some.inj replaced)
    · intro already
      have disabled : { key with enabled := false } = key := by rw [← already]
      have same : m.keys.replace hash key = m.keys :=
        AList.ext (List.kreplace_self m.keys.nodupKeys (AList.mem_lookup_iff.mp there))
      rw [disabled, same]

theorem deleteKey_failed {order : List Bytes} {keyID : Bytes} {deleted : Option GoError} :
    (m.deleteKey order keyID deleted).2 = m ↔ m.find order keyID = none := by
  unfold ApiKeys.Manager.deleteKey
  cases found : m.find order keyID with
  | none => exact iff_of_true rfl rfl
  | some located =>
    refine iff_of_false (fun same => ?_) (Option.some_ne_none _)
    have absent := erase_eq_self_iff.mp (congrArg ApiKeys.Manager.keys same)
    exact absent (AList.lookup_isSome.mp (Option.isSome_of_eq_some (find_lookup found)))

end

/-! ## The store -/

section

variable {s : RuleStore} {err : GoError}

theorem createRule_failed {rule : Rule} {disk : Disk} :
    (s.createRule rule disk).2 = s ↔
      (validateRuleIDRange (if rule.source = [] then str "custom" else rule.source) rule.id).isSome ∨
        s.rules.any (·.id = rule.id) := by
  unfold RuleStore.createRule
  dsimp only
  split
  · next refused => simp [refused]
  · next valid =>
      rw [valid, Option.isSome_none, or_iff_right Bool.false_ne_true]
      split
      · next exists_ => exact iff_of_true rfl exists_
      · next absent =>
          refine iff_of_false (fun same => ?_) absent
          have longer := congrArg (fun s : RuleStore => s.rules.length) same
          simp at longer

theorem updateRule_failed {rule : Rule} {disk : Disk} :
    (s.updateRule rule disk).2 = s ↔
      ∀ old ∈ s.rules.find? (·.id = rule.id), (old.readOnly ∨ old.source = str "crs") ∨
        let rule :=
          { rule with
            source := if rule.source = [] then old.source else rule.source, readOnly := false }
        (validateRuleIDRange rule.source rule.id).isSome ∨
          RuleStore.replaceFirst s.rules rule = s.rules ∧
            RuleStore.replaceFirst s.customRules rule = s.customRules := by
  unfold RuleStore.updateRule
  cases s.rules.find? (·.id = rule.id) with
  | none => exact iff_of_true rfl (by simp)
  | some old =>
    simp only [Option.mem_some_iff, forall_eq']
    split
    · next fixed => exact iff_of_true rfl (.inl fixed)
    · next free =>
        rw [or_iff_right free]
        split
        · next refused => simp [refused]
        · next valid =>
            rw [valid, Option.isSome_none, or_iff_right Bool.false_ne_true]
            exact ⟨fun same => ⟨congrArg RuleStore.rules same, congrArg RuleStore.customRules same⟩,
              fun same => by rw [same.1, same.2]⟩

theorem deleteRule_failed {id : Int} {disk : Disk} :
    (s.deleteRule id disk).2 = s ↔
      ∀ old ∈ s.rules.find? (·.id = id), old.readOnly ∨ old.source = str "crs" := by
  unfold RuleStore.deleteRule
  cases found : s.rules.find? (·.id = id) with
  | none => exact iff_of_true rfl (by simp)
  | some old =>
    simp only [Option.mem_some_iff, forall_eq']
    split
    · next fixed => exact iff_of_true rfl fixed
    · next free =>
        refine iff_of_false (fun same => ?_) free
        obtain ⟨i, first⟩ : ∃ i, s.rules.findIdx? (·.id = id) = some i := by
          rw [← Option.isSome_iff_exists, List.findIdx?_isSome, List.any_eq_true]
          have is := List.find?_some found
          exact ⟨old, List.mem_of_find?_eq_some found, is⟩
        have shorter := congrArg (fun s : RuleStore => s.rules.length) same
        obtain ⟨inside, -⟩ := List.findIdx?_eq_some_iff_getElem.mp first
        simp only [RuleStore.removeFirst, first, Option.elim_some, List.length_eraseIdx_of_lt inside]
          at shorter
        omega

theorem updateUser_failed {hash : Bytes → Except GoError Bytes} {db : Option RuleStore.Database}
    {update : RuleStore.UserUpdate} (failed : (s.updateUser hash db update).1 = some err) :
    (s.updateUser hash db update).2 = s ↔
      db.isSome ∨ ∀ i ∈ s.users.findIdx? (·.username = update.username),
        ∀ user ∈ s.users[i]?, user.role = update.role ∧ user.enabled = update.enabled := by
  revert failed
  unfold RuleStore.updateUser
  cases db with
  | some db => simp
  | none =>
    rw [Option.isSome_none, or_iff_right Bool.false_ne_true]
    cases s.users.findIdx? (·.username = update.username) with
    | none => exact fun _ => iff_of_true rfl (by simp)
    | some i =>
      have set : s.users.modify i (fun u => { u with role := update.role, enabled := update.enabled }) =
          s.users ↔ ∀ user ∈ s.users[i]?, user.role = update.role ∧ user.enabled = update.enabled := by
        rw [modify_eq_self_iff]
        refine forall₂_congr fun user _ => ⟨fun same => ?_, fun same => by rw [← same.1, ← same.2]⟩
        exact ⟨(congrArg User.role same).symm, (congrArg User.enabled same).symm⟩
      simp only [Option.mem_some_iff, forall_eq', ← set]
      split
      · exact nofun
      · cases hash update.newPassword with
        | ok passwordHash => exact nofun
        | error refused =>
          exact fun _ => ⟨congrArg RuleStore.users, fun same => by rw [same]⟩

end

/-! ## Every operation -/

section

variable {a : Administration}

theorem unchanged_allowlist {allowlist : IPAllow.Manager} :
    Unchanged a { a with allowlist } ↔ SameEntries a.allowlist allowlist :=
  ⟨Unchanged.allowlist, fun same => ⟨same, rfl, rfl⟩⟩

theorem unchanged_keys {apiKeys : ApiKeys.Manager} :
    Unchanged a { a with apiKeys } ↔ apiKeys = a.apiKeys :=
  ⟨Unchanged.apiKeys, fun same => ⟨SameEntries.refl _, same, rfl⟩⟩

theorem unchanged_store {store : RuleStore} : Unchanged a { a with store } ↔ store = a.store :=
  ⟨Unchanged.store, fun same => ⟨SameEntries.refl _, rfl, same⟩⟩

end

theorem errorOf_eq_some {α : Type} {result : Except GoError α} {err : GoError}
    (failed : errorOf result = some err) : result = .error err := by
  cases result with
  | ok _ => cases failed
  | error _ =>
    cases failed
    rfl

/-- An operation that returns an error leaves the memory as it was, in every state, exactly if it
leaves no traces. -/
theorem perform_failed (services : Services) (a : Administration) (operation : Operation)
    (err : GoError) (failed : (a.perform services operation).1 = .returned (some err)) :
    Unchanged a (a.perform services operation).2 ↔ Traceless services a operation := by
  cases operation with
  | addIP id ip saved =>
    have failed := IPAllow.Outcome.returned.inj failed
    exact iff_of_true (unchanged_allowlist.mpr (addIP_failed id ip saved failed)) trivial
  | addCIDR id cidr saved =>
    have failed := IPAllow.Outcome.returned.inj failed
    exact iff_of_true (unchanged_allowlist.mpr (addCIDR_failed id cidr saved failed)) trivial
  | removeEntry order id deleted => exact unchanged_allowlist.trans (removeEntry_failed failed)
  | setEnabled order id enabled saved => exact unchanged_allowlist.trans setEnabled_failed
  | generateKey request now drawn saved =>
    have failed := errorOf_eq_some (IPAllow.Outcome.returned.inj failed)
    exact unchanged_keys.trans (generateKey_failed failed)
  | revokeKey order keyID saved => exact unchanged_keys.trans revokeKey_failed
  | deleteKey order keyID deleted => exact unchanged_keys.trans deleteKey_failed
  | createRule rule disk => exact unchanged_store.trans createRule_failed
  | updateRule rule disk => exact unchanged_store.trans updateRule_failed
  | deleteRule id disk => exact unchanged_store.trans deleteRule_failed
  | updateUser db update =>
    have failed := IPAllow.Outcome.returned.inj failed
    exact unchanged_store.trans (updateUser_failed failed)

def plainServices : Services where
  sha256 := id
  bcrypt := .ok
  unicodeLower := id

def someKey : ApiKeys.APIKey where
  id := str "k1"
  name := []
  keyHash := str "h"
  keyPrefix := str "obs_00000000"
  scopes := [.read]
  createdAt := 0
  expiresAt := none
  enabled := true
  rateLimit := 0
  description := []
  createdBy := str "ann"

def oneOfEach : Administration where
  allowlist := ((IPAllow.Manager.new {}).addCIDR (str "a1") (str "10.0.0.0/8") none).2
  apiKeys := (ApiKeys.Manager.mk ∅ ∅ ∅).remember someKey
  store :=
    { rules := []
      users := [⟨1, str "ann", [], [], str "Viewer", false⟩]
      activeRulesCount := 0
      customRules := [] }

def refused : Option GoError := some (str "refused")

/-- A range that is not saved, and a rule that is not there. -/
theorem perform_failed_addCIDR :
    Unchanged oneOfEach
      (oneOfEach.perform plainServices (.addCIDR (str "b2") (str "192.168.0.0/16") refused)).2 ∧
    Unchanged oneOfEach
      (oneOfEach.perform plainServices (.deleteRule 900001 { writeTemp := refused })).2 :=
  ⟨(perform_failed plainServices oneOfEach _ (str "refused") (by decide)).mpr trivial,
    (perform_failed plainServices oneOfEach _ (RuleStore.notFoundError 900001) (by decide)).mpr
      (fun old found => by cases found)⟩

def weakPassword : RuleStore.UserUpdate where
  username := str "ann"
  role := str "Admin"
  enabled := true
  newPassword := str "weak"

/-- A refused deletion of a range, of a key, a refused revocation, an unwritable state file, a key
whose first digits are taken, and a weak password: each returns an error and leaves its trace. -/
theorem failures_leave_traces :
    let removed := oneOfEach.perform plainServices
      (.removeEntry [str "10.0.0.0/8"] (str "a1") refused)
    let disabled := oneOfEach.perform plainServices
      (.setEnabled [str "10.0.0.0/8"] (str "a1") false refused)
    let revoked := oneOfEach.perform plainServices (.revokeKey [str "h"] (str "k1") refused)
    let deleted := oneOfEach.perform plainServices (.deleteKey [str "h"] (str "k1") refused)
    let generated := oneOfEach.perform plainServices
      (.generateKey ⟨[], [], none, 0, [], []⟩ 0 ⟨.ok (List.replicate 32 0), .ok [1]⟩ refused)
    let created := oneOfEach.perform plainServices
      (.createRule { id := 900001 } { writeTemp := refused })
    let updated := oneOfEach.perform plainServices (.updateUser none weakPassword)
    (removed.1 = .returned refused ∧ removed.2.allowlist.cidrs = [] ∧
      oneOfEach.allowlist.cidrs = [0]) ∧
    (disabled.1 = .returned refused ∧ disabled.2.allowlist.enabledAt 0 = false ∧
      oneOfEach.allowlist.enabledAt 0 = true) ∧
    (revoked.1 = .returned refused ∧
      (revoked.2.apiKeys.keys.lookup (str "h")).map (·.enabled) = some false) ∧
    (deleted.1 = .returned refused ∧ deleted.2.apiKeys.keys.keys = []) ∧
    (generated.1 ≠ .returned none ∧ generated.2.apiKeys.prefixes.keys = [] ∧
      oneOfEach.apiKeys.prefixes.keys = [str "obs_00000000"]) ∧
    (created.1 ≠ .returned none ∧ created.2.store.rules.length = 1) ∧
    (updated.1 ≠ .returned none ∧
      updated.2.store.users.map (fun u => (u.role, u.enabled)) = [(str "Admin", true)]) := by
  decide

end Obsidian.App.Admin
