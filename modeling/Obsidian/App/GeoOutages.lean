import Obsidian.App.GeoRules

namespace Obsidian.App.GeoIP

open Obsidian.Data

/-! # Outages of the external service

The cache keeps what a lookup found, also when it was found without the external service.
-/

/-! ## What a call asks -/

def Call.asks : Call → Option (Bytes × Reply)
  | .lookup ipStr reply | .shouldBlock ipStr reply => some (ipStr, reply)
  | _ => none

inductive Outcome
  | found (info : Except GoError GeoIPInfo)
  | decided (result : Except GoError LookupResult)
  | done

def outcome (s : Service) : Call → Outcome
  | .lookup ipStr reply => .found (s.lookup ipStr reply).1
  | .shouldBlock ipStr reply => .decided (s.shouldBlock ipStr reply).1
  | _ => .done

def outcomes (s : Service) : List Call → List Outcome
  | [] => []
  | call :: rest => outcome s call :: outcomes (step s call) rest

/-! ## One lookup -/

def lookedUp (cached : Option GeoIPInfo) (ipStr : Bytes) (reply : Reply) :
    Except GoError GeoIPInfo :=
  match cached, parseIP ipStr with
  | some info, _ => .ok info
  | none, none => .error errInvalidIP
  | none, some ip => .ok (locate ipStr ip reply)

def cachedAfter (cached : Option GeoIPInfo) (ipStr : Bytes) (reply : Reply) : Option GeoIPInfo :=
  (lookedUp cached ipStr reply).toOption

section

variable (s : Service) (ipStr : Bytes) (reply : Reply)

theorem lookup_fst :
    (s.lookup ipStr reply).1 = lookedUp (s.ipCache.lookup ipStr) ipStr reply := by
  unfold Service.lookup lookedUp
  cases s.ipCache.lookup ipStr with
  | some cached => rfl
  | none =>
    cases parseIP ipStr with
    | none => rfl
    | some ip => rfl

theorem lookup_cache (other : Bytes) :
    (s.lookup ipStr reply).2.ipCache.lookup other =
      if other = ipStr then cachedAfter (s.ipCache.lookup other) ipStr reply
      else s.ipCache.lookup other := by
  unfold Service.lookup cachedAfter lookedUp
  by_cases same : other = ipStr
  · subst same
    rw [if_pos rfl]
    cases cached : s.ipCache.lookup other with
    | some info => exact cached
    | none =>
      cases parseIP other with
      | none => exact cached
      | some ip => exact AList.lookup_insert _
  · rw [if_neg same]
    cases s.ipCache.lookup ipStr with
    | some info => rfl
    | none =>
      cases parseIP ipStr with
      | none => rfl
      | some ip => exact AList.lookup_insert_ne same

theorem shouldBlock_cache :
    (s.shouldBlock ipStr reply).2.ipCache = (s.lookup ipStr reply).2.ipCache := by
  rcases found : s.lookup ipStr reply with ⟨err | info, s'⟩
  · rw [Service.shouldBlock, found]
  · rw [Service.shouldBlock, found]
    dsimp only
    split
    · rfl
    · rfl

theorem shouldBlock_fst :
    (s.shouldBlock ipStr reply).1 =
      (lookedUp (s.ipCache.lookup ipStr) ipStr reply).map s.decision := by
  obtain ⟨cache, metrics, kept⟩ := lookup_keeps s ipStr reply
  have result := lookup_fst s ipStr reply
  rcases found : s.lookup ipStr reply with ⟨err | info, s'⟩
  · rw [found] at result
    rw [Service.shouldBlock, found, ← result]
    rfl
  · rw [found] at result kept
    obtain rfl : s' = _ := kept
    rw [Service.shouldBlock, found, ← result]
    rfl

end

theorem step_asks {s : Service} {call : Call} {ipStr : Bytes} {reply : Reply}
    (asks : call.asks = some (ipStr, reply)) :
    (step s call).ipCache = (s.lookup ipStr reply).2.ipCache := by
  cases call with
  | lookup ipStr' reply' => cases asks; rfl
  | shouldBlock ipStr' reply' => cases asks; exact shouldBlock_cache s ipStr reply
  | _ => cases asks

theorem step_quiet {s : Service} {call : Call} (quiet : call.asks = none) :
    (step s call).ipCache = s.ipCache ∨ (step s call).ipCache = ∅ := by
  cases call with
  | lookup ipStr reply => cases quiet
  | shouldBlock ipStr reply => cases quiet
  | addBlockedCountry countryCode reason => exact .inl rfl
  | removeBlockedCountry countryCode => exact .inl rfl
  | clearCache => exact .inr rfl

/-! ## Two runs -/

/-- Services that differ at most in what they hold for one address and in their counters. -/
structure SameBut (ipStr : Bytes) (s s' : Service) : Prop where
  config : s'.config = s.config ∧ s'.whitelistMode = s.whitelistMode
  rules : s'.countryRules = s.countryRules
  cache : ∀ other ≠ ipStr, s'.ipCache.lookup other = s.ipCache.lookup other

namespace SameBut

variable {ipStr : Bytes} {s s' : Service}

theorem of_lookup (s : Service) (ipStr : Bytes) (reply : Reply) :
    SameBut ipStr s (s.lookup ipStr reply).2 := by
  obtain ⟨cache, metrics, kept⟩ := lookup_keeps s ipStr reply
  refine ⟨?_, ?_, fun other apart => ?_⟩
  · rw [kept]
    exact ⟨rfl, rfl⟩
  · rw [kept]
  · rw [lookup_cache, if_neg apart]

theorem decision_eq (same : SameBut ipStr s s') : s'.decision = s.decision := by
  funext info
  have ruling : s'.ruling info.countryCode = s.ruling info.countryCode :=
    ruling_congr same.config (by rw [same.rules])
  rw [Service.decision, Service.decision, ruling]

theorem outcome_eq (same : SameBut ipStr s s') {call : Call}
    (apart : ∀ reply, call.asks ≠ some (ipStr, reply)) : outcome s' call = outcome s call := by
  cases call with
  | lookup other reply =>
    have cached := same.cache other fun eq => apart reply (eq ▸ rfl)
    rw [outcome, outcome, lookup_fst, lookup_fst, cached]
  | shouldBlock other reply =>
    have cached := same.cache other fun eq => apart reply (eq ▸ rfl)
    rw [outcome, outcome, shouldBlock_fst, shouldBlock_fst, cached, same.decision_eq]
  | addBlockedCountry countryCode reason => rfl
  | removeBlockedCountry countryCode => rfl
  | clearCache => rfl

theorem step (same : SameBut ipStr s s') (call : Call) :
    SameBut ipStr (step s call) (step s' call) := by
  refine ⟨?_, ?_, fun other apart => ?_⟩
  · rw [(step_config s call).1, (step_config s call).2, (step_config s' call).1,
      (step_config s' call).2]
    exact same.config
  · rw [step_rules, step_rules, same.rules]
  · cases asked : call.asks with
    | none =>
      cases call with
      | lookup ipStr' reply => cases asked
      | shouldBlock ipStr' reply => cases asked
      | clearCache => rfl
      | addBlockedCountry countryCode reason => exact same.cache other apart
      | removeBlockedCountry countryCode => exact same.cache other apart
    | some question =>
      rw [step_asks asked, step_asks asked, lookup_cache, lookup_cache, same.cache other apart]

theorem outcomes_eq (same : SameBut ipStr s s') {calls : List Call} {k : Nat} {call : Call}
    (there : calls[k]? = some call) (apart : ∀ reply, call.asks ≠ some (ipStr, reply)) :
    (outcomes s' calls)[k]? = (outcomes s calls)[k]? := by
  induction calls generalizing s s' k with
  | nil => rfl
  | cons first rest ih =>
    cases k with
    | zero =>
      obtain rfl : first = call := Option.some.inj there
      exact congrArg some (same.outcome_eq apart)
    | succ k => exact ih (same.step first) there

end SameBut

/-! ## Answers -/

/-- Whenever the external service answers about an address, it says the same. -/
def Consistent (answers : Bytes → IPAPIResponse) (calls : List Call) : Prop :=
  ∀ call ∈ calls, ∀ ipStr reply info, call.asks = some (ipStr, reply) →
    lookupExternal ipStr reply = .ok info → info = infoOf ipStr (answers ipStr)

/-- The external service answers whenever a call asks about an address. -/
def Answered (ipStr : Bytes) (calls : List Call) : Prop :=
  ∀ call ∈ calls, ∀ reply, call.asks = some (ipStr, reply) →
    ∃ info, lookupExternal ipStr reply = .ok info

/-- What the cache holds for an address is some information, if it holds any. -/
def HoldsOnly (ipStr : Bytes) (info : GeoIPInfo) (s : Service) : Prop :=
  ∀ cached, s.ipCache.lookup ipStr = some cached → cached = info

section

variable {ipStr ip : Bytes} {info : GeoIPInfo} {s : Service}

theorem locate_answered {reply : Reply} (isPublic : isPrivateIP ip = false)
    (named : named info = true) (answer : lookupExternal ipStr reply = .ok info) :
    locate ipStr ip reply = info := by
  simp [locate, isPublic, answer, named]

theorem lookup_of_holdsOnly {reply : Reply} (holds : HoldsOnly ipStr info s)
    (valid : parseIP ipStr = some ip) (isPublic : isPrivateIP ip = false)
    (named : named info = true) (answer : lookupExternal ipStr reply = .ok info) :
    (s.lookup ipStr reply).1 = .ok info := by
  rw [lookup_fst]
  unfold lookedUp
  rw [valid]
  cases cached : s.ipCache.lookup ipStr with
  | none => exact congrArg Except.ok (locate_answered isPublic named answer)
  | some found => exact congrArg Except.ok (holds found cached)

theorem HoldsOnly.step (holds : HoldsOnly ipStr info s) (valid : parseIP ipStr = some ip)
    (isPublic : isPrivateIP ip = false) (named : named info = true) (call : Call)
    (answer : ∀ reply, call.asks = some (ipStr, reply) →
      lookupExternal ipStr reply = .ok info) : HoldsOnly ipStr info (step s call) := by
  intro cached found
  cases asked : call.asks with
  | none =>
    rcases step_quiet asked with kept | cleared
    · exact holds cached (kept ▸ found)
    · rw [cleared, AList.lookup_empty] at found
      cases found
  | some question =>
    rw [step_asks asked, lookup_cache] at found
    by_cases same : ipStr = question.1
    · have result := lookup_of_holdsOnly holds valid isPublic named
        (answer question.2 (by rw [asked, same]))
      rw [if_pos same, cachedAfter, ← same, ← lookup_fst, result] at found
      exact (Option.some.inj found).symm
    · rw [if_neg same] at found
      exact holds cached found

theorem HoldsOnly.run (holds : HoldsOnly ipStr info s) (valid : parseIP ipStr = some ip)
    (isPublic : isPrivateIP ip = false) (named : named info = true) {calls : List Call}
    (answer : ∀ call ∈ calls, ∀ reply, call.asks = some (ipStr, reply) →
      lookupExternal ipStr reply = .ok info) : HoldsOnly ipStr info (run s calls) := by
  induction calls generalizing s with
  | nil => exact holds
  | cons call rest ih =>
    refine ih (holds.step valid isPublic named call (answer call List.mem_cons_self)) ?_
    exact fun call' member => answer call' (List.mem_cons_of_mem _ member)

end

theorem lookup_answered (cfg : Config) (answers : Bytes → IPAPIResponse)
    (calls recent : List Call) (ipStr ip : Bytes) (reply : Reply)
    (consistent : Consistent answers (calls ++ [.lookup ipStr reply]))
    (since : calls = recent ∨ ∃ old, calls = old ++ .clearCache :: recent)
    (answered : Answered ipStr (recent ++ [.lookup ipStr reply]))
    (valid : parseIP ipStr = some ip) (isPublic : isPrivateIP ip = false)
    (placed : named (infoOf ipStr (answers ipStr)) = true) :
    ((run (newService cfg) calls).lookup ipStr reply).1 = .ok (infoOf ipStr (answers ipStr)) := by
  have answer (call : Call) (member : call ∈ recent ++ [.lookup ipStr reply])
      (reply' : Reply) (asked : call.asks = some (ipStr, reply')) :
      lookupExternal ipStr reply' = .ok (infoOf ipStr (answers ipStr)) := by
    obtain ⟨info, told⟩ := answered call member reply' asked
    have known : call ∈ calls ++ [.lookup ipStr reply] := by
      rcases since with rfl | ⟨old, rfl⟩
      · exact member
      · simp only [List.mem_append, List.mem_cons] at member ⊢
        tauto
    rw [told, consistent call known ipStr reply' info asked told]
  have started : ∃ s, s.ipCache = ∅ ∧ run (newService cfg) calls = run s recent := by
    rcases since with rfl | ⟨old, rfl⟩
    · exact ⟨newService cfg, rfl, rfl⟩
    · exact ⟨(run (newService cfg) old).clearCache, rfl, run_append ..⟩
  obtain ⟨s, empty, same⟩ := started
  have starts : HoldsOnly ipStr (infoOf ipStr (answers ipStr)) s := by
    intro cached found
    rw [empty] at found
    cases found
  have holds := starts.run valid isPublic placed fun call member =>
    answer call (List.mem_append_left _ member)
  rw [same]
  exact lookup_of_holdsOnly holds valid isPublic placed
    (answer (.lookup ipStr reply) (List.mem_append_right _ List.mem_cons_self) reply rfl)

/-- If the external service answered every lookup of a public address since the cache was last empty, a
lookup while it answers returns its country; and, in whatever state, no lookup of one address changes
what later calls return about another. -/
theorem outage_forgotten (cfg : Config) (calls : List Call) :
    (∀ (answers : Bytes → IPAPIResponse) (recent : List Call) (ipStr ip : Bytes) (reply : Reply),
      Consistent answers (calls ++ [.lookup ipStr reply]) →
      (calls = recent ∨ ∃ old, calls = old ++ .clearCache :: recent) →
      Answered ipStr (recent ++ [.lookup ipStr reply]) →
      parseIP ipStr = some ip → isPrivateIP ip = false →
      named (infoOf ipStr (answers ipStr)) = true →
      ∃ info, ((run (newService cfg) calls).lookup ipStr reply).1 = .ok info ∧
        info.countryCode = (answers ipStr).countryCode) ∧
    ∀ (other : Bytes) (failing : Reply) (later : List Call) (k : Nat) (call : Call),
      later[k]? = some call → (∀ reply', call.asks ≠ some (other, reply')) →
      (outcomes ((run (newService cfg) calls).lookup other failing).2 later)[k]? =
        (outcomes (run (newService cfg) calls) later)[k]? := by
  constructor
  · intro answers recent ipStr ip reply consistent since answered valid isPublic placed
    exact ⟨infoOf ipStr (answers ipStr), lookup_answered cfg answers calls recent ipStr ip reply
      consistent since answered valid isPublic placed, rfl⟩
  · intro other failing later k call there apart
    exact (SameBut.of_lookup _ other failing).outcomes_eq there apart

def australia : IPAPIResponse :=
  { status := str "success", country := str "Australia", countryCode := str "AU" }

def told (apiResp : IPAPIResponse) : Reply := .response 200 (.decoded apiResp)

def clearedCalls : List Call :=
  [.lookup (str "1.2.3.4") timeout, .clearCache, .shouldBlock (str "1.2.3.4") (told australia)]

theorem outage_forgotten_cleared :
    (∃ info, ((run (newService {}) clearedCalls).lookup (str "1.2.3.4") (told australia)).1 =
        .ok info ∧ info.countryCode = str "AU") ∧
      (outcomes ((run (newService {}) clearedCalls).lookup (str "5.6.7.8") timeout).2
        [.lookup (str "1.2.3.4") timeout])[0]? =
          (outcomes (run (newService {}) clearedCalls) [.lookup (str "1.2.3.4") timeout])[0]? := by
  constructor
  · refine (outage_forgotten {} clearedCalls).1 (fun _ => australia)
      [.shouldBlock (str "1.2.3.4") (told australia)] (str "1.2.3.4") (to16 [1, 2, 3, 4])
      (told australia) ?_ (.inr ⟨[.lookup (str "1.2.3.4") timeout], rfl⟩) ?_
      (by decide +kernel) (by decide +kernel) (by decide +kernel)
    · intro call member ipStr reply info asked answer
      simp only [clearedCalls, List.cons_append, List.nil_append, List.mem_cons, List.not_mem_nil, or_false]
        at member
      rcases member with rfl | rfl | rfl | rfl
      · cases asked
        cases answer
      · cases asked
      · cases asked
        cases answer
        rfl
      · cases asked
        cases answer
        rfl
    · intro call member reply asked
      simp only [List.cons_append, List.nil_append, List.mem_cons, List.not_mem_nil, or_false]
        at member
      rcases member with rfl | rfl
      · cases asked
        exact ⟨_, rfl⟩
      · cases asked
        exact ⟨_, rfl⟩
  · refine (outage_forgotten {} clearedCalls).2 (str "5.6.7.8") timeout
      [.lookup (str "1.2.3.4") timeout] 0 (.lookup (str "1.2.3.4") timeout) rfl ?_
    intro reply' asked
    exact absurd (Prod.mk.inj (Option.some.inj asked)).1 (by decide)

/-- A lookup during an outage is remembered when the service answers again. -/
theorem outage_remembered :
    (lookupExternal (str "1.2.3.4") (told australia)).toOption.map (·.countryCode) =
        some (str "AU") ∧
      ((run (newService {}) [.lookup (str "1.2.3.4") timeout]).lookup (str "1.2.3.4")
        (told australia)).1.toOption.map (·.countryCode) = some (str "CN") := by
  decide +kernel

end Obsidian.App.GeoIP
