import Obsidian.App.GeoIP

namespace Obsidian.App.GeoIP

open Obsidian.Data

/-! # Country rules

What adding and removing countries does to the decisions for an address.
-/

/-! ## One call -/

section

variable (s : Service) (ipStr : Bytes) (reply : Reply)

theorem lookup_keeps : ∃ cache metrics,
    (s.lookup ipStr reply).2 = { s with ipCache := cache, metrics := metrics } := by
  unfold Service.lookup
  split
  · exact ⟨_, _, rfl⟩
  · split
    · exact ⟨_, _, rfl⟩
    · exact ⟨_, _, rfl⟩

theorem shouldBlock_keeps : ∃ cache metrics,
    (s.shouldBlock ipStr reply).2 = { s with ipCache := cache, metrics := metrics } := by
  obtain ⟨cache, metrics, kept⟩ := lookup_keeps s ipStr reply
  rcases found : s.lookup ipStr reply with ⟨err | info, s'⟩
  · rw [found] at kept
    exact ⟨cache, metrics, by rw [Service.shouldBlock, found]; exact kept⟩
  · rw [found] at kept
    obtain rfl : s' = _ := kept
    rw [Service.shouldBlock, found]
    dsimp only
    split
    · exact ⟨_, _, rfl⟩
    · exact ⟨_, _, rfl⟩

theorem shouldBlock_ok {result : LookupResult}
    (found : (s.shouldBlock ipStr reply).1 = .ok result) : result = s.decision result.info := by
  obtain ⟨cache, metrics, kept⟩ := lookup_keeps s ipStr reply
  rcases looked : s.lookup ipStr reply with ⟨err | info, s'⟩
  · rw [Service.shouldBlock, looked] at found
    cases found
  · rw [looked] at kept
    obtain rfl : s' = _ := kept
    rw [Service.shouldBlock, looked] at found
    cases found
    rfl

end

def rulesAfter (rules : AList fun _ : Bytes => CountryRule) : Call → AList fun _ : Bytes => CountryRule
  | .addBlockedCountry countryCode reason => rules.insert countryCode
      { countryCode, countryName := getCountryName countryCode, action := .block, reason }
  | .removeBlockedCountry countryCode => rules.erase countryCode
  | _ => rules

theorem step_keeps (s : Service) (call : Call) : ∃ cache metrics,
    step s call = { s with
      countryRules := rulesAfter s.countryRules call, ipCache := cache, metrics := metrics } := by
  cases call with
  | lookup ipStr reply => exact lookup_keeps s ipStr reply
  | shouldBlock ipStr reply => exact shouldBlock_keeps s ipStr reply
  | addBlockedCountry countryCode reason => exact ⟨_, _, rfl⟩
  | removeBlockedCountry countryCode => exact ⟨_, _, rfl⟩
  | clearCache => exact ⟨_, _, rfl⟩

theorem step_config (s : Service) (call : Call) :
    (step s call).config = s.config ∧ (step s call).whitelistMode = s.whitelistMode := by
  obtain ⟨cache, metrics, kept⟩ := step_keeps s call
  rw [kept]
  exact ⟨rfl, rfl⟩

theorem step_rules (s : Service) (call : Call) :
    (step s call).countryRules = rulesAfter s.countryRules call := by
  obtain ⟨cache, metrics, kept⟩ := step_keeps s call
  rw [kept]

theorem run_config (s : Service) (calls : List Call) :
    (run s calls).config = s.config ∧ (run s calls).whitelistMode = s.whitelistMode := by
  induction calls generalizing s with
  | nil => exact ⟨rfl, rfl⟩
  | cons call rest ih =>
    obtain ⟨config, mode⟩ := step_config s call
    obtain ⟨config', mode'⟩ := ih (step s call)
    exact ⟨config'.trans config, mode'.trans mode⟩

/-! ## Rules -/

/-- Where a rule comes from: only the configuration allows. -/
def Sourced (cfg : Config) (s : Service) : Prop :=
  ∀ code rule, s.countryRules.lookup code = some rule →
    rule.action = .block ∨ code ∈ cfg.allowedCountries

theorem lookup_codes (codes : List Bytes) (rules : AList fun _ : Bytes => CountryRule)
    (rule : Bytes → CountryRule) (code : Bytes) :
    (codes.foldl (fun rules cc => rules.insert cc (rule cc)) rules).lookup code =
      if code ∈ codes then some (rule code) else rules.lookup code := by
  induction codes generalizing rules with
  | nil => simp
  | cons cc rest ih =>
    rw [List.foldl_cons, ih]
    by_cases later : code ∈ rest
    · simp [later]
    · by_cases same : code = cc
      · subst same
        simp [later, AList.lookup_insert]
      · simp [later, same, AList.lookup_insert_ne same]

theorem lookup_newService (cfg : Config) (code : Bytes) :
    (newService cfg).countryRules.lookup code =
      if code ∈ cfg.allowedCountries then some { countryCode := code, action := .allow }
      else if code ∈ cfg.blockedCountries then
        some { countryCode := code, action := .block, reason := str "Country blocked by policy" }
      else none := by
  rw [newService]
  dsimp only
  rw [lookup_codes, lookup_codes, AList.lookup_empty]

theorem Sourced.newService (cfg : Config) : Sourced cfg (newService cfg) := by
  intro code rule found
  rw [lookup_newService] at found
  by_cases allowed : code ∈ cfg.allowedCountries
  · exact .inr allowed
  · rw [if_neg allowed, Option.ite_none_right_eq_some] at found
    obtain ⟨-, same⟩ := found
    cases same
    exact .inl rfl

theorem Sourced.step {cfg : Config} {s : Service} (sourced : Sourced cfg s) (call : Call) :
    Sourced cfg (step s call) := by
  intro code rule found
  rw [step_rules] at found
  cases call with
  | addBlockedCountry countryCode reason =>
    by_cases same : code = countryCode
    · subst same
      rw [rulesAfter, AList.lookup_insert] at found
      cases found
      exact .inl rfl
    · rw [rulesAfter, AList.lookup_insert_ne same] at found
      exact sourced code rule found
  | removeBlockedCountry countryCode =>
    by_cases same : code = countryCode
    · subst same
      rw [rulesAfter, AList.lookup_erase] at found
      cases found
    · rw [rulesAfter, AList.lookup_erase_ne same] at found
      exact sourced code rule found
  | _ => exact sourced code rule found

theorem Sourced.run {cfg : Config} {s : Service} (sourced : Sourced cfg s) (calls : List Call) :
    Sourced cfg (run s calls) := by
  induction calls generalizing s with
  | nil => exact sourced
  | cons call rest ih => exact ih (sourced.step call)

/-! ## Decisions -/

theorem ruling_congr {s s' : Service} {code : Bytes}
    (config : s'.config = s.config ∧ s'.whitelistMode = s.whitelistMode)
    (rules : s'.countryRules.lookup code = s.countryRules.lookup code) :
    s'.ruling code = s.ruling code := by
  rw [Service.ruling, Service.ruling, rules, config.1, config.2]

theorem decision_congr {s s' : Service} {info info' : GeoIPInfo}
    (kind : info'.isPrivate = info.isPrivate)
    (ruling : s'.ruling info'.countryCode = s.ruling info.countryCode) :
    (s'.decision info').action = (s.decision info).action ∧
      (s'.decision info').blocked = (s.decision info).blocked := by
  rw [Service.decision, Service.decision, kind, ruling]
  exact ⟨rfl, rfl⟩

theorem ruling_of_notMem {s : Service} {code : Bytes} (absent : code ∉ s.countryRules) :
    s.ruling code = if s.whitelistMode then (.block, str "Country not in allowed list")
      else (s.config.defaultAction, []) := by
  rw [Service.ruling, AList.lookup_eq_none.mpr absent]

/-- Without a rule that allows a country, a rule removed can only have blocked it. -/
theorem ruling_removeBlockedCountry {cfg : Config} {s : Service} {code : Bytes}
    (sourced : Sourced cfg s) (unlisted : code ∉ cfg.allowedCountries) (removed : Bytes)
    (passed : (s.ruling code).1 ≠ .block) :
    ((s.removeBlockedCountry removed).ruling code).1 ≠ .block := by
  by_cases present : code ∈ s.countryRules
  · obtain ⟨rule, found⟩ := Option.isSome_iff_exists.mp (AList.lookup_isSome.mpr present)
    rcases sourced code rule found with blocks | allowed
    · rw [Service.ruling, found] at passed
      exact absurd blocks passed
    · exact absurd allowed unlisted
  · have absent : code ∉ (s.removeBlockedCountry removed).countryRules := by
      rw [Service.removeBlockedCountry, AList.mem_erase]
      exact fun both => present both.2
    rw [ruling_of_notMem absent]
    rwa [ruling_of_notMem present] at passed

/-- Adding a country that has no rule and removing it again leaves its ruling as it was,
whatever is called in between. -/
theorem ruling_add_remove {s : Service} {code : Bytes} (absent : code ∉ s.countryRules)
    (reason : Bytes) (between : List Call) :
    (run s (.addBlockedCountry code reason :: between ++ [.removeBlockedCountry code])).ruling code =
      s.ruling code := by
  refine ruling_congr (run_config s _) ?_
  rw [run_append, AList.lookup_eq_none.mpr absent]
  exact AList.lookup_erase _ _

/-! ## Letter case -/

def Upper (code : Bytes) : Prop := code.map upperByte = code

instance (code : Bytes) : Decidable (Upper code) :=
  inferInstanceAs (Decidable (code.map upperByte = code))

def SameCountry (code other : Bytes) : Prop := code.map upperByte = other.map upperByte

theorem SameCountry.eq {code other : Bytes} (same : SameCountry code other) (upper : Upper code)
    (upper' : Upper other) : code = other := by
  rwa [SameCountry, upper, upper'] at same

/-- For a country that the configuration does not allow, with all codes in upper case:
adding it when it has no rule and removing it later restores the decision, removing never
blocks it, and the configuration's block list blocks it. -/
theorem country_rules (cfg : Config) (before between : List Call)
    (added removed reason code : Bytes) (upper : Upper code) (upperAdded : Upper added)
    (upperRemoved : Upper removed) (upperListed : ∀ cc ∈ cfg.blockedCountries, Upper cc)
    (unlisted : code ∉ cfg.allowedCountries) :
    let s := run (newService cfg) before
    (SameCountry added code → SameCountry removed code → code ∉ s.countryRules →
      ∀ ip ip' reply reply' result result',
        (s.shouldBlock ip reply).1 = .ok result →
        ((run s (.addBlockedCountry added reason :: between ++
          [.removeBlockedCountry removed])).shouldBlock ip' reply').1 = .ok result' →
        result.info.countryCode = code → result'.info.countryCode = code →
        result'.info.isPrivate = result.info.isPrivate →
        result'.action = result.action ∧ result'.blocked = result.blocked) ∧
    (∀ ip ip' reply reply' result result',
        (s.shouldBlock ip reply).1 = .ok result →
        ((s.removeBlockedCountry removed).shouldBlock ip' reply').1 = .ok result' →
        result.info.countryCode = code → result'.info.countryCode = code →
        result'.info.isPrivate = result.info.isPrivate →
        result.blocked = false → result'.blocked = false) ∧
    ((∃ cc ∈ cfg.blockedCountries, SameCountry cc code) →
      ∀ ip reply result, ((newService cfg).shouldBlock ip reply).1 = .ok result →
        result.info.countryCode = code → result.info.isPrivate = false →
        result.blocked = true) := by
  intro s
  have sourced : Sourced cfg s := (Sourced.newService cfg).run before
  refine ⟨?_, ?_, ?_⟩
  · intro sameAdded sameRemoved absent ip ip' reply reply' result result' found found' named named' kind
    obtain rfl := sameAdded.eq upperAdded upper
    obtain rfl := sameRemoved.eq upperRemoved upper
    rw [shouldBlock_ok _ _ _ found', shouldBlock_ok _ _ _ found]
    refine decision_congr kind ?_
    rw [named, named', ruling_add_remove absent]
  · intro ip ip' reply reply' result result' found found' named named' kind passed
    rw [shouldBlock_ok _ _ _ found] at passed
    rw [shouldBlock_ok _ _ _ found']
    simp only [Service.decision, decide_eq_false_iff_not, named, named', kind] at passed ⊢
    by_cases isPrivate : result.info.isPrivate
    · simp [isPrivate]
    · simp only [isPrivate] at passed ⊢
      exact ruling_removeBlockedCountry sourced unlisted removed passed
  · rintro ⟨cc, listed, same⟩ ip reply result found named notPrivate
    obtain rfl := same.eq (upperListed cc listed) upper
    rw [shouldBlock_ok _ _ _ found]
    simp [Service.decision, notPrivate, named, Service.ruling, lookup_newService, unlisted, listed]

def timeout : Reply := .failed (str "context deadline exceeded")

def located (ip code name : Bytes) : LookupResult where
  info := { ip, countryCode := code, countryName := name }
  action := .allow

theorem country_rules_restored :
    let cfg : Config := { blockedCountries := [str "RU"] }
    ((newService cfg).shouldBlock (str "77.1.1.1") timeout).1 =
        .ok (located (str "77.1.1.1") (str "DE") (str "Germany")) ∧
      (located (str "77.1.2.2") (str "DE") (str "Germany")).action =
        (located (str "77.1.1.1") (str "DE") (str "Germany")).action ∧
      (located (str "77.1.2.2") (str "DE") (str "Germany")).blocked =
        (located (str "77.1.1.1") (str "DE") (str "Germany")).blocked := by
  refine ⟨by decide +kernel, ?_⟩
  exact (country_rules { blockedCountries := [str "RU"] } [] [.removeBlockedCountry (str "RU")]
    (str "DE") (str "DE") (str "spam") (str "DE") (by decide) (by decide) (by decide)
    (by decide) (by decide)).1 rfl rfl (by decide) (str "77.1.1.1") (str "77.1.2.2")
    timeout timeout _ _ (by decide +kernel) (by decide +kernel) rfl rfl (by decide +kernel)

/-- Adding and removing a country that is on the allow list, or only removing it, blocks it; a country
on both lists passes; one blocked before passes afterwards; and another letter case removes
nothing. -/
theorem country_rules_broken :
    let blocks (s : Service) := (s.shouldBlock (str "8.8.8.8") timeout).1.toOption.map (·.blocked)
    let allowing := newService { allowedCountries := [str "US"] }
    blocks allowing = some false ∧
      blocks (run allowing [.addBlockedCountry (str "US") [], .removeBlockedCountry (str "US")]) =
        some true ∧
      blocks (allowing.removeBlockedCountry (str "US")) = some true ∧
      blocks (newService { blockedCountries := [str "US"], allowedCountries := [str "US"] }) =
        some false ∧
      blocks (newService { blockedCountries := [str "US"] }) = some true ∧
      blocks (run (newService { blockedCountries := [str "US"] })
        [.addBlockedCountry (str "US") [], .removeBlockedCountry (str "US")]) = some false ∧
      blocks (newService {}) = some false ∧
      blocks (run (newService {})
        [.addBlockedCountry (str "US") [], .removeBlockedCountry (str "us")]) = some true := by
  decide +kernel

end Obsidian.App.GeoIP
