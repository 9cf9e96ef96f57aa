import Obsidian.Data.Net
import Mathlib.Data.List.AList

namespace Obsidian.App

open Obsidian.Data

/-! # Blocking by country

The service of the `geoip` package: where an address is, as an external service or a table of
first octets tells it, and what the rules for its country say.
-/

namespace GeoIP

def errInvalidIP : GoError := str "invalid IP address"

/-- The source's type is a text. -/
inductive Action
  | allow | block | monitor
  | other (text : Bytes)
deriving DecidableEq, Repr

structure CountryRule where
  countryCode : Bytes
  countryName : Bytes := []
  action : Action
  reason : Bytes := []
deriving DecidableEq, Repr

structure Config where
  defaultAction : Action := .allow
  blockedCountries : List Bytes := []
  allowedCountries : List Bytes := []
deriving DecidableEq, Repr

/-- A float is its 64 bits. -/
structure GeoIPInfo where
  ip : Bytes := []
  countryCode : Bytes := []
  countryName : Bytes := []
  city : Bytes := []
  region : Bytes := []
  postalCode : Bytes := []
  latitude : UInt64 := 0
  longitude : UInt64 := 0
  timezone : Bytes := []
  isp : Bytes := []
  organization : Bytes := []
  isProxy : Bool := false
  isVPN : Bool := false
  isTor : Bool := false
  isDatacenter : Bool := false
  threatScore : Int := 0
deriving DecidableEq, Repr

structure LookupResult where
  info : GeoIPInfo
  action : Action
  reason : Bytes := []
  blocked : Bool := false
deriving DecidableEq, Repr

structure Metrics where
  totalLookups : Int := 0
  cacheHits : Int := 0
  cacheMisses : Int := 0
  blockedByCountry : AList fun _ : Bytes => Int := ∅
  requestsByCountry : AList fun _ : Bytes => Int := ∅

structure Service where
  config : Config
  countryRules : AList fun _ : Bytes => CountryRule := ∅
  ipCache : AList fun _ : Bytes => GeoIPInfo := ∅
  metrics : Metrics := {}
  whitelistMode : Bool := false

/-! ## Tables -/

def countryNames : List (Bytes × Bytes) :=
  [(str "US", str "United States"), (str "CA", str "Canada"), (str "MX", str "Mexico"),
   (str "GB", str "United Kingdom"), (str "DE", str "Germany"), (str "FR", str "France"),
   (str "ES", str "Spain"), (str "IT", str "Italy"), (str "NL", str "Netherlands"),
   (str "BE", str "Belgium"), (str "CH", str "Switzerland"), (str "AT", str "Austria"),
   (str "PL", str "Poland"), (str "SE", str "Sweden"), (str "NO", str "Norway"),
   (str "DK", str "Denmark"), (str "FI", str "Finland"), (str "IE", str "Ireland"),
   (str "PT", str "Portugal"), (str "GR", str "Greece"), (str "CZ", str "Czech Republic"),
   (str "RO", str "Romania"), (str "HU", str "Hungary"), (str "UA", str "Ukraine"),
   (str "RU", str "Russian Federation"), (str "BY", str "Belarus"),
   (str "CN", str "China"), (str "JP", str "Japan"), (str "KR", str "South Korea"),
   (str "IN", str "India"), (str "ID", str "Indonesia"), (str "TH", str "Thailand"),
   (str "VN", str "Vietnam"), (str "MY", str "Malaysia"), (str "SG", str "Singapore"),
   (str "PH", str "Philippines"), (str "TW", str "Taiwan"), (str "HK", str "Hong Kong"),
   (str "AU", str "Australia"), (str "NZ", str "New Zealand"),
   (str "BR", str "Brazil"), (str "AR", str "Argentina"), (str "CO", str "Colombia"),
   (str "CL", str "Chile"), (str "PE", str "Peru"), (str "VE", str "Venezuela"),
   (str "ZA", str "South Africa"), (str "EG", str "Egypt"), (str "NG", str "Nigeria"),
   (str "KE", str "Kenya"), (str "MA", str "Morocco"),
   (str "AE", str "United Arab Emirates"), (str "SA", str "Saudi Arabia"),
   (str "IL", str "Israel"), (str "TR", str "Turkey"), (str "IR", str "Iran"),
   (str "EU", str "European Union"), (str "XX", str "Unknown")]

def getCountryName (code : Bytes) : Bytes := (countryNames.lookup code).getD (str "Unknown")

def selectEuropeanCountry (octet : UInt8) : Bytes :=
  if octet < 50 then str "DE"
  else if octet < 100 then str "FR"
  else if octet < 150 then str "GB"
  else if octet < 200 then str "NL"
  else str "EU"

def selectAsianCountry (octet : UInt8) : Bytes :=
  if octet < 50 then str "CN"
  else if octet < 100 then str "JP"
  else if octet < 150 then str "KR"
  else if octet < 200 then str "IN"
  else str "SG"

def selectLatinCountry (octet : UInt8) : Bytes :=
  if octet < 100 then str "BR"
  else if octet < 150 then str "MX"
  else if octet < 200 then str "AR"
  else str "CO"

/-- The first case that holds, in the order of the source; several are never reached. -/
def countryOfOctets (first second : UInt8) : Bytes :=
  if 3 ≤ first ∧ first ≤ 76 then str "US"
  else if first = 99 ∨ first = 100 then str "US"
  else if first = 104 then str "US"
  else if first = 2 then str "EU"
  else if 77 ≤ first ∧ first ≤ 95 then selectEuropeanCountry second
  else if 109 ≤ first ∧ first ≤ 115 then selectEuropeanCountry second
  else if 1 ≤ first ∧ first ≤ 2 then str "CN"
  else if 110 ≤ first ∧ first ≤ 126 then selectAsianCountry second
  else if 163 ≤ first ∧ first ≤ 175 then selectAsianCountry second
  else if 202 ≤ first ∧ first ≤ 223 then selectAsianCountry second
  else if 41 ≤ first ∧ first ≤ 42 then str "ZA"
  else if first = 105 then str "ZA"
  else if 177 ≤ first ∧ first ≤ 191 then selectLatinCountry second
  else if first = 200 ∨ first = 201 then selectLatinCountry second
  else if first = 1 ∨ first = 14 ∨ first = 27 then str "AU"
  else if first = 101 then str "AU"
  else if first = 5 ∨ first = 31 ∨ first = 37 then str "RU"
  else if first = 46 ∨ first = 62 ∨ first = 78 then str "RU"
  else if first = 176 ∨ first = 178 then str "RU"
  else str "XX"

def determineCountry (ip : Bytes) : Bytes :=
  match to4 ip with
  | some (first :: second :: _) => countryOfOctets first second
  | _ => str "XX"

def isInRanges (ranges : List Bytes) (ip : Bytes) : Bool :=
  ranges.any fun range => (parseCIDR range).any (·.contains ip)

def isPrivateIP : Bytes → Bool :=
  isInRanges [str "10.0.0.0/8", str "172.16.0.0/12", str "192.168.0.0/16", str "127.0.0.0/8",
    str "169.254.0.0/16", str "fc00::/7", str "fe80::/10"]

def isDatacenterIP : Bytes → Bool :=
  isInRanges [str "52.0.0.0/8", str "54.0.0.0/8", str "35.0.0.0/8", str "34.0.0.0/8",
    str "20.0.0.0/8", str "40.0.0.0/8", str "104.16.0.0/12", str "172.64.0.0/13"]

def isKnownVPN (_ip : Bytes) : Bool := false

def isKnownTorExit (_ip : Bytes) : Bool := false

def calculateThreatScore (info : GeoIPInfo) : Int :=
  (if info.isVPN then 20 else 0) + (if info.isTor then 50 else 0) +
    (if info.isDatacenter then 10 else 0) + (if info.isProxy then 15 else 0)

/-! ## Lookups -/

structure IPAPIResponse where
  status : Bytes := []
  country : Bytes := []
  countryCode : Bytes := []
  regionName : Bytes := []
  city : Bytes := []
  zip : Bytes := []
  lat : UInt64 := 0
  lon : UInt64 := 0
  timezone : Bytes := []
  isp : Bytes := []
  org : Bytes := []
  proxy : Bool := false
  hosting : Bool := false
deriving DecidableEq, Repr

inductive Body
  | unread (err : GoError)
  | malformed (err : GoError)
  | decoded (apiResp : IPAPIResponse)
deriving DecidableEq, Repr

inductive Reply
  | failed (err : GoError)
  | response (statusCode : Nat) (body : Body)
deriving DecidableEq, Repr

def infoOf (ipStr : Bytes) (apiResp : IPAPIResponse) : GeoIPInfo :=
  let info : GeoIPInfo :=
    { ip := ipStr
      countryCode := apiResp.countryCode
      countryName := apiResp.country
      city := apiResp.city
      region := apiResp.regionName
      postalCode := apiResp.zip
      latitude := apiResp.lat
      longitude := apiResp.lon
      timezone := apiResp.timezone
      isp := apiResp.isp
      organization := apiResp.org
      isProxy := apiResp.proxy
      isDatacenter := apiResp.hosting }
  { info with threatScore := calculateThreatScore info }

def lookupExternal (ipStr : Bytes) : Reply → Except GoError GeoIPInfo
  | .failed err => .error (str "external API request failed: " ++ err)
  | .response statusCode body =>
    if statusCode ≠ 200 then
      .error (str "external API returned status " ++ str (toString statusCode))
    else
      match body with
      | .unread err => .error (str "failed to read response body: " ++ err)
      | .malformed err => .error (str "failed to parse API response: " ++ err)
      | .decoded apiResp =>
        if apiResp.status ≠ str "success" then
          .error (str "API lookup failed for IP " ++ ipStr)
        else .ok (infoOf ipStr apiResp)

def privateInfo (ipStr : Bytes) : GeoIPInfo :=
  { ip := ipStr, countryCode := str "XX", countryName := str "Private Network" }

def lookupFallback (ipStr ip : Bytes) : GeoIPInfo :=
  if isPrivateIP ip then privateInfo ipStr
  else
    let info : GeoIPInfo :=
      { ip := ipStr
        countryCode := determineCountry ip
        countryName := getCountryName (determineCountry ip)
        isDatacenter := isDatacenterIP ip
        isVPN := isKnownVPN ip
        isTor := isKnownTorExit ip }
    { info with threatScore := calculateThreatScore info }

def GeoIPInfo.isPrivate (info : GeoIPInfo) : Bool :=
  info.countryCode = str "XX" ∧ info.countryName = str "Private Network"

/-- Whether `Lookup` takes the external service's word. -/
def named (info : GeoIPInfo) : Bool := info.countryCode ≠ [] ∧ info.countryCode ≠ str "XX"

/-- What `Lookup` finds for an address that is not in the cache. -/
def locate (ipStr ip : Bytes) (reply : Reply) : GeoIPInfo :=
  if isPrivateIP ip then privateInfo ipStr
  else
    match lookupExternal ipStr reply with
    | .ok info => if named info then info else lookupFallback ipStr ip
    | .error _ => lookupFallback ipStr ip

def increment (counts : AList fun _ : Bytes => Int) (key : Bytes) : AList fun _ : Bytes => Int :=
  counts.insert key ((counts.lookup key).getD 0 + 1)

def newService (cfg : Config) : Service :=
  let blocked := cfg.blockedCountries.foldl (fun rules cc => rules.insert cc
    { countryCode := cc, action := .block, reason := str "Country blocked by policy" }) ∅
  { config := cfg
    countryRules := cfg.allowedCountries.foldl (fun rules cc => rules.insert cc
      { countryCode := cc, action := .allow }) blocked
    whitelistMode := cfg.allowedCountries ≠ [] }

namespace Service

variable (s : Service)

def countHit : Service := { s with metrics.cacheHits := s.metrics.cacheHits + 1 }

def countMiss : Service :=
  { s with
    metrics.cacheMisses := s.metrics.cacheMisses + 1
    metrics.totalLookups := s.metrics.totalLookups + 1 }

def countRequest (code : Bytes) : Service :=
  { s with metrics.requestsByCountry := increment s.metrics.requestsByCountry code }

def countBlocked (code : Bytes) : Service :=
  { s with metrics.blockedByCountry := increment s.metrics.blockedByCountry code }

def lookup (ipStr : Bytes) (reply : Reply) : Except GoError GeoIPInfo × Service :=
  match s.ipCache.lookup ipStr with
  | some cached => (.ok cached, s.countHit)
  | none =>
    match parseIP ipStr with
    | none => (.error errInvalidIP, s.countMiss)
    | some ip =>
      let info := locate ipStr ip reply
      (.ok info, { s.countMiss with ipCache := s.ipCache.insert ipStr info })

def ruling (countryCode : Bytes) : Action × Bytes :=
  match s.countryRules.lookup countryCode with
  | some rule => (rule.action, rule.reason)
  | none =>
    if s.whitelistMode then (.block, str "Country not in allowed list")
    else (s.config.defaultAction, [])

def decision (info : GeoIPInfo) : LookupResult :=
  let final :=
    if info.isPrivate then (.allow, str "Private network") else s.ruling info.countryCode
  { info, action := final.1, reason := final.2, blocked := final.1 = .block }

def shouldBlock (ipStr : Bytes) (reply : Reply) : Except GoError LookupResult × Service :=
  match s.lookup ipStr reply with
  | (.error err, s') => (.error err, s')
  | (.ok info, s') =>
    let result := s'.decision info
    let counted := s'.countRequest info.countryCode
    (.ok result, if result.blocked then counted.countBlocked info.countryCode else counted)

def addBlockedCountry (countryCode reason : Bytes) : Service :=
  { s with
    countryRules := s.countryRules.insert countryCode
      { countryCode, countryName := getCountryName countryCode, action := .block, reason } }

def removeBlockedCountry (countryCode : Bytes) : Service :=
  { s with countryRules := s.countryRules.erase countryCode }

def clearCache : Service := { s with ipCache := ∅ }

end Service

/-! ## Calls -/

inductive Call
  | lookup (ipStr : Bytes) (reply : Reply)
  | shouldBlock (ipStr : Bytes) (reply : Reply)
  | addBlockedCountry (countryCode reason : Bytes)
  | removeBlockedCountry (countryCode : Bytes)
  | clearCache

def step (s : Service) : Call → Service
  | .lookup ipStr reply => (s.lookup ipStr reply).2
  | .shouldBlock ipStr reply => (s.shouldBlock ipStr reply).2
  | .addBlockedCountry countryCode reason => s.addBlockedCountry countryCode reason
  | .removeBlockedCountry countryCode => s.removeBlockedCountry countryCode
  | .clearCache => s.clearCache

def run (s : Service) (calls : List Call) : Service := calls.foldl step s

theorem run_append (s : Service) (front back : List Call) :
    run s (front ++ back) = run (run s front) back := List.foldl_append

end GeoIP

end Obsidian.App
