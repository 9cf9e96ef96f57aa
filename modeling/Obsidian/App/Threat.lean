import Obsidian.Data.Net
import Mathlib.Data.List.AList

namespace Obsidian.App

open Obsidian.Data

/-! # Threat intelligence

The threat list of the `threat` package: single addresses and ranges, how feeds fill them and what
`CheckIP` reads from them.  Where the program panics a function has no result.
-/

namespace Threat

structure ThreatEntry where
  ip : Bytes := []
  riskLevel : Bytes := []
  category : Bytes := []
  source : Bytes := []
  firstSeen : Int := 0
  lastSeen : Int := 0
  hitCount : Int := 0
deriving DecidableEq, Repr

inductive FeedType
  | ipList | cidrList | json
deriving DecidableEq, Repr

structure ThreatFeed where
  name : Bytes
  url : Bytes
  enabled : Bool
  type : FeedType
  lastUpdate : Int := 0
  entryCount : Nat := 0
deriving DecidableEq, Repr

/-- A map whose values are pointers, which may be nil. -/
abbrev Blocked := AList fun _ : Bytes => Option ThreatEntry

/-- The map of single addresses may itself be nil. -/
structure ThreatIntel where
  blockedIPs : Option Blocked
  cidrBlocks : List IPNet
  feeds : List ThreatFeed
  lastUpdate : Int

def defaultFeeds : List ThreatFeed :=
  [{ name := str "Spamhaus DROP"
     url := str "https://www.spamhaus.org/drop/drop.txt"
     enabled := true
     type := .cidrList },
   { name := str "Spamhaus EDROP"
     url := str "https://www.spamhaus.org/drop/edrop.txt"
     enabled := true
     type := .cidrList },
   { name := str "Emerging Threats"
     url := str "https://rules.emergingthreats.net/blockrules/compromised-ips.txt"
     enabled := true
     type := .ipList },
   { name := str "Firehol Level 1"
     url := str "https://raw.githubusercontent.com/firehol/blocklist-ipsets/master/firehol_level1.netset"
     enabled := false
     type := .cidrList },
   { name := str "Custom Blocklist"
     url := []
     enabled := true
     type := .ipList }]

def newThreatIntel : ThreatIntel where
  blockedIPs := some ∅
  cidrBlocks := []
  feeds := defaultFeeds
  lastUpdate := 0

/-! ## Lines of a feed -/

def parseEntry (line source : Bytes) (feedType : FeedType) : Option (ThreatEntry × Option IPNet) :=
  if byte '/' ∈ line ∧ feedType = .cidrList then
    match fields line with
    | [] => none
    | cidr :: _ =>
      (parseCIDR cidr).map fun ipnet =>
        ({ ip := cidr
           riskLevel := str "HIGH"
           category := str "Malicious Network"
           source }, some ipnet)
  else
    match fields line with
    | [] => none
    | ip :: _ =>
      (parseIP ip).map fun _ =>
        ({ ip, riskLevel := str "HIGH", category := str "Threat Feed", source }, none)

def isComment (line : Bytes) : Bool :=
  line = [] ∨ line.head? = some (byte '#') ∨ line.head? = some (byte ';')

namespace ThreatIntel

variable (ti : ThreatIntel)

/-- Reading a nil map finds nothing. -/
def lookup (ip : Bytes) : Option (Option ThreatEntry) := ti.blockedIPs.bind (·.lookup ip)

/-- Writing to a nil map panics. -/
def store (ip : Bytes) (entry : ThreatEntry) : Option ThreatIntel :=
  ti.blockedIPs.map fun blocked => { ti with blockedIPs := some (blocked.insert ip (some entry)) }

/-- An entry that is there is seen once more; a nil pointer panics. -/
def record (now : Int) (entry : ThreatEntry) : Option ThreatIntel :=
  match ti.lookup entry.ip with
  | none => ti.store entry.ip { entry with firstSeen := now, lastSeen := now }
  | some none => none
  | some (some existing) =>
    ti.store entry.ip { existing with lastSeen := now, hitCount := existing.hitCount + 1 }

def parseLine (now : Int) (feed : ThreatFeed) (state : Nat × ThreatIntel) (text : Bytes) :
    Option (Nat × ThreatIntel) :=
  let line := trimSpace (dropCR text)
  if isComment line then some state
  else
    match parseEntry line feed.name feed.type with
    | none => some state
    | some (entry, range) =>
      ({ state.2 with cidrBlocks := state.2.cidrBlocks ++ range.toList }.record now entry).map
        fun ti => (state.1 + 1, ti)

def maxFeedSize : Nat := 10 * 1024 * 1024

inductive Download
  | failed (err : GoError)
  /-- The body may break off with an error. -/
  | response (statusCode : Int) (body : Bytes) (broken : Option GoError)

def parseFeed (now : Int) (feed : ThreatFeed) (body : Bytes) : Option (Nat × ThreatIntel) :=
  (scanned body).foldlM (parseLine now feed) (0, ti)

def scanError (body : Bytes) (broken : Option GoError) : Option GoError :=
  if unscanned body ≠ [] then some (str "bufio.Scanner: token too long") else broken

/-- The number of entries or an error, and the list.  A body is cut at ten megabytes, before which
it may break off. -/
def fetchFeed (now : Int) (feed : ThreatFeed) : Download → Option (Except GoError Nat × ThreatIntel)
  | .failed err => some (.error (str "failed to fetch feed " ++ feed.name ++ str ": " ++ err), ti)
  | .response statusCode body broken =>
    if statusCode ≠ 200 then
      some (.error (str "feed " ++ feed.name ++ str " returned status " ++ itoa statusCode), ti)
    else
      let read := body.take maxFeedSize
      let broken := if body.length < maxFeedSize then broken else none
      (ti.parseFeed now feed read).map fun (count, ti) =>
        match scanError read broken with
        | some err => (.error err, ti)
        | none => (.ok count, ti)

/-! ## Requests and commands -/

def checkIP (ip : Bytes) : Option (Option ThreatEntry) :=
  match ti.lookup ip with
  | some entry => some entry
  | none =>
    (parseIP ip).bind fun parsed =>
      if ti.cidrBlocks.any (·.contains parsed) then
        some (some
          { ip
            riskLevel := str "HIGH"
            category := str "Malicious Network Range"
            source := str "CIDR Block" })
      else none

def blockIP (now : Int) (ip category : Bytes) : Option (Option GoError × ThreatIntel) :=
  if (parseIP ip).isNone then some (some (str "invalid IP address: " ++ ip), ti)
  else
    (ti.store ip
      { ip
        riskLevel := str "HIGH"
        category
        source := str "Custom Blocklist"
        firstSeen := now
        lastSeen := now }).map fun ti => (none, ti)

def unblockIP (ip : Bytes) : Option GoError × ThreatIntel :=
  if (ti.lookup ip).isNone then (some (str "IP not found in blocklist: " ++ ip), ti)
  else (none, { ti with blockedIPs := ti.blockedIPs.map (·.erase ip) })

def recordHit (now : Int) (ip : Bytes) : Option ThreatIntel :=
  match ti.lookup ip with
  | none => some ti
  | some none => none
  | some (some entry) =>
    ti.store ip { entry with hitCount := entry.hitCount + 1, lastSeen := now }

/-! ## What the map keeps -/

variable {ti}

theorem store_some {after : ThreatIntel} {ip : Bytes} {entry : ThreatEntry}
    (stored : ti.store ip entry = some after) :
    ∃ blocked, ti.blockedIPs = some blocked ∧
      after = { ti with blockedIPs := some (blocked.insert ip (some entry)) } := by
  obtain ⟨blocked, there, rfl⟩ := Option.map_eq_some_iff.mp stored
  exact ⟨blocked, there, rfl⟩

theorem lookup_store {after : ThreatIntel} {ip : Bytes} {entry : ThreatEntry}
    (stored : ti.store ip entry = some after) (other : Bytes) :
    after.lookup other = if other = ip then some (some entry) else ti.lookup other := by
  obtain ⟨blocked, there, rfl⟩ := store_some stored
  rw [lookup, lookup, there, Option.bind_some, Option.bind_some]
  by_cases same : other = ip
  · rw [if_pos same, same, AList.lookup_insert]
  · rw [if_neg same, AList.lookup_insert_ne same]

end ThreatIntel

end Threat

end Obsidian.App
