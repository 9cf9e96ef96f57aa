import Obsidian.Data.Net
import Mathlib.Data.List.AList

namespace Obsidian.App

open Obsidian.Data

/-! # The IP allowlist

The `Manager` of the `ipallow` package.  Its map and its list of ranges point to the
same entries, which are kept in the order of their allocation.
-/

namespace IPAllow

structure AllowlistEntry where
  id : Bytes
  ip : Bytes
  cidr : Option IPNet
  enabled : Bool
deriving DecidableEq, Repr

structure Config where
  enabled : Bool := false
  allowLocalhost : Bool := true
  bypassHeader : Bytes := []
  bypassSecret : Bytes := []
deriving DecidableEq, Repr

structure Manager where
  allocated : List AllowlistEntry
  entries : AList fun _ : Bytes => Nat
  cidrs : List Nat
  config : Config

namespace Manager

def new (config : Config) : Manager where
  allocated := []
  entries := ∅
  cidrs := []
  config

variable (m : Manager)

def enabledAt (ref : Nat) : Bool := m.allocated[ref]?.any (·.enabled)

def rangeAt (ref : Nat) : Option IPNet := m.allocated[ref]?.bind (·.cidr)

def isAllowed (ip : Bytes) : Bool :=
  if m.config.enabled = false then true
  else
    match parseIP ip with
    | none => false
    | some parsed =>
      if m.config.allowLocalhost ∧ isLoopback parsed then true
      else if (m.entries.lookup (ipString parsed)).any m.enabledAt then true
      else m.cidrs.any fun ref => m.enabledAt ref && (m.rangeAt ref).any (·.contains parsed)

def checkBypassHeader (headerValue : Bytes) : Bool :=
  m.config.bypassHeader ≠ [] ∧ m.config.bypassSecret ≠ [] ∧ headerValue = m.config.bypassSecret

end Manager

/-! ## Administration -/

def errInvalidIP : GoError := str "invalid IP address format"
def errInvalidCIDR : GoError := str "invalid CIDR notation"
def errAlreadyExists : GoError := str "IP/CIDR already in allowlist"
def errNotFound : GoError := str "IP/CIDR not found in allowlist"

inductive Outcome
  | returned (err : Option GoError)
  | panicked
deriving DecidableEq, Repr

def ipEntry (id ip : Bytes) : Except GoError AllowlistEntry :=
  match parseIP ip with
  | none => .error errInvalidIP
  | some parsed => .ok { id, ip := ipString parsed, cidr := none, enabled := true }

def cidrEntry (id cidr : Bytes) : Except GoError AllowlistEntry :=
  match parseCIDR cidr with
  | none => .error errInvalidCIDR
  | some ipNet => .ok { id, ip := ipNet.netString, cidr := some ipNet, enabled := true }

namespace Manager

variable (m : Manager)

def idAt (ref : Nat) : Option Bytes := m.allocated[ref]?.map (·.id)

/-- An entry goes into the map and, if it is a range, to the end of the list. -/
def put (ref : Nat) (entry : AllowlistEntry) : Manager :=
  { m with
    entries := m.entries.insert entry.ip ref
    cidrs := if entry.cidr.isSome then m.cidrs ++ [ref] else m.cidrs }

def allocate (fresh : List AllowlistEntry) : Manager :=
  { m with allocated := m.allocated ++ fresh }

def add (entry : AllowlistEntry) : Except GoError Manager :=
  if entry.ip ∈ m.entries then .error errAlreadyExists
  else .ok ((m.allocate [entry]).put m.allocated.length entry)

def undoAddIP (ip : Bytes) : Manager := { m with entries := m.entries.erase ip }

def undoAddCIDR (cidr : Bytes) : Manager :=
  { m with entries := m.entries.erase cidr, cidrs := m.cidrs.dropLast }

def addIP (id ip : Bytes) (saved : Option GoError) : Option GoError × Manager :=
  match ipEntry id ip with
  | .error err => (some err, m)
  | .ok entry =>
    match m.add entry with
    | .error err => (some err, m)
    | .ok added => (saved, if saved.isSome then added.undoAddIP entry.ip else added)

def addCIDR (id cidr : Bytes) (saved : Option GoError) : Option GoError × Manager :=
  match cidrEntry id cidr with
  | .error err => (some err, m)
  | .ok entry =>
    match m.add entry with
    | .error err => (some err, m)
    | .ok added => (saved, if saved.isSome then added.undoAddCIDR entry.ip else added)

def find (order : List Bytes) (id : Bytes) : Option Nat :=
  (order.filterMap fun key => m.entries.lookup key).find? fun ref => m.idAt ref = some id

/-- The capacity of the new list is one less than the length of the old one, and a negative
capacity panics. -/
def removeEntry (order : List Bytes) (id : Bytes) (deleted : Option GoError) : Outcome × Manager :=
  match m.find order id with
  | none => (.returned (some errNotFound), m)
  | some ref =>
    let removed := { m with entries := m.entries.erase ((m.allocated[ref]?.map (·.ip)).getD []) }
    if (m.rangeAt ref).isNone then (.returned deleted, removed)
    else if m.cidrs = [] then (.panicked, removed)
    else
      (.returned deleted,
        { removed with cidrs := m.cidrs.filter fun other => m.idAt other ≠ some id })

def setEnabled (order : List Bytes) (id : Bytes) (enabled : Bool) (saved : Option GoError) :
    Option GoError × Manager :=
  match m.find order id with
  | none => (some errNotFound, m)
  | some ref =>
    (saved, { m with allocated := m.allocated.modify ref fun entry => { entry with enabled } })

end Manager

/-- The text before the first comma. -/
def firstEntry (forwardedFor : Bytes) : Bytes := forwardedFor.takeWhile (· ≠ byte ',')

def extractIP (remoteAddr forwardedFor : Bytes) : Bytes :=
  if forwardedFor = [] then (splitHost remoteAddr).getD remoteAddr else firstEntry forwardedFor

end IPAllow

end Obsidian.App
