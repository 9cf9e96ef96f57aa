import Obsidian.Data.Net
import Mathlib.Data.List.AList

namespace Obsidian.App

open Obsidian.Data

/-! # API keys

How the `Manager` of the `apikeys` package makes, revokes and deletes keys.  The random bytes, the
clock and what the store returns are arguments, the hash is a parameter.
-/

namespace ApiKeys

def errKeyNotFound : GoError := str "API key not found"
def errKeyExpired : GoError := str "API key has expired"
def errKeyDisabled : GoError := str "API key is disabled"
def errInsufficientScope : GoError := str "API key lacks required scope"
def errRateLimitExceeded : GoError := str "API key rate limit exceeded"

inductive Scope
  | read | write | admin | threat | export | webhook
  /-- A request may name any text. -/
  | other (name : Bytes)
deriving DecidableEq, Repr

structure APIKey where
  id : Bytes
  name : Bytes
  keyHash : Bytes
  keyPrefix : Bytes
  scopes : List Scope
  createdAt : Int
  expiresAt : Option Int
  enabled : Bool
  rateLimit : Int
  description : Bytes
  createdBy : Bytes
deriving DecidableEq, Repr

structure KeyUsage where
  count : Int
  windowStart : Int
deriving DecidableEq, Repr

structure Manager where
  keys : AList fun _ : Bytes => APIKey
  prefixes : AList fun _ : Bytes => Bytes
  usage : AList fun _ : Bytes => KeyUsage

structure KeyRequest where
  name : Bytes
  scopes : List Scope
  expiresIn : Option Int
  rateLimit : Int
  description : Bytes
  createdBy : Bytes

structure Drawn where
  rawKey : Except GoError Bytes
  idBytes : Except GoError Bytes

def plaintext (rawKey : Bytes) : Bytes := str "obs_" ++ rawKey.flatMap hexByte

section

variable (sha256 : Bytes → Bytes)

def keyHash (rawKey : Bytes) : Bytes := (sha256 (plaintext rawKey)).flatMap hexByte

def keyPrefix (rawKey : Bytes) : Bytes := (plaintext rawKey).take 12

def newKey (request : KeyRequest) (now : Int) (rawKey idBytes : Bytes) : APIKey where
  id := idBytes.flatMap hexByte
  name := request.name
  keyHash := keyHash sha256 rawKey
  keyPrefix := keyPrefix rawKey
  scopes := request.scopes
  createdAt := now
  expiresAt := request.expiresIn.map (now + ·)
  enabled := true
  rateLimit := request.rateLimit
  description := request.description
  createdBy := request.createdBy

end

namespace Manager

variable (m : Manager)

def remember (key : APIKey) : Manager :=
  { m with
    keys := m.keys.insert key.keyHash key
    prefixes := m.prefixes.insert key.keyPrefix key.keyHash }

def forget (key : APIKey) : Manager :=
  { m with keys := m.keys.erase key.keyHash, prefixes := m.prefixes.erase key.keyPrefix }

def generateKey (sha256 : Bytes → Bytes) (request : KeyRequest) (now : Int) (drawn : Drawn)
    (saved : Option GoError) : Except GoError (Bytes × APIKey) × Manager :=
  match drawn.rawKey, drawn.idBytes with
  | .error err, _ => (.error (str "failed to generate random key: " ++ err), m)
  | _, .error err => (.error (str "failed to generate API key ID: " ++ err), m)
  | .ok rawKey, .ok idBytes =>
    let key := newKey sha256 request now rawKey idBytes
    match saved with
    | none => (.ok (plaintext rawKey, key), m.remember key)
    | some err => (.error (str "failed to persist API key: " ++ err), (m.remember key).forget key)

def find (order : List Bytes) (keyID : Bytes) : Option (Bytes × APIKey) :=
  order.findSome? fun hash =>
    ((m.keys.lookup hash).filter fun key => key.id = keyID).map fun key => (hash, key)

def revokeKey (order : List Bytes) (keyID : Bytes) (saved : Option GoError) :
    Option GoError × Manager :=
  match m.find order keyID with
  | none => (some errKeyNotFound, m)
  | some (hash, key) => (saved, { m with keys := m.keys.replace hash { key with enabled := false } })

def deleteKey (order : List Bytes) (keyID : Bytes) (deleted : Option GoError) :
    Option GoError × Manager :=
  match m.find order keyID with
  | none => (some errKeyNotFound, m)
  | some (hash, key) =>
    (deleted,
      { keys := m.keys.erase hash
        prefixes := m.prefixes.erase key.keyPrefix
        usage := m.usage.erase hash })

end Manager

/-! ## Validation -/

def Scope.text : Scope → Bytes
  | .read => str "read"
  | .write => str "write"
  | .admin => str "admin"
  | .threat => str "threat"
  | .export => str "export"
  | .webhook => str "webhook"
  | .other name => name

def hasScope (key : APIKey) (required : Scope) : Bool :=
  key.scopes.any fun s => s.text = required.text ∨ s.text = str "admin"

def minute : Int := 60000000000

def checkKey (now : Int) (key : APIKey) (requiredScope : Scope) : Option GoError :=
  if key.enabled = false then some errKeyDisabled
  else if key.expiresAt.any fun expires => expires < now then some errKeyExpired
  else if requiredScope.text ≠ [] ∧ hasScope key requiredScope = false then
    some errInsufficientScope
  else none

namespace Manager

def checkRateLimit (m : Manager) (now : Int) (keyHash : Bytes) (limit : Int) :
    Option GoError × Manager :=
  let restart := { m with usage := m.usage.insert keyHash { count := 1, windowStart := now } }
  match m.usage.lookup keyHash with
  | none => (none, restart)
  | some used =>
    if minute ≤ now - used.windowStart then (none, restart)
    else if limit ≤ used.count then (some errRateLimitExceeded, m)
    else (none, { m with usage := m.usage.insert keyHash { used with count := used.count + 1 } })

/-- `ValidateKey`, with the readings of the clock for the key's expiry and for its quota. -/
def validateKey (m : Manager) (sha256 : Bytes → Bytes) (checked counted : Int) (plaintext : Bytes)
    (requiredScope : Scope) : Except GoError APIKey × Manager :=
  let keyHash := (sha256 plaintext).flatMap hexByte
  match m.keys.lookup keyHash with
  | none => (.error errKeyNotFound, m)
  | some key =>
    match checkKey checked key requiredScope with
    | some err => (.error err, m)
    | none =>
      if 0 < key.rateLimit then
        match m.checkRateLimit counted keyHash key.rateLimit with
        | (some err, m) => (.error err, m)
        | (none, m) => (.ok key, m)
      else (.ok key, m)

theorem validateKey_ok {m : Manager} {sha256 : Bytes → Bytes} {checked counted : Int}
    {plaintext : Bytes} {requiredScope : Scope} {key : APIKey}
    (accepted : (m.validateKey sha256 checked counted plaintext requiredScope).1 = .ok key) :
    m.keys.lookup ((sha256 plaintext).flatMap hexByte) = some key ∧
      checkKey checked key requiredScope = none := by
  unfold validateKey at accepted
  cases found : m.keys.lookup ((sha256 plaintext).flatMap hexByte) with
  | none => simp [found] at accepted
  | some stored =>
    simp only [found] at accepted
    cases passed : checkKey checked stored requiredScope with
    | some err => simp [passed] at accepted
    | none =>
      have same : stored = key := by
        simp only [passed] at accepted
        split at accepted
        · split at accepted
          · cases accepted
          · exact Except.ok.inj accepted
        · exact Except.ok.inj accepted
      subst same
      exact ⟨rfl, passed⟩

end Manager

theorem hasScope_of_checkKey {now : Int} {key : APIKey} {requiredScope : Scope}
    (named : requiredScope.text ≠ []) (passed : checkKey now key requiredScope = none) :
    hasScope key requiredScope = true := by
  unfold checkKey at passed
  split_ifs at passed with _ _ lacking
  cases held : hasScope key requiredScope with
  | true => rfl
  | false => exact absurd ⟨named, held⟩ lacking

end ApiKeys

end Obsidian.App
