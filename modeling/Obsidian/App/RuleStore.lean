import Obsidian.Data.Text

namespace Obsidian.App

open Obsidian.Data

/-! # Rules and users

What the store does to the rules and the users it keeps in memory, and how it writes its state to
a file.  What the file system, the database and `bcrypt` return are arguments.
-/

/-! ## Passwords -/

namespace Auth

def errWeakPassword : GoError := str "password does not meet security requirements"

def commonPasswords : List Bytes :=
  [str "password", str "password123", str "12345678", str "123456789", str "qwerty", str "admin",
    str "admin123", str "letmein", str "welcome", str "monkey", str "dragon", str "master",
    str "obsidian", str "obsidian123", str "security", str "trustno1"]

def isSpecial (c : Nat) : Bool :=
  (str "!@#$%^&*()_+-=[]\x7b\x7d|;':\",./<>?`~").any fun b => b.toNat = c

/-- The four tests of `ValidatePassword` on the characters, in its order.  No character passes two
of them. -/
def characterTests : List ((Nat → Bool) × Bytes) :=
  [(fun c => 65 ≤ c ∧ c ≤ 90, str "uppercase letter"),
    (fun c => 97 ≤ c ∧ c ≤ 122, str "lowercase letter"),
    (fun c => 48 ≤ c ∧ c ≤ 57, str "number"),
    (isSpecial, str "special character (!@#$%^&*...)")]

def validatePassword (unicodeLower : Bytes → Bytes) (password : Bytes) : Option GoError :=
  if password.length < 12 then
    some (errWeakPassword ++ str ": password must be at least 12 characters")
  else if commonPasswords.contains (toLower unicodeLower password) then
    some (errWeakPassword ++ str ": password is too common")
  else
    (characterTests.find? fun (test, _) => !(runes password).any fun c => test c.code).map
      fun (_, kind) => errWeakPassword ++ str ": password must contain at least one " ++ kind

def hashPassword (unicodeLower : Bytes → Bytes) (bcrypt : Bytes → Except GoError Bytes)
    (password : Bytes) : Except GoError Bytes :=
  match validatePassword unicodeLower password with
  | some err => .error err
  | none => (bcrypt password).mapError (str "failed to hash password: " ++ ·)

example : validatePassword id (str "obsidian-Waf1") = none := by decide
example : validatePassword id (str "short") =
    some (errWeakPassword ++ str ": password must be at least 12 characters") := by decide
example : validatePassword id (str "obsidian-waf1") =
    some (errWeakPassword ++ str ": password must contain at least one uppercase letter") := by decide

end Auth

/-! ## The state in memory -/

namespace Admin

structure Rule where
  id : Int
  description : Bytes := []
  severity : Bytes := []
  enabled : Bool := false
  category : Bytes := []
  source : Bytes := []
  readOnly : Bool := false
  pattern : Bytes := []
  targetField : Bytes := []
  action : Bytes := []
  blockStatus : Int := 0
  threshold : Int := 0
  timeWindow : Int := 0
  matchCount : Int := 0
  lastMatch : Bytes := []
deriving DecidableEq, Repr

structure User where
  id : Int
  username : Bytes
  passwordHash : Bytes
  email : Bytes := []
  role : Bytes
  enabled : Bool
deriving DecidableEq, Repr

structure RuleStore where
  rules : List Rule
  users : List User
  activeRulesCount : Nat
  customRules : List Rule
deriving DecidableEq, Repr

def validateRuleIDRange (source : Bytes) (id : Int) : Option GoError :=
  if source = str "custom" then
    if id < 900000 ∨ 909999 < id then
      some (str "custom rule id " ++ itoa id ++ str " outside allowed range 900000-909999")
    else none
  else if source = str "crs" then
    if id < 900000 ∨ 999999 < id then
      some (str "crs rule id " ++ itoa id ++ str " outside allowed range 900000-999999")
    else none
  else none

/-! ## The state file -/

/-- What the steps of `persistState` return. -/
structure Disk where
  marshal : Option GoError := none
  writeTemp : Option GoError := none
  rename : Option GoError := none
  write : Option GoError := none

/-- When the file cannot be renamed it is written in place. -/
def Disk.persistState (disk : Disk) : Option GoError :=
  match disk.marshal with
  | some err => some (str "failed to marshal state: " ++ err)
  | none =>
    match disk.writeTemp with
    | some err => some (str "failed to write temp file: " ++ err)
    | none => if disk.rename.isSome then disk.write else none

namespace RuleStore

variable (s : RuleStore)

def createRule (rule : Rule) (disk : Disk) : Option GoError × RuleStore :=
  let rule :=
    { rule with
      source := if rule.source = [] then str "custom" else rule.source, readOnly := false }
  match validateRuleIDRange rule.source rule.id with
  | some err => (some err, s)
  | none =>
    if s.rules.any (·.id = rule.id) then
      (some (str "rule with ID " ++ itoa rule.id ++ str " already exists"), s)
    else
      (disk.persistState,
        { s with
          rules := s.rules ++ [rule]
          activeRulesCount := s.rules.length + 1
          customRules := s.customRules ++ [rule] })

def replaceFirst (rules : List Rule) (rule : Rule) : List Rule :=
  (rules.findIdx? (·.id = rule.id)).elim rules (rules.set · rule)

def removeFirst (rules : List Rule) (id : Int) : List Rule :=
  (rules.findIdx? (·.id = id)).elim rules rules.eraseIdx

def readOnlyError (id : Int) : GoError := str "rule " ++ itoa id ++ str " is read-only"

def notFoundError (id : Int) : GoError := str "rule with ID " ++ itoa id ++ str " not found"

def updateRule (rule : Rule) (disk : Disk) : Option GoError × RuleStore :=
  match s.rules.find? (·.id = rule.id) with
  | none => (some (notFoundError rule.id), s)
  | some old =>
    if old.readOnly ∨ old.source = str "crs" then (some (readOnlyError rule.id), s)
    else
      let rule :=
        { rule with
          source := if rule.source = [] then old.source else rule.source, readOnly := false }
      match validateRuleIDRange rule.source rule.id with
      | some err => (some err, s)
      | none =>
        (disk.persistState,
          { s with
            rules := replaceFirst s.rules rule
            customRules := replaceFirst s.customRules rule })

def deleteRule (id : Int) (disk : Disk) : Option GoError × RuleStore :=
  match s.rules.find? (·.id = id) with
  | none => (some (notFoundError id), s)
  | some old =>
    if old.readOnly ∨ old.source = str "crs" then (some (readOnlyError id), s)
    else
      (disk.persistState,
        { s with
          rules := removeFirst s.rules id
          activeRulesCount := (removeFirst s.rules id).length
          customRules := removeFirst s.customRules id })

structure Database where
  updateUser : Option GoError
  updateUserPassword : Option GoError

structure UserUpdate where
  username : Bytes
  role : Bytes
  enabled : Bool
  newPassword : Bytes

def hashError (err : GoError) : GoError := str "failed to hash password: " ++ err

def updateUserIn (hash : Bytes → Except GoError Bytes) (db : Database) (update : UserUpdate) :
    Option GoError :=
  match db.updateUser with
  | some err => some (str "failed to update user: " ++ err)
  | none =>
    if update.newPassword = [] then none
    else
      match hash update.newPassword with
      | .error err => some (hashError err)
      | .ok _ => db.updateUserPassword.map (str "failed to update password: " ++ ·)

/-- An update of the memory does not fail with the state file. -/
def updateUser (hash : Bytes → Except GoError Bytes) (db : Option Database) (update : UserUpdate) :
    Option GoError × RuleStore :=
  match db with
  | some db => (updateUserIn hash db update, s)
  | none =>
    match s.users.findIdx? (·.username = update.username) with
    | none => (some (str "user not found: " ++ update.username), s)
    | some i =>
      let changed := s.users.modify i fun u =>
        { u with role := update.role, enabled := update.enabled }
      if update.newPassword = [] then (none, { s with users := changed })
      else
        match hash update.newPassword with
        | .error err => (some (hashError err), { s with users := changed })
        | .ok passwordHash =>
          (none, { s with users := changed.modify i fun u => { u with passwordHash } })

end RuleStore

end Admin

end Obsidian.App
