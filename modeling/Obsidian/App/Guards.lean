import Obsidian.App.ApiKeys
import Obsidian.App.Auth

namespace Obsidian.App.Guards

open Obsidian.Data ApiKeys

/-! # Guarded routes

The middlewares of the program that ask for an API key or a token and for a role, and the routes
they guard.  The hashes are parameters; a request comes with the readings of the clock.
-/

structure UserClaims where
  userID : Int := 0
  username : Bytes
  role : Bytes
  exp : Int := 0
deriving DecidableEq, Repr

/-- The times at which the expiry of a key, its quota, the expiry of a token in `VerifyJWT` and in
the middleware are looked at. -/
structure Clock where
  checked : Int
  counted : Int
  verified : Int
  compared : Int
deriving DecidableEq, Repr

/-- What the middlewares read and write of a request. -/
structure Request where
  /-- `X-API-Key` -/
  apiKey : Bytes
  /-- `Authorization` -/
  authorization : Bytes
  /-- `token` of the query -/
  token : Bytes
  clock : Clock
  /-- `X-Actor` -/
  actor : Bytes := []
  user : Option UserClaims := none
  keyInfo : Option APIKey := none
deriving DecidableEq, Repr

structure Server where
  apiKeyMgr : Manager
  auth : Auth.Package

inductive Reply where
  | error (status : Nat) (body : Bytes)
  /-- `getSecretKey` panics without a secret. -/
  | panicked (message : GoError)
  /-- What the handler of a route writes. -/
  | written (status : Nat) (body : Bytes)
deriving DecidableEq, Repr

def Handler : Type := Server → Request → Reply × Server

/-! ## Roles -/

def scopeToRole (scopes : List Scope) : Bytes :=
  if scopes.any fun s => s.text = str "admin" then str "Admin"
  else if scopes.any fun s => s.text = str "write" then str "Analyst"
  else str "Viewer"

/-- `strings.EqualFold` against a text of ASCII letters. -/
def equalFold (text ascii : Bytes) : Bool := Auth.foldName text = Auth.foldName ascii

def allowed (requiredRole role : Bytes) : Bool :=
  if requiredRole = str "Viewer" then true
  else if requiredRole = str "Analyst" then
    equalFold role (str "Admin") || equalFold role (str "Analyst")
  else if requiredRole = str "Admin" then equalFold role (str "Admin")
  else false

def rbacMiddleware (requiredRole : Bytes) (next : Handler) : Handler := fun server r =>
  match r.user with
  | none => (.error 403 (str "\x7b\"error\": \"Forbidden\"\x7d"), server)
  | some claims =>
    if allowed requiredRole claims.role then next server r
    else (.error 403 (str "\x7b\"error\": \"Insufficient permissions\"\x7d"), server)

section

variable (sha256 : Bytes → Bytes) (hmac : Bytes → Bytes → Bytes) (secret : Bytes)

/-! ## Tokens -/

def Request.ofClaims (r : Request) (claims : Auth.Claims) : Request :=
  { r with
    user := some
      { userID := claims.userID, username := claims.username, role := claims.role,
        exp := claims.exp }
    actor := claims.username }

def Request.authHeader (r : Request) : Bytes :=
  if r.authorization = [] then str "Bearer " ++ r.token else r.authorization

/-- The fallback for a request without a key, and for one whose key is refused. -/
def byToken (next : Handler) : Handler := fun server r =>
  if (str "Bearer ").isPrefixOf r.authHeader = false then
    (.error 401 (str "\x7b\"error\": \"Unauthorized\", \"hint\": \"Provide Authorization Bearer token or X-API-Key header\"\x7d"),
      server)
  else
    match Auth.verifyJWT hmac secret r.clock.verified (r.authHeader.drop 7) server.auth with
    | .error message => (.panicked message, server)
    | .ok (.error _, auth) =>
      (.error 401 (str "\x7b\"error\": \"Invalid token\"\x7d"), { server with auth })
    | .ok (.ok claims, auth) =>
      if claims.exp < Auth.unix r.clock.compared then
        (.error 401 (str "\x7b\"error\": \"Token expired\"\x7d"), { server with auth })
      else next { server with auth } (r.ofClaims claims)

/-! ## Keys -/

def Request.ofKey (r : Request) (key : APIKey) : Request :=
  { r with
    user := some { username := str "api:" ++ key.name, role := scopeToRole key.scopes }
    actor := str "api:" ++ key.name
    keyInfo := some key }

def authOrAPIKeyMiddleware (apiScope : Scope) (next : Handler) : Handler := fun server r =>
  if r.apiKey ≠ [] then
    match server.apiKeyMgr.validateKey sha256 r.clock.checked r.clock.counted r.apiKey apiScope with
    | (.ok key, apiKeyMgr) => next { server with apiKeyMgr } (r.ofKey key)
    | (.error _, apiKeyMgr) => byToken hmac secret next { server with apiKeyMgr } r
  else byToken hmac secret next server r

/-! ## Routes -/

structure Route where
  path : Bytes
  scope : Scope
  role : Option Bytes := none
deriving DecidableEq, Repr

def routes : List Route :=
  [{ path := str "/api/stats", scope := .read },
    { path := str "/api/logs", scope := .read },
    { path := str "/api/rules", scope := .read },
    { path := str "/api/rules/create", scope := .write, role := str "Admin" },
    { path := str "/api/rules/update", scope := .write, role := str "Admin" },
    { path := str "/api/rules/delete", scope := .write, role := str "Admin" },
    { path := str "/api/rules/test", scope := .read },
    { path := str "/api/export", scope := .export },
    { path := str "/api/admin/audit", scope := .admin, role := str "Admin" },
    { path := str "/api/admin/rules/audit", scope := .admin, role := str "Admin" },
    { path := str "/api/admin/crs/status", scope := .admin, role := str "Admin" },
    { path := str "/api/admin/crs/enable", scope := .admin, role := str "Admin" },
    { path := str "/api/admin/crs/disable", scope := .admin, role := str "Admin" },
    { path := str "/api/metrics", scope := .read },
    { path := str "/api/threats", scope := .threat },
    { path := str "/api/threats/stats", scope := .threat }]

def Route.nested (route : Route) (handler : Handler) : Handler :=
  match route.role with
  | none => handler
  | some role => rbacMiddleware role handler

def Route.serve (route : Route) (handler : Handler) : Handler :=
  authOrAPIKeyMiddleware sha256 hmac secret route.scope (route.nested handler)

/-! ## The authority of a key -/

def isAdmin (key : APIKey) : Bool := key.scopes.any fun s => s.text = str "admin"

theorem allowed_admin_scopeToRole (key : APIKey) :
    allowed (str "Admin") (scopeToRole key.scopes) = isAdmin key := by
  have role : scopeToRole key.scopes =
      if isAdmin key then str "Admin"
      else if key.scopes.any fun s => s.text = str "write" then str "Analyst"
      else str "Viewer" := rfl
  rw [role]
  cases isAdmin key with
  | true => rfl
  | false =>
    rw [if_neg Bool.false_ne_true]
    split_ifs <;> rfl

/-- A key that has a scope for an administrator's routes has the scope of an administrator. -/
theorem isAdmin_of_hasScope {key : APIKey} (held : hasScope key .admin = true) :
    isAdmin key = true := by
  have text : Scope.text .admin = str "admin" := rfl
  simp only [hasScope, text, or_self] at held
  exact held

theorem authOrAPIKeyMiddleware_accepted {scope : Scope} {server : Server} {r : Request}
    {key : APIKey} {after : Manager} (carried : r.apiKey ≠ [])
    (accepted : server.apiKeyMgr.validateKey sha256 r.clock.checked r.clock.counted r.apiKey scope =
      (.ok key, after)) (next : Handler) :
    authOrAPIKeyMiddleware sha256 hmac secret scope next server r =
      next { server with apiKeyMgr := after } (r.ofKey key) := by
  simp only [authOrAPIKeyMiddleware, if_pos carried, accepted]

theorem rbacMiddleware_ofKey (server : Server) (r : Request) (key : APIKey) (next : Handler) :
    rbacMiddleware (str "Admin") next server (r.ofKey key) =
      if isAdmin key then next server (r.ofKey key)
      else (.error 403 (str "\x7b\"error\": \"Insufficient permissions\"\x7d"), server) := by
  rw [← allowed_admin_scopeToRole key]
  rfl

theorem role_of_mem {route : Route} (member : route ∈ routes) :
    route.role = none ∨ route.role = some (str "Admin") := by
  revert route
  decide

theorem scope_of_mem {route : Route} (member : route ∈ routes) (guarded : route.role ≠ none) :
    route.scope = .write ∨ route.scope = .admin := by
  revert route
  decide

theorem role_of_write {route : Route} (member : route ∈ routes) (writes : route.scope = .write) :
    route.role ≠ none := by
  revert route
  decide

theorem serve_accepted {route : Route} (member : route ∈ routes) {server : Server} {r : Request}
    {key : APIKey} {after : Manager} (carried : r.apiKey ≠ [])
    (accepted : server.apiKeyMgr.validateKey sha256 r.clock.checked r.clock.counted r.apiKey
      route.scope = (.ok key, after)) (handler : Handler) :
    route.serve sha256 hmac secret handler server r =
      if route.scope = .write ∧ isAdmin key = false then
        (.error 403 (str "\x7b\"error\": \"Insufficient permissions\"\x7d"),
          { server with apiKeyMgr := after })
      else handler { server with apiKeyMgr := after } (r.ofKey key) := by
  rw [Route.serve, authOrAPIKeyMiddleware_accepted sha256 hmac secret carried accepted, Route.nested]
  rcases role_of_mem member with free | asked
  · rw [free, if_neg fun refused => role_of_write member refused.1 free]
  · rw [asked]
    dsimp only
    rw [rbacMiddleware_ofKey]
    rcases scope_of_mem member (by rw [asked]; decide) with writes | administers
    · cases isAdmin key <;> simp [writes]
    · have held : hasScope key .admin = true := by
        have passed := (Manager.validateKey_ok (by rw [accepted])).2
        rw [administers] at passed
        exact hasScope_of_checkKey (by decide) passed
      simp [isAdmin_of_hasScope held]

/-! ## Who reaches a handler -/

inductive Outcome (next : Handler) (passes : Request → Prop) : Reply × Server → Prop
  | refused {status : Nat} {body : Bytes} {after : Server} :
      Outcome next passes (.error status body, after)
  | panicked {message : GoError} {after : Server} : Outcome next passes (.panicked message, after)
  | passed {after : Server} {r : Request} (kind : passes r) : Outcome next passes (next after r)

theorem Outcome.imp {next : Handler} {passes passes' : Request → Prop} {result : Reply × Server}
    (outcome : Outcome next passes result) (imply : ∀ r, passes r → passes' r) :
    Outcome next passes' result := by
  cases outcome with
  | refused => exact .refused
  | panicked => exact .panicked
  | passed kind => exact .passed (imply _ kind)

theorem Outcome.nested {role : Bytes} {next : Handler} {passes : Request → Prop}
    {result : Reply × Server} (outcome : Outcome (rbacMiddleware role next) passes result) :
    Outcome next (fun r => passes r ∧ ∃ claims, r.user = some claims ∧
      allowed role claims.role = true) result := by
  cases outcome with
  | refused => exact .refused
  | panicked => exact .panicked
  | @passed after r kind =>
    unfold rbacMiddleware
    cases user : r.user with
    | none => exact .refused
    | some claims =>
      dsimp only
      split
      · next enough => exact .passed ⟨kind, claims, user, enough⟩
      · exact .refused

def ByToken (server : Server) (r passedOn : Request) : Prop :=
  ∃ claims auth, Auth.verifyJWT hmac secret r.clock.verified (r.authHeader.drop 7) server.auth =
    .ok (.ok claims, auth) ∧ passedOn = r.ofClaims claims

def ByKey (scope : Scope) (server : Server) (r passedOn : Request) : Prop :=
  ∃ key, (server.apiKeyMgr.validateKey sha256 r.clock.checked r.clock.counted r.apiKey scope).1 =
    .ok key ∧ passedOn = r.ofKey key

theorem byToken_outcome (next : Handler) (server : Server) (r : Request) :
    Outcome next (ByToken hmac secret server r) (byToken hmac secret next server r) := by
  unfold byToken
  split
  · exact .refused
  · split
    · exact .panicked
    · exact .refused
    · next claims auth verified =>
        split
        · exact .refused
        · exact .passed ⟨claims, auth, verified, rfl⟩

theorem authOrAPIKeyMiddleware_outcome (scope : Scope) (next : Handler) (server : Server)
    (r : Request) :
    Outcome next
      (fun passedOn => ByKey sha256 scope server r passedOn ∨ ByToken hmac secret server r passedOn)
      (authOrAPIKeyMiddleware sha256 hmac secret scope next server r) := by
  unfold authOrAPIKeyMiddleware
  split
  · split
    · next key after accepted => exact .passed (.inl ⟨key, by rw [accepted], rfl⟩)
    · next after _ =>
        exact (byToken_outcome hmac secret next { server with apiKeyMgr := after } r).imp
          fun _ token => .inr token
  · exact (byToken_outcome hmac secret next server r).imp fun _ token => .inr token

/-- A key without the scope of an administrator never opens what asks for one: the handler is
reached only with a token that says so. -/
theorem admin_outcome (scope : Scope) (next : Handler) (server : Server) (r : Request)
    (plain : ∀ key, server.apiKeyMgr.keys.lookup ((sha256 r.apiKey).flatMap hexByte) = some key →
      isAdmin key = false) :
    Outcome next
      (fun passedOn => ∃ claims auth,
        Auth.verifyJWT hmac secret r.clock.verified (r.authHeader.drop 7) server.auth =
          .ok (.ok claims, auth) ∧
        equalFold claims.role (str "Admin") = true ∧ passedOn = r.ofClaims claims)
      (authOrAPIKeyMiddleware sha256 hmac secret scope (rbacMiddleware (str "Admin") next)
        server r) := by
  refine (authOrAPIKeyMiddleware_outcome sha256 hmac secret scope _ server r).nested.imp ?_
  rintro passedOn ⟨⟨key, accepted, rfl⟩ | ⟨claims, auth, verified, rfl⟩, user, held, enough⟩
  · cases held
    have admin : isAdmin key = true := (allowed_admin_scopeToRole key).symm.trans enough
    rw [plain key (Manager.validateKey_ok accepted).1] at admin
    cases admin
  · cases held
    exact ⟨claims, auth, verified, enough, rfl⟩

/-- A key that is accepted for the scope of a route passes up to whatever handler it has just when
the route is not one for writing or the key has the scope of an administrator, and is refused
otherwise; and without that scope a key never passes a role of administrators. -/
theorem key_authority :
    (∀ route ∈ routes, ∀ (server : Server) (r : Request) (key : APIKey) (after : Manager),
      r.apiKey ≠ [] →
      server.apiKeyMgr.validateKey sha256 r.clock.checked r.clock.counted r.apiKey route.scope =
        (.ok key, after) →
      ((∀ handler : Handler, route.serve sha256 hmac secret handler server r =
          handler { server with apiKeyMgr := after } (r.ofKey key)) ↔
        (route.scope ≠ .write ∨ isAdmin key = true)) ∧
      (route.scope = .write → isAdmin key = false → ∀ handler : Handler,
        route.serve sha256 hmac secret handler server r =
          (.error 403 (str "\x7b\"error\": \"Insufficient permissions\"\x7d"),
            { server with apiKeyMgr := after }))) ∧
    ∀ (scope : Scope) (next : Handler) (server : Server) (r : Request),
      (∀ key, server.apiKeyMgr.keys.lookup ((sha256 r.apiKey).flatMap hexByte) = some key →
        isAdmin key = false ∧ hasScope key scope = false) →
      Outcome next
        (fun passedOn => ∃ claims auth,
          Auth.verifyJWT hmac secret r.clock.verified (r.authHeader.drop 7) server.auth =
            .ok (.ok claims, auth) ∧
          equalFold claims.role (str "Admin") = true ∧ passedOn = r.ofClaims claims)
        (authOrAPIKeyMiddleware sha256 hmac secret scope (rbacMiddleware (str "Admin") next)
          server r) := by
  refine ⟨?_, ?_⟩
  · intro route member server r key after carried accepted
    have served := serve_accepted sha256 hmac secret member carried accepted
    refine ⟨⟨fun passes => ?_, fun enough handler => ?_⟩, fun writes plain handler => ?_⟩
    · -- a handler that answers something else tells the refusal from the passage
      by_contra refused
      obtain ⟨writes, plain⟩ := not_or.mp refused
      have answered := (passes fun server _ => (.written 200 [], server)).symm.trans (served _)
      rw [if_pos ⟨not_not.mp writes, Bool.not_eq_true _ ▸ plain⟩] at answered
      cases answered
    · rw [served, if_neg]
      rintro ⟨writes, plain⟩
      rcases enough with other | admin
      · exact other writes
      · rw [plain] at admin
        cases admin
    · rw [served, if_pos ⟨writes, plain⟩]
  · intro scope next server r plain
    exact admin_outcome sha256 hmac secret scope next server r fun key found => (plain key found).1

end

/-! A key at a route for writing. -/

def deployKey (scopes : List Scope) : APIKey where
  id := str "02"
  name := str "deploy"
  keyHash := (str "k").flatMap hexByte
  keyPrefix := str "obs_"
  scopes := scopes
  createdAt := 0
  expiresAt := none
  enabled := true
  rateLimit := 0
  description := []
  createdBy := str "admin"

def deployServer (scopes : List Scope) : Server where
  apiKeyMgr :=
    { keys :=
        (∅ : AList fun _ : Bytes => APIKey).insert ((str "k").flatMap hexByte) (deployKey scopes)
      prefixes := ∅
      usage := ∅ }
  auth := ⟨str "obsidian-development-secret-key", true⟩

def deployRequest : Request where
  apiKey := str "k"
  authorization := []
  token := []
  clock := ⟨0, 0, 0, 0⟩

def createRoute : Route where
  path := str "/api/rules/create"
  scope := .write
  role := str "Admin"

def whoami : Handler := fun server r => (.written 200 r.actor, server)

theorem key_authority_deploy :
    (createRoute.serve id (fun _ text => text) [] whoami (deployServer [.write, .admin])
      deployRequest).1 = .written 200 (str "api:deploy") ∧
    (createRoute.serve id (fun _ text => text) [] whoami (deployServer [.write])
      deployRequest).1 = .error 403 (str "\x7b\"error\": \"Insufficient permissions\"\x7d") ∧
    Outcome whoami
      (fun passedOn => ∃ claims auth,
        Auth.verifyJWT (fun _ text => text) [] 0 (deployRequest.authHeader.drop 7)
          (deployServer [.write]).auth = .ok (.ok claims, auth) ∧
        equalFold claims.role (str "Admin") = true ∧ passedOn = deployRequest.ofClaims claims)
      (authOrAPIKeyMiddleware id (fun _ text => text) [] .admin
        (rbacMiddleware (str "Admin") whoami) (deployServer [.write]) deployRequest) := by
  obtain ⟨accepted, unheld⟩ := key_authority id (fun _ text => text) []
  have atCreate := fun scopes => accepted createRoute (by decide) (deployServer scopes) deployRequest
    (deployKey scopes) (deployServer scopes).apiKeyMgr (by decide)
  refine ⟨?_, ?_, ?_⟩
  · rw [(atCreate [.write, .admin] rfl).1.mpr (.inr (by decide)) whoami]
    rfl
  · rw [(atCreate [.write] rfl).2 rfl (by decide) whoami]
  · refine unheld .admin whoami (deployServer [.write]) deployRequest ?_
    intro key found
    obtain rfl : deployKey [.write] = key := Option.some.inj found
    exact ⟨by decide, by decide⟩

/-- `ValidateKey` accepts a key for writing, and the role check nested inside the route refuses
it. -/
theorem key_refused :
    createRoute ∈ routes ∧
      ((deployServer [.write]).apiKeyMgr.validateKey id 0 0 deployRequest.apiKey
        createRoute.scope).1 = .ok (deployKey [.write]) ∧
      ∀ handler : Handler,
        (createRoute.serve id (fun _ text => text) [] handler (deployServer [.write])
          deployRequest).1 =
        .error 403 (str "\x7b\"error\": \"Insufficient permissions\"\x7d") := by
  refine ⟨by decide, by decide +kernel, fun handler => ?_⟩
  rfl

end Obsidian.App.Guards
