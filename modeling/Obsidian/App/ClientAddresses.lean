import Obsidian.App.IPAllow
import Obsidian.App.Security
import Obsidian.Http.Middleware

namespace Obsidian.App

open Obsidian.Data

/-! # Who a request is from

Four layers of the middleware stack look for the address of the client: the allowlist,
the rate limiter, the GeoIP service and the threat intelligence check.  Two requests of
one peer that differ in `X-Forwarded-For` and `X-Real-IP` are told apart by the first
three.
-/

/-- `path` is `r.URL.Path`. -/
structure Request extends Http.Request where
  path : Bytes

def headerValues (header : Http.HeaderMap) (key : Bytes) : List Bytes :=
  ((header.find? fun entry => entry.1.text = key).map (·.2)).getD []

def Request.get (r : Request) (name : String) : Bytes :=
  ((headerValues r.header (canonicalMIMEHeaderKey (str name))).head?).getD []

def Request.xForwardedFor (r : Request) : Bytes := r.get "X-Forwarded-For"

def Request.xRealIP (r : Request) : Bytes := r.get "X-Real-IP"

/-! ## The four layers -/

def isAdminPath (path : Bytes) : Bool :=
  (str "/api/admin/").isPrefixOf path ∨ (str "/api/security/").isPrefixOf path ∨
    (str "/api/apikeys").isPrefixOf path

structure AllowlistRefusal where
  status : Int := 403
  error : Bytes := str "IP address not in allowlist"
  ip : Bytes
  message : Bytes := str "Contact administrator to add your IP to the allowlist"
deriving DecidableEq, Repr

/-- `ipAllowlistMiddleware`: `none` if the request is passed on. -/
def ipAllowlistMiddleware (ipAllowMgr : Option IPAllow.Manager) (r : Request) :
    Option AllowlistRefusal :=
  match ipAllowMgr with
  | none => none
  | some m =>
    if m.config.enabled ∧ isAdminPath r.path then
      let clientIP := IPAllow.extractIP r.remoteAddr r.xForwardedFor
      if m.isAllowed clientIP then none
      else if r.get "X-IP-Bypass" ≠ [] ∧ m.checkBypassHeader (r.get "X-IP-Bypass") then none
      else some { ip := clientIP }
    else none

namespace RateLimit

/-- The address without what follows its last colon, unless a bracket comes after that. -/
def stripPort (remoteAddr : Bytes) : Bytes :=
  let tail := remoteAddr.reverse.takeWhile fun b => b ≠ byte ':' ∧ b ≠ byte ']'
  match remoteAddr.reverse.drop tail.length with
  | b :: front => if b = byte ':' then front.reverse else remoteAddr
  | [] => remoteAddr

def extractIP (r : Request) : Bytes :=
  if r.xForwardedFor ≠ [] then IPAllow.firstEntry r.xForwardedFor
  else if r.xRealIP ≠ [] then r.xRealIP
  else stripPort r.remoteAddr

example : stripPort (str "10.0.0.1:80") = str "10.0.0.1" := by decide
example : stripPort (str "[::1]:80") = str "[::1]" := by decide
example : stripPort (str "[::1]") = str "[::1]" := by decide

end RateLimit

namespace GeoIP

def extractIP (r : Request) : Bytes :=
  if r.xForwardedFor ≠ [] then trimSpace (IPAllow.firstEntry r.xForwardedFor)
  else if r.xRealIP ≠ [] then r.xRealIP
  else (splitHost r.remoteAddr).getD []

end GeoIP

def extractClientIP (securityMgr : Option Security.Manager) (r : Request) : Bytes :=
  match securityMgr with
  | some m => m.extractClientIP r.remoteAddr r.xForwardedFor r.xRealIP
  | none =>
    if r.xForwardedFor ≠ [] then
      trimSpace (((r.xForwardedFor.splitOn (byte ',')).head?).getD [])
    else if r.xRealIP ≠ [] then trimSpace r.xRealIP
    else (splitHost r.remoteAddr).getD r.remoteAddr

/-! ## Two requests of one peer -/

/-- The requests are equal but for `X-Forwarded-For` and `X-Real-IP`. -/
structure SameButAddress (r other : Request) : Prop where
  rest : { other with header := r.header } = r
  header : ∀ key, key ≠ str "X-Forwarded-For" → key ≠ str "X-Real-Ip" →
    headerValues other.header key = headerValues r.header key

structure SameClient (ipAllowMgr : Option IPAllow.Manager) (securityMgr : Security.Manager)
    (r other : Request) : Prop where
  allowlist : (ipAllowlistMiddleware ipAllowMgr r).isSome = (ipAllowlistMiddleware ipAllowMgr other).isSome
  rateLimit : RateLimit.extractIP r = RateLimit.extractIP other
  geoIP : GeoIP.extractIP r = GeoIP.extractIP other
  threat : extractClientIP (some securityMgr) r = extractClientIP (some securityMgr) other

/-! ## What a request says of its client -/

/-- What a request gives as its client's address: the first entry of `X-Forwarded-For`,
else `X-Real-IP`, else nothing. -/
inductive Named where
  | forwarded (ip : Bytes)
  | realIP (ip : Bytes)
  | unnamed
deriving DecidableEq, Repr

def Request.named (r : Request) : Named :=
  if r.xForwardedFor ≠ [] then .forwarded (IPAllow.firstEntry r.xForwardedFor)
  else if r.xRealIP ≠ [] then .realIP r.xRealIP
  else .unnamed

namespace Named

def rateLimitIP (remoteAddr : Bytes) : Named → Bytes
  | .forwarded ip => ip
  | .realIP ip => ip
  | .unnamed => RateLimit.stripPort remoteAddr

def geoIP (remoteAddr : Bytes) : Named → Bytes
  | .forwarded ip => trimSpace ip
  | .realIP ip => ip
  | .unnamed => (splitHost remoteAddr).getD []

def allowlistIP (remoteAddr : Bytes) : Named → Bytes
  | .forwarded ip => ip
  | _ => (splitHost remoteAddr).getD remoteAddr

end Named

def admits (ipAllowMgr : Option IPAllow.Manager) (r : Request) (ip : Bytes) : Bool :=
  ipAllowMgr.all fun m =>
    !(m.config.enabled && isAdminPath r.path) || m.isAllowed ip ||
      (r.get "X-IP-Bypass" != [] && m.checkBypassHeader (r.get "X-IP-Bypass"))

section

variable (ipAllowMgr : Option IPAllow.Manager) (r other : Request)

theorem rateLimitIP_named : RateLimit.extractIP r = r.named.rateLimitIP r.remoteAddr := by
  simp only [RateLimit.extractIP, Request.named]
  split
  · rfl
  · split <;> rfl

theorem geoIP_named : GeoIP.extractIP r = r.named.geoIP r.remoteAddr := by
  simp only [GeoIP.extractIP, Request.named]
  split
  · rfl
  · split <;> rfl

theorem allowlistIP_named :
    IPAllow.extractIP r.remoteAddr r.xForwardedFor = r.named.allowlistIP r.remoteAddr := by
  simp only [IPAllow.extractIP, Request.named]
  by_cases unset : r.xForwardedFor = []
  · by_cases unnamed : r.xRealIP = [] <;> simp [unset, unnamed, Named.allowlistIP]
  · simp [unset, Named.allowlistIP]

theorem ipAllowlistMiddleware_isSome :
    (ipAllowlistMiddleware ipAllowMgr r).isSome =
      !admits ipAllowMgr r (r.named.allowlistIP r.remoteAddr) := by
  cases ipAllowMgr with
  | none => rfl
  | some m =>
    simp only [ipAllowlistMiddleware, admits, allowlistIP_named, Option.all_some]
    by_cases guarded : m.config.enabled = true ∧ isAdminPath r.path = true
    · rw [if_pos guarded, guarded.1, guarded.2]
      cases m.isAllowed (r.named.allowlistIP r.remoteAddr) with
      | true => rfl
      | false =>
        by_cases bypassed : r.get "X-IP-Bypass" ≠ [] ∧
            m.checkBypassHeader (r.get "X-IP-Bypass") = true
        · simp [bypassed]
        · rw [if_neg (by decide), if_neg bypassed]
          simpa [imp_iff_not_or] using bypassed
    · rw [if_neg guarded]
      have passed : (m.config.enabled && isAdminPath r.path) = false := by simpa using guarded
      rw [passed]
      rfl

/-- Two different ways of naming a client that come to the same address in every layer. -/
def Named.Coincide (remoteAddr : Bytes) (admitted : Bytes → Bool) : Named → Named → Prop
  | .forwarded ip, .realIP named | .realIP named, .forwarded ip =>
    named = ip ∧ trimSpace ip = ip ∧ admitted ip = admitted ((splitHost remoteAddr).getD remoteAddr)
  | .forwarded ip, .unnamed | .unnamed, .forwarded ip =>
    ip = RateLimit.stripPort remoteAddr ∧ trimSpace ip = (splitHost remoteAddr).getD [] ∧
      admitted ip = admitted ((splitHost remoteAddr).getD remoteAddr)
  | .realIP ip, .unnamed | .unnamed, .realIP ip =>
    ip = RateLimit.stripPort remoteAddr ∧ ip = (splitHost remoteAddr).getD []
  | _, _ => False

theorem Named.coincide_iff (remoteAddr : Bytes) (admitted : Bytes → Bool) (first second : Named) :
    (admitted (first.allowlistIP remoteAddr) = admitted (second.allowlistIP remoteAddr) ∧
      first.rateLimitIP remoteAddr = second.rateLimitIP remoteAddr ∧
      first.geoIP remoteAddr = second.geoIP remoteAddr) ↔
    (first = second ∨ first.Coincide remoteAddr admitted second) := by
  cases first with
  | forwarded ip =>
    cases second <;> simp only [allowlistIP, rateLimitIP, geoIP, Coincide] <;> grind
  | realIP ip =>
    cases second <;> simp only [allowlistIP, rateLimitIP, geoIP, Coincide] <;> grind
  | unnamed =>
    cases second <;> simp only [allowlistIP, rateLimitIP, geoIP, Coincide] <;> grind

end

theorem sameClient_iff (ipAllowMgr : Option IPAllow.Manager) (securityMgr : Security.Manager)
    (r other : Request) (same : SameButAddress r other)
    (untrusted : securityMgr.isTrustedProxy (Security.directIP r.remoteAddr) = false) :
    SameClient ipAllowMgr securityMgr r other ↔
      r.named = other.named ∨
        r.named.Coincide r.remoteAddr (admits ipAllowMgr r) other.named := by
  have peer : other.remoteAddr = r.remoteAddr := congrArg (·.remoteAddr) same.rest
  have path : other.path = r.path := congrArg (·.path) same.rest
  have bypass : other.get "X-IP-Bypass" = r.get "X-IP-Bypass" := by
    simp only [Request.get]
    rw [same.header _ (by decide) (by decide)]
  have admitted : admits ipAllowMgr other = admits ipAllowMgr r := by
    funext ip
    simp only [admits, path, bypass]
  have direct : extractClientIP (some securityMgr) r = extractClientIP (some securityMgr) other := by
    simp only [extractClientIP, Security.Manager.extractClientIP_eq, peer, untrusted, if_true]
  rw [← Named.coincide_iff]
  constructor
  · intro client
    have decided := client.allowlist
    have rate := client.rateLimit
    have geo := client.geoIP
    rw [ipAllowlistMiddleware_isSome, ipAllowlistMiddleware_isSome, admitted, peer] at decided
    rw [rateLimitIP_named, rateLimitIP_named, peer] at rate
    rw [geoIP_named, geoIP_named, peer] at geo
    exact ⟨by simpa using decided, rate, geo⟩
  · rintro ⟨decided, rate, geo⟩
    refine { allowlist := ?_, rateLimit := ?_, geoIP := ?_, threat := direct }
    · rw [ipAllowlistMiddleware_isSome, ipAllowlistMiddleware_isSome, admitted, peer, decided]
    · rw [rateLimitIP_named, rateLimitIP_named, peer, rate]
    · rw [geoIP_named, geoIP_named, peer, geo]

def adminRequest (header : List (String × String)) : Request where
  remoteAddr := str "203.0.113.9:5000"
  url := str "/api/admin/users"
  path := str "/api/admin/users"
  method := str "GET"
  proto := str "HTTP/1.1"
  header := header.map fun entry => (.lit entry.1, [str entry.2])
  host := []
  transferEncoding := none
  body := none

def enabledAllowlist : IPAllow.Manager := .new { enabled := true }

theorem sameClient_firstEntry :
    SameClient (some enabledAllowlist) Security.exampleManager
      (adminRequest [("X-Forwarded-For", "192.0.2.1, 192.0.2.2")])
      (adminRequest [("X-Forwarded-For", "192.0.2.1"), ("X-Real-Ip", "192.0.2.3")]) := by
  refine (sameClient_iff _ _ _ _ ⟨rfl, ?_⟩ (by decide)).mpr (.inl (by decide))
  intro key notForwarded notReal
  simp [headerValues, adminRequest, GoString.lit, notForwarded.symm, notReal.symm]

theorem sameClient_loopback :
    SameButAddress (adminRequest []) (adminRequest [("X-Forwarded-For", "127.0.0.1")]) ∧
      Security.exampleManager.isTrustedProxy (Security.directIP (adminRequest []).remoteAddr) = false ∧
      (ipAllowlistMiddleware (some enabledAllowlist) (adminRequest [])).isSome = true ∧
      ipAllowlistMiddleware (some enabledAllowlist)
        (adminRequest [("X-Forwarded-For", "127.0.0.1")]) = none ∧
      ¬ SameClient (some enabledAllowlist) Security.exampleManager (adminRequest [])
        (adminRequest [("X-Forwarded-For", "127.0.0.1")]) := by
  have refused : (ipAllowlistMiddleware (some enabledAllowlist) (adminRequest [])).isSome = true := by
    decide
  have passed : ipAllowlistMiddleware (some enabledAllowlist)
      (adminRequest [("X-Forwarded-For", "127.0.0.1")]) = none := by
    decide
  refine ⟨⟨rfl, ?_⟩, by decide, refused, passed, ?_⟩
  · intro key notForwarded _
    simp [headerValues, adminRequest, GoString.lit, notForwarded.symm]
  · intro client
    have same := client.allowlist
    rw [refused, passed] at same
    cases same

end Obsidian.App
