import Obsidian.App.ClientAddresses
import Obsidian.App.Store

namespace Obsidian.App

open Obsidian.Data Http

/-! # The WAF middleware

`wafMiddleware` serves a request: the threat intelligence, the two request phases of a
transaction, the handler, the response headers, the log.
-/

structure Threat where
  category : Bytes
  source : Bytes
deriving DecidableEq, Repr

/-- What the middleware is set up with.  `checkIP` is the entry of a blocked address,
`jsonString` the way `encoding/json` writes a string. -/
structure Server where
  host : Host
  waf : WAF
  securityMgr : Option Security.Manager
  checkIP : Bytes → Option Threat
  jsonString : Bytes → Bytes

/-- A handler may panic after some calls. -/
structure Answer where
  calls : List HandlerCall
  panics : Bool := false

structure Exchange (s : Server) where
  request : Request
  requestID : Bytes
  header : HeaderMap
  isFlusher : Bool
  handler : (List Nat → Option (Bytes × ReadEnd GoError)) → Answer
  object : PoolObject s.host s.waf
  options : Options
  now : Int

/-! ## Attack rules -/

def isCRSEvaluationRule (ruleID : Int) : Bool :=
  (900100 ≤ ruleID ∧ ruleID < 901000) ∨ (949000 ≤ ruleID ∧ ruleID < 950000) ∨
    (959000 ≤ ruleID ∧ ruleID < 960000) ∨ (980000 ≤ ruleID ∧ ruleID < 990000)

def resolveAttackRuleID (interruptRuleID : Int) (tx : Transaction) : Int :=
  if isCRSEvaluationRule interruptRuleID = false then interruptRuleID
  else
    ((tx.matchedRules.map (·.rule.id)).find? fun id =>
      id ≠ interruptRuleID ∧ isCRSEvaluationRule id = false ∧ 900000 ≤ id).getD interruptRuleID

/-! ## Responses -/

/-- `Header.Set` with a key in canonical form. -/
def setHeader (key : String) (value : Bytes) (header : HeaderMap) : HeaderMap :=
  header.filter (fun entry => entry.1.text ≠ str key) ++ [(.lit key, [value])]

def threatCalls (s : Server) (requestID : Bytes) (header : HeaderMap) (entry : Threat) :
    List WriterCall :=
  [.writeHeader 403 header,
    .write (str "\x7b\"blocked\":true,\"reason\":" ++
      s.jsonString (str "IP blocked by threat intelligence: " ++ entry.category) ++
      str ",\"request_id\":" ++ s.jsonString requestID ++ str "\x7d\n")]

/-- The response of `processInterruption`: its status is 403, whatever the rule says. -/
def blockingCalls (s : Server) (requestID : Bytes) (header : HeaderMap) (it : Interruption) :
    List WriterCall :=
  [.writeHeader 403 (setHeader "X-Request-Id" requestID header),
    .write (str "\x7b\"action\":" ++ s.jsonString it.action ++ str ",\"blocked\":true,\"request_id\":" ++
      s.jsonString requestID ++ str ",\"rule_id\":" ++ itoa it.ruleID ++ str "\x7d\n")]

/-- The response of the deferred recovery, `http.Error`. -/
def recoveryCalls (header : HeaderMap) : List WriterCall :=
  let header := header.filter fun entry => entry.1.text ≠ str "Content-Length"
  let header := setHeader "Content-Type" (str "text/plain; charset=utf-8") header
  [.writeHeader 500 (setHeader "X-Content-Type-Options" (str "nosniff") header),
    .write (str "Internal Server Error\n")]

/-- `responseRecorder` passes every call on and keeps the last status code. -/
def recordedStatus (calls : List HandlerCall) : Int :=
  calls.foldl (fun statusCode call =>
    match call with
    | .writeHeader code => code
    | _ => statusCode) 200

def recordedHeader (header : HeaderMap) (calls : List HandlerCall) : HeaderMap :=
  calls.foldl (fun header call =>
    match call with
    | .setHeader changed => changed
    | _ => header) header

def recorderCalls (isFlusher : Bool) (header : HeaderMap) (calls : List HandlerCall) :
    List WriterCall :=
  (directCalls header calls).filter fun call => call ≠ .flush ∨ isFlusher

/-! ## Serving a request -/

def isStaticAsset (path : Bytes) : Bool :=
  [str "/css/", str "/js/", str "/assets/"].any (·.isPrefixOf path) ||
    [str ".css", str ".js", str ".png", str ".jpg", str ".svg", str ".ico", str ".woff",
      str ".woff2"].any (·.isSuffixOf path)

/-- What came of a request.  `headersAt` and `bodyAt` are the transactions on which the request
phases were processed, `final` the one that is logged and closed. -/
structure Served where
  store : Store
  calls : List WriterCall
  reached : Bool
  panicked : Bool := false
  headersAt : Option Transaction := none
  bodyAt : Option Transaction := none
  final : Option Transaction := none

namespace Server

variable (s : Server)

def feed (r : Request) (tx : Transaction) : Transaction :=
  let tx := processConnection tx r.remoteAddr 0 [] 0
  let tx := processURI s.host s.waf tx r.url r.method r.proto
  addRequestHeaders s.host r.header tx

section

variable (x : Exchange s)

def clientIP : Bytes := extractClientIP s.securityMgr x.request

def entry (action : Bytes) (status : LogStatus) (statusCode ruleID : Int) : LogEntry :=
  { clientIP := s.clientIP x
    method := x.request.method
    uri := x.request.path
    ruleID, action, status, statusCode
    userAgent := x.request.get "User-Agent" }

/-- `processInterruption`, and the deferred logging. -/
def processInterruption (store : Store) (tx : Transaction) (it : Interruption) : Served :=
  let realRuleID := resolveAttackRuleID it.ruleID tx
  let store := store.addLog s.host.toRuntime (s.entry x it.action .blocked 403 realRuleID)
  { store := auditInto s.host s.waf tx store
    calls := blockingCalls s x.requestID x.header it
    reached := false
    final := some tx }

def answer (tx : Transaction) : Answer :=
  x.handler fun sizes =>
    readAll (x.request.originalBody.read s.host tx) sizes x.request.originalBody.state

def processResponse (tx : Transaction) : Transaction :=
  let calls := (s.answer x tx).calls
  let tx := addResponseHeaders s.host (recordedHeader x.header calls) tx
  (processResponseHeaders s.host s.waf tx (recordedStatus calls) (str "HTTP/1.1")).1

def logResponse (store : Store) (tx : Transaction) (statusCode : Int) : Store :=
  if tx.interruption.isSome then store
  else if isStaticAsset x.request.path then store.incrementSafeRequest
  else store.addSafeLog (s.entry x (str "Pass") .safe statusCode 0)

def passOn (store : Store) (tx : Transaction) : Served :=
  let answer := s.answer x tx
  let calls := recorderCalls x.isFlusher x.header answer.calls
  if answer.panics then
    { store := auditInto s.host s.waf tx store
      calls := calls ++ recoveryCalls (recordedHeader x.header answer.calls)
      reached := true
      panicked := true
      final := some tx }
  else
    let tx := s.processResponse x tx
    let store := s.logResponse x store tx (recordedStatus answer.calls)
    { store := auditInto s.host s.waf tx store, calls, reached := true, final := some tx }

def transaction : Transaction := x.object.newTransaction x.options x.now

def serve (store : Store) : Served :=
  match s.checkIP (s.clientIP x) with
  | some entry =>
    { store := store.addLog s.host.toRuntime (s.entry x (str "Deny") .threatBlocked 403 0)
      calls := threatCalls s x.requestID x.header entry
      reached := false }
  | none =>
    if x.request.path = str "/api/ws" then
      let answer := s.answer x (s.transaction x)
      { store
        calls := directCalls x.header answer.calls ++
          (if answer.panics then recoveryCalls (recordedHeader x.header answer.calls) else [])
        reached := true
        panicked := answer.panics }
    else
      let headersAt := s.feed x.request (s.transaction x)
      let (bodyAt, reply) := processRequestHeaders s.host s.waf headersAt
      match reply.interruption with
      | some it => { s.processInterruption x store bodyAt it with headersAt := some headersAt }
      | none =>
        let (tx, reply) := processRequestBody s.host s.waf bodyAt
        let served :=
          match reply.interruption with
          | some it => s.processInterruption x store tx it
          | none => s.passOn x store tx
        { served with headersAt := some headersAt, bodyAt := some bodyAt }

end

end Server

/-! ## The configuration -/

namespace Waf

/-- `^[45]..` -/
def relevantStatus : Regexp where
  matchString
    | first :: _ :: _ :: _ => first = byte '4' ∨ first = byte '5'
    | _ => false

/-- `NewWAF` without the rule set of OWASP, given the rules of the custom file. -/
def newWAF (tmpDir : Bytes) (rules : List RuleChain) : WAF :=
  { Obsidian.newWAF tmpDir with
    rules
    requestBodyAccess := true
    responseBodyAccess := true
    responseBodyMimeTypes := [str "text/plain", str "text/html", str "text/xml", str "application/json"]
    auditEngine := .relevantOnly
    auditLogRelevantStatus := some relevantStatus }

end Waf

/-- A server without threats whose WAF has one rule, `id:1,deny,status:403` in the given phase,
with `log` or `nolog`. -/
def denyServer (phase : RulePhase) (log : Bool) : Server where
  host := .plain
  waf := Waf.newWAF [] [{ head := {
    id := 1, phase, log, audit := true, disruptiveStatus := 403,
    actions := [⟨str "deny", .deny⟩] } }]
  securityMgr := none
  checkIP _ := none
  jsonString text := 34 :: text ++ [34]

def plainExchange (s : Server) (remoteAddr : Bytes) : Exchange s where
  request := {
    remoteAddr, url := str "/", path := str "/", method := str "GET", proto := str "HTTP/1.1"
    header := [], host := [], transferEncoding := none, body := none }
  requestID := str "1"
  header := []
  isFlusher := true
  handler _ := { calls := [.writeHeader 200, .write { bytes := str "secret" }] }
  object := .new s.host s.waf
  options := ⟨str "a", 0⟩
  now := 1

end Obsidian.App
