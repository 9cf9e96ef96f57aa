import Obsidian.Evaluate

namespace Obsidian

open Obsidian.Data

/-! # The transaction API

The calls a connector makes: creating a transaction, feeding it, processing its
phases, and closing it.  The request and the response side of the body calls are
written once over a `Direction`.
-/

structure URL where
  rawQuery : Bytes
  string : Bytes
  path : Bytes

structure BodyProcessor where
  processRequest : (body : Except GoError Bytes) → (mime storagePath : Bytes) →
    TransactionVariables → TransactionVariables × Option GoError
  processResponse : (body : Except GoError Bytes) → TransactionVariables →
    TransactionVariables × Option GoError

structure Host extends Runtime where
  disk : Disk
  bodyProcessors : Bytes → Option BodyProcessor
  parseRequestURI : Bytes → Except GoError URL
  parseQuery : (tick : Nat) → Bytes → List KeyValue
  parseCookies : (tick : Nat) → Bytes → List KeyValue
  quote : Bytes → Bytes
  timeOnly : Int → Bytes
  date : Int → Int × Int × Int
  weekday : Int → Int

def Host.getBodyProcessor (host : Host) (name : Bytes) : Except GoError BodyProcessor :=
  match host.bodyProcessors (host.toLower name) with
  | some processor => .ok processor
  | none => .error (str "invalid bodyprocessor " ++ host.quote name)

/-- A host on which everything is plain: ASCII text, maps walked in the order they
are stored in, a working disk, no body processors. -/
def Host.plain : Host where
  unicodeLower := id
  unicodeUpper := id
  mapOrder := fun _ _ keys => keys
  mapOrder_perm := fun _ _ keys => List.Perm.refl keys
  alloc := .heap
  now := fun _ => 0
  shouldUseCaseSensitiveNamedCollection := false
  disk := {
    hasAccessToFS := true
    createTemp := fun _ => none
    write := fun _ data => (data.length, none)
    read := fun _ => none }
  bodyProcessors := fun _ => none
  parseRequestURI := fun uri => .ok { rawQuery := [], string := uri, path := uri }
  parseQuery := fun _ _ => []
  parseCookies := fun _ _ => []
  quote := fun text => 34 :: text ++ [34]
  timeOnly := fun _ => str "00:00:00"
  date := fun _ => (1970, 1, 1)
  weekday := fun _ => 4

theorem Host.plain_reliable : Host.plain.disk.Reliable :=
  ⟨rfl, fun _ => rfl, fun _ _ => rfl, fun _ => rfl⟩

/-! ## Creating and closing -/

def newWAF (tmpDir : Bytes) : WAF where
  rules := []
  requestBodyAccess := false
  requestBodyLimit := 134217728
  requestBodyInMemoryLimit := none
  responseBodyAccess := false
  responseBodyLimit := 524288
  ruleEngine := .on
  responseBodyMimeTypes := []
  tmpDir := tmpDir
  uploadDir := []
  requestBodyLimitAction := .reject
  responseBodyLimitAction := .processPartial
  auditEngine := .on
  auditLogParts := str "BCFH"
  auditLogFormat := str "Native"
  auditLogRelevantStatus := none
  argumentLimit := 1000
  debugLogLevel := 0

structure Options where
  id : Bytes
  context : Nat

namespace Transaction

def timeVariables (host : Host) (timestamp : Int) (v : TransactionVariables) :
    TransactionVariables :=
  let timeOnly := host.timeOnly timestamp
  let (y, m, d) := host.date timestamp
  let v := v.setSingle .timeEpoch (itoa (timestamp / 1000000000))
  let v := v.setSingle .time timeOnly
  let v := v.setSingle .timeHour (timeOnly.take 2)
  let v := v.setSingle .timeMin ((timeOnly.drop 3).take 2)
  let v := v.setSingle .timeSec ((timeOnly.drop 6).take 2)
  let v := v.setSingle .timeDay (itoa d)
  let v := v.setSingle .timeMon (itoa m)
  let v := v.setSingle .timeYear (itoa y)
  v.setSingle .timeWday (itoa (host.weekday timestamp))

def zeroDefaults : List SingleField := [
  .filesCombinedSize, .urlencodedError, .fullRequestLength, .multipartDataAfter,
  .outboundDataError, .reqbodyError, .reqbodyProcessorError, .requestBodyLength,
  .duration, .highestSeverity]

def initVariables (host : Host) (id : Bytes) (now : Int) (v : TransactionVariables) :
    TransactionVariables :=
  let v := (List.range 11).foldl (fun v (i : Nat) =>
    let key := itoa i
    v.mapSet host.toRuntime .tx ⟨.literal key, key⟩ [[]]) v
  let v := zeroDefaults.foldl (fun v field => v.setSingle field (str "0")) v
  timeVariables host now (v.setSingle .uniqueID id)

end Transaction

namespace WAF

def requestBodyOptions (w : WAF) : BodyBufferOptions :=
  { tmpPath := w.tmpDir
    memoryLimit := w.requestBodyInMemoryLimit.getD w.requestBodyLimit
    limit := w.requestBodyLimit }

def responseBodyOptions (w : WAF) : BodyBufferOptions :=
  { tmpPath := w.tmpDir, memoryLimit := w.responseBodyLimit, limit := w.responseBodyLimit }

/-- `WAF.newTransaction` with the object `txPool.Get` returned: `none` is a new
one, whose buffers and variables are still nil. -/
def newTransaction (host : Host) (w : WAF) (opts : Options) (now : Int)
    (pooled : Option Transaction) : Transaction where
  id := opts.id
  context := opts.context
  matchedRules := []
  interruption := none
  logdata := []
  skipAfter := []
  auditEngine := w.auditEngine
  auditLogParts := w.auditLogParts
  auditLogFormat := w.auditLogFormat
  forceRequestBodyVariable := false
  requestBodyAccess := w.requestBodyAccess
  requestBodyLimit := w.requestBodyLimit
  -- the source does not assign this one
  forceResponseBodyVariable := pooled.elim false (·.forceResponseBodyVariable)
  responseBodyAccess := w.responseBodyAccess
  responseBodyLimit := w.responseBodyLimit
  ruleEngine := w.ruleEngine
  hashEngine := false
  hashEnforcement := false
  lastPhase := .unknown
  ruleRemoveByID := []
  ruleRemoveTargetByID := []
  skip := 0
  allowType := .unset
  capture := false
  stopWatches := fun _ => 0
  debugLogLevel := w.debugLogLevel
  timestamp := now
  audit := false
  requestBodyBuffer := pooled.elim (.new w.requestBodyOptions) (·.requestBodyBuffer)
  responseBodyBuffer := pooled.elim (.new w.responseBodyOptions) (·.responseBodyBuffer)
  vars := Transaction.initVariables host opts.id now (pooled.elim .new (·.vars))
  transformationCache := pooled.elim ∅ (·.transformationCache)
  ticks := 0
  history := {}

end WAF

def Transaction.close (tx : Transaction) : Transaction :=
  { tx with
    vars := tx.vars.reset
    requestBodyBuffer := tx.requestBodyBuffer.reset
    responseBodyBuffer := tx.responseBodyBuffer.reset }

/-! ## Feeding the transaction -/

section Feeding

variable (host : Host) (waf : WAF) (tx : Transaction)

def addRequestHeader (key : GoString) (value : Bytes) : Transaction :=
  if key.text = [] then tx
  else
    let keyl := host.toLower key.text
    let v := tx.vars.mapAdd host.toRuntime .requestHeaders key value
    if keyl = str "content-type" then
      let val := host.toLower value
      if val = str "application/x-www-form-urlencoded" then
        { tx with vars := v.setSingle .reqbodyProcessor (str "URLENCODED") }
      else if (str "multipart/form-data").isPrefixOf val then
        { tx with vars := v.setSingle .reqbodyProcessor (str "MULTIPART") }
      else { tx with vars := v }
    else if keyl = str "cookie" then
      let v := (host.parseCookies tx.ticks value).foldl (fun v pair =>
        v.mapAdd host.toRuntime .requestCookies pair.key pair.value) v
      { tx with vars := v, ticks := tx.ticks + 1 }
    else { tx with vars := v }

def addResponseHeader (key : GoString) (value : Bytes) : Transaction :=
  if key.text = [] then tx
  else
    let v := tx.vars.mapAdd host.toRuntime .responseHeaders key value
    if host.toLower key.text = str "content-type" then
      { tx with vars := v.setSingle .responseContentType (value.takeWhile (· ≠ 59)) }
    else { tx with vars := v }

def addArgument (field : MapField) (key : GoString) (value : Bytes) (v : TransactionVariables) :
    TransactionVariables :=
  if (v.map field).keys.length ≥ waf.argumentLimit then v
  else v.mapAdd host.toRuntime field key value

def extractGetArguments (tick : Nat) (uri : Bytes) (v : TransactionVariables) :
    TransactionVariables :=
  (host.parseQuery tick uri).foldl (fun v (pair : KeyValue) =>
    addArgument host waf .argsGet pair.key pair.value v) v

def processConnection (client : Bytes) (cPort : Int) (server : Bytes) (sPort : Int) :
    Transaction :=
  let v := tx.vars.setSingle .remoteAddr client
  let v := v.setSingle .remotePort (itoa cPort)
  let v := v.setSingle .serverAddr server
  { tx with vars := v.setSingle .serverPort (itoa sPort) }

def basename (path : Bytes) : Bytes :=
  let tail := (path.reverse.takeWhile fun b => b ≠ 47 ∧ b ≠ 92).reverse
  if tail = [] then path else tail

def processURI (uri method httpVersion : Bytes) : Transaction :=
  let v := tx.vars.setSingle .requestMethod method
  let v := v.setSingle .requestProtocol httpVersion
  let v := v.setSingle .requestURIRaw uri
  let v := v.setSingle .requestLine (method ++ 32 :: uri ++ 32 :: httpVersion)
  let uri := uri.takeWhile (· ≠ 35)
  let (v, path, query) :=
    match host.parseRequestURI uri with
    | .error err =>
      ((v.setSingle .urlencodedError err).setSingle .requestURI uri, uri, [])
    | .ok parsed =>
      let v := extractGetArguments host waf tx.ticks parsed.rawQuery v
      (v.setSingle .requestURI parsed.string, parsed.path, parsed.rawQuery)
  let v := v.setSingle .requestBasename (basename path)
  let v := v.setSingle .requestFilename path
  { tx with vars := v.setSingle .queryString query, ticks := tx.ticks + 1 }

end Feeding

/-! ## The two directions -/

inductive Direction where
  | request | response
deriving DecidableEq, Repr

namespace Direction

def bodyPhase : Direction → RulePhase
  | .request => .requestBody
  | .response => .responseBody

def headersPhase : Direction → RulePhase
  | .request => .requestHeaders
  | .response => .responseHeaders

def status : Direction → Int
  | .request => 413
  | .response => 500

def dataError : Direction → SingleField
  | .request => .inboundDataError
  | .response => .outboundDataError

end Direction

def WAF.limitAction (w : WAF) : Direction → BodyLimitAction
  | .request => w.requestBodyLimitAction
  | .response => w.responseBodyLimitAction

def WAF.bodyOptions (w : WAF) : Direction → BodyBufferOptions
  | .request => w.requestBodyOptions
  | .response => w.responseBodyOptions

namespace Transaction

def bodyAccess (tx : Transaction) : Direction → Bool
  | .request => tx.requestBodyAccess
  | .response => tx.responseBodyAccess

def bodyLimit (tx : Transaction) : Direction → Int
  | .request => tx.requestBodyLimit
  | .response => tx.responseBodyLimit

def bodyBuffer (tx : Transaction) : Direction → BodyBuffer
  | .request => tx.requestBodyBuffer
  | .response => tx.responseBodyBuffer

def setBodyBuffer (tx : Transaction) (buffer : BodyBuffer) : Direction → Transaction
  | .request => { tx with requestBodyBuffer := buffer }
  | .response => { tx with responseBodyBuffer := buffer }

def flagDataError (tx : Transaction) (d : Direction) : Transaction :=
  { tx with vars := tx.vars.setSingle d.dataError (str "1") }

section

variable (tx : Transaction) (buffer : BodyBuffer) (d : Direction)

@[simp] theorem setBodyBuffer_bodyBuffer : (tx.setBodyBuffer buffer d).bodyBuffer d = buffer := by
  cases d <;> rfl

@[simp] theorem setBodyBuffer_bodyLimit (other : Direction) :
    (tx.setBodyBuffer buffer d).bodyLimit other = tx.bodyLimit other := by
  cases d <;> cases other <;> rfl

@[simp] theorem setBodyBuffer_interruption :
    (tx.setBodyBuffer buffer d).interruption = tx.interruption := by cases d <;> rfl

@[simp] theorem flagDataError_bodyBuffer (other : Direction) :
    (tx.flagDataError d).bodyBuffer other = tx.bodyBuffer other := by cases other <;> rfl

@[simp] theorem flagDataError_bodyLimit (other : Direction) :
    (tx.flagDataError d).bodyLimit other = tx.bodyLimit other := by cases other <;> rfl

end

/-- `setAndReturnBodyLimitInterruption`; the engine's mode is not looked at. -/
def interruptBodyLimit (tx : Transaction) (d : Direction) : Transaction :=
  tx.setInterruption { status := d.status, action := str "deny" }

def generateRequestBodyError (tx : Transaction) (err : GoError) : Transaction :=
  let v := tx.vars.setSingle .reqbodyError (str "1")
  let v := v.setSingle .reqbodyErrorMsg (v.single .reqbodyProcessor ++ str ": " ++ err)
  let v := v.setSingle .reqbodyProcessorError (str "1")
  { tx with vars := v.setSingle .reqbodyProcessorErrorMsg err }

def generateResponseBodyError (tx : Transaction) (err : GoError) : Transaction :=
  let v := tx.vars.setSingle .resBodyError (str "1")
  let v := v.setSingle .resBodyErrorMsg (v.single .resBodyProcessor ++ str ": " ++ err)
  let v := v.setSingle .resBodyProcessorError (str "1")
  { tx with vars := v.setSingle .resBodyProcessorErrorMsg err }

def isResponseBodyProcessable (waf : WAF) (tx : Transaction) : Bool :=
  tx.forceResponseBodyVariable ||
    waf.responseBodyMimeTypes.contains (tx.vars.single .responseContentType)

end Transaction

/-! ## Processing -/

structure Reply where
  interruption : Option Interruption := none
  written : Nat := 0
  err : Option GoError := none
deriving DecidableEq, Repr

/-- A call either returns or panics; the transaction stays as it is by then. -/
inductive Outcome where
  | returned (reply : Reply)
  | panicked
deriving DecidableEq, Repr

section Processing

variable (host : Host) (waf : WAF)

def WAF.engine (host : Host) (waf : WAF) : Engine :=
  { rt := host.toRuntime, waf, transform := transformArg }

def evalPhase (phase : RulePhase) (tx : Transaction) (err : Option GoError := none) :
    Transaction × Reply :=
  let tx := (waf.engine host).eval phase tx
  (tx, { interruption := tx.interruption, err })

def processRequestHeaders (tx : Transaction) : Transaction × Reply :=
  if tx.ruleEngine = .off then (tx, {})
  else if .requestHeaders ≤ tx.lastPhase then (tx, { interruption := tx.interruption })
  else if tx.interruption.isSome then (tx, { interruption := tx.interruption })
  else evalPhase host waf .requestHeaders tx

def prepareRequestBody (tx : Transaction) : Transaction :=
  let mime := ((tx.vars.mapGet host.toRuntime .requestHeaders (str "content-type")).head?).getD []
  let body := tx.requestBodyBuffer.readAll host.disk
  let tx := { tx with requestBodyBuffer := tx.requestBodyBuffer.reader }
  let rbp := tx.vars.single .reqbodyProcessor
  let rbp := if tx.forceRequestBodyVariable ∧ rbp = [] then str "URLENCODED" else rbp
  let tx :=
    if tx.forceRequestBodyVariable then
      { tx with vars := tx.vars.setSingle .reqbodyProcessor rbp }
    else tx
  let rbp := host.toLower rbp
  if rbp = [] then tx
  else
    match host.getBodyProcessor rbp with
    | .error _ => tx.generateRequestBodyError (str "invalid body processor")
    | .ok processor =>
      match processor.processRequest body mime waf.uploadDir tx.vars with
      | (v, some err) => { tx with vars := v }.generateRequestBodyError err
      | (v, none) => { tx with vars := v }

def processRequestBody (tx : Transaction) : Transaction × Reply :=
  if tx.ruleEngine = .off then (tx, {})
  else if tx.interruption.isSome then (tx, { interruption := tx.interruption })
  else if tx.lastPhase ≠ .requestHeaders then (tx, {})
  else if tx.requestBodyAccess = false ∨ tx.requestBodyBuffer.length = 0 then
    evalPhase host waf .requestBody tx
  else evalPhase host waf .requestBody (prepareRequestBody host waf tx)

def processResponseHeaders (tx : Transaction) (code : Int) (proto : Bytes) :
    Transaction × Reply :=
  if tx.ruleEngine = .off then (tx, {})
  else if .responseHeaders ≤ tx.lastPhase then (tx, { interruption := tx.interruption })
  else if tx.interruption.isSome then (tx, { interruption := tx.interruption })
  else
    let v := (tx.vars.setSingle .responseStatus (itoa code)).setSingle .responseProtocol proto
    evalPhase host waf .responseHeaders { tx with vars := v }

def processResponseBody (tx : Transaction) : Transaction × Reply :=
  if tx.ruleEngine = .off then (tx, {})
  else if tx.interruption.isSome then (tx, { interruption := tx.interruption })
  else if tx.lastPhase ≠ .responseHeaders then (tx, {})
  else if tx.responseBodyAccess = false ∨ tx.isResponseBodyProcessable waf = false then
    evalPhase host waf .responseBody tx
  else
    let body := tx.responseBodyBuffer.readAll host.disk
    let tx := { tx with responseBodyBuffer := tx.responseBodyBuffer.reader }
    let bp := tx.vars.single .resBodyProcessor
    if bp ≠ [] then
      match host.getBodyProcessor bp with
      | .error err =>
        let tx := tx.generateResponseBodyError (str "invalid body processor")
        evalPhase host waf .responseBody tx (some err)
      | .ok processor =>
        match processor.processResponse body tx.vars with
        | (v, some err) =>
          evalPhase host waf .responseBody ({ tx with vars := v }.generateResponseBodyError err)
        | (v, none) => evalPhase host waf .responseBody { tx with vars := v }
    else
      match body with
      | .error err => (tx, { interruption := tx.interruption, err := some err })
      | .ok content =>
        let v := tx.vars.setSingle .responseContentLength (itoa content.length)
        evalPhase host waf .responseBody { tx with vars := v.setSingle .responseBody content }

def processBody : Direction → Transaction → Transaction × Reply
  | .request => processRequestBody host waf
  | .response => processResponseBody host waf

def auditRelevant (tx : Transaction) : Bool :=
  match tx.auditEngine with
  | .off => false
  | .on => true
  | .relevantOnly =>
    tx.audit &&
      let status := tx.interruption.elim (tx.vars.single .responseStatus) (itoa ·.status)
      waf.auditLogRelevantStatus.all (·.matchString status)

/-- The audit log of `ProcessLogging`, of which only its reader of the request
body, taken for part C, is left in the transaction. -/
def writeAuditLog (tx : Transaction) : Transaction :=
  if auditRelevant waf tx then
    { tx with requestBodyBuffer :=
        { tx.requestBodyBuffer with
          readers := tx.requestBodyBuffer.readers + tx.auditLogParts.count 67 } }
  else tx

def processLogging (tx : Transaction) : Transaction :=
  writeAuditLog waf
    (if tx.ruleEngine ≠ .off then (waf.engine host).eval .logging tx else tx)

/-! ## Body writes -/

def errOverflow : GoError := str "overflow reached while writing request body"

def Transaction.bodyRoom (tx : Transaction) (d : Direction) : Int :=
  wrap64 (tx.bodyLimit d - (tx.bodyBuffer d).length)

inductive WritePlan where
  | overflow
  | reject
  | store (writingBytes : Int) (runProcessBody : Bool)
deriving DecidableEq, Repr

/-- The arithmetic of the four body writers, given the length of the data if it
is known up front.  Only the request side guards the sum against overflow. -/
def planWrite (d : Direction) (len : Option Nat) (tx : Transaction) : WritePlan :=
  match len with
  | none => .store (tx.bodyRoom d) false
  | some len =>
    let length := (tx.bodyBuffer d).length
    if d = .request ∧ wrap64 (maxInt64 - len) ≤ length then .overflow
    else if tx.bodyLimit d ≤ wrap64 (length + len) then
      match waf.limitAction d with
      | .reject => .reject
      | .processPartial => .store (tx.bodyRoom d) true
    else .store len false

def finishWrite (d : Direction) (runProcessBody : Bool) (written : Nat) (tx : Transaction) :
    Transaction × Outcome :=
  if runProcessBody then
    let (tx, reply) := processBody host waf d tx
    (tx, .returned { interruption := tx.interruption, written, err := reply.err })
  else (tx, .returned { interruption := tx.interruption, written })

def replyAtLimit (d : Direction) (tx : Transaction) : Outcome :=
  match waf.limitAction d with
  | .reject => .returned { interruption := tx.interruption }
  | .processPartial => .returned {}

def rejectBody (d : Direction) (tx : Transaction) : Transaction × Outcome :=
  let tx := (tx.flagDataError d).interruptBodyLimit d
  (tx, .returned { interruption := tx.interruption })

/-- `b[:writingBytes]` and `BodyBuffer.Write`.  A bound above the length would
have to exceed the capacity too: it only arises from a wrapped difference. -/
def storeSlice (d : Direction) (b : Bytes) (writingBytes : Int) (runProcessBody : Bool)
    (tx : Transaction) : Transaction × Outcome :=
  if writingBytes < 0 ∨ (b.length : Int) < writingBytes then (tx, .panicked)
  else
    match (tx.bodyBuffer d).write host.disk (b.take writingBytes.toNat) with
    | (buffer, _, some err) => (tx.setBodyBuffer buffer d, .returned { err := some err })
    | (buffer, w, none) => finishWrite host waf d runProcessBody w (tx.setBodyBuffer buffer d)

def finishCopy (d : Direction) (runProcessBody : Bool) (written : Nat) (tx : Transaction) :
    Transaction × Outcome :=
  if (tx.bodyBuffer d).length = tx.bodyLimit d then
    match waf.limitAction d with
    | .reject => rejectBody d tx
    | .processPartial => finishWrite host waf d true written (tx.flagDataError d)
  else finishWrite host waf d runProcessBody written tx

def storeCopy (d : Direction) (r : Reader) (writingBytes : Int) (runProcessBody : Bool)
    (tx : Transaction) : Transaction × Outcome :=
  match copyN host.disk (tx.bodyBuffer d) r writingBytes with
  | (buffer, w, some err) =>
    (tx.setBodyBuffer buffer d, .returned { written := w, err := some err })
  | (buffer, w, none) => finishCopy host waf d runProcessBody w (tx.setBodyBuffer buffer d)

def writeWith (d : Direction) (len : Option Nat)
    (store : (writingBytes : Int) → (runProcessBody : Bool) → Transaction → Transaction × Outcome)
    (tx : Transaction) : Transaction × Outcome :=
  if tx.ruleEngine = .off then (tx, .returned {})
  else if tx.bodyAccess d = false then (tx, .returned {})
  else if tx.bodyLimit d = (tx.bodyBuffer d).length then (tx, replyAtLimit waf d tx)
  else
    match planWrite waf d len tx with
    | .overflow => (tx, .returned { err := some errOverflow })
    | .reject => rejectBody d tx
    | .store writingBytes false => store writingBytes false tx
    | .store writingBytes true => store writingBytes true (tx.flagDataError d)

def writeBody (d : Direction) (b : Chunk) (tx : Transaction) : Transaction × Outcome :=
  writeWith waf d (some b.bytes.length) (storeSlice host waf d b.bytes) tx

def readBodyFrom (d : Direction) (r : Reader) (tx : Transaction) : Transaction × Outcome :=
  writeWith waf d (if r.sized then some r.len else none) (storeCopy host waf d r) tx

end Processing

/-! ## Runs -/

inductive Call where
  | addRequestHeader (key : GoString) (value : Bytes)
  | addResponseHeader (key : GoString) (value : Bytes)
  | addGetRequestArgument (key : GoString) (value : Bytes)
  | addPostRequestArgument (key : GoString) (value : Bytes)
  | addPathRequestArgument (key : GoString) (value : Bytes)
  | addResponseArgument (key : GoString) (value : Bytes)
  | processConnection (client : Bytes) (cPort : Int) (server : Bytes) (sPort : Int)
  | processURI (uri method httpVersion : Bytes)
  | setServerName (serverName : Bytes)
  | processRequestHeaders
  | processResponseHeaders (code : Int) (proto : Bytes)
  | writeBody (d : Direction) (b : Chunk)
  | readBodyFrom (d : Direction) (r : Reader)
  | processBody (d : Direction)
  | processLogging

section Runs

variable (host : Host) (waf : WAF)

def addArgumentTo (field : MapField) (key : GoString) (value : Bytes) (tx : Transaction) :
    Transaction :=
  { tx with vars := addArgument host waf field key value tx.vars }

def call (tx : Transaction) : Call → Transaction × Outcome
  | .addRequestHeader key value => (addRequestHeader host tx key value, .returned {})
  | .addResponseHeader key value => (addResponseHeader host tx key value, .returned {})
  | .addGetRequestArgument key value => (addArgumentTo host waf .argsGet key value tx, .returned {})
  | .addPostRequestArgument key value =>
    (addArgumentTo host waf .argsPost key value tx, .returned {})
  | .addPathRequestArgument key value =>
    (addArgumentTo host waf .argsPath key value tx, .returned {})
  | .addResponseArgument key value =>
    (addArgumentTo host waf .responseArgs key value tx, .returned {})
  | .processConnection client cPort server sPort =>
    (processConnection tx client cPort server sPort, .returned {})
  | .processURI uri method httpVersion =>
    (processURI host waf tx uri method httpVersion, .returned {})
  | .setServerName serverName =>
    ({ tx with vars := tx.vars.setSingle .serverName serverName }, .returned {})
  | .processRequestHeaders =>
    let (tx, reply) := processRequestHeaders host waf tx
    (tx, .returned reply)
  | .processResponseHeaders code proto =>
    let (tx, reply) := processResponseHeaders host waf tx code proto
    (tx, .returned reply)
  | .writeBody d b => writeBody host waf d b tx
  | .readBodyFrom d r => readBodyFrom host waf d r tx
  | .processBody d =>
    let (tx, reply) := processBody host waf d tx
    (tx, .returned reply)
  | .processLogging => (processLogging host waf tx, .returned {})

def step (tx : Transaction) (c : Call) : Transaction := (call host waf tx c).1

/-- The transaction after a sequence of calls.  A caller that recovers from a
panic may go on, so a run does too. -/
def run (tx : Transaction) (calls : List Call) : Transaction := calls.foldl (step host waf) tx

def EveryCall (cond : Transaction → Call → Prop) : Transaction → List Call → Prop
  | _, [] => True
  | tx, c :: rest => cond tx c ∧ EveryCall cond (step host waf tx c) rest

/-- What `txPool.Get` may return: a new object, or a transaction of this WAF that
was closed after some calls. -/
inductive Pooled : Option Transaction → Prop
  | new : Pooled none
  | closed (opts : Options) (now : Int) (calls : List Call) {pooled : Option Transaction}
      (origin : Pooled pooled) :
      Pooled (some (run host waf (waf.newTransaction host opts now pooled) calls).close)

end Runs

structure PoolObject (host : Host) (waf : WAF) where
  object : Option Transaction
  pooled : Pooled host waf object

def PoolObject.new (host : Host) (waf : WAF) : PoolObject host waf := ⟨none, .new⟩

def PoolObject.newTransaction {host : Host} {waf : WAF} (object : PoolObject host waf) (opts : Options)
    (now : Int) : Transaction :=
  waf.newTransaction host opts now object.object

def smallBodyWAF (action : BodyLimitAction) (rules : List RuleChain) : WAF :=
  { newWAF [] with
    rules
    requestBodyAccess := true
    requestBodyLimit := 4
    requestBodyLimit_fits := by decide
    requestBodyLimitAction := action }

end Obsidian
