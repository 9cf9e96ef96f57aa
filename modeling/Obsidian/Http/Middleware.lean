import Obsidian.Api
import Obsidian.BodyReaders

namespace Obsidian

open Obsidian.Data

/-! # The middleware

`processRequest` feeds a transaction from a request and leaves the handler a body
that gives what was taken out for inspection again.
-/

def bodyTaken (host : Host) (waf : WAF) (d : Direction) (r : Reader) (tx : Transaction) : Nat :=
  if tx.ruleEngine = .off then 0
  else if tx.bodyAccess d = false then 0
  else if tx.bodyLimit d = (tx.bodyBuffer d).length then 0
  else
    match planWrite waf d (if r.sized then some r.len else none) tx with
    | .store writingBytes _ => copyTaken host.disk r.reads writingBytes.toNat (tx.bodyBuffer d)
    | _ => 0

namespace Http

/-- The header map, in the order in which it is walked. -/
abbrev HeaderMap := List (GoString × List Bytes)

inductive WriterCall where
  | writeHeader (statusCode : Int) (header : HeaderMap)
  | write (data : Bytes)
  | flush
deriving DecidableEq, Repr

inductive HandlerCall where
  | writeHeader (statusCode : Int)
  | write (b : Chunk)
  | readFrom (slices : List Chunk)
  | flush
  | setHeader (header : HeaderMap)

def addResponseHeaders (host : Host) (header : HeaderMap) (tx : Transaction) : Transaction :=
  header.foldl (fun tx entry =>
    entry.2.foldl (fun tx value => addResponseHeader host tx entry.1 value) tx) tx

/-- `header` lists the map in the order in which it is walked; `body` is `none` for nil
and `http.NoBody`. -/
structure Request where
  remoteAddr : Bytes
  url : Bytes
  method : Bytes
  proto : Bytes
  header : HeaderMap
  host : Bytes
  transferEncoding : Option (List Bytes)
  body : Option Reader

/-- `req.Body`: the position in the buffer of the transaction if it begins there, then
what the connection still delivers. -/
structure HandlerBody where
  state : Option Nat × List Bytes
  ended : ReadEnd GoError

def readerEnd (r : Reader) : ReadEnd GoError := r.fails.elim .eof .failed

namespace Request

def originalBody (req : Request) : HandlerBody :=
  { state := (none, req.body.elim [] (·.reads)), ended := req.body.elim .eof readerEnd }

def bodyBytes (req : Request) : Bytes := req.body.elim [] (·.reads.flatten)

end Request

def clientAndPort (remoteAddr : Bytes) : Bytes × Int :=
  let port := (remoteAddr.reverse.takeWhile (· ≠ 58)).reverse
  if port.length = remoteAddr.length then ([], 0)
  else (remoteAddr.take (remoteAddr.length - port.length - 1), atoiValue port)

section

variable (host : Host) (waf : WAF)

def addRequestHeaders (header : HeaderMap) (tx : Transaction) : Transaction :=
  header.foldl (fun tx entry =>
    entry.2.foldl (fun tx value => addRequestHeader host tx entry.1 value) tx) tx

/-- The part of `processRequest` before any rule. -/
def feedRequest (req : Request) (tx : Transaction) : Transaction :=
  let (client, cport) := clientAndPort req.remoteAddr
  let tx := processConnection tx client cport [] 0
  let tx := processURI host waf tx req.url req.method req.proto
  let tx := addRequestHeaders host req.header tx
  let tx :=
    if req.host = [] then tx
    else
      let tx := addRequestHeader host tx (.lit "Host") req.host
      { tx with vars := tx.vars.setSingle .serverName req.host }
  match req.transferEncoding.bind (·.head?) with
  | none => tx
  | some encoding => addRequestHeader host tx (.lit "Transfer-Encoding") encoding

def processRequestBody (req : Request) (tx : Transaction) : Transaction × HandlerBody × Outcome :=
  match req.body with
  | none => (tx, req.originalBody, .returned {})
  | some r =>
    let left := dropChunks (bodyTaken host waf .request r tx) r.reads
    match readBodyFrom host waf .request r tx with
    | (tx, .panicked) => (tx, { state := (none, left), ended := readerEnd r }, .panicked)
    | (tx, .returned { interruption, err, .. }) =>
      match err, interruption with
      | some err, _ =>
        (tx, { state := (none, left), ended := readerEnd r },
          .returned { err := some (str "failed to append request body: " ++ err) })
      | none, some it =>
        (tx, { state := (none, left), ended := readerEnd r }, .returned { interruption := it })
      | none, none =>
        ({ tx with requestBodyBuffer := tx.requestBodyBuffer.reader },
          { state := (some 0, left), ended := readerEnd r }, .returned {})

def processRequest (req : Request) (tx : Transaction) : Transaction × HandlerBody × Outcome :=
  let tx := feedRequest host waf req tx
  -- `req.TransferEncoding[0]`
  if req.transferEncoding = some [] then (tx, req.originalBody, .panicked)
  else
    let (tx, reply) := processRequestHeaders host waf tx
    if reply.interruption.isSome then
      (tx, req.originalBody, .returned { interruption := reply.interruption })
    else
      let (tx, body, outcome) :=
        if tx.requestBodyAccess then processRequestBody host waf req tx
        else (tx, req.originalBody, .returned {})
      match outcome with
      | .panicked => (tx, body, .panicked)
      | .returned reply =>
        if reply.interruption.isSome ∨ reply.err.isSome then (tx, body, .returned reply)
        else
          let (tx, reply) := Obsidian.processRequestBody host waf tx
          (tx, body, .returned reply)

/-- A `Read` of the body the handler is given. -/
def HandlerBody.read (body : HandlerBody) (tx : Transaction) :
    ReadCall UInt8 GoError (Option Nat × List Bytes) :=
  multiRead (tx.requestBodyBuffer.read host.disk) (chunkRead body.ended)

/-- The calls of a handler that is given the underlying writer itself. -/
def directCalls : HeaderMap → List HandlerCall → List WriterCall
  | _, [] => []
  | _, .setHeader header :: rest => directCalls header rest
  | header, .writeHeader statusCode :: rest =>
    .writeHeader statusCode header :: directCalls header rest
  | header, .write b :: rest => .write b.bytes :: directCalls header rest
  | header, .readFrom slices :: rest =>
    slices.map (fun b => .write b.bytes) ++ directCalls header rest
  | header, .flush :: rest => .flush :: directCalls header rest

end

end Http

end Obsidian
