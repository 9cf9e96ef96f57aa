import Obsidian.Deliveries
import Obsidian.Http.Middleware

namespace Obsidian

open Obsidian.Data

/-! # Request bodies handed on

What `processRequest` takes out of a request body for inspection, the handler reads
from the buffer of the transaction, and what it left from the connection.
-/

section

variable {host : Host} {waf : WAF} {d : Direction} {tx next : Transaction} {held : Bytes}

theorem processBody_holds (reliable : host.disk.Reliable) (holds : (tx.bodyBuffer d).Holds held) :
    ((processBody host waf d tx).1.bodyBuffer d).Holds held := by
  by_cases running : tx.ruleEngine = .off
  · have same : (processBody host waf d tx).1 = tx := by
      cases d <;> simp [processBody, processRequestBody, processResponseBody, running]
    rwa [same]
  · exact (processBody_phases waf reliable running holds).1

theorem finishWrite_holds (reliable : host.disk.Reliable) (holds : (tx.bodyBuffer d).Holds held)
    (runProcessBody : Bool) (written : Nat) :
    ((finishWrite host waf d runProcessBody written tx).1.bodyBuffer d).Holds held := by
  cases runProcessBody with
  | true => exact processBody_holds reliable holds
  | false => exact holds

theorem finishCopy_holds (reliable : host.disk.Reliable) (holds : (tx.bodyBuffer d).Holds held)
    (runProcessBody : Bool) (written : Nat) :
    ((finishCopy host waf d runProcessBody written tx).1.bodyBuffer d).Holds held := by
  have flagged : ((tx.flagDataError d).bodyBuffer d).Holds held := by
    rwa [Transaction.flagDataError_bodyBuffer]
  simp only [finishCopy]
  split
  · split
    · simp only [rejectBody]
      cases d <;> exact flagged
    · exact finishWrite_holds reliable flagged true written
  · exact finishWrite_holds reliable holds runProcessBody written

theorem storeCopy_taken (reliable : host.disk.Reliable) (holds : (tx.bodyBuffer d).Holds held)
    {r : Reader} {n : Int} {runProcessBody : Bool} {reply : Reply}
    (small : (held.length : Int) + n.toNat < 2 ^ 63)
    (stored : storeCopy host waf d r n runProcessBody tx = (next, .returned reply))
    (passed : reply.err = none) :
    (next.bodyBuffer d).Holds
      (held ++ r.reads.flatten.take (copyTaken host.disk r.reads n.toNat (tx.bodyBuffer d))) := by
  have copied := copyN_cases reliable r holds small
  simp only [storeCopy] at stored
  revert stored copied
  rcases copyN host.disk (tx.bodyBuffer d) r n with ⟨buffer, written, _ | err⟩ <;>
    intro stored copied <;> dsimp only at stored copied
  · have kept := copied.resolve_left (by simp)
    rw [← Transaction.setBodyBuffer_bodyBuffer tx buffer d] at kept
    have finished : ((finishCopy host waf d runProcessBody written
        (tx.setBodyBuffer buffer d)).1.bodyBuffer d).Holds _ :=
      finishCopy_holds reliable kept runProcessBody written
    rwa [stored] at finished
  · obtain ⟨_, same⟩ := Prod.mk.inj stored
    cases same
    cases passed

theorem rejectBody_interrupts (tx : Transaction) (d : Direction) {reply : Reply}
    (rejected : rejectBody d tx = (next, .returned reply)) : reply.interruption ≠ none := by
  obtain ⟨_, same⟩ := Prod.mk.inj rejected
  cases same
  simp [Transaction.interruptBodyLimit, Transaction.setInterruption]

theorem readBodyFrom_taken (reliable : host.disk.Reliable) (empty : (tx.bodyBuffer d).Holds [])
    {r : Reader} {reply : Reply}
    (read : readBodyFrom host waf d r tx = (next, .returned reply)) (passed : reply.err = none)
    (uninterrupted : reply.interruption = none) :
    (next.bodyBuffer d).Holds (r.reads.flatten.take (bodyTaken host waf d r tx)) := by
  simp only [readBodyFrom, writeWith] at read
  simp only [bodyTaken]
  split at read
  · next off =>
      obtain ⟨rfl, _⟩ := Prod.mk.inj read
      rwa [if_pos off, List.take_zero]
  next running =>
  split at read
  · next closed =>
      obtain ⟨rfl, _⟩ := Prod.mk.inj read
      rwa [if_neg running, if_pos closed, List.take_zero]
  next opened =>
  split at read
  · next full =>
      obtain ⟨rfl, _⟩ := Prod.mk.inj read
      rwa [if_neg running, if_neg opened, if_pos full, List.take_zero]
  next room =>
  rw [if_neg running, if_neg opened, if_neg room]
  have small : ∀ {n flag}, planWrite waf d (if r.sized then some r.len else none) tx =
      .store n flag → (([] : Bytes).length : Int) + n.toNat < 2 ^ 63 := by
    intro n flag planned
    have fits : IsInt64 n := by
      refine planWrite_isInt64 (fun known isKnown => ?_) planned
      split at isKnown <;> cases isKnown
      exact r.bounded ‹_›
    simp only [IsInt64] at fits
    simp only [List.length_nil]
    omega
  split at read
  · cases read
    cases passed
  · exact absurd uninterrupted (rejectBody_interrupts _ d read)
  · next n planned =>
      simp only [planned]
      exact storeCopy_taken reliable empty (small planned) read passed
  · next n planned =>
      simp only [planned]
      have flagged : ((tx.flagDataError d).bodyBuffer d).Holds [] := by
        rwa [Transaction.flagDataError_bodyBuffer]
      have stored := storeCopy_taken reliable flagged (small planned) read passed
      rwa [Transaction.flagDataError_bodyBuffer] at stored

end

/-! ## Feeding -/

namespace Http

theorem addRequestHeaders_fed (host : Host) (header : HeaderMap) (tx : Transaction) :
    Fed tx (addRequestHeaders host header tx) := by
  refine Fed.foldl (fun tx entry => ?_) header tx
  exact Fed.foldl (fun tx value => addRequestHeader_fed host tx entry.1 value) entry.2 tx

theorem feedRequest_fed (host : Host) (waf : WAF) (req : Request) (tx : Transaction) :
    Fed tx (feedRequest host waf req tx) := by
  simp only [feedRequest]
  have connection : Fed tx (processConnection tx (clientAndPort req.remoteAddr).1
      (clientAndPort req.remoteAddr).2 [] 0) := ⟨_, _, rfl⟩
  have uri : ∀ tx, Fed tx (processURI host waf tx req.url req.method req.proto) :=
    fun tx => ⟨_, _, rfl⟩
  have hosted : ∀ tx, Fed tx (if req.host = [] then tx else
      { addRequestHeader host tx (.lit "Host") req.host with
        vars := (addRequestHeader host tx (.lit "Host") req.host).vars.setSingle .serverName
          req.host }) := by
    intro tx
    split
    · exact .refl tx
    · exact (addRequestHeader_fed host tx _ _).trans ⟨_, _, rfl⟩
  have fed := connection.trans
    ((uri _).trans ((addRequestHeaders_fed host req.header _).trans (hosted _)))
  split
  · exact fed
  · exact fed.trans (addRequestHeader_fed host _ _ _)

/-! ## What the handler reads -/

section

variable {host : Host} {waf : WAF} {req : Request} {tx next : Transaction} {body : HandlerBody}
  {reply : Reply}

def HandlerBody.Gives (host : Host) (body : HandlerBody) (tx : Transaction) (bytes : Bytes) : Prop :=
  Delivers (body.read host tx) body.state bytes body.ended

theorem originalBody_gives (req : Request) (tx : Transaction) :
    req.originalBody.Gives host tx req.bodyBytes := by
  obtain ⟨bound, within⟩ := chunkRead_delivers req.originalBody.ended req.originalBody.state.2
  have bytes : req.originalBody.state.2.flatten = req.bodyBytes := by
    cases given : req.body <;> simp [Request.originalBody, Request.bodyBytes, given]
  rw [bytes] at within
  exact ⟨bound, multiRead_second within⟩

theorem replayed_gives (reliable : host.disk.Reliable) {ended : ReadEnd GoError}
    {reads : List Bytes} {taken : Nat}
    (content : tx.requestBodyBuffer.content = reads.flatten.take taken) :
    HandlerBody.Gives host { state := (some 0, dropChunks taken reads), ended } tx
      reads.flatten := by
  have stored := tx.requestBodyBuffer.read_delivers reliable
  rw [content] at stored
  have left := chunkRead_delivers ended (dropChunks taken reads)
  rw [flatten_dropChunks] at left
  have whole := multiRead_delivers stored left
  rwa [List.take_append_drop] at whole

theorem processRequestBody_passed
    (processed : processRequestBody host waf req tx = (next, body, .returned reply))
    (uninterrupted : reply.interruption = none) (passed : reply.err = none) :
    (req.body = none ∧ next = tx ∧ body = req.originalBody) ∨
      ∃ r after written, req.body = some r ∧
        readBodyFrom host waf .request r tx = (after, .returned { written }) ∧
        next = { after with requestBodyBuffer := after.requestBodyBuffer.reader } ∧
        body = {
          state := (some 0, dropChunks (bodyTaken host waf .request r tx) r.reads)
          ended := readerEnd r } := by
  simp only [processRequestBody] at processed
  cases given : req.body with
  | none =>
    simp only [given] at processed
    cases processed
    exact .inl ⟨rfl, rfl, rfl⟩
  | some r =>
    simp only [given] at processed
    revert processed
    rcases read : readBodyFrom host waf .request r tx with ⟨after, ⟨interruption, written, err⟩ | _⟩
    · cases err with
      | some err =>
        intro processed
        cases processed
        cases passed
      | none =>
        cases interruption with
        | some it =>
          intro processed
          cases processed
          cases uninterrupted
        | none =>
          intro processed
          cases processed
          exact .inr ⟨r, after, written, rfl, read, rfl, rfl⟩
    · intro processed
      cases processed

/-- A body that was let through gives the handler all its bytes, however long the
buffer is kept as it is. -/
theorem processRequestBody_gives (reliable : host.disk.Reliable)
    (empty : tx.requestBodyBuffer.Holds [])
    (processed : processRequestBody host waf req tx = (next, body, .returned reply))
    (uninterrupted : reply.interruption = none) (passed : reply.err = none) :
    ∃ held, next.requestBodyBuffer.Holds held ∧
      (body.ended = req.originalBody.ended) ∧
      ∀ later : Transaction, later.requestBodyBuffer.Holds held →
        body.Gives host later req.bodyBytes := by
  rcases processRequestBody_passed processed uninterrupted passed with
    ⟨_, rfl, rfl⟩ | ⟨r, after, written, given, read, rfl, rfl⟩
  · exact ⟨[], empty, rfl, fun later _ => originalBody_gives req later⟩
  · have taken := readBodyFrom_taken (d := .request) reliable empty read rfl rfl
    refine ⟨_, taken.reader, ?_, fun later holds => ?_⟩
    · simp [Request.originalBody, given]
    · have bytes : req.bodyBytes = r.reads.flatten := by simp [Request.bodyBytes, given]
      rw [bytes]
      exact replayed_gives reliable holds.content

theorem processRequestHeaders_bodyBuffer (host : Host) (waf : WAF) (tx : Transaction)
    (d : Direction) : (processRequestHeaders host waf tx).1.bodyBuffer d = tx.bodyBuffer d := by
  simp only [processRequestHeaders]
  repeat' split
  all_goals first | rfl | exact eval_bodyBuffer ..

theorem processRequest_passed
    (processed : processRequest host waf req tx = (next, body, .returned reply))
    (uninterrupted : reply.interruption = none) (passed : reply.err = none) :
    ∃ headed first, processRequestHeaders host waf (feedRequest host waf req tx) = (headed, first) ∧
      first.interruption = none ∧ ∃ middle,
        ((∃ second, processRequestBody host waf req headed = (middle, body, .returned second) ∧
            second.interruption = none ∧ second.err = none) ∨
          (middle = headed ∧ body = req.originalBody)) ∧
        Obsidian.processRequestBody host waf middle = (next, reply) := by
  simp only [processRequest] at processed
  split at processed
  · cases processed
  rcases headers : processRequestHeaders host waf (feedRequest host waf req tx) with ⟨headed, first⟩
  refine ⟨headed, first, rfl, ?_⟩
  rw [headers] at processed
  dsimp only at processed
  split at processed
  · next interrupted =>
      cases processed
      dsimp only at uninterrupted
      rw [uninterrupted] at interrupted
      cases interrupted
  next fresh =>
  refine ⟨by simpa using fresh, ?_⟩
  generalize stored : (if headed.requestBodyAccess = true then processRequestBody host waf req headed
    else (headed, req.originalBody, .returned {})) = result at processed
  obtain ⟨middle, given, second | _⟩ := result
  · dsimp only at processed
    split at processed
    · next failed =>
        cases processed
        simp [uninterrupted, passed] at failed
    · next fine =>
        cases processed
        simp only [not_or, Option.not_isSome_iff_eq_none] at fine
        refine ⟨middle, ?_, rfl⟩
        split at stored
        · exact .inl ⟨second, stored, fine⟩
        · cases stored
          exact .inr ⟨rfl, rfl⟩
  · cases processed

theorem processRequest_gives (reliable : host.disk.Reliable) (empty : (tx.bodyBuffer .request).Holds [])
    (processed : processRequest host waf req tx = (next, body, .returned reply))
    (uninterrupted : reply.interruption = none) (passed : reply.err = none) :
    body.ended = req.originalBody.ended ∧ body.Gives host next req.bodyBytes := by
  obtain ⟨headed, first, headers, _, middle, stored, last⟩ :=
    processRequest_passed processed uninterrupted passed
  have isHeaded : (processRequestHeaders host waf (feedRequest host waf req tx)).1 = headed :=
    congr_arg Prod.fst headers
  have isNext : (Obsidian.processRequestBody host waf middle).1 = next := congr_arg Prod.fst last
  have held : (headed.bodyBuffer .request).Holds [] := by
    rwa [← isHeaded, processRequestHeaders_bodyBuffer,
      (feedRequest_fed host waf req tx).bodyBuffer]
  rw [← isNext]
  rcases stored with ⟨second, stored, fresh, fine⟩ | ⟨rfl, rfl⟩
  · obtain ⟨held, holds, ended, gives⟩ :=
      processRequestBody_gives reliable held stored fresh fine
    exact ⟨ended, gives _ (processBody_holds (d := .request) reliable holds)⟩
  · exact ⟨rfl, originalBody_gives req _⟩

end

/-- If the request is neither interrupted nor failed, the handler that reads its body to
the end with buffers that are not empty gets the bytes the connection delivers, and
the end it delivers. -/
theorem handler_reads_body (host : Host) (waf : WAF) (object : PoolObject host waf) (opts : Options)
    (now : Int) (req : Request) (reliable : host.disk.Reliable) (tx : Transaction)
    (body : HandlerBody) (reply : Reply)
    (processed : processRequest host waf req (object.newTransaction opts now) =
      (tx, body, .returned reply))
    (uninterrupted : reply.interruption = none) (passed : reply.err = none) :
    ∃ bound, ∀ sizes : List Nat, (∀ size ∈ sizes, 0 < size) → bound ≤ sizes.length →
      readAll (body.read host tx) sizes body.state =
        some (req.bodyBytes, req.body.elim .eof readerEnd) := by
  have empty : ((object.newTransaction opts now).bodyBuffer .request).Holds [] := by
    rw [object.bodyBuffer]
    exact BodyBuffer.new_holds _
  obtain ⟨ended, bound, within⟩ := processRequest_gives reliable empty processed uninterrupted passed
  rw [ended] at within
  exact ⟨bound, fun sizes positive enough => within.readAll positive enough⟩

def longUpload : Request where
  remoteAddr := str "10.0.0.1:4711"
  url := str "/upload"
  method := str "POST"
  proto := str "HTTP/1.1"
  header := []
  host := str "localhost"
  transferEncoding := some [str "chunked"]
  body := some { reads := [str "abc", str "defgh"] }

def spillingWAF : WAF := { smallBodyWAF .processPartial [] with requestBodyInMemoryLimit := some 2 }

theorem handler_reads_body_spilled :
    let processed := processRequest .plain spillingWAF longUpload
      ((PoolObject.new .plain spillingWAF).newTransaction ⟨[], 0⟩ 0)
    processed.2.2 = .returned {} ∧ processed.1.requestBodyBuffer.writer = some (str "abcd") ∧
      ∃ bound, ∀ sizes : List Nat, (∀ size ∈ sizes, 0 < size) → bound ≤ sizes.length →
        readAll (processed.2.1.read .plain processed.1) sizes processed.2.1.state =
          some (str "abcdefgh", .eof) := by
  have outcome : (processRequest .plain spillingWAF longUpload
      ((PoolObject.new .plain spillingWAF).newTransaction ⟨[], 0⟩ 0)).2.2 = .returned {} := by decide
  refine ⟨outcome, by decide, ?_⟩
  exact handler_reads_body .plain spillingWAF (.new .plain spillingWAF) ⟨[], 0⟩ 0 longUpload
    Host.plain_reliable _ _ {} (Prod.ext rfl (Prod.ext rfl outcome)) rfl rfl

end Http

end Obsidian
