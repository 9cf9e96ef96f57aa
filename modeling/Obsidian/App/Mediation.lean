import Obsidian.App.WafMiddleware
import Obsidian.Deliveries
import Obsidian.Http.RequestBodies
import Obsidian.InputFrames
import Obsidian.Interruptions
import Obsidian.Recycling

namespace Obsidian.App

open Obsidian.Data Http

/-! # Mediation

What the request phases see of a request, and what the client sees when a rule interrupts.
-/

/-! ## Replies -/

section

variable {host : Host} {waf : WAF} {tx : Transaction}

theorem processRequestHeaders_reply (uninterrupted : tx.interruption = none)
    (replied : (processRequestHeaders host waf tx).2.interruption = none) :
    (processRequestHeaders host waf tx).1.interruption = none := by
  simp only [processRequestHeaders, evalPhase] at replied ⊢
  repeat' split
  all_goals simp_all

theorem processRequestBody_reply (uninterrupted : tx.interruption = none)
    (replied : (processRequestBody host waf tx).2.interruption = none) :
    (processRequestBody host waf tx).1.interruption = none := by
  simp only [processRequestBody, evalPhase] at replied ⊢
  repeat' split
  all_goals simp_all

end

/-! ## Feeding -/

theorem addArgument_single (host : Host) (waf : WAF) (field : MapField) (key : GoString)
    (value : Bytes) (v : TransactionVariables) :
    (addArgument host waf field key value v).single = v.single := by
  unfold addArgument
  split <;> rfl

theorem extractGetArguments_single (host : Host) (waf : WAF) (tick : Nat) (uri : Bytes)
    (v : TransactionVariables) : (extractGetArguments host waf tick uri v).single = v.single := by
  unfold extractGetArguments
  generalize host.parseQuery tick uri = pairs
  induction pairs generalizing v with
  | nil => rfl
  | cons pair rest ih => rw [List.foldl_cons, ih, addArgument_single]

theorem processURI_single (host : Host) (waf : WAF) (tx : Transaction)
    (uri method httpVersion : Bytes) :
    (processURI host waf tx uri method httpVersion).vars.single .remoteAddr =
        tx.vars.single .remoteAddr ∧
      (processURI host waf tx uri method httpVersion).vars.single .requestMethod = method ∧
      (processURI host waf tx uri method httpVersion).vars.single .requestURIRaw = uri := by
  unfold processURI
  dsimp only
  cases host.parseRequestURI (uri.takeWhile (· ≠ 35)) with
  | error err => simp [TransactionVariables.setSingle_single]
  | ok parsed =>
    simp [TransactionVariables.setSingle_single, extractGetArguments_single]

def headerPairs (header : HeaderMap) : List (GoString × Bytes) :=
  header.flatMap fun entry => entry.2.map (Prod.mk entry.1)

theorem addRequestHeaders_pairs (host : Host) (header : HeaderMap) (tx : Transaction) :
    addRequestHeaders host header tx =
      (headerPairs header).foldl (fun tx pair => addRequestHeader host tx pair.1 pair.2) tx := by
  simp [addRequestHeaders, headerPairs, List.foldl_flatMap, List.foldl_map]

theorem mem_mapGet_mapAdd (rt : Runtime) (v : TransactionVariables) (field : MapField)
    (key : GoString) (value : Bytes) (name found : Bytes) :
    found ∈ (v.mapAdd rt field key value).mapGet rt field name ↔
      found ∈ v.mapGet rt field name ∨
        TransactionVariables.normalKey rt field key.text =
          TransactionVariables.normalKey rt field name ∧ value = found := by
  simp only [TransactionVariables.mapGet, TransactionVariables.mapAdd, TransactionVariables.setMap,
    Function.update_self, MapData.get, MapData.add, MapData.values]
  by_cases same : TransactionVariables.normalKey rt field key.text =
      TransactionVariables.normalKey rt field name
  · rw [same, AList.lookup_insert]
    simp [eq_comm]
  · rw [AList.lookup_insert_ne (Ne.symm same)]
    simp [same]

theorem mem_addRequestHeaders (host : Host) (pairs : List (GoString × Bytes)) (tx : Transaction)
    (name found : Bytes) :
    found ∈ (pairs.foldl (fun tx pair => addRequestHeader host tx pair.1 pair.2) tx).vars.mapGet
        host.toRuntime .requestHeaders name ↔
      found ∈ tx.vars.mapGet host.toRuntime .requestHeaders name ∨
        ∃ pair ∈ pairs, pair.1.text ≠ [] ∧ host.toLower pair.1.text = host.toLower name ∧
          pair.2 = found := by
  have normal (key : Bytes) : TransactionVariables.normalKey host.toRuntime .requestHeaders key =
      host.toLower key := by
    simp [TransactionVariables.normalKey]
  induction pairs generalizing tx with
  | nil => simp
  | cons pair rest ih =>
    have first : found ∈ (addRequestHeader host tx pair.1 pair.2).vars.mapGet host.toRuntime
        .requestHeaders name ↔ found ∈ tx.vars.mapGet host.toRuntime .requestHeaders name ∨
          pair.1.text ≠ [] ∧ host.toLower pair.1.text = host.toLower name ∧ pair.2 = found := by
      have header := mem_mapGet_mapAdd host.toRuntime tx.vars .requestHeaders pair.1 pair.2 name found
      rw [normal, normal] at header
      simp only [TransactionVariables.mapGet] at header ⊢
      rw [addRequestHeader_map (by decide)]
      by_cases empty : pair.1.text = []
      · simp [empty]
      · rw [if_neg empty, header]
        simp [empty]
    rw [List.foldl_cons]
    apply (ih _).trans
    simp only [first, List.mem_cons, or_and_right, exists_or, exists_eq_left, or_assoc]

/-! ## Requests -/

namespace Request

variable (r : Request)

def peerIP : Bytes := (splitHost r.remoteAddr).getD r.remoteAddr

/-- The headers that a handler can read: those of the map, and the two that `net/http` keeps
elsewhere. -/
def readable : List (Bytes × Bytes) :=
  (headerPairs r.header).map (fun pair => (pair.1.text, pair.2)) ++
    ((if r.host = [] then [] else [(str "Host", r.host)]) ++
      (r.transferEncoding.bind (·.head?)).toList.map (Prod.mk (str "Transfer-Encoding")))

end Request

namespace Server

variable (s : Server)

structure Sees (r : Request) (tx : Transaction) : Prop where
  remoteAddr : tx.vars.single .remoteAddr = r.peerIP
  method : tx.vars.single .requestMethod = r.method
  uri : tx.vars.single .requestURIRaw = r.url
  headers : ∀ pair ∈ r.readable,
    pair.2 ∈ tx.vars.mapGet s.host.toRuntime .requestHeaders pair.1

/-- Both request phases were evaluated over the request's own data, the second with the body
that the handler will read, up to the limit. -/
structure Inspected (r : Request) (served : Served) : Prop where
  headers : ∃ tx, served.headersAt = some tx ∧ s.Sees r tx ∧
    .requestHeaders ∈ (processRequestHeaders s.host s.waf tx).1.phases
  body : ∃ tx, served.bodyAt = some tx ∧ s.Sees r tx ∧
    tx.requestBodyBuffer.content = r.bodyBytes.take s.waf.requestBodyLimit.toNat ∧
    (tx.ruleEngine ≠ .off → .requestBody ∈ (processRequestBody s.host s.waf tx).1.phases)

def passed (x : Exchange s) : Transaction :=
  (processRequestBody s.host s.waf
    (processRequestHeaders s.host s.waf (s.feed x.request (s.transaction x))).1).1

def written : HandlerCall → List Chunk
  | .write b => [b]
  | .readFrom slices => slices
  | _ => []

/-- The transaction after phases 3 and 4 have been evaluated over the handler's response.  The
middleware leaves phase 4 out. -/
def judged (x : Exchange s) : Transaction :=
  let tx := s.processResponse x (s.passed x)
  if tx.interruption.isSome then tx
  else
    let body := (s.answer x (s.passed x)).calls.flatMap written
    (processResponseBody s.host s.waf
      (body.foldl (fun tx b => (writeBody s.host s.waf .response b tx).1) tx)).1

/-- A request that reaches the handler was inspected, one that a rule interrupts gets the
blocking response and nothing of the handler's, and a response that rules of phase 3 or 4
interrupt does not go out. -/
structure Mediated (x : Exchange s) (served : Served) : Prop where
  request : served.reached = true → s.Inspected x.request served
  interrupted : ∀ tx it, served.final = some tx → tx.interruption = some it →
    served.reached = false ∧ served.calls = blockingCalls s x.requestID x.header it
  response : served.reached = true → (s.judged x).interruption = none

/-- A request of which the middleware misses nothing, with a response that phases 3 and 4 let
pass. -/
structure Mediable (x : Exchange s) : Prop where
  notWebsocket : x.request.path ≠ str "/api/ws"
  noPort : splitHost x.request.remoteAddr = none
  headers : ∀ pair ∈ x.request.readable, ∃ added ∈ headerPairs x.request.header,
    added.1.text ≠ [] ∧ s.host.toLower added.1.text = s.host.toLower pair.1 ∧ added.2 = pair.2
  noBody : x.request.bodyBytes = []
  passes : (s.judged x).interruption = none

/-! ## What the phases see -/

section

variable {s} {r : Request} {tx : Transaction}

theorem feed_fed (s : Server) (r : Request) (tx : Transaction) : Fed tx (s.feed r tx) := by
  have connection : Fed tx (processConnection tx r.remoteAddr 0 [] 0) := ⟨_, _, rfl⟩
  have uri : Fed (processConnection tx r.remoteAddr 0 [] 0) (processURI s.host s.waf
      (processConnection tx r.remoteAddr 0 [] 0) r.url r.method r.proto) := ⟨_, _, rfl⟩
  exact connection.trans (uri.trans (addRequestHeaders_fed s.host r.header _))

theorem feed_single (s : Server) (r : Request) (tx : Transaction) :
    (s.feed r tx).vars.single .remoteAddr = r.remoteAddr ∧
    (s.feed r tx).vars.single .requestMethod = r.method ∧
    (s.feed r tx).vars.single .requestURIRaw = r.url := by
  have headers : ∀ (pairs : List (GoString × Bytes)) (tx : Transaction) (field : SingleField),
      field ≠ .reqbodyProcessor →
      (pairs.foldl (fun tx pair => addRequestHeader s.host tx pair.1 pair.2) tx).vars.single field =
        tx.vars.single field := by
    intro pairs tx field apart
    induction pairs generalizing tx with
    | nil => rfl
    | cons pair rest ih => rw [List.foldl_cons, ih, addRequestHeader_single apart]
  obtain ⟨remoteAddr, method, uri⟩ := processURI_single s.host s.waf
    (processConnection tx r.remoteAddr 0 [] 0) r.url r.method r.proto
  simp only [feed, addRequestHeaders_pairs]
  refine ⟨?_, ?_, ?_⟩
  · rw [headers _ _ _ (by decide), remoteAddr]
    simp [processConnection, TransactionVariables.setSingle_single]
  · rw [headers _ _ _ (by decide), method]
  · rw [headers _ _ _ (by decide), uri]

theorem mem_feed (x : Exchange s) (name found : Bytes) :
    found ∈ (s.feed x.request (s.transaction x)).vars.mapGet s.host.toRuntime .requestHeaders name ↔
      ∃ pair ∈ headerPairs x.request.header, pair.1.text ≠ [] ∧
        s.host.toLower pair.1.text = s.host.toLower name ∧ pair.2 = found := by
  have empty : ∀ key, ((s.transaction x).vars.map .requestHeaders).get key = [] := by
    intro key
    rw [transaction, newTransaction_map x.object x.options x.now (by decide)]
    rfl
  simp only [feed, addRequestHeaders_pairs]
  rw [mem_addRequestHeaders]
  simp only [TransactionVariables.mapGet]
  rw [processURI_map (by decide)]
  simp [processConnection, empty]

theorem sees_feed_iff (x : Exchange s) :
    s.Sees x.request (s.feed x.request (s.transaction x)) ↔
      splitHost x.request.remoteAddr = none ∧
        ∀ pair ∈ x.request.readable, ∃ added ∈ headerPairs x.request.header, added.1.text ≠ [] ∧
          s.host.toLower added.1.text = s.host.toLower pair.1 ∧ added.2 = pair.2 := by
  obtain ⟨remoteAddr, method, uri⟩ := feed_single s x.request (s.transaction x)
  have peer : x.request.remoteAddr = x.request.peerIP ↔ splitHost x.request.remoteAddr = none := by
    unfold Request.peerIP
    cases split : splitHost x.request.remoteAddr with
    | none => simp
    | some host =>
      have shorter := splitHost_length split
      simp only [Option.getD_some, reduceCtorEq, iff_false]
      intro same
      rw [← same] at shorter
      omega
  simp only [← mem_feed x]
  constructor
  · intro sees
    exact ⟨peer.mp (remoteAddr.symm.trans sees.remoteAddr), sees.headers⟩
  · rintro ⟨noPort, headers⟩
    exact ⟨remoteAddr.trans (peer.mpr noPort), method, uri, headers⟩

theorem sees_eval_iff (phase : RulePhase) :
    s.Sees r ((s.waf.engine s.host).eval phase tx) ↔ s.Sees r tx := by
  have quiet : (s.waf.engine s.host).Quiet := engine_quiet
  have same := Engine.eval_sameInput quiet phase tx
  have headers := same.map .requestHeaders (by decide)
  have remoteAddr := same.single .remoteAddr (by decide)
  have method := same.single .requestMethod (by decide)
  have uri := same.single .requestURIRaw (by decide)
  constructor
  · intro sees
    refine ⟨remoteAddr ▸ sees.remoteAddr, method ▸ sees.method, uri ▸ sees.uri, ?_⟩
    have found := sees.headers
    simp only [TransactionVariables.mapGet, headers] at found
    exact found
  · intro sees
    refine ⟨remoteAddr.trans sees.remoteAddr, method.trans sees.method, uri.trans sees.uri, ?_⟩
    simp only [TransactionVariables.mapGet, headers]
    exact sees.headers

end

/-! ## The request phases -/

section

variable {s}

theorem processRequestHeaders_feed (on : s.waf.ruleEngine = .on) (x : Exchange s) :
    (processRequestHeaders s.host s.waf (s.feed x.request (s.transaction x))) =
      evalPhase s.host s.waf .requestHeaders (s.feed x.request (s.transaction x)) := by
  obtain ⟨v, ticks, fed⟩ := feed_fed s x.request (s.transaction x)
  have running : ¬ (s.transaction x).ruleEngine = .off := by
    rw [show (s.transaction x).ruleEngine = s.waf.ruleEngine from rfl, on]
    decide
  have early : ¬ RulePhase.requestHeaders ≤ (s.transaction x).lastPhase :=
    show ¬ RulePhase.requestHeaders ≤ RulePhase.unknown by decide
  have fresh : ¬ (s.transaction x).interruption.isSome = true :=
    show ¬ (false = true) by decide
  rw [fed]
  simp only [processRequestHeaders]
  rw [if_neg running, if_neg early, if_neg fresh]

theorem feed_requestBodyBuffer (x : Exchange s) :
    (s.feed x.request (s.transaction x)).requestBodyBuffer = .new s.waf.requestBodyOptions := by
  have fed := (feed_fed s x.request (s.transaction x)).bodyBuffer .request
  exact fed.trans (x.object.bodyBuffer x.options x.now .request)

theorem processRequestBody_phases {tx : Transaction} (running : tx.ruleEngine ≠ .off)
    (uninterrupted : tx.interruption = none) (last : tx.lastPhase = .requestHeaders)
    (host : Host) (waf : WAF) : .requestBody ∈ (processRequestBody host waf tx).1.phases := by
  have evaluated (tx : Transaction) :
      .requestBody ∈ (evalPhase host waf .requestBody tx).1.phases := by
    simp [evalPhase, Transaction.phases, eval_phases]
  simp only [processRequestBody]
  rw [if_neg running, if_neg (by simp [uninterrupted]), if_neg (by simp [last])]
  split
  · exact evaluated _
  · exact evaluated _

/-! ## Courses of a request -/

inductive Course (x : Exchange s) : Served → Prop
  | threat (store : Store) (calls : List WriterCall) :
      Course x { store, calls, reached := false }
  | websocket (store : Store) (calls : List WriterCall) (panicked : Bool)
      (path : x.request.path = str "/api/ws") :
      Course x { store, calls, reached := true, panicked }
  | blocked (store : Store) (tx : Transaction) (it : Interruption)
      (interrupted : tx.interruption = some it) (headersAt bodyAt : Option Transaction) :
      Course x
        { store, calls := blockingCalls s x.requestID x.header it, reached := false, headersAt, bodyAt,
          final := some tx }
  | passed (store : Store) (calls : List WriterCall) (panicked : Bool) (final : Transaction)
      (path : x.request.path ≠ str "/api/ws")
      (uninterrupted :
        (processRequestHeaders s.host s.waf (s.feed x.request (s.transaction x))).1.interruption = none)
      (clean : (s.passed x).interruption = none)
      (ends : final = if (s.answer x (s.passed x)).panics then s.passed x
        else s.processResponse x (s.passed x)) :
      Course x
        { store, calls, reached := true, panicked,
          headersAt := some (s.feed x.request (s.transaction x)),
          bodyAt := some
            (processRequestHeaders s.host s.waf (s.feed x.request (s.transaction x))).1,
          final := some final }

theorem processRequestHeaders_interruption {host : Host} {waf : WAF} {tx : Transaction}
    {it : Interruption} (replied : (processRequestHeaders host waf tx).2.interruption = some it) :
    (processRequestHeaders host waf tx).1.interruption = some it := by
  simp only [processRequestHeaders, evalPhase] at replied ⊢
  repeat' split
  all_goals simp_all

theorem processRequestBody_interruption {host : Host} {waf : WAF} {tx : Transaction}
    {it : Interruption} (replied : (processRequestBody host waf tx).2.interruption = some it) :
    (processRequestBody host waf tx).1.interruption = some it := by
  simp only [processRequestBody, evalPhase] at replied ⊢
  repeat' split
  all_goals simp_all

theorem serve_course (x : Exchange s) (store : Store) : Course x (s.serve x store) := by
  unfold serve
  cases s.checkIP (s.clientIP x) with
  | some entry => exact .threat _ _
  | none =>
    dsimp only
    by_cases websocket : x.request.path = str "/api/ws"
    · rw [if_pos websocket]
      exact .websocket _ _ _ websocket
    · rw [if_neg websocket]
      have fresh : (s.feed x.request (s.transaction x)).interruption = none := by
        obtain ⟨v, ticks, fed⟩ := feed_fed s x.request (s.transaction x)
        rw [fed]
        rfl
      cases headers : (processRequestHeaders s.host s.waf
          (s.feed x.request (s.transaction x))).2.interruption with
      | some it =>
        exact .blocked _ _ it (processRequestHeaders_interruption headers) _ _
      | none =>
        have uninterrupted := processRequestHeaders_reply fresh headers
        cases body : (processRequestBody s.host s.waf (processRequestHeaders s.host s.waf
            (s.feed x.request (s.transaction x))).1).2.interruption with
        | some it =>
          exact .blocked _ _ it (processRequestBody_interruption body) _ _
        | none =>
          have clean := processRequestBody_reply uninterrupted body
          simp only [passOn]
          split
          · next panics =>
              exact .passed _ _ _ _ websocket uninterrupted clean (if_pos panics).symm
          · next calm =>
              exact .passed _ _ _ _ websocket uninterrupted clean (if_neg calm).symm

end

/-! ## Mediation -/

section

variable {s}

/-- A request that is passed on was inspected as far as its data reached the transaction. -/
theorem inspected_iff (on : s.waf.ruleEngine = .on) (valid : s.waf.validate = none)
    {x : Exchange s} {served : Served}
    (headersAt : served.headersAt = some (s.feed x.request (s.transaction x)))
    (bodyAt : served.bodyAt = some
      (processRequestHeaders s.host s.waf (s.feed x.request (s.transaction x))).1)
    (uninterrupted :
      (processRequestHeaders s.host s.waf (s.feed x.request (s.transaction x))).1.interruption = none) :
    s.Inspected x.request served ↔
      s.Sees x.request (s.feed x.request (s.transaction x)) ∧ x.request.bodyBytes = [] := by
  have evaluated := processRequestHeaders_feed on x
  rw [evaluated] at uninterrupted bodyAt
  have content : (evalPhase s.host s.waf .requestHeaders
      (s.feed x.request (s.transaction x))).1.requestBodyBuffer.content = [] := by
    have buffer : (evalPhase s.host s.waf .requestHeaders
        (s.feed x.request (s.transaction x))).1.requestBodyBuffer =
          (s.feed x.request (s.transaction x)).requestBodyBuffer := eval_bodyBuffer _ _ .request
    rw [buffer, feed_requestBodyBuffer]
    rfl
  have limit : 0 < s.waf.requestBodyLimit.toNat := by
    have := (WAF.validate_limits valid).1.1
    omega
  constructor
  · rintro ⟨⟨tx, same, sees, _⟩, ⟨later, sameLater, _, body, _⟩⟩
    rw [headersAt] at same
    rw [bodyAt] at sameLater
    cases same
    cases sameLater
    refine ⟨sees, ?_⟩
    rw [content] at body
    exact (List.take_eq_nil_iff.mp body.symm).resolve_left (by omega)
  · rintro ⟨sees, noBody⟩
    constructor
    · refine ⟨_, headersAt, sees, ?_⟩
      rw [evaluated]
      simp [evalPhase, Transaction.phases, eval_phases]
    · refine ⟨_, bodyAt, (sees_eval_iff .requestHeaders).mpr sees, ?_, ?_⟩
      · rw [content, noBody, List.take_nil]
      · intro running
        exact processRequestBody_phases running uninterrupted (eval_lastPhase _ _) s.host s.waf

/-- A response that passes phases 3 and 4 leaves no interruption behind. -/
theorem final_uninterrupted {x : Exchange s} {final : Transaction}
    (clean : (s.passed x).interruption = none)
    (ends : final = if (s.answer x (s.passed x)).panics then s.passed x
      else s.processResponse x (s.passed x))
    (passes : (s.judged x).interruption = none) : final.interruption = none := by
  rw [ends]
  split
  · exact clean
  · by_contra set
    have stopped : (s.processResponse x (s.passed x)).interruption.isSome = true :=
      Option.isSome_iff_ne_none.mpr set
    rw [judged, if_pos stopped] at passes
    exact set passes

theorem mediated_passed_iff (on : s.waf.ruleEngine = .on) (valid : s.waf.validate = none)
    {x : Exchange s} {served : Served} {final : Transaction}
    (path : x.request.path ≠ str "/api/ws")
    (uninterrupted :
      (processRequestHeaders s.host s.waf (s.feed x.request (s.transaction x))).1.interruption = none)
    (clean : (s.passed x).interruption = none)
    (ends : final = if (s.answer x (s.passed x)).panics then s.passed x
      else s.processResponse x (s.passed x))
    (reached : served.reached = true)
    (headersAt : served.headersAt = some (s.feed x.request (s.transaction x)))
    (bodyAt : served.bodyAt = some
      (processRequestHeaders s.host s.waf (s.feed x.request (s.transaction x))).1)
    (atEnd : served.final = some final) : s.Mediated x served ↔ s.Mediable x := by
  have inspected := inspected_iff on valid headersAt bodyAt uninterrupted
  rw [sees_feed_iff] at inspected
  constructor
  · intro mediated
    obtain ⟨⟨noPort, headers⟩, noBody⟩ := inspected.mp (mediated.request reached)
    exact ⟨path, noPort, headers, noBody, mediated.response reached⟩
  · intro mediable
    refine ⟨fun _ => inspected.mpr ⟨⟨mediable.noPort, mediable.headers⟩, mediable.noBody⟩, ?_,
      fun _ => mediable.passes⟩
    intro tx it found set
    rw [atEnd] at found
    rw [← Option.some.inj found, final_uninterrupted clean ends mediable.passes] at set
    cases set

end

/-- A request that does not reach the handler gets the blocking response.  One that does is
mediated exactly if it is no websocket, its address has no port, all its headers are in the map,
it has no body, and phases 3 and 4 do not interrupt the response. -/
theorem mediated_iff (on : s.waf.ruleEngine = .on) (valid : s.waf.validate = none) (x : Exchange s)
    (store : Store) :
    ((s.serve x store).reached = false → s.Mediated x (s.serve x store)) ∧
      ((s.serve x store).reached = true → (s.Mediated x (s.serve x store) ↔ s.Mediable x)) := by
  have course := serve_course x store
  generalize s.serve x store = served at course
  cases course with
  | threat store calls =>
    have missed {P : Prop} (reached : false = true) : P := absurd reached Bool.false_ne_true
    exact ⟨fun _ => ⟨missed, fun tx it found => absurd found.symm (Option.some_ne_none tx), missed⟩,
      missed⟩
  | websocket store calls panicked path =>
    refine ⟨fun reached => absurd reached.symm Bool.false_ne_true, fun _ => iff_of_false ?_ ?_⟩
    · intro mediated
      obtain ⟨⟨tx, same, _⟩, _⟩ := mediated.request rfl
      exact absurd same.symm (Option.some_ne_none tx)
    · exact fun mediable => mediable.notWebsocket path
  | blocked store tx it interrupted headersAt bodyAt =>
    have missed {P : Prop} (reached : false = true) : P := absurd reached Bool.false_ne_true
    refine ⟨fun _ => ⟨missed, ?_, missed⟩, missed⟩
    intro other found same set
    rw [← Option.some.inj same, interrupted] at set
    exact ⟨rfl, by rw [Option.some.inj set]⟩
  | passed store calls panicked final path uninterrupted clean ends =>
    refine ⟨fun reached => absurd reached.symm Bool.false_ne_true, fun _ => ?_⟩
    exact mediated_passed_iff on valid path uninterrupted clean ends rfl rfl rfl rfl

end Server

theorem mediated_plain :
    ((denyServer .logging true).serve (plainExchange _ (str "10.0.0.1")) {}).reached = true ∧
      (denyServer .logging true).Mediated (plainExchange _ (str "10.0.0.1"))
        ((denyServer .logging true).serve (plainExchange _ (str "10.0.0.1")) {}) := by
  have reached :
      ((denyServer .logging true).serve (plainExchange _ (str "10.0.0.1")) {}).reached = true := by
    decide
  refine ⟨reached, (((denyServer .logging true).mediated_iff rfl rfl _ {}).2 reached).mpr ?_⟩
  refine ⟨by decide, by decide, ?_, by decide, by decide +kernel⟩
  intro pair listed
  cases listed

theorem none_ne_errLimitReached : none ≠ some BodyBuffer.errLimitReached :=
  (Option.some_ne_none _).symm

def postExchange (phase : RulePhase) : Exchange (denyServer phase true) :=
  let plain := plainExchange (denyServer phase true) (str "10.0.0.1:4000")
  { plain with
    request :=
      { plain.request with
        method := str "POST"
        body := some
          { reads := [str "attack"], own := none_ne_errLimitReached,
            bounded := fun sized => absurd sized Bool.false_ne_true } } }

def posted (phase : RulePhase) : Served := (denyServer phase true).serve (postExchange phase) {}

/-- The address has its port, the body is not there, and a response that is denied in phase 3, or
would be in phase 4, which is not evaluated, has gone out. -/
theorem mediation_gaps :
    let denied := some { ruleID := 1, action := str "deny", status := 403 }
    let sent := [WriterCall.writeHeader 200 [], .write (str "secret")]
    (posted .responseHeaders).headersAt.map (·.vars.single .remoteAddr) = some (str "10.0.0.1:4000") ∧
      (posted .responseHeaders).bodyAt.map (·.requestBodyBuffer.content) = some [] ∧
      (posted .responseHeaders).final.bind (·.interruption) = denied ∧
      (posted .responseHeaders).calls = sent ∧
      (posted .responseBody).final.map (·.phases) =
        some [.requestHeaders, .requestBody, .responseHeaders] ∧
      ((denyServer .responseBody true).judged (postExchange .responseBody)).interruption = denied ∧
      (posted .responseBody).calls = sent := by
  decide +kernel

end Obsidian.App
