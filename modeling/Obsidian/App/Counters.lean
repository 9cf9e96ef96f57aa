import Obsidian.App.WafMiddleware
import Obsidian.Data.Memo

namespace Obsidian.App

open Obsidian.Data Http

/-! # Each request counted once

The middleware counts a request where it answers it, and the audit log writer counts the
transaction once more if it is relevant.
-/

def Stats.Balanced (stats : Stats) : Prop :=
  stats.totalRequests = stats.blockedRequests + stats.flaggedRequests + stats.safeRequests

/-- One request more, in one of the three counters: blocked if the client was. -/
inductive CountedOnce (before after : Stats) : (blocked : Bool) → Prop
  | blocked : after = before.addBlocked → CountedOnce before after true
  | flagged : after = before.addFlagged → CountedOnce before after false
  | safe : after = before.addSafe → CountedOnce before after false

/-! ## The audit log writer -/

/-- The audit log of the transaction is relevant, and the writer gets to its entry. -/
def audits (host : Host) (waf : WAF) (tx : Transaction) : Bool :=
  auditRelevant waf (logged host waf tx) &&
    (auditMessages (logged host waf tx)).head? ≠ some none

theorem addLog_stats (rt : Runtime) (entry : LogEntry) (store : Store) :
    (store.addLog rt entry).stats = store.stats.count (Store.statusOf rt entry) := rfl

theorem statusOf_log (rt : Runtime) {entry : LogEntry} (unset : entry.status = .unset)
    (action : entry.action = str "Log") : Store.statusOf rt entry = .flagged := by
  have lower : rt.toLower (str "Log") = str "log" := by
    have ascii : isASCII (str "Log") = true := by decide
    simp only [Runtime.toLower, toLower, ascii, if_true]
    decide
  have other : ¬ (str "log" = str "blocked" ∨ str "log" = str "deny") := by decide
  simp only [Store.statusOf, unset, action, lower, other, ne_eq, not_true_eq_false, if_false, if_true]

theorem hybridWrite_stats (rt : Runtime) (tx : Transaction) (store : Store) :
    (hybridWrite rt tx store).stats =
      if (auditMessages tx).head? ≠ some none then store.stats.addFlagged else store.stats := by
  unfold hybridWrite
  split
  · next none => rw [none, addLog_stats, statusOf_log rt rfl rfl]; rfl
  · next ruleID some => rw [some, addLog_stats, statusOf_log rt rfl rfl]; rfl
  · next panics => rw [panics]; rfl

theorem auditInto_stats (host : Host) (waf : WAF) (tx : Transaction) (store : Store) :
    (auditInto host waf tx store).stats =
      if audits host waf tx then store.stats.addFlagged else store.stats := by
  unfold auditInto audits
  dsimp only
  by_cases relevant : auditRelevant waf (logged host waf tx) = true
  · rw [if_pos relevant, hybridWrite_stats, relevant, Bool.true_and]
    simp only [decide_eq_true_eq]
  · rw [if_neg relevant]
    simp [relevant]

/-! ## What becomes of a request -/

/-- With the transaction that is logged. -/
inductive Ending where
  | threat
  | websocket
  | blocked (tx : Transaction)
  | panicked (tx : Transaction)
  | answered (tx : Transaction)

namespace Server

variable (s : Server) (x : Exchange s)

def ending : Ending :=
  if (s.checkIP (s.clientIP x)).isSome then .threat
  else if x.request.path = str "/api/ws" then .websocket
  else
    let (tx, reply) := processRequestHeaders s.host s.waf (s.feed x.request (s.transaction x))
    if reply.interruption.isSome then .blocked tx
    else
      let (tx, reply) := processRequestBody s.host s.waf tx
      if reply.interruption.isSome then .blocked tx
      else if (s.answer x tx).panics then .panicked tx
      else .answered (s.processResponse x tx)

end Server

namespace Ending

def audited (host : Host) (waf : WAF) : Ending → Bool
  | .threat | .websocket => false
  | .blocked tx | .panicked tx | .answered tx => audits host waf tx

def isBlocked : Ending → Bool
  | .threat | .blocked _ => true
  | .websocket | .panicked _ | .answered _ => false

/-- What the middleware itself counts. -/
def counted (stats : Stats) : Ending → Stats
  | .threat | .blocked _ => stats.addBlocked
  | .websocket | .panicked _ => stats
  | .answered tx => if tx.interruption.isSome then stats else stats.addSafe

/-- The audit log writer adds an entry for those requests only that the middleware does not
count: a response phase has interrupted them, or the handler has panicked. -/
def Fair (host : Host) (waf : WAF) : Ending → Prop
  | .threat => True
  | .websocket => False
  | .blocked tx => audits host waf tx = false
  | .panicked tx => audits host waf tx = true
  | .answered tx => audits host waf tx = tx.interruption.isSome

instance (host : Host) (waf : WAF) : (e : Ending) → Decidable (e.Fair host waf)
  | .threat => inferInstanceAs (Decidable True)
  | .websocket => inferInstanceAs (Decidable False)
  | .blocked _ | .panicked _ => inferInstanceAs (Decidable (_ = _))
  | .answered _ => inferInstanceAs (Decidable (_ = _))

end Ending

namespace Server

variable {s : Server} (x : Exchange s) (store : Store)

theorem processInterruption_stats (tx : Transaction) (it : Interruption) :
    (s.processInterruption x store tx it).store.stats =
      if audits s.host s.waf tx then store.stats.addBlocked.addFlagged
      else store.stats.addBlocked := by
  simp only [processInterruption, auditInto_stats]
  rfl

theorem logResponse_stats (tx : Transaction) (statusCode : Int) :
    (s.logResponse x store tx statusCode).stats =
      if tx.interruption.isSome then store.stats else store.stats.addSafe := by
  unfold logResponse
  split
  · rfl
  · split <;> rfl

theorem passOn_stats (tx : Transaction) :
    (s.passOn x store tx).store.stats =
        (if (s.answer x tx).panics then
          if audits s.host s.waf tx then store.stats.addFlagged else store.stats
        else
          let counted := if (s.processResponse x tx).interruption.isSome then store.stats
            else store.stats.addSafe
          if audits s.host s.waf (s.processResponse x tx) then counted.addFlagged else counted) ∧
      (s.passOn x store tx).reached = true := by
  simp only [passOn]
  split
  · exact ⟨auditInto_stats .., rfl⟩
  · refine ⟨?_, rfl⟩
    rw [auditInto_stats, logResponse_stats]

/-- The counters after a request, and whether the client was blocked. -/
theorem serve_ending :
    (s.serve x store).store.stats =
        (if (s.ending x).audited s.host s.waf then ((s.ending x).counted store.stats).addFlagged
        else (s.ending x).counted store.stats) ∧
      (s.serve x store).reached = !(s.ending x).isBlocked := by
  unfold serve ending
  cases s.checkIP (s.clientIP x) with
  | some entry => exact ⟨rfl, rfl⟩
  | none =>
    dsimp only [Option.isSome]
    by_cases websocket : x.request.path = str "/api/ws"
    · simp only [websocket, if_true]
      exact ⟨rfl, rfl⟩
    · simp only [websocket, if_false, Bool.false_eq_true]
      generalize processRequestHeaders s.host s.waf (s.feed x.request (s.transaction x)) = headers
      obtain ⟨tx, reply⟩ := headers
      cases reply.interruption with
      | some it => exact ⟨processInterruption_stats x store tx it, rfl⟩
      | none =>
        dsimp only
        generalize processRequestBody s.host s.waf tx = body
        obtain ⟨next, reply⟩ := body
        cases reply.interruption with
        | some it => exact ⟨processInterruption_stats x store next it, rfl⟩
        | none =>
          obtain ⟨stats, reached⟩ := passOn_stats x store next
          by_cases panics : (s.answer x next).panics = true
          · simp only [panics, if_true] at stats
            simp only [panics, Bool.false_eq_true, if_false, if_true]
            exact ⟨stats, reached⟩
          · simp only [panics, if_false, Bool.false_eq_true] at stats
            simp only [panics, Bool.false_eq_true, if_false]
            exact ⟨stats, reached⟩

end Server

/-! ## Counting -/

theorem CountedOnce.total {before after : Stats} {blocked : Bool}
    (counted : CountedOnce before after blocked) :
    after.totalRequests = before.totalRequests + 1 := by
  cases counted with
  | blocked same | flagged same | safe same =>
    rw [same]
    rfl

theorem not_countedOnce_same (stats : Stats) (blocked : Bool) :
    ¬ CountedOnce stats stats blocked := by
  intro counted
  have := counted.total
  omega

theorem not_countedOnce_twice {stats counted : Stats} (blocked : Bool)
    (once : counted.totalRequests = stats.totalRequests + 1) :
    ¬ CountedOnce stats counted.addFlagged blocked := by
  intro both
  have twice : counted.addFlagged.totalRequests = counted.totalRequests + 1 := rfl
  have := both.total
  omega

namespace Ending

variable (host : Host) (waf : WAF) (stats : Stats)

theorem countedOnce_iff (e : Ending) :
    CountedOnce stats
        (if e.audited host waf then (e.counted stats).addFlagged else e.counted stats)
        e.isBlocked ↔ e.Fair host waf := by
  -- A request that the middleware counts, and one that it does not.
  have own (counted : Stats) (blocked audits : Bool) (once : CountedOnce stats counted blocked) :
      CountedOnce stats (if audits then counted.addFlagged else counted) blocked ↔
        audits = false := by
    cases audits with
    | false => simp [once]
    | true => simp [not_countedOnce_twice blocked once.total]
  have other (audits : Bool) :
      CountedOnce stats (if audits then stats.addFlagged else stats) false ↔ audits = true := by
    cases audits with
    | false => simp [not_countedOnce_same]
    | true => simp [CountedOnce.flagged]
  cases e with
  | threat => exact iff_of_true (.blocked rfl) trivial
  | websocket => exact iff_of_false (not_countedOnce_same stats false) id
  | blocked tx => exact own stats.addBlocked true _ (.blocked rfl)
  | panicked tx => exact other _
  | answered tx =>
    simp only [counted, audited, isBlocked, Fair]
    cases tx.interruption.isSome with
    | true => exact other _
    | false => exact own stats.addSafe false _ (.safe rfl)

theorem counted_balanced {stats : Stats} (balanced : stats.Balanced) (e : Ending) :
    Stats.Balanced
      (if e.audited host waf then (e.counted stats).addFlagged else e.counted stats) := by
  have flagged {stats : Stats} (balanced : stats.Balanced) : stats.addFlagged.Balanced := by
    simp only [Stats.Balanced, Stats.addFlagged] at balanced ⊢
    omega
  have own : (e.counted stats).Balanced := by
    simp only [Stats.Balanced] at balanced
    cases e with
    | threat | blocked tx =>
      simp only [Stats.Balanced, counted, Stats.addBlocked]
      omega
    | websocket | panicked tx => exact balanced
    | answered tx =>
      simp only [counted]
      split
      · exact balanced
      · simp only [Stats.Balanced, Stats.addSafe]
        omega
  split
  · exact flagged own
  · exact own

end Ending

/-! ## Runs -/

namespace Server

variable (s : Server)

def serveAll (store : Store) (requests : List (Exchange s)) : Store :=
  requests.foldl (fun store x => (s.serve x store).store) store

theorem serveAll_snoc (store : Store) (requests : List (Exchange s)) (x : Exchange s) :
    s.serveAll store (requests ++ [x]) = (s.serve x (s.serveAll store requests)).store := by
  simp [serveAll]

theorem serveAll_balanced {store : Store} (balanced : store.stats.Balanced)
    (requests : List (Exchange s)) : (s.serveAll store requests).stats.Balanced := by
  induction requests using List.reverseRecOn with
  | nil => exact balanced
  | append_singleton requests x ih =>
    rw [serveAll_snoc, (serve_ending x _).1]
    exact Ending.counted_balanced s.host s.waf ih _

/-- In every sequence of requests the total stays the sum of the three counters.  Each request
is counted once, and as blocked if the client was, exactly if the audit log writer adds an entry
for those only that the middleware does not count. -/
theorem requests_countedOnce_iff (store : Store) (requests : List (Exchange s)) :
    (store.stats.Balanced → (s.serveAll store requests).stats.Balanced) ∧
    ((∀ before x after, requests = before ++ x :: after →
        CountedOnce (s.serveAll store before).stats
          (s.serve x (s.serveAll store before)).store.stats
          (!(s.serve x (s.serveAll store before)).reached)) ↔
      ∀ x ∈ requests, (s.ending x).Fair s.host s.waf) := by
  refine ⟨fun balanced => s.serveAll_balanced balanced requests, ?_⟩
  have each (x : Exchange s) (store : Store) :
      CountedOnce store.stats (s.serve x store).store.stats (!(s.serve x store).reached) ↔
        (s.ending x).Fair s.host s.waf := by
    rw [(serve_ending x store).1, (serve_ending x store).2, Bool.not_not]
    exact Ending.countedOnce_iff s.host s.waf store.stats _
  constructor
  · intro once x listed
    obtain ⟨before, after, split⟩ := List.append_of_mem listed
    exact (each x _).mp (once before x after split)
  · intro fair before x after split
    exact (each x _).mpr (fair x (by simp [split]))

end Server

/-- A request that phase 1 denies. -/
theorem requests_countedOnce_denied :
    CountedOnce {}
      ((denyServer .requestHeaders true).serve (plainExchange _ (str "10.0.0.1:4000")) {}).store.stats
      (!((denyServer .requestHeaders true).serve (plainExchange _ (str "10.0.0.1:4000")) {}).reached) := by
  have counted := ((denyServer .requestHeaders true).requests_countedOnce_iff {}
    [plainExchange _ (str "10.0.0.1:4000")]).2
  refine counted.mpr ?_ [] _ [] rfl
  intro x listed
  rw [List.mem_singleton.mp listed]
  decide

/-- A request whose response phase 3 denies is not counted at all, and one that a rule with
`nolog` denies in phase 1 is counted twice. -/
theorem requests_miscounted :
    ((denyServer .responseHeaders true).serve (plainExchange _ (str "10.0.0.1:4000")) {}).store.stats =
        {} ∧
      ((denyServer .requestHeaders false).serve
        (plainExchange _ (str "10.0.0.1:4000")) {}).store.stats =
        { totalRequests := 2, blockedRequests := 1, flaggedRequests := 1 } := by
  decide

end Obsidian.App
