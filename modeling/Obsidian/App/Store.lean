import Obsidian.Api
import Obsidian.Data.Text

namespace Obsidian.App

open Obsidian.Data

/-! # Request logs and counters

The logs and the statistics of the store, and the audit log writer that feeds them from a
transaction.
-/

inductive LogStatus where
  | unset | safe | blocked | flagged | threatBlocked
deriving DecidableEq, Repr

structure LogEntry where
  clientIP : Bytes := []
  method : Bytes := []
  uri : Bytes := []
  ruleID : Int := 0
  action : Bytes := []
  status : LogStatus := .unset
  statusCode : Int := 0
  userAgent : Bytes := []
deriving DecidableEq, Repr

structure Stats where
  totalRequests : Nat := 0
  blockedRequests : Nat := 0
  flaggedRequests : Nat := 0
  safeRequests : Nat := 0
deriving DecidableEq, Repr

structure Store where
  logs : List LogEntry := []
  stats : Stats := {}
deriving DecidableEq, Repr

namespace Stats

variable (stats : Stats)

def addBlocked : Stats :=
  { stats with
    totalRequests := stats.totalRequests + 1, blockedRequests := stats.blockedRequests + 1 }

def addFlagged : Stats :=
  { stats with
    totalRequests := stats.totalRequests + 1, flaggedRequests := stats.flaggedRequests + 1 }

def addSafe : Stats :=
  { stats with totalRequests := stats.totalRequests + 1, safeRequests := stats.safeRequests + 1 }

def count : LogStatus → Stats
  | .blocked | .threatBlocked => stats.addBlocked
  | .flagged => stats.addFlagged
  | .safe | .unset => stats.addSafe

end Stats

namespace Store

variable (s : Store)

def append (entry : LogEntry) : Store :=
  { s with logs := (if 1000 < s.logs.length then s.logs.drop 1 else s.logs) ++ [entry] }

def statusOf (rt : Runtime) (entry : LogEntry) : LogStatus :=
  if entry.status ≠ .unset then entry.status
  else
    let action := rt.toLower entry.action
    if action = str "blocked" ∨ action = str "deny" then .blocked
    else if action = str "log" then .flagged
    else .safe

def addLog (rt : Runtime) (entry : LogEntry) : Store :=
  let entry := { entry with status := statusOf rt entry }
  { s.append entry with stats := s.stats.count entry.status }

def incrementSafeRequest : Store := { s with stats := s.stats.addSafe }

def addSafeLog (entry : LogEntry) : Store :=
  { s.append { entry with status := .safe, action := str "Pass" } with stats := s.stats.addSafe }

end Store

/-! ## The audit log writer -/

def partAuditLogTrailer : UInt8 := byte 'H'
def partRulesMatched : UInt8 := byte 'K'

/-- The messages of `AuditLog`: the id of the rule where there is data.  Without part K a
message has none. -/
def auditMessages (tx : Transaction) : List (Option Int) :=
  let logged := tx.matchedRules.filter (·.log)
  if partRulesMatched ∈ tx.auditLogParts then
    (tx.auditLogParts.filter (· = partRulesMatched)).flatMap fun _ =>
      logged.flatMap fun mr => mr.matchedDatas.map fun _ => some mr.rule.id
  else if partAuditLogTrailer ∈ tx.auditLogParts then logged.map fun _ => none
  else []

/-- `HybridAuditLogger.Write`.  The data of a message without any is a nil pointer in an
interface that is not nil, so reading it panics, and the writer recovers before it adds an
entry. -/
def hybridWrite (rt : Runtime) (tx : Transaction) (store : Store) : Store :=
  let entry (ruleID : Int) : LogEntry :=
    { clientIP := tx.vars.single .remoteAddr
      method := tx.vars.single .requestMethod
      uri := tx.vars.single .requestURI
      ruleID
      action := str "Log" }
  match (auditMessages tx).head? with
  | none => store.addLog rt (entry 0)
  | some (some ruleID) => store.addLog rt (entry ruleID)
  | some none => store

def logged (host : Host) (waf : WAF) (tx : Transaction) : Transaction :=
  if tx.ruleEngine ≠ .off then (waf.engine host).eval .logging tx else tx

/-- `ProcessLogging` with the hybrid writer installed, as far as the store sees it. -/
def auditInto (host : Host) (waf : WAF) (tx : Transaction) (store : Store) : Store :=
  let tx := logged host waf tx
  if auditRelevant waf tx then hybridWrite host.toRuntime tx store else store

end Obsidian.App
