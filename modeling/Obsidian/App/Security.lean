import Obsidian.Data.Net

namespace Obsidian.App

open Obsidian.Data

/-! # Client addresses behind trusted proxies

The `Manager` of the `security` package, as far as it tells the address of a client.
-/

namespace Security

structure Manager where
  trustedIPs : List Bytes
  trustedNets : List IPNet

namespace Manager

end Manager

def trimBrackets (text : Bytes) : Bytes :=
  let text := if text.head? = some (byte '[') then text.drop 1 else text
  if text.getLast? = some (byte ']') then text.dropLast else text

def directIP (remoteAddr : Bytes) : Bytes := trimBrackets ((splitHost remoteAddr).getD remoteAddr)

def entries (xForwardedFor : Bytes) : List Bytes :=
  (xForwardedFor.splitOn (byte ',')).map trimSpace

namespace Manager

variable (m : Manager)

def isTrustedProxy (ipStr : Bytes) : Bool :=
  let ipStr := trimBrackets ipStr
  if ipStr ∈ m.trustedIPs then true
  else
    match parseIP ipStr with
    | none => false
    | some ip => m.trustedNets.any (·.contains ip)

/-- The loop over the entries of `X-Forwarded-For`, from the last one on. -/
def firstUntrusted : (reversed : List Bytes) → Option Bytes
  | [] => none
  | entry :: rest =>
    let ip := trimSpace entry
    if ip = [] then firstUntrusted rest
    else if m.isTrustedProxy ip then firstUntrusted rest
    else some ip

def extractClientIP (remoteAddr xForwardedFor xRealIP : Bytes) : Bytes :=
  if xForwardedFor = [] ∧ xRealIP = [] then directIP remoteAddr
  else if m.isTrustedProxy (directIP remoteAddr) = false then directIP remoteAddr
  else
    let forwarded :=
      if xForwardedFor = [] then none
      else m.firstUntrusted (xForwardedFor.splitOn (byte ',')).reverse
    match forwarded with
    | some ip => ip
    | none =>
      if xRealIP = [] then directIP remoteAddr
      else if m.isTrustedProxy (trimSpace xRealIP) then directIP remoteAddr
      else trimSpace xRealIP

/-! ## Entries -/

def rejects (ip : Bytes) : Bool := ip ≠ [] ∧ m.isTrustedProxy ip = false

def rejected (xForwardedFor : Bytes) : List Bytes := (entries xForwardedFor).filter m.rejects

theorem firstUntrusted_eq (reversed : List Bytes) :
    m.firstUntrusted reversed = ((reversed.map trimSpace).filter m.rejects).head? := by
  induction reversed with
  | nil => rfl
  | cons entry rest ih =>
    simp only [firstUntrusted, List.map_cons, List.filter_cons]
    by_cases blank : trimSpace entry = []
    · have passed : m.rejects (trimSpace entry) = false := by simp [rejects, blank]
      rw [if_pos blank, passed, ih]
      rfl
    · rw [if_neg blank]
      cases trusted : m.isTrustedProxy (trimSpace entry) with
      | true =>
        have passed : m.rejects (trimSpace entry) = false := by simp [rejects, trusted]
        rw [if_pos rfl, passed, ih]
        rfl
      | false =>
        have stopped : m.rejects (trimSpace entry) = true := by simp [rejects, blank, trusted]
        rw [if_neg (by decide), stopped]
        rfl

theorem firstUntrusted_reverse (xForwardedFor : Bytes) :
    m.firstUntrusted (xForwardedFor.splitOn (byte ',')).reverse =
      (m.rejected xForwardedFor).getLast? := by
  rw [firstUntrusted_eq, List.map_reverse, List.filter_reverse, List.head?_reverse]
  rfl

theorem entries_append (front back : Bytes) :
    entries (front ++ byte ',' :: back) = entries front ++ entries back := by
  simp only [entries, List.splitOn]
  rw [List.splitOnP_append_cons front back (by simp), List.map_append]

theorem rejected_append (front back : Bytes) :
    m.rejected (front ++ byte ',' :: back) = m.rejected front ++ m.rejected back := by
  simp only [rejected, entries_append, List.filter_append]

@[simp] theorem rejected_nil : m.rejected [] = [] := rfl

/-- The header does not matter for a peer that is not trusted, and the entries decide
for one that is. -/
theorem extractClientIP_eq (remoteAddr xForwardedFor xRealIP : Bytes) :
    m.extractClientIP remoteAddr xForwardedFor xRealIP =
      if m.isTrustedProxy (directIP remoteAddr) = false then directIP remoteAddr
      else (m.rejected xForwardedFor).getLast?.getD
        (if xRealIP = [] ∨ m.isTrustedProxy (trimSpace xRealIP) then directIP remoteAddr
          else trimSpace xRealIP) := by
  simp only [extractClientIP, firstUntrusted_reverse]
  by_cases trusted : m.isTrustedProxy (directIP remoteAddr) = false
  · simp only [trusted, if_true, ite_self]
  · simp only [trusted]
    by_cases unset : xForwardedFor = []
    · by_cases unnamed : xRealIP = [] <;> simp [unset, unnamed]
    · cases found : (m.rejected xForwardedFor).getLast? with
      | none => by_cases unnamed : xRealIP = [] <;> simp [unset, unnamed]
      | some ip => simp [unset]

/-- A text in front of a header: nothing, or something that ends in a comma. -/
def Prepended (front : Bytes) : Prop := front = [] ∨ ∃ text, front = text ++ [byte ',']

/-- A text behind a header: nothing, or a comma and entries that are blank or trusted. -/
def Appended (back : Bytes) : Prop :=
  back = [] ∨ ∃ text, back = byte ',' :: text ∧
    ∀ ip ∈ entries text, ip = [] ∨ m.isTrustedProxy ip = true

theorem rejected_appended {back : Bytes} (appended : m.Appended back) (xForwardedFor : Bytes) :
    m.rejected (xForwardedFor ++ back) = m.rejected xForwardedFor := by
  obtain rfl | ⟨text, rfl, ignored⟩ := appended
  · rw [List.append_nil]
  · have none_left : m.rejected text = [] := by
      apply List.filter_eq_nil_iff.mpr
      intro ip found
      obtain blank | trusted := ignored ip found
      · simp [rejects, blank]
      · simp [rejects, trusted]
    rw [rejected_append, none_left, List.append_nil]

theorem rejected_prepended {front : Bytes} (prepended : Prepended front) (xForwardedFor : Bytes) :
    m.rejected xForwardedFor <:+ m.rejected (front ++ xForwardedFor) := by
  obtain rfl | ⟨text, rfl⟩ := prepended
  · exact List.suffix_refl _
  · rw [List.append_assoc, List.singleton_append, rejected_append]
    exact List.suffix_append _ _

end Manager

theorem extractClientIP_spoofResistant (m : Manager) (remoteAddr xForwardedFor xRealIP : Bytes) :
    (m.isTrustedProxy (directIP remoteAddr) = false →
      m.extractClientIP remoteAddr xForwardedFor xRealIP = directIP remoteAddr) ∧
    (m.isTrustedProxy (directIP remoteAddr) = true →
      ∀ ip, (m.rejected xForwardedFor).getLast? = some ip →
        ∀ front back otherRealIP, Manager.Prepended front → m.Appended back →
          m.extractClientIP remoteAddr (front ++ xForwardedFor ++ back) otherRealIP = ip) ∧
    (m.extractClientIP remoteAddr xForwardedFor xRealIP = directIP remoteAddr ∨
      m.isTrustedProxy (m.extractClientIP remoteAddr xForwardedFor xRealIP) = false ∧
        (m.extractClientIP remoteAddr xForwardedFor xRealIP ∈ m.rejected xForwardedFor ∨
          xRealIP ≠ [] ∧
            m.extractClientIP remoteAddr xForwardedFor xRealIP = trimSpace xRealIP)) := by
  refine ⟨?direct, ?rightmost, ?header⟩
  case direct =>
    intro untrusted
    rw [m.extractClientIP_eq, if_pos untrusted]
  case rightmost =>
    intro trusted ip last front back otherRealIP prepended appended
    obtain ⟨others, found⟩ := m.rejected_prepended prepended xForwardedFor
    rw [m.extractClientIP_eq, if_neg (by simp [trusted]), m.rejected_appended appended, ← found,
      List.getLast?_append, last]
    rfl
  case header =>
    rw [m.extractClientIP_eq]
    split
    · exact .inl rfl
    · cases last : (m.rejected xForwardedFor).getLast? with
      | some ip =>
        have found : ip ∈ m.rejected xForwardedFor := List.mem_of_getLast? last
        have rejects := (List.mem_filter.mp found).2
        simp only [Manager.rejects, decide_eq_true_eq] at rejects
        exact .inr ⟨rejects.2, .inl found⟩
      | none =>
        simp only [Option.getD_none]
        split
        · exact .inl rfl
        · rename_i other
          rw [not_or] at other
          exact .inr ⟨by simpa using other.2, .inr ⟨other.1, rfl⟩⟩

def exampleManager : Manager where
  trustedIPs := [str "127.0.0.1"]
  trustedNets := [{ ip := [10, 0, 0, 0], mask := [255, 0, 0, 0] }]

theorem extractClientIP_spoofResistant_chain :
    exampleManager.isTrustedProxy (directIP (str "10.0.0.1:80")) = true ∧
      exampleManager.extractClientIP (str "10.0.0.1:80")
        (str "6.6.6.6," ++ str "203.0.113.7, 10.1.1.1" ++ str ", ,127.0.0.1") (str "9.9.9.9") =
          str "203.0.113.7" :=
  ⟨by decide, (extractClientIP_spoofResistant exampleManager (str "10.0.0.1:80")
    (str "203.0.113.7, 10.1.1.1") []).2.1 (by decide) _ (by decide) (str "6.6.6.6,")
      (str ", ,127.0.0.1") (str "9.9.9.9") (.inr ⟨str "6.6.6.6", by decide⟩)
      (.inr ⟨str " ,127.0.0.1", by decide, by decide⟩)⟩

end Security

end Obsidian.App
