import Obsidian.Data.Networks
import Obsidian.Http.Middleware
import Obsidian.InputFrames

namespace Obsidian

open Obsidian.Data

/-! # Addresses of clients

`@ipMatch` on `REMOTE_ADDR`, which `processRequest` fills from what the server reports
of the peer.
-/

namespace Operators

/-- An entry of the list, with the bits of a whole address if it names no number of bits. -/
def withBits (sb : Bytes) : Bytes :=
  if byte ':' ∈ sb ∧ byte '/' ∉ sb then sb ++ str "/128"
  else if byte '.' ∈ sb ∧ byte '/' ∉ sb then sb ++ str "/32"
  else sb

/-- The subnets of the operator.  An entry that `net.ParseCIDR` refuses is passed over. -/
def newIPMatch (arguments : Bytes) : Except GoError (List IPNet) :=
  .ok ((arguments.splitOn (byte ',')).flatMap fun sb =>
    let sb := trimSpace sb
    if sb = [] then [] else (parseCIDR (withBits sb)).toList)

/-- `ipMatch.Evaluate`; a value that is no address is the nil address. -/
def ipMatch (subnets : List IPNet) : Operator where
  evaluate _ value := (subnets.any (·.contains ((parseIP value).getD [])), [])

theorem parseCIDR_withBits {n : Network} {text : Bytes} (named : n.Named text) :
    parseCIDR (withBits text) = some n.net := by
  cases named with
  | @cidr addr bits parsed number =>
    have slash : byte '/' ∈ addr ++ byte '/' :: bits :=
      List.mem_append_right _ List.mem_cons_self
    rw [withBits, if_neg (fun apart => apart.2 slash), if_neg (fun apart => apart.2 slash)]
    exact Network.parseCIDR_eq parsed number
  | host parsed whole =>
    rcases parseAddr_cases parsed with ⟨_, four, dot, noColon, noSlash⟩ | ⟨sixteen, colon, noSlash⟩
    · rw [withBits, if_neg (fun apart => noColon apart.1), if_pos ⟨dot, noSlash⟩]
      refine Network.parseCIDR_eq parsed ?_
      rw [whole, four]
      decide
    · rw [withBits, if_pos ⟨colon, noSlash⟩]
      refine Network.parseCIDR_eq parsed ?_
      rw [whole, sixteen]
      decide

theorem named_of_parseCIDR {text : Bytes} {subnet : IPNet}
    (parsed : parseCIDR (withBits text) = some subnet) :
    ∃ n : Network, n.Named text ∧ n.net = subnet := by
  simp only [parseCIDR, Option.bind_eq_bind, Option.bind_eq_some_iff] at parsed
  obtain ⟨⟨addr, bits⟩, found, ip, address, ones, number, made⟩ := parsed
  split at made
  swap
  · cases made
  next fits =>
    let n : Network := ⟨ip, ones, parseAddr_length address, fits⟩
    have same : n.net = subnet := Option.some.inj made
    simp only [withBits] at found
    split at found
    · next six =>
        rw [show str "/128" = byte '/' :: str "128" by decide, cut_append six.2] at found
        cases found
        cases (show parseUnsigned (str "128") = some 128 by decide).symm.trans number
        refine ⟨n, .host address ?_, same⟩
        rcases n.length with four | sixteen
        · have small : 128 ≤ 8 * n.address.length := fits
          omega
        · rw [sixteen]
    · next notSix =>
        split at found
        · next four =>
            rw [show str "/32" = byte '/' :: str "32" by decide, cut_append four.2] at found
            cases found
            cases (show parseUnsigned (str "32") = some 32 by decide).symm.trans number
            refine ⟨n, .host address ?_, same⟩
            rcases parseAddr_cases address with ⟨_, length, _⟩ | ⟨_, colon, noSlash⟩
            · rw [show n.address.length = 4 from length]
            · exact absurd ⟨colon, noSlash⟩ notSix
        · rw [cut_eq_some found]
          exact ⟨n, .cidr address number, same⟩

/-- The entries of a list that are addresses or networks. -/
def ValidList (list : Bytes) : Prop :=
  ∀ sb ∈ list.splitOn (byte ','), trimSpace sb = [] ∨ ∃ n : Network, n.Named (trimSpace sb)

def Listed (list ip : Bytes) : Prop :=
  ∃ sb ∈ list.splitOn (byte ','), ∃ n : Network, n.Named (trimSpace sb) ∧ n.Has ip

theorem named_ne_nil {n : Network} {text : Bytes} (named : n.Named text) : text ≠ [] := by
  cases named with
  | cidr _ _ => exact List.append_ne_nil_of_right_ne_nil _ (List.cons_ne_nil _ _)
  | host parsed _ =>
    rintro rfl
    cases parsed

theorem mem_newIPMatch {list : Bytes} {subnets : List IPNet} (compiled : newIPMatch list = .ok subnets)
    {subnet : IPNet} : subnet ∈ subnets ↔
      ∃ sb ∈ list.splitOn (byte ','), ∃ n : Network, n.Named (trimSpace sb) ∧ n.net = subnet := by
  cases compiled
  rw [List.mem_flatMap]
  refine exists_congr fun sb => and_congr_right fun _ => ?_
  constructor
  · intro made
    by_cases blank : trimSpace sb = []
    · rw [if_pos blank] at made
      cases made
    · rw [if_neg blank] at made
      exact named_of_parseCIDR (Option.mem_toList.mp made)
  · rintro ⟨n, named, rfl⟩
    rw [if_neg (named_ne_nil named), parseCIDR_withBits named]
    exact List.mem_singleton_self _

theorem ipMatch_iff {list : Bytes} {subnets : List IPNet} (compiled : newIPMatch list = .ok subnets)
    (value : Bytes) (state : TransactionState) :
    ((ipMatch subnets).evaluate state value).1 = true ↔
      ∃ ip, parseAddr value = some ip ∧ Listed list (Network.unmap ip) := by
  simp only [ipMatch, List.any_eq_true, mem_newIPMatch compiled]
  cases parsed : parseAddr value with
  | none =>
    have address : (parseIP value).getD [] = [] := by rw [parseIP, parsed]; rfl
    rw [address]
    constructor
    · rintro ⟨subnet, ⟨sb, _, n, _, rfl⟩, contains⟩
      exact absurd (n.contains_nil.symm.trans contains) Bool.false_ne_true
    · rintro ⟨ip, missing, _⟩
      cases missing
  | some ip =>
    have address : (parseIP value).getD [] = to16 ip := by rw [parseIP, parsed]; rfl
    rw [address]
    constructor
    · rintro ⟨subnet, ⟨sb, listed, n, named, rfl⟩, contains⟩
      exact ⟨ip, rfl, sb, listed, n, named, (n.contains_iff (parseAddr_length parsed)).mp contains⟩
    · rintro ⟨_, same, sb, listed, n, named, has⟩
      cases same
      exact ⟨n.net, ⟨sb, listed, n, named, rfl⟩, (n.contains_iff (parseAddr_length parsed)).mpr has⟩

end Operators

/-! ## The variable -/

namespace Http

theorem clientAndPort_fst {port : Bytes} (numeric : byte ':' ∉ port) (addr : Bytes) :
    (clientAndPort (addr ++ byte ':' :: port)).1 = addr := by
  have colon : byte ':' = 58 := by decide
  have last : ((addr ++ byte ':' :: port).reverse.takeWhile (· ≠ 58)).reverse = port := by
    have plain : ∀ b ∈ port.reverse, decide (b ≠ 58) = true := by
      intro b found
      rw [List.mem_reverse] at found
      exact decide_eq_true fun same => numeric (colon ▸ same ▸ found)
    rw [List.reverse_append, List.reverse_cons, List.append_assoc, List.takeWhile_append_of_pos plain,
      colon, List.singleton_append, List.takeWhile_cons_of_neg (by simp), List.append_nil,
      List.reverse_reverse]
  have length : (addr ++ byte ':' :: port).length = addr.length + (port.length + 1) := by
    rw [List.length_append, List.length_cons]
  have front : (addr ++ byte ':' :: port).length - port.length - 1 = addr.length := by omega
  simp only [clientAndPort, last, front]
  rw [if_neg (by omega)]
  exact List.take_left' rfl

theorem clientAndPort_fst_none {addr : Bytes} (apart : byte ':' ∉ addr) :
    (clientAndPort addr).1 = [] := by
  have colon : byte ':' = 58 := by decide
  have all : ∀ b ∈ addr.reverse, decide (b ≠ 58) = true := by
    intro b found
    rw [List.mem_reverse] at found
    exact decide_eq_true fun same => apart (colon ▸ same ▸ found)
  have last : (addr.reverse.takeWhile (· ≠ 58)).reverse = addr := by
    rw [List.takeWhile_eq_self_iff.mpr all, List.reverse_reverse]
  simp only [clientAndPort, last, if_true]

section

variable {host : Host} {waf : WAF}

theorem processURI_remoteAddr (uri method httpVersion : Bytes) (tx : Transaction) :
    (processURI host waf tx uri method httpVersion).vars.single .remoteAddr =
      tx.vars.single .remoteAddr := by
  have extracted (pairs : List KeyValue) (v : TransactionVariables) :
      (pairs.foldl (fun v pair => addArgument host waf .argsGet pair.key pair.value v) v).single =
        v.single := by
    induction pairs generalizing v with
    | nil => rfl
    | cons pair rest ih =>
      rw [List.foldl_cons, ih, addArgument]
      split <;> rfl
  simp only [processURI]
  cases host.parseRequestURI (uri.takeWhile (· ≠ 35)) with
  | error err => simp [TransactionVariables.setSingle_single]
  | ok parsed => simp [TransactionVariables.setSingle_single, extractGetArguments, extracted]

theorem addRequestHeaders_remoteAddr (header : HeaderMap) (tx : Transaction) :
    (addRequestHeaders host header tx).vars.single .remoteAddr = tx.vars.single .remoteAddr := by
  have values (key : GoString) (texts : List Bytes) (tx : Transaction) :
      (texts.foldl (fun tx value => addRequestHeader host tx key value) tx).vars.single .remoteAddr =
        tx.vars.single .remoteAddr := by
    induction texts generalizing tx with
    | nil => rfl
    | cons text rest ih => rw [List.foldl_cons, ih, addRequestHeader_single (by decide)]
  rw [addRequestHeaders]
  induction header generalizing tx with
  | nil => rfl
  | cons entry rest ih => rw [List.foldl_cons, ih, values]

theorem feedRequest_remoteAddr (req : Request) (tx : Transaction) :
    (feedRequest host waf req tx).vars.single .remoteAddr = (clientAndPort req.remoteAddr).1 := by
  have connected (client : Bytes) (cport : Int) :
      (processConnection tx client cport [] 0).vars.single .remoteAddr = client := by
    simp [processConnection, TransactionVariables.setSingle_single]
  simp only [feedRequest]
  repeat' split
  all_goals
    simp [addRequestHeader_single, TransactionVariables.setSingle_single,
      addRequestHeaders_remoteAddr, processURI_remoteAddr, connected]

end

end Http

/-! ## The rule -/

/-- `SecRule REMOTE_ADDR "@ipMatch list"`, compiled to these subnets. -/
structure RemoteAddrRule (r : Rule) (subnets : List IPNet) : Prop where
  vars : r.vars = [{ var := .remoteAddr }]
  operator : r.operator = some { operator := Operators.ipMatch subnets }
  plain : r.transformations = []
  single : r.multiMatch = false

theorem getField_remoteAddr (rt : Runtime) (tx : Transaction) :
    tx.getField rt { var := .remoteAddr } =
      [{ var := .remoteAddr, value := tx.vars.single .remoteAddr }] := by
  have noKey : GoString.zero.text = [] := rfl
  have collection : RuleVariable.remoteAddr.collection = .single .remoteAddr := rfl
  simp [Transaction.getField, Transaction.selectField, collection, noKey,
    TransactionVariables.findAll, SingleField.var]

theorem evaluateValue_matched {e : Engine} {r : Rule} {op : RuleOperatorParams}
    (plain : op.negation = false) (level : Nat) (arg : MatchData) (tx : Transaction) (value : Bytes) :
    (e.evaluateValue r op level arg (tx, []) value).2 ≠ [] ↔
      (op.operator.evaluate tx.state value).1 = true := by
  simp only [Engine.evaluateValue, Rule.executeOperator, plain, Bool.xor_false]
  split <;> simp_all

namespace RemoteAddrRule

variable {host : Host} {waf : WAF} {r : Rule} {subnets : List IPNet}

theorem evaluateArgument (rule : RemoteAddrRule r subnets) (level : Nat) (tx : Transaction)
    (arg : MatchData × Nat) :
    ((waf.engine host).evaluateArgument r { operator := Operators.ipMatch subnets } level
        (tx, []) arg).2 ≠ [] ↔
      ((Operators.ipMatch subnets).evaluate tx.state arg.1.value).1 = true := by
  have value : ((waf.engine host).transform r arg.1 arg.2 tx).1.1 = arg.1.value := by
    simp [WAF.engine, transformArg, Rule.cacheKey, rule.plain, Rule.executeTransformations]
  simp only [Engine.evaluateArgument, rule.single, Bool.false_eq_true, if_false]
  rw [evaluateValue_matched rfl, value]
  rfl

/-- No rule has taken a target from the rule `r` before. -/
def Untouched (r : Rule) (tx : Transaction) : Prop :=
  ∀ removed ∈ tx.ruleRemoveTargetByID, removed.1 ≠ r.id

theorem evaluateOwn (rule : RemoteAddrRule r subnets) {tx : Transaction} (targets : Untouched r tx)
    (level : Nat) :
    ((waf.engine host).evaluateOwn r level tx).2 ≠ [] ↔
      ((Operators.ipMatch subnets).evaluate tx.state (tx.vars.single .remoteAddr)).1 = true := by
  have addr : ((waf.engine host).announce r level tx).vars.single .remoteAddr =
      tx.vars.single .remoteAddr :=
    (SameInput.describe host.toRuntime r tx.vars).single .remoteAddr (by decide)
  have kept : ((waf.engine host).announce r level tx).ruleRemoveTargetByID.filter (·.1 = r.id) = [] :=
    List.filter_eq_nil_iff.mpr fun removed found =>
      of_decide_eq_true.mt (targets removed found)
  have found := getField_remoteAddr host.toRuntime ((waf.engine host).announce r level tx)
  simp only [Engine.evaluateOwn, rule.operator, rule.vars, List.foldl_cons, List.foldl_nil,
    Engine.evaluateVariable]
  rw [kept]
  erw [found]
  rw [addr]
  exact rule.evaluateArgument level _ _

end RemoteAddrRule

/-! ## The client -/

def IsPort (port : Bytes) : Prop := ∀ b ∈ port, byte '0' ≤ b ∧ b ≤ byte '9'

instance (port : Bytes) : Decidable (IsPort port) := inferInstanceAs (Decidable (∀ b ∈ port, _))

/-- How a server may report the peer with the address `ip`. -/
inductive Reported (ip : Bytes) : Bytes → Prop
  | v4 {addr : Bytes} (parsed : parseAddr addr = some ip) (length : ip.length = 4) :
      Reported ip addr
  | v4Port {addr port : Bytes} (parsed : parseAddr addr = some ip) (length : ip.length = 4)
      (number : IsPort port) : Reported ip (addr ++ byte ':' :: port)
  | v6 {addr : Bytes} (parsed : parseAddr addr = some ip) (length : ip.length = 16) :
      Reported ip addr
  | v6Bracketed {addr : Bytes} (parsed : parseAddr addr = some ip) (length : ip.length = 16) :
      Reported ip (byte '[' :: addr ++ [byte ']'])
  | v6Port {addr port : Bytes} (parsed : parseAddr addr = some ip) (length : ip.length = 16)
      (number : IsPort port) :
      Reported ip ((byte '[' :: addr ++ [byte ']']) ++ byte ':' :: port)

/-- The reported peers for which the rule finds what the list says.  It compares the address of
an IPv4 peer with a port; an IPv6 address without brackets loses its last group, and the others
are compared with nothing. -/
inductive Judged (list ip : Bytes) : Bytes → Prop
  | v4Port {addr port : Bytes} (parsed : parseAddr addr = some ip) (length : ip.length = 4)
      (number : IsPort port) : Judged list ip (addr ++ byte ':' :: port)
  | v4 {addr : Bytes} (parsed : parseAddr addr = some ip) (length : ip.length = 4)
      (outside : ¬Operators.Listed list ip) : Judged list ip addr
  | v6 {front last : Bytes} (parsed : parseAddr (front ++ byte ':' :: last) = some ip)
      (length : ip.length = 16) (group : byte ':' ∉ last)
      (alike : (∃ other, parseAddr front = some other ∧
        Operators.Listed list (Network.unmap other)) ↔ Operators.Listed list ip) :
      Judged list ip (front ++ byte ':' :: last)
  | v6Bracketed {addr : Bytes} (parsed : parseAddr addr = some ip) (length : ip.length = 16)
      (outside : ¬Operators.Listed list ip) : Judged list ip (byte '[' :: addr ++ [byte ']'])
  | v6Port {addr port : Bytes} (parsed : parseAddr addr = some ip) (length : ip.length = 16)
      (number : IsPort port) (outside : ¬Operators.Listed list ip) :
      Judged list ip ((byte '[' :: addr ++ [byte ']']) ++ byte ':' :: port)

theorem IsPort.no_colon {port : Bytes} (number : IsPort port) : byte ':' ∉ port :=
  fun colon => absurd (number _ colon) (by decide)

theorem clientAndPort_v4 {addr ip : Bytes} (parsed : parseAddr addr = some ip)
    (four : ip.length = 4) : (Http.clientAndPort addr).1 = [] := by
  refine Http.clientAndPort_fst_none ?_
  rcases parseAddr_cases parsed with ⟨_, _, _, apart, _⟩ | ⟨sixteen, _⟩
  · exact apart
  · rw [four] at sixteen
    cases sixteen

theorem lastGroup {addr ip : Bytes} (parsed : parseAddr addr = some ip) (sixteen : ip.length = 16) :
    ∃ front last, addr = front ++ byte ':' :: last ∧ byte ':' ∉ last := by
  rcases parseAddr_cases parsed with ⟨_, four, _⟩ | ⟨_, colon, _⟩
  · rw [four] at sixteen
    cases sixteen
  · obtain ⟨last, front, same, apart⟩ := List.eq_append_cons_of_mem (List.mem_reverse.mpr colon)
    refine ⟨front.reverse, last.reverse, ?_, by rwa [List.mem_reverse]⟩
    rw [← List.reverse_reverse addr, same]
    simp

theorem parseAddr_bracket (text : Bytes) : parseAddr (byte '[' :: text) = none := by
  cases parsed : parseAddr (byte '[' :: text) with
  | none => rfl
  | some ip => exact absurd (parseAddr_bytes parsed _ List.mem_cons_self) (by decide)

theorem parseAddr_clientAndPort_bracketed {addr ip : Bytes} (parsed : parseAddr addr = some ip)
    (sixteen : ip.length = 16) :
    parseAddr (Http.clientAndPort (byte '[' :: addr ++ [byte ']'])).1 = none := by
  obtain ⟨front, last, rfl, group⟩ := lastGroup parsed sixteen
  have cut : byte '[' :: (front ++ byte ':' :: last) ++ [byte ']'] =
      (byte '[' :: front) ++ byte ':' :: (last ++ [byte ']']) := by simp
  have apart : byte ':' ∉ last ++ [byte ']'] := by
    rw [List.mem_append, not_or]
    exact ⟨group, by decide⟩
  rw [cut, Http.clientAndPort_fst apart]
  exact parseAddr_bracket front

/-- What the rule compares of a reported peer, against the list, is right exactly in the cases of
`Judged`. -/
theorem judged_iff {list ip remoteAddr : Bytes} (reported : Reported ip remoteAddr) :
    ((∃ other, parseAddr (Http.clientAndPort remoteAddr).1 = some other ∧
        Operators.Listed list (Network.unmap other)) ↔ Operators.Listed list ip) ↔
      Judged list ip remoteAddr := by
  -- nothing is compared, so nothing may be listed
  have unread {client : Bytes} (none : parseAddr client = none) :
      ((∃ other, parseAddr client = some other ∧ Operators.Listed list (Network.unmap other)) ↔
        Operators.Listed list ip) ↔ ¬Operators.Listed list ip := by
    simp [none]
  constructor
  · intro right
    cases reported with
    | v4 parsed length =>
      rw [clientAndPort_v4 parsed length, unread rfl] at right
      exact .v4 parsed length right
    | v4Port parsed length number => exact .v4Port parsed length number
    | v6 parsed length =>
      obtain ⟨front, last, rfl, group⟩ := lastGroup parsed length
      rw [Http.clientAndPort_fst group] at right
      exact .v6 parsed length group right
    | v6Bracketed parsed length =>
      rw [unread (parseAddr_clientAndPort_bracketed parsed length)] at right
      exact .v6Bracketed parsed length right
    | v6Port parsed length number =>
      rw [Http.clientAndPort_fst number.no_colon, List.cons_append, unread (parseAddr_bracket _)] at right
      exact .v6Port parsed length number right
  · intro judged
    cases judged with
    | v4 parsed length outside => rwa [clientAndPort_v4 parsed length, unread rfl]
    | v4Port parsed length number =>
      simp [Http.clientAndPort_fst number.no_colon, parsed, Network.unmap_four length]
    | v6 parsed length group alike => rwa [Http.clientAndPort_fst group]
    | v6Bracketed parsed length outside =>
      rwa [unread (parseAddr_clientAndPort_bracketed parsed length)]
    | v6Port parsed length number outside =>
      rwa [Http.clientAndPort_fst number.no_colon, List.cons_append, unread (parseAddr_bracket _)]

/-- A rule on the address of the client, wherever it stands among the rules of a request, and its
list: it matches the peers in the networks of the list and no invalid entry is passed over, if and
only if the list is valid and the peer is one of `Judged`. -/
theorem remoteAddr_ipMatch_iff (host : Host) (waf : WAF) (req : Http.Request) (tx now : Transaction)
    {ip : Bytes} (reported : Reported ip req.remoteAddr)
    {list : Bytes} {subnets : List IPNet} (compiled : Operators.newIPMatch list = .ok subnets)
    {r : Rule} (rule : RemoteAddrRule r subnets)
    (reached : InputSteps (Http.feedRequest host waf req tx) now)
    (targets : RemoteAddrRule.Untouched r now) (level : Nat) :
    ((((waf.engine host).evaluateOwn r level now).2 ≠ [] ↔ Operators.Listed list ip) ↔
      Judged list ip req.remoteAddr) ∧
    ((¬Operators.ValidList list → ∃ err, Operators.newIPMatch list = .error err) ↔
      Operators.ValidList list) := by
  have client : now.vars.single .remoteAddr = (Http.clientAndPort req.remoteAddr).1 := by
    rw [reached.sameInput.single .remoteAddr (by decide), Http.feedRequest_remoteAddr]
  constructor
  · rw [rule.evaluateOwn targets, client, Operators.ipMatch_iff compiled]
    exact judged_iff reported
  · -- the operator is always built
    constructor
    · intro fails
      by_contra invalid
      obtain ⟨err, failed⟩ := fails invalid
      rw [compiled] at failed
      cases failed
    · exact fun valid invalid => absurd valid invalid

def peerRequest (remoteAddr : Bytes) : Http.Request where
  remoteAddr := remoteAddr
  url := str "/"
  method := str "GET"
  proto := str "HTTP/1.1"
  header := []
  host := []
  transferEncoding := none
  body := none

def peerRule (subnets : List IPNet) : Rule where
  vars := [{ var := .remoteAddr }]
  operator := some { operator := Operators.ipMatch subnets }

theorem peerRule_remoteAddr (subnets : List IPNet) : RemoteAddrRule (peerRule subnets) subnets :=
  ⟨rfl, rfl, rfl, rfl⟩

def peerTransaction (remoteAddr : Bytes) : Transaction :=
  Http.feedRequest .plain (newWAF []) (peerRequest remoteAddr)
    ((newWAF []).newTransaction .plain ⟨str "tx", 0⟩ 0 none)

def tenNetwork : Network := ⟨[10, 0, 0, 0], 8, .inl rfl, by decide⟩

theorem tenNetwork_named : tenNetwork.Named (str "10.0.0.0/8") := by
  have cidr : tenNetwork.Named (str "10.0.0.0" ++ byte '/' :: str "8") :=
    .cidr (by decide) (by decide)
  exact cidr

/-- A peer in the network with its port, and one of IPv6 that is in none. -/
theorem remoteAddr_ipMatch_iff_ten :
    ∃ subnets, Operators.newIPMatch (str "10.0.0.0/8") = .ok subnets ∧
      (((newWAF []).engine .plain).evaluateOwn (peerRule subnets) 0
          (peerTransaction (str "10.1.2.3:8080"))).2 ≠ [] ∧
      (((newWAF []).engine .plain).evaluateOwn (peerRule subnets) 0
          (peerTransaction (str "[::1]:80"))).2 = [] := by
  have four : Judged (str "10.0.0.0/8") [10, 1, 2, 3] (str "10.1.2.3" ++ byte ':' :: str "8080") :=
    .v4Port (by decide) rfl (by decide +kernel)
  have listed : Operators.Listed (str "10.0.0.0/8") [10, 1, 2, 3] :=
    ⟨_, .head _, tenNetwork, tenNetwork_named, by decide⟩
  let loopback : Bytes := List.replicate 15 0 ++ [1]
  have outside : ¬Operators.Listed (str "10.0.0.0/8") loopback := by
    rintro ⟨sb, found, n, named, has⟩
    obtain rfl : sb = str "10.0.0.0/8" := List.mem_singleton.mp found
    have net : n.net = tenNetwork.net :=
      Option.some.inj ((Operators.parseCIDR_withBits named).symm.trans (by decide +kernel))
    have contains := (n.contains_iff (.inr rfl : loopback.length = 4 ∨ loopback.length = 16)).mpr has
    rw [net] at contains
    exact absurd contains (by decide)
  have six : Judged (str "10.0.0.0/8") loopback
      ((byte '[' :: str "::1" ++ [byte ']']) ++ byte ':' :: str "80") :=
    .v6Port (by decide) rfl (by decide +kernel) outside
  have reported : Reported [10, 1, 2, 3] (str "10.1.2.3" ++ byte ':' :: str "8080") :=
    .v4Port (by decide) rfl (by decide +kernel)
  have reportedSix : Reported loopback
      ((byte '[' :: str "::1" ++ [byte ']']) ++ byte ':' :: str "80") :=
    .v6Port (by decide) rfl (by decide +kernel)
  refine ⟨_, rfl, ?_, ?_⟩
  · refine ((remoteAddr_ipMatch_iff .plain (newWAF []) (peerRequest (str "10.1.2.3:8080")) _ _ reported
      rfl (peerRule_remoteAddr _) .refl ?_ 0).1.mpr four).mpr listed
    intro removed found
    cases found
  · refine not_not.mp (mt ((remoteAddr_ipMatch_iff .plain (newWAF []) (peerRequest (str "[::1]:80")) _ _
      reportedSix rfl (peerRule_remoteAddr _) .refl ?_ 0).1.mpr six).mp outside)
    intro removed found
    cases found

/-- A client with an IPv6 address, or one reported without its port, is in the network of
the rule that does not match it.  And an entry that names no network is passed over. -/
theorem remoteAddr_ipMatch_misses :
    (∃ subnets, Operators.newIPMatch (str "2001:db8::/32") = .ok subnets ∧
      ∃ ip, Reported ip (str "[2001:db8::1]:8080") ∧ Operators.Listed (str "2001:db8::/32") ip ∧
        (((newWAF []).engine .plain).evaluateOwn (peerRule subnets) 0
          (peerTransaction (str "[2001:db8::1]:8080"))).2 = []) ∧
    (∃ subnets, Operators.newIPMatch (str "10.0.0.0/8") = .ok subnets ∧
      ∃ ip, Reported ip (str "10.1.2.3") ∧ Operators.Listed (str "10.0.0.0/8") ip ∧
        (((newWAF []).engine .plain).evaluateOwn (peerRule subnets) 0
          (peerTransaction (str "10.1.2.3"))).2 = []) ∧
    Operators.newIPMatch (str "10.0.0.0/8,nonsense") = Operators.newIPMatch (str "10.0.0.0/8") := by
  let ip : Bytes := [32, 1, 13, 184, 0, 0, 0, 0, 0, 0, 0, 0, 0, 0, 0, 1]
  let documentation : Network :=
    ⟨[32, 1, 13, 184, 0, 0, 0, 0, 0, 0, 0, 0, 0, 0, 0, 0], 32, .inr rfl, by decide⟩
  have named : documentation.Named (str "2001:db8::" ++ byte '/' :: str "32") :=
    .cidr (by decide) (by decide)
  have reported : Reported ip
      ((byte '[' :: str "2001:db8::1" ++ [byte ']']) ++ byte ':' :: str "8080") :=
    .v6Port (by decide) rfl (by decide +kernel)
  refine ⟨⟨_, rfl, ip, reported, ⟨_, .head _, documentation, named, by decide⟩, ?_⟩,
    ⟨_, rfl, [10, 1, 2, 3], .v4 (by decide) rfl, ⟨_, .head _, tenNetwork, tenNetwork_named, by decide⟩,
      ?_⟩, ?_⟩
  all_goals decide +kernel

end Obsidian
