import Obsidian.Data.Decimal
import Obsidian.Data.Text

namespace Obsidian.Data

/-! # Addresses

`net.SplitHostPort`, `net.ParseIP`, `net.ParseCIDR` and what is asked of their results.
An IP address is the list of its bytes, 4 or 16 of them.
-/

/-! ## Hosts and ports -/

/-- `net.SplitHostPort`: the host, and `none` for an error. -/
def splitHost (hostport : Bytes) : Option Bytes :=
  let port := (hostport.reverse.takeWhile (· ≠ byte ':')).reverse
  let front := hostport.take (hostport.length - port.length - 1)
  if byte ':' ∉ hostport then none
  else if hostport.head? = some (byte '[') then
    match cut (byte ']') hostport with
    | none => none
    | some (bracketed, rest) =>
      if rest ≠ byte ':' :: port then none
      else if byte '[' ∈ hostport.drop 1 ∨ byte ']' ∈ rest then none
      else some (bracketed.drop 1)
  else if byte ':' ∈ front then none
  else if byte '[' ∈ hostport ∨ byte ']' ∈ hostport then none
  else some front

example : splitHost (str "10.0.0.1:80") = some (str "10.0.0.1") := by decide
example : splitHost (str "[::1]:80") = some (str "::1") := by decide
example : splitHost (str "::1") = none := by decide

theorem splitHost_length {hostport host : Bytes} (split : splitHost hostport = some host) :
    host.length < hostport.length := by
  unfold splitHost at split
  dsimp only at split
  split at split
  · cases split
  next colon =>
    have nonempty : 0 < hostport.length := List.length_pos_of_mem (not_not.mp colon)
    split at split
    · split at split
      · cases split
      · next bracketed rest found =>
          split at split
          · cases split
          split at split
          · cases split
          · cases split
            obtain ⟨index, located, same⟩ := Option.map_eq_some_iff.mp found
            cases same
            have inside : index < hostport.length := (List.idxOf?_eq_some_iff.mp located).1
            simp only [List.length_drop, List.length_take]
            omega
    · split at split
      · cases split
      split at split
      · cases split
      · cases split
        simp only [List.length_take]
        omega

/-! ## Header names -/

def validHeaderFieldByte (b : UInt8) : Bool :=
  (byte '0' ≤ b ∧ b ≤ byte '9') ∨ (byte 'a' ≤ b ∧ b ≤ byte 'z') ∨ (byte 'A' ≤ b ∧ b ≤ byte 'Z') ∨
    b ∈ str "!#$%&'*+-.^_`|~"

def canonicalFrom : (upper : Bool) → Bytes → Bytes
  | _, [] => []
  | upper, b :: rest =>
    (if upper then upperByte b else lowerByte b) :: canonicalFrom (b = byte '-') rest

def canonicalMIMEHeaderKey (name : Bytes) : Bytes :=
  if name.all validHeaderFieldByte then canonicalFrom true name else name

example : canonicalMIMEHeaderKey (str "X-Real-IP") = str "X-Real-Ip" := by decide

/-! ## Parsing -/

def parseOctet (digits : Bytes) : Option UInt8 :=
  if digits.head? = some (byte '0') ∧ digits.length ≠ 1 then none
  else (parseUnsigned digits).bind fun n => if n ≤ 255 then some (UInt8.ofNat n) else none

def parseIPv4 (text : Bytes) : Option Bytes :=
  ((text.splitOn (byte '.')).mapM parseOctet).filter (·.length = 4)

def hexValue (b : UInt8) : Option Nat :=
  if byte '0' ≤ b ∧ b ≤ byte '9' then some (b.toNat - 48)
  else if byte 'a' ≤ b ∧ b ≤ byte 'f' then some (b.toNat - 87)
  else if byte 'A' ≤ b ∧ b ≤ byte 'F' then some (b.toNat - 55)
  else none

def hexField (digits : Bytes) : Bytes :=
  let n := digits.foldl (fun n b => n * 16 + (hexValue b).getD 0) 0
  [UInt8.ofNat (n / 256), UInt8.ofNat n]

/-- The bytes of the fields, and the number of those before the ellipsis.  The fuel is
the number of fields that may still follow. -/
def parseFields : (fuel : Nat) → (text fields : Bytes) → (ellipsis : Option Nat) →
    Option (Bytes × Option Nat)
  | 0, text, fields, ellipsis => if text = [] then some (fields, ellipsis) else none
  | fuel + 1, text, fields, ellipsis =>
    let digits := text.takeWhile fun b => (hexValue b).isSome
    let next := fields ++ hexField digits
    if digits = [] ∨ 4 < digits.length then none
    else
      match text.drop digits.length with
      | [] => some (next, ellipsis)
      | 46 :: _ =>
        if (ellipsis = none ∧ fields.length ≠ 12) ∨ 12 < fields.length then none
        else (parseIPv4 text).map fun octets => (fields ++ octets, ellipsis)
      | 58 :: 58 :: rest =>
        if ellipsis.isSome then none
        else if rest = [] then some (next, some next.length)
        else parseFields fuel rest next (some next.length)
      | 58 :: b :: rest => parseFields fuel (b :: rest) next ellipsis
      | _ => none

def expandEllipsis : Bytes × Option Nat → Option Bytes
  | (fields, none) => if fields.length = 16 then some fields else none
  | (fields, some front) =>
    if fields.length < 16 then
      some (fields.take front ++ List.replicate (16 - fields.length) 0 ++ fields.drop front)
    else none

def parseIPv6 (text : Bytes) : Option Bytes :=
  let parsed :=
    match text with
    | 58 :: 58 :: [] => some ([], some 0)
    | 58 :: 58 :: rest => parseFields 8 rest [] (some 0)
    | _ => parseFields 8 text [] none
  parsed.bind expandEllipsis

/-- `netip.ParseAddr` without a zone. -/
def parseAddr (text : Bytes) : Option Bytes :=
  if byte '%' ∈ text then none
  else
    match text.find? fun b => b = byte '.' ∨ b = byte ':' with
    | some 46 => parseIPv4 text
    | some _ => parseIPv6 text
    | none => none

def v4InV6Prefix : Bytes := List.replicate 10 0 ++ [255, 255]

def to16 (ip : Bytes) : Bytes := if ip.length = 4 then v4InV6Prefix ++ ip else ip

def to4 (ip : Bytes) : Option Bytes :=
  if ip.length = 4 then some ip
  else if ip.length = 16 ∧ ip.take 12 = v4InV6Prefix then some (ip.drop 12)
  else none

def parseIP (text : Bytes) : Option Bytes := (parseAddr text).map to16

def isLoopback (ip : Bytes) : Bool :=
  match to4 ip with
  | some ip4 => ip4.head? = some 127
  | none => ip = List.replicate 15 0 ++ [1]

example : (parseIP (str "192.0.2.1")).bind to4 = some [192, 0, 2, 1] := by decide
example : parseIP (str "192.0.2.01") = none := by decide
example : parseIP (str "2001:db8::1") = some [32, 1, 13, 184, 0, 0, 0, 0, 0, 0, 0, 0, 0, 0, 0, 1] := by
  decide
example : (parseIP (str "::ffff:1.2.3.4")).bind to4 = some [1, 2, 3, 4] := by decide

/-! ## Networks -/

structure IPNet where
  ip : Bytes
  mask : Bytes
deriving DecidableEq, Repr

def cidrMask (ones bits : Nat) : Bytes :=
  (List.range (bits / 8)).map fun i => UInt8.ofNat (255 - 255 / 2 ^ (ones - 8 * i))

def maskIP (ip mask : Bytes) : Bytes := List.zipWith (· &&& ·) ip mask

def parseCIDR (text : Bytes) : Option IPNet := do
  let (addr, bits) ← cut (byte '/') text
  let ip ← parseAddr addr
  let ones ← parseUnsigned bits
  let mask := cidrMask ones (8 * ip.length)
  if ones ≤ 8 * ip.length then some { ip := maskIP ip mask, mask } else none

def IPNet.contains (n : IPNet) (ip : Bytes) : Bool :=
  let number := (to4 n.ip).getD n.ip
  let mask := if number.length = 4 ∧ n.mask.length = 16 then n.mask.drop 12 else n.mask
  let ip := (to4 ip).getD ip
  ip.length = number.length ∧ maskIP number mask = maskIP ip mask

example : (parseCIDR (str "172.16.0.0/12")).map (·.mask) = some [255, 240, 0, 0] := by decide
example : (parseCIDR (str "10.0.0.0/8")).bind (fun n => (parseIP (str "10.9.8.7")).map n.contains) =
    some true := by decide

/-! ## Printing -/

def hexDigits (n : Nat) : Bytes := (Nat.toDigits 16 n).map fun c => UInt8.ofNat c.toNat

def groups (ip : Bytes) : List Nat :=
  (List.range 8).map fun i => (ip.getD (2 * i) 0).toNat * 256 + (ip.getD (2 * i + 1) 0).toNat

/-- The first of the longest runs of at least two zeros: its start and its length. -/
def zeroRun (gs : List Nat) : Option (Nat × Nat) :=
  (List.range gs.length).foldl (fun best i =>
    let run := ((gs.drop i).takeWhile (· = 0)).length
    if 2 ≤ run ∧ best.elim 0 Prod.snd < run then some (i, run) else best) none

def ipString (ip : Bytes) : Bytes :=
  match to4 ip with
  | some ip4 => List.intercalate [byte '.'] (ip4.map fun b => digits b.toNat)
  | none =>
    let text := (groups ip).map hexDigits
    match zeroRun (groups ip) with
    | none => List.intercalate [byte ':'] text
    | some (start, run) =>
      List.intercalate [byte ':'] (text.take start) ++ str "::" ++
        List.intercalate [byte ':'] (text.drop (start + run))

example : (parseIP (str "2001:DB8:0:0:1:0:0:1")).map ipString = some (str "2001:db8::1:0:0:1") := by
  decide
example : (parseIP (str "::ffff:10.0.0.1")).map ipString = some (str "10.0.0.1") := by decide

/-- `simpleMaskLength`: the number of leading ones, of a mask that has only zeros behind them. -/
def simpleMaskLength (mask : Bytes) : Option Nat :=
  let full := (mask.takeWhile (· = 255)).length
  match mask.drop full with
  | [] => some (8 * full)
  | b :: rest =>
    let ones := ((List.range 8).takeWhile fun i => b.toNat.testBit (7 - i)).length
    if b.toNat % 2 ^ (8 - ones) = 0 ∧ rest.all (· = 0) then some (8 * full + ones) else none

def IPNet.networkNumberAndMask (n : IPNet) : Option (Bytes × Bytes) :=
  let number := (to4 n.ip).getD n.ip
  if number.length ≠ 4 ∧ number.length ≠ 16 then none
  else if n.mask.length = 4 then if number.length = 4 then some (number, n.mask) else none
  else if n.mask.length = 16 then
    some (number, if number.length = 4 then n.mask.drop 12 else n.mask)
  else none

def hexByte (b : UInt8) : Bytes := hexDigits (b.toNat / 16) ++ hexDigits (b.toNat % 16)

def IPNet.netString (n : IPNet) : Bytes :=
  match n.networkNumberAndMask with
  | none => str "<nil>"
  | some (number, mask) =>
    ipString number ++ byte '/' :: ((simpleMaskLength mask).elim (mask.flatMap hexByte) digits)

example : (parseCIDR (str "10.1.2.3/8")).map IPNet.netString = some (str "10.0.0.0/8") := by decide
example : (parseCIDR (str "2001:db8::1/33")).map IPNet.netString = some (str "2001:db8::/33") := by
  decide
example : IPNet.netString ⟨[10, 0, 0, 0], [255, 0, 255, 0]⟩ = str "10.0.0.0/ff00ff00" := by decide

/-! ## The slash -/

theorem mem_intercalate {c b : UInt8} {fields : List Bytes}
    (mem : b ∈ List.intercalate [c] fields) : b = c ∨ ∃ field ∈ fields, b ∈ field := by
  induction fields with
  | nil => cases mem
  | cons field fields ih =>
    cases fields with
    | nil => exact Or.inr ⟨field, List.mem_cons_self, by simpa [List.intercalate] using mem⟩
    | cons next fields =>
      rw [List.intercalate_cons_cons, List.mem_append, List.mem_append] at mem
      rcases mem with (own | sep) | later
      · exact Or.inr ⟨field, List.mem_cons_self, own⟩
      · exact Or.inl (List.mem_singleton.mp sep)
      · rcases ih later with same | ⟨other, listed, found⟩
        · exact Or.inl same
        · exact Or.inr ⟨other, List.mem_cons_of_mem _ listed, found⟩

theorem parseIPv6_length {text ip : Bytes} (parsed : parseIPv6 text = some ip) :
    ip.length = 16 := by
  obtain ⟨⟨fields, ellipsis⟩, _, expanded⟩ := Option.bind_eq_some_iff.mp parsed
  cases ellipsis with
  | none =>
    rw [expandEllipsis] at expanded
    split at expanded
    · next full =>
        cases expanded
        exact full
    · cases expanded
  | some front =>
    rw [expandEllipsis] at expanded
    split at expanded
    · cases expanded
      simp only [List.length_append, List.length_take, List.length_replicate, List.length_drop]
      omega
    · cases expanded

end Obsidian.Data
