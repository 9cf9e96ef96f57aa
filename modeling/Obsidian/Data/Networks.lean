import Obsidian.Data.Lines
import Obsidian.Data.Net

namespace Obsidian.Data

/-! # Networks

The addresses of a network are those that begin with its bits.  `net.ParseCIDR` and
`IPNet.Contains` are about these, with masks.
-/

/-! ## Bits -/

def byteBits (b : UInt8) : List Bool := (List.range 8).map fun i => b.toNat.testBit (7 - i)

def addressBits (ip : Bytes) : List Bool := ip.flatMap byteBits

def maskByte (k : Nat) : UInt8 := UInt8.ofNat (255 - 255 / 2 ^ k)

theorem byteBits_length (b : UInt8) : (byteBits b).length = 8 := by
  rw [byteBits, List.length_map, List.length_range]

def ofBits (bits : List Bool) : UInt8 :=
  UInt8.ofNat (bits.foldl (fun n bit => 2 * n + bit.toNat) 0 * 2 ^ (8 - bits.length))

theorem and_maskByte {k : Nat} (small : k ≤ 8) (a : UInt8) :
    a &&& maskByte k = ofBits ((byteBits a).take k) ∧
      (byteBits (a &&& maskByte k)).take k = (byteBits a).take k := by
  have all : ∀ k : Fin 9, ∀ n : Fin 256,
      UInt8.ofNat n &&& maskByte k = ofBits ((byteBits (UInt8.ofNat n)).take k) ∧
        (byteBits (UInt8.ofNat n &&& maskByte k)).take k = (byteBits (UInt8.ofNat n)).take k := by
    decide +kernel
  simpa using all ⟨k, by omega⟩ ⟨a.toNat, a.toNat_lt⟩

theorem maskByte_of_le {k : Nat} (large : 8 ≤ k) : maskByte k = maskByte 8 := by
  have power : 2 ^ 8 ≤ 2 ^ k := Nat.pow_le_pow_right (by decide) large
  rw [maskByte, maskByte, Nat.div_eq_of_lt (by omega), Nat.div_eq_of_lt (by decide)]

theorem and_maskByte_iff (k : Nat) (a b : UInt8) :
    a &&& maskByte k = b &&& maskByte k ↔ (byteBits a).take k = (byteBits b).take k := by
  have upTo {m : Nat} (small : m ≤ 8) :
      a &&& maskByte m = b &&& maskByte m ↔ (byteBits a).take m = (byteBits b).take m := by
    obtain ⟨firstMask, firstBits⟩ := and_maskByte small a
    obtain ⟨secondMask, secondBits⟩ := and_maskByte small b
    constructor
    · intro same
      rw [← firstBits, same, secondBits]
    · intro same
      rw [firstMask, same, secondMask]
  by_cases small : k ≤ 8
  · exact upTo small
  · have whole (c : UInt8) : (byteBits c).take k = (byteBits c).take 8 := by
      rw [List.take_of_length_le (by rw [byteBits_length]; omega),
        List.take_of_length_le (by rw [byteBits_length])]
    rw [maskByte_of_le (by omega), whole a, whole b]
    exact upTo (Nat.le_refl 8)

theorem take_addressBits_cons (ones : Nat) (b : UInt8) (ip : Bytes) :
    (addressBits (b :: ip)).take ones = (byteBits b).take ones ++ (addressBits ip).take (ones - 8) := by
  rw [addressBits, List.flatMap_cons, List.take_append, byteBits_length]
  rfl

theorem cidrMask_succ (ones n : Nat) :
    cidrMask ones (8 * (n + 1)) = maskByte ones :: cidrMask (ones - 8) (8 * n) := by
  have next (i : Nat) : ones - 8 * (i + 1) = ones - 8 - 8 * i := by omega
  rw [cidrMask, cidrMask, Nat.mul_div_cancel_left _ (by decide), Nat.mul_div_cancel_left _ (by decide),
    List.range_succ_eq_map, List.map_cons, List.map_map]
  simp only [Function.comp_def, Nat.succ_eq_add_one, next, maskByte, Nat.mul_zero, Nat.sub_zero]

theorem maskIP_eq_iff {a b : Bytes} (length : a.length = b.length) (ones : Nat) :
    maskIP a (cidrMask ones (8 * a.length)) = maskIP b (cidrMask ones (8 * a.length)) ↔
      (addressBits a).take ones = (addressBits b).take ones := by
  induction a generalizing b ones with
  | nil =>
    rw [List.length_nil, eq_comm, List.length_eq_zero_iff] at length
    subst length
    exact iff_of_true rfl rfl
  | cons first rest ih =>
    cases b with
    | nil => cases length
    | cons other others =>
      have byteLength : ((byteBits first).take ones).length = ((byteBits other).take ones).length := by
        rw [List.length_take, List.length_take, byteBits_length, byteBits_length]
      have parts : (byteBits first).take ones ++ (addressBits rest).take (ones - 8) =
            (byteBits other).take ones ++ (addressBits others).take (ones - 8) ↔
          (byteBits first).take ones = (byteBits other).take ones ∧
            (addressBits rest).take (ones - 8) = (addressBits others).take (ones - 8) :=
        ⟨fun same => List.append_inj same byteLength, fun same => by rw [same.1, same.2]⟩
      rw [List.length_cons, cidrMask_succ, take_addressBits_cons, take_addressBits_cons, parts,
        ← ih (Nat.succ.inj length), ← and_maskByte_iff]
      simp only [maskIP, List.zipWith_cons_cons, List.cons.injEq]

theorem maskIP_maskIP (ip mask : Bytes) : maskIP (maskIP ip mask) mask = maskIP ip mask := by
  induction ip generalizing mask with
  | nil => rfl
  | cons b ip ih =>
    cases mask with
    | nil => rfl
    | cons m mask =>
      simp only [maskIP, List.zipWith_cons_cons, UInt8.and_assoc, UInt8.and_self] at ih ⊢
      rw [ih]

theorem cidrMask_length (ones n : Nat) : (cidrMask ones (8 * n)).length = n := by
  rw [cidrMask, List.length_map, List.length_range, Nat.mul_div_cancel_left _ (by decide)]

theorem maskIP_length (ip : Bytes) (ones : Nat) :
    (maskIP ip (cidrMask ones (8 * ip.length))).length = ip.length := by
  rw [maskIP, List.length_zipWith, cidrMask_length, Nat.min_self]

/-! ## Networks and addresses -/

/-- An address of 4 or 16 bytes and how many of its bits are those of the network. -/
structure Network where
  address : Bytes
  ones : Nat
  length : address.length = 4 ∨ address.length = 16
  fits : ones ≤ 8 * address.length

namespace Network

def net (n : Network) : IPNet :=
  let mask := cidrMask n.ones (8 * n.address.length)
  { ip := maskIP n.address mask, mask }

def Mapped (n : Network) : Prop :=
  n.address.length = 16 ∧ n.address.take 12 = v4InV6Prefix ∧ 96 ≤ n.ones

instance (n : Network) : Decidable n.Mapped := inferInstanceAs (Decidable (_ ∧ _))

/-- Whether an address of 4 or 16 bytes lies in the network: it begins with its bits. -/
def Has (n : Network) (ip : Bytes) : Prop :=
  if n.Mapped then
    ip.length = 4 ∧
      (addressBits (n.address.drop 12)).take (n.ones - 96) = (addressBits ip).take (n.ones - 96)
  else
    ip.length = n.address.length ∧ (addressBits n.address).take n.ones = (addressBits ip).take n.ones

instance (n : Network) (ip : Bytes) : Decidable (n.Has ip) :=
  inferInstanceAs (Decidable (if n.Mapped then _ else _))

/-- The address itself, of 4 bytes also if it is an IPv4 address written in IPv6. -/
def unmap (ip : Bytes) : Bytes := (to4 ip).getD ip

theorem unmap_four {ip : Bytes} (four : ip.length = 4) : unmap ip = ip := by
  rw [unmap, to4, if_pos four, Option.getD_some]

theorem getD_to4 {ip : Bytes} (length : ip.length = 4 ∨ ip.length = 16) :
    (to4 (to16 ip)).getD (to16 ip) = unmap ip := by
  rcases length with four | sixteen
  · have mapped : (v4InV6Prefix ++ ip).length = 16 ∧ (v4InV6Prefix ++ ip).take 12 = v4InV6Prefix := by
      refine ⟨by rw [List.length_append, four]; rfl, ?_⟩
      exact List.take_left' rfl
    rw [unmap_four four, to16, if_pos four, to4, if_neg (by rw [mapped.1]; decide), if_pos mapped,
      Option.getD_some]
    exact List.drop_left' rfl
  · rw [to16, if_neg (by rw [sixteen]; decide), unmap]

theorem cidrMask_getElem? (ones : Nat) {i n : Nat} (inside : i < n) :
    (cidrMask ones (8 * n))[i]? = some (maskByte (ones - 8 * i)) := by
  rw [cidrMask, Nat.mul_div_cancel_left _ (by decide), List.getElem?_map, List.getElem?_range inside]
  rfl

theorem cidrMask_drop (ones n k : Nat) :
    (cidrMask ones (8 * (k + n))).drop k = cidrMask (ones - 8 * k) (8 * n) := by
  induction k generalizing ones with
  | zero => rw [Nat.zero_add, List.drop_zero, Nat.mul_zero, Nat.sub_zero]
  | succ k ih =>
    have split : k + 1 + n = k + n + 1 := by omega
    have next : ones - 8 - 8 * k = ones - 8 * (k + 1) := by omega
    rw [split, cidrMask_succ, List.drop_succ_cons, ih, next]

theorem and_maskByte_full (b : UInt8) {k : Nat} (large : 8 ≤ k) : b &&& maskByte k = b := by
  have full : maskByte 8 = -1 := by decide
  rw [maskByte_of_le large, full, UInt8.and_neg_one]

theorem maskIP_take {ip : Bytes} {ones k : Nat} (covered : 8 * k ≤ ones) (inside : k ≤ ip.length) :
    (maskIP ip (cidrMask ones (8 * ip.length))).take k = ip.take k := by
  induction k generalizing ip ones with
  | zero => rfl
  | succ k ih =>
    cases ip with
    | nil => cases inside
    | cons b ip =>
      rw [List.length_cons, cidrMask_succ, maskIP, List.zipWith_cons_cons,
        and_maskByte_full b (by omega), List.take_succ_cons, List.take_succ_cons]
      exact congrArg (b :: ·) (ih (by omega) (Nat.le_of_succ_le_succ inside))

theorem maskIP_drop {ip : Bytes} {ones k : Nat} (inside : k ≤ ip.length) :
    (maskIP ip (cidrMask ones (8 * ip.length))).drop k =
      maskIP (ip.drop k) (cidrMask (ones - 8 * k) (8 * (ip.drop k).length)) := by
  have total : ip.length = k + (ip.drop k).length := by
    rw [List.length_drop]
    omega
  rw [maskIP, List.drop_zipWith, total, cidrMask_drop, maskIP]

theorem and_maskByte_short (b : UInt8) {k : Nat} (small : k < 8) : b &&& maskByte k ≠ 255 := by
  have all : ∀ k : Fin 8, ∀ n : Fin 256, UInt8.ofNat n &&& maskByte k ≠ 255 := by decide +kernel
  simpa using all ⟨k, small⟩ ⟨b.toNat, b.toNat_lt⟩

/-- Masking makes an IPv4 address in IPv6 of none that is not one. -/
theorem to4_net {n : Network} (length : n.address.length = 16) :
    to4 n.net.ip = if n.Mapped then some (n.net.ip.drop 12) else none := by
  have masked : n.net.ip.length = 16 := by rw [net, maskIP_length, length]
  rw [to4, if_neg (by rw [masked]; decide)]
  by_cases covered : 96 ≤ n.ones
  · have front : n.net.ip.take 12 = n.address.take 12 := maskIP_take (by omega) (by omega)
    simp only [masked, true_and, front, Mapped, length, covered, and_true]
  · have last : n.net.ip.take 12 ≠ v4InV6Prefix := by
      intro same
      have inside : 11 < n.address.length := by omega
      have eleventh : n.net.ip[11]? = some 255 := by
        rw [← List.getElem?_take_of_lt (show 11 < 12 by decide), same]
        rfl
      rw [net, maskIP, List.getElem?_zipWith, cidrMask_getElem? n.ones inside,
        List.getElem?_eq_getElem inside] at eleventh
      exact and_maskByte_short _ (by omega) (Option.some.inj eleventh)
    rw [if_neg (fun mapped => last mapped.2), if_neg (fun mapped => covered mapped.2.2)]

theorem contains_iff (n : Network) {ip : Bytes} (length : ip.length = 4 ∨ ip.length = 16) :
    n.net.contains (to16 ip) = true ↔ n.Has (unmap ip) := by
  have maskLength : n.net.mask.length = n.address.length := cidrMask_length n.ones n.address.length
  simp only [IPNet.contains, getD_to4 length, decide_eq_true_eq]
  rcases n.length with four | sixteen
  · have masked : n.net.ip.length = 4 := by rw [net, maskIP_length, four]
    have number : (to4 n.net.ip).getD n.net.ip = n.net.ip := by
      rw [to4, if_pos masked, Option.getD_some]
    have unmapped : ¬n.Mapped := fun mapped => by
      rw [mapped.1] at four
      cases four
    rw [number, if_neg (by omega), Has, if_neg unmapped, masked, four]
    refine and_congr_right fun length => ?_
    rw [← maskIP_eq_iff (four.trans length.symm), net, maskIP_maskIP]
  · rw [to4_net sixteen, Has]
    by_cases mapped : n.Mapped
    · have short : (n.address.drop 12).length = 4 := by rw [List.length_drop, sixteen]
      have number : n.net.ip.drop 12 =
          maskIP (n.address.drop 12) (cidrMask (n.ones - 96) (8 * (n.address.drop 12).length)) :=
        maskIP_drop (by omega)
      have mask : n.net.mask.drop 12 = cidrMask (n.ones - 96) (8 * (n.address.drop 12).length) := by
        rw [net, short, sixteen]
        exact cidrMask_drop n.ones 4 12
      rw [if_pos mapped, if_pos mapped, Option.getD_some, number, maskIP_length, short,
        if_pos ⟨rfl, maskLength.trans sixteen⟩, mask]
      refine and_congr_right fun length => ?_
      rw [← maskIP_eq_iff (short.trans length.symm), short, maskIP_maskIP]
    · rw [if_neg mapped, if_neg mapped, Option.getD_none, net, maskIP_length]
      rw [if_neg (by omega)]
      refine and_congr_right fun length => ?_
      rw [← maskIP_eq_iff length.symm, maskIP_maskIP]

theorem contains_nil (n : Network) : n.net.contains [] = false := by
  have masked : n.net.ip.length = n.address.length := by rw [net, maskIP_length]
  have given : (to4 n.net.ip).getD n.net.ip ≠ [] := by
    intro none
    have empty := congrArg List.length none
    have length := n.length
    rw [to4] at empty
    split at empty
    · rw [Option.getD_some, List.length_nil] at empty
      omega
    split at empty
    · rw [Option.getD_some, List.length_drop, List.length_nil] at empty
      omega
    · rw [Option.getD_none, List.length_nil] at empty
      omega
  have nil : (to4 []).getD [] = [] := rfl
  simp only [IPNet.contains, nil, List.length_nil, decide_eq_false_iff_not]
  exact fun same => given (List.length_eq_zero_iff.mp same.1.symm)

end Network

/-! ## Texts -/

theorem parseOctet_bytes {digits : Bytes} {octet : UInt8} (parsed : parseOctet digits = some octet) :
    ∀ b ∈ digits, 48 ≤ b ∧ b ≤ 57 := by
  rw [parseOctet] at parsed
  split at parsed
  · cases parsed
  · obtain ⟨n, number, _⟩ := Option.bind_eq_some_iff.mp parsed
    rw [parseUnsigned] at number
    split at number
    · cases number
    · exact parseDigits_bytes number

theorem mapM_parseOctet_bytes {fields : List Bytes} {ip : Bytes}
    (parsed : fields.mapM parseOctet = some ip) : ∀ field ∈ fields, ∀ b ∈ field, 48 ≤ b ∧ b ≤ 57 := by
  induction fields generalizing ip with
  | nil => exact nofun
  | cons field fields ih =>
    rw [List.mapM_cons] at parsed
    obtain ⟨octet, first, rest⟩ := Option.bind_eq_some_iff.mp parsed
    obtain ⟨octets, others, _⟩ := Option.bind_eq_some_iff.mp rest
    exact List.forall_mem_cons.mpr ⟨parseOctet_bytes first, ih others⟩

theorem parseIPv4_bytes {text ip : Bytes} (parsed : parseIPv4 text = some ip) :
    ∀ b ∈ text, (48 ≤ b ∧ b ≤ 57) ∨ b = byte '.' := by
  intro b found
  have octets := mapM_parseOctet_bytes (Option.filter_eq_some_iff.mp parsed).1
  have whole : List.intercalate [byte '.'] (text.splitOn (byte '.')) = text :=
    List.intercalate_splitOn (byte '.')
  rw [← whole] at found
  rcases mem_intercalate found with dot | ⟨field, listed, inside⟩
  · exact .inr dot
  · exact .inl (octets field listed b inside)

def isAddressByte (b : UInt8) : Bool := (hexValue b).isSome ∨ b = byte '.' ∨ b = byte ':'

theorem isAddressByte_of_decimal {b : UInt8} (decimal : (48 ≤ b ∧ b ≤ 57) ∨ b = byte '.') :
    isAddressByte b = true := by
  have digit : byte '0' = 48 ∧ byte '9' = 57 := by decide
  rcases decimal with range | dot
  · simp [isAddressByte, hexValue, digit, range]
  · simp [isAddressByte, dot]

theorem parseFields_bytes {fuel : Nat} {text fields : Bytes} {ellipsis : Option Nat}
    {result : Bytes × Option Nat} (parsed : parseFields fuel text fields ellipsis = some result) :
    ∀ b ∈ text, isAddressByte b = true := by
  induction fuel generalizing text fields ellipsis with
  | zero =>
    rw [parseFields] at parsed
    split at parsed
    · next empty =>
        rw [empty]
        exact nofun
    · cases parsed
  | succ fuel ih =>
    have ofDigits : ∀ b ∈ text.takeWhile fun b => (hexValue b).isSome, isAddressByte b = true := by
      intro b found
      simp [isAddressByte, List.mem_takeWhile_imp found]
    have cut : text = (text.takeWhile fun b => (hexValue b).isSome) ++
        text.drop (text.takeWhile fun b => (hexValue b).isSome).length :=
      List.prefix_iff_eq_append.mp (List.takeWhile_prefix _) |>.symm
    simp only [parseFields] at parsed
    generalize text.drop (text.takeWhile fun b => (hexValue b).isSome).length = rest at parsed cut
    have ofRest (remaining : ∀ b ∈ rest, isAddressByte b = true) :
        ∀ b ∈ text, isAddressByte b = true := by
      intro b found
      rw [cut, List.mem_append] at found
      exact found.elim (ofDigits b) (remaining b)
    split at parsed
    · cases parsed
    split at parsed
    · exact ofRest nofun
    · split at parsed
      · cases parsed
      · obtain ⟨octets, decimal, _⟩ := Option.map_eq_some_iff.mp parsed
        exact fun b found => isAddressByte_of_decimal (parseIPv4_bytes decimal b found)
    · split at parsed
      · cases parsed
      split at parsed
      · next last =>
          refine ofRest ?_
          rw [last]
          decide +kernel
      · refine ofRest (List.forall_mem_cons.mpr ⟨by decide, List.forall_mem_cons.mpr ⟨by decide, ?_⟩⟩)
        exact ih parsed
    · exact ofRest (List.forall_mem_cons.mpr ⟨by decide, ih parsed⟩)
    · cases parsed

theorem parseIPv6_bytes {text ip : Bytes} (parsed : parseIPv6 text = some ip) :
    ∀ b ∈ text, isAddressByte b = true := by
  obtain ⟨result, fields, _⟩ := Option.bind_eq_some_iff.mp parsed
  split at fields
  · decide +kernel
  · exact List.forall_mem_cons.mpr
      ⟨by decide, List.forall_mem_cons.mpr ⟨by decide, parseFields_bytes fields⟩⟩
  · exact parseFields_bytes fields

theorem parseAddr_cases {text ip : Bytes} (parsed : parseAddr text = some ip) :
    parseIPv4 text = some ip ∧ ip.length = 4 ∧ byte '.' ∈ text ∧ byte ':' ∉ text ∧ byte '/' ∉ text ∨
      ip.length = 16 ∧ byte ':' ∈ text ∧ byte '/' ∉ text := by
  unfold parseAddr at parsed
  split at parsed
  · cases parsed
  split at parsed
  · next found =>
      have bytes := parseIPv4_bytes parsed
      refine .inl ⟨parsed, of_decide_eq_true (Option.filter_eq_some_iff.mp parsed).2,
        List.mem_of_find?_eq_some found, fun colon => ?_, fun slash => ?_⟩
      · exact absurd (bytes _ colon) (by decide)
      · exact absurd (bytes _ slash) (by decide)
  · next c other found =>
      refine .inr ⟨parseIPv6_length parsed, ?_, fun slash => ?_⟩
      · have isMark := List.find?_some found
        rcases of_decide_eq_true isMark with dot | colon
        · exact absurd dot other
        · exact colon ▸ List.mem_of_find?_eq_some found
      · exact absurd (parseIPv6_bytes parsed _ slash) (by decide)
  · cases parsed

theorem parseAddr_bytes {text ip : Bytes} (parsed : parseAddr text = some ip) :
    ∀ b ∈ text, isAddressByte b = true := by
  unfold parseAddr at parsed
  split at parsed
  · cases parsed
  split at parsed
  · exact fun b found => isAddressByte_of_decimal (parseIPv4_bytes parsed b found)
  · exact parseIPv6_bytes parsed
  · cases parsed

theorem parseAddr_length {text ip : Bytes} (parsed : parseAddr text = some ip) :
    ip.length = 4 ∨ ip.length = 16 := by
  rcases parseAddr_cases parsed with ⟨_, four, _⟩ | ⟨sixteen, _⟩
  · exact .inl four
  · exact .inr sixteen

namespace Network

/-- The network that a text is for: an address and the number of its bits, or an address
alone. -/
inductive Named (n : Network) : Bytes → Prop
  | cidr {addr bits : Bytes} (parsed : parseAddr addr = some n.address)
      (number : parseUnsigned bits = some n.ones) : Named n (addr ++ byte '/' :: bits)
  | host {addr : Bytes} (parsed : parseAddr addr = some n.address)
      (whole : n.ones = 8 * n.address.length) : Named n addr

theorem slash_notMem {text ip : Bytes} (parsed : parseAddr text = some ip) : byte '/' ∉ text := by
  rcases parseAddr_cases parsed with ⟨_, _, _, _, apart⟩ | ⟨_, _, apart⟩
  · exact apart
  · exact apart

theorem parseCIDR_eq {n : Network} {addr bits : Bytes} (parsed : parseAddr addr = some n.address)
    (number : parseUnsigned bits = some n.ones) :
    parseCIDR (addr ++ byte '/' :: bits) = some n.net := by
  rw [parseCIDR, cut_append (slash_notMem parsed)]
  simp only [Option.bind_eq_bind, Option.bind_some, parsed, number, n.fits, if_true]
  rfl

end Network

end Obsidian.Data
