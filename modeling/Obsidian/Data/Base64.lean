import Obsidian.Data.Text

namespace Obsidian.Data

/-! # Base64 for URLs

`base64.RawURLEncoding`: the alphabet for URLs, without padding.  Decoding passes over line
breaks and does not look at the bits left over.
-/

namespace Base64

def alphabet (n : Nat) : UInt8 :=
  (str "ABCDEFGHIJKLMNOPQRSTUVWXYZabcdefghijklmnopqrstuvwxyz0123456789-_").getD n 0

def decodeMap (c : UInt8) : Option Nat :=
  if byte 'A' ≤ c ∧ c ≤ byte 'Z' then some (c.toNat - 65)
  else if byte 'a' ≤ c ∧ c ≤ byte 'z' then some (c.toNat - 97 + 26)
  else if byte '0' ≤ c ∧ c ≤ byte '9' then some (c.toNat - 48 + 52)
  else if c = byte '-' then some 62
  else if c = byte '_' then some 63
  else none

def sextets : Bytes → List Nat
  | a :: b :: c :: rest =>
    (a.toNat / 4) :: (a.toNat % 4 * 16 + b.toNat / 16) :: (b.toNat % 16 * 4 + c.toNat / 64) ::
      (c.toNat % 64) :: sextets rest
  | [a, b] => [a.toNat / 4, a.toNat % 4 * 16 + b.toNat / 16, b.toNat % 16 * 4]
  | [a] => [a.toNat / 4, a.toNat % 4 * 16]
  | [] => []

def encode (data : Bytes) : Bytes := (sextets data).map alphabet

/-- The bytes of a run of sextets; a single sextet left over is an error. -/
def decodeSextets : List Nat → Option Bytes
  | p :: q :: r :: s :: rest =>
    (decodeSextets rest).map fun tail =>
      UInt8.ofNat (p * 4 + q / 16) :: UInt8.ofNat (q % 16 * 16 + r / 4) ::
        UInt8.ofNat (r % 4 * 64 + s) :: tail
  | [p, q, r] => some [UInt8.ofNat (p * 4 + q / 16), UInt8.ofNat (q % 16 * 16 + r / 4)]
  | [p, q] => some [UInt8.ofNat (p * 4 + q / 16)]
  | [_] => none
  | [] => some []

def isLineBreak (c : UInt8) : Bool := c = 10 ∨ c = 13

def decode (text : Bytes) : Option Bytes :=
  ((text.filter (!isLineBreak ·)).mapM decodeMap).bind decodeSextets

example : encode (str "light wo") = str "bGlnaHQgd28" := by decide
example : decode (str "bGln\naHQgd28") = some (str "light wo") := by decide

end Base64

end Obsidian.Data
