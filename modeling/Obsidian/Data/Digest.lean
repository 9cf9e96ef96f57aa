import Obsidian.Data.Bytes

namespace Obsidian.Data

/-! # Digests

`crypto/md5` and `crypto/sha1`: the text padded to blocks of 64 bytes, a
compression of one block into the state, and the state as bytes.
-/

def littleEndian (count n : Nat) : Bytes :=
  (List.range count).map fun index => UInt8.ofNat (n / 256 ^ index)

def bigEndian (count n : Nat) : Bytes := (littleEndian count n).reverse

def padMessage (encodeLength : Nat → Bytes) (text : Bytes) : Bytes :=
  text ++ 0x80 :: List.replicate ((119 - text.length % 64) % 64) 0 ++ encodeLength (text.length * 8)

def wordLE (chunk : Bytes) : UInt32 :=
  chunk.foldr (fun b word => word * 256 + UInt32.ofNat b.toNat) 0

def wordBE (chunk : Bytes) : UInt32 :=
  chunk.foldl (fun word b => word * 256 + UInt32.ofNat b.toNat) 0

def chunksFrom (size : Nat) : Nat → Bytes → List Bytes
  | _, [] => []
  | 0, _ => []
  | fuel + 1, text => text.take size :: chunksFrom size fuel (text.drop size)

def chunks (size : Nat) (text : Bytes) : List Bytes := chunksFrom size text.length text

def rotateLeft (word : UInt32) (count : UInt32) : UInt32 :=
  word <<< count ||| word >>> (32 - count)

structure DigestState where
  a : UInt32
  b : UInt32
  c : UInt32
  d : UInt32
  e : UInt32 := 0

def DigestState.add (s t : DigestState) : DigestState :=
  ⟨s.a + t.a, s.b + t.b, s.c + t.c, s.d + t.d, s.e + t.e⟩

/-! ## MD5 -/

def md5Sines : List UInt32 := [
  0xd76aa478, 0xe8c7b756, 0x242070db, 0xc1bdceee, 0xf57c0faf, 0x4787c62a, 0xa8304613, 0xfd469501,
  0x698098d8, 0x8b44f7af, 0xffff5bb1, 0x895cd7be, 0x6b901122, 0xfd987193, 0xa679438e, 0x49b40821,
  0xf61e2562, 0xc040b340, 0x265e5a51, 0xe9b6c7aa, 0xd62f105d, 0x02441453, 0xd8a1e681, 0xe7d3fbc8,
  0x21e1cde6, 0xc33707d6, 0xf4d50d87, 0x455a14ed, 0xa9e3e905, 0xfcefa3f8, 0x676f02d9, 0x8d2a4c8a,
  0xfffa3942, 0x8771f681, 0x6d9d6122, 0xfde5380c, 0xa4beea44, 0x4bdecfa9, 0xf6bb4b60, 0xbebfbc70,
  0x289b7ec6, 0xeaa127fa, 0xd4ef3085, 0x04881d05, 0xd9d4d039, 0xe6db99e5, 0x1fa27cf8, 0xc4ac5665,
  0xf4292244, 0x432aff97, 0xab9423a7, 0xfc93a039, 0x655b59c3, 0x8f0ccc92, 0xffeff47d, 0x85845dd1,
  0x6fa87e4f, 0xfe2ce6e0, 0xa3014314, 0x4e0811a1, 0xf7537e82, 0xbd3af235, 0x2ad7d2bb, 0xeb86d391]

def md5Shifts : List (List UInt32) := [[7, 12, 17, 22], [5, 9, 14, 20], [4, 11, 16, 23], [6, 10, 15, 21]]

def md5Round (words : List UInt32) (s : DigestState) (i : Nat) : DigestState :=
  let (f, g) : UInt32 × Nat :=
    match i / 16 with
    | 0 => ((s.b &&& s.c) ||| (~~~s.b &&& s.d), i)
    | 1 => ((s.d &&& s.b) ||| (~~~s.d &&& s.c), (5 * i + 1) % 16)
    | 2 => (s.b ^^^ s.c ^^^ s.d, (3 * i + 5) % 16)
    | _ => (s.c ^^^ (s.b ||| ~~~s.d), (7 * i) % 16)
  let sum := s.a + f + md5Sines.getD i 0 + words.getD g 0
  let shift := (md5Shifts.getD (i / 16) []).getD (i % 4) 0
  { a := s.d, b := s.b + rotateLeft sum shift, c := s.b, d := s.c }

def md5Block (s : DigestState) (block : Bytes) : DigestState :=
  s.add ((List.range 64).foldl (md5Round ((chunks 4 block).map wordLE)) s)

def md5Sum (text : Bytes) : Bytes :=
  let s := (chunks 64 (padMessage (littleEndian 8) text)).foldl md5Block
    ⟨0x67452301, 0xefcdab89, 0x98badcfe, 0x10325476, 0⟩
  [s.a, s.b, s.c, s.d].flatMap fun word => littleEndian 4 word.toNat

/-! ## SHA-1 -/

def sha1Schedule (words : List UInt32) (i : Nat) : List UInt32 :=
  let w (back : Nat) := words.getD (i - back) 0
  words ++ [rotateLeft (w 3 ^^^ w 8 ^^^ w 14 ^^^ w 16) 1]

def sha1Round (words : List UInt32) (s : DigestState) (i : Nat) : DigestState :=
  let (f, k) : UInt32 × UInt32 :=
    match i / 20 with
    | 0 => ((s.b &&& s.c) ||| (~~~s.b &&& s.d), 0x5a827999)
    | 1 => (s.b ^^^ s.c ^^^ s.d, 0x6ed9eba1)
    | 2 => ((s.b &&& s.c) ||| (s.b &&& s.d) ||| (s.c &&& s.d), 0x8f1bbcdc)
    | _ => (s.b ^^^ s.c ^^^ s.d, 0xca62c1d6)
  { a := rotateLeft s.a 5 + f + s.e + k + words.getD i 0
    b := s.a, c := rotateLeft s.b 30, d := s.c, e := s.d }

def sha1Block (s : DigestState) (block : Bytes) : DigestState :=
  let words := (List.range' 16 64).foldl sha1Schedule ((chunks 4 block).map wordBE)
  s.add ((List.range 80).foldl (sha1Round words) s)

def sha1Sum (text : Bytes) : Bytes :=
  let s := (chunks 64 (padMessage (bigEndian 8) text)).foldl sha1Block
    ⟨0x67452301, 0xefcdab89, 0x98badcfe, 0x10325476, 0xc3d2e1f0⟩
  [s.a, s.b, s.c, s.d, s.e].flatMap fun word => bigEndian 4 word.toNat

end Obsidian.Data
