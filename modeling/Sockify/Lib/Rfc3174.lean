import Mathlib.Algebra.Group.Nat.Defs
import Sockify.Lib.Blocks

/-! SHA-1 as RFC 3174 defines it: the padded message is cut into blocks, each
block is compressed into five words, and the words are the digest. -/

namespace Sockify.Lib.Rfc3174

/-- The circular left shift `S^n(X)`. -/
def shift (n : UInt32) (x : UInt32) : UInt32 := x <<< n ||| x >>> (32 - n)

/-- The function `f(t;B,C,D)` of round `t`. -/
def f (t : Nat) (b c d : UInt32) : UInt32 :=
  if t < 20 then b &&& c ||| ~~~b &&& d
  else if t < 40 then b ^^^ c ^^^ d
  else if t < 60 then b &&& c ||| b &&& d ||| c &&& d
  else b ^^^ c ^^^ d

/-- The constant `K(t)` of round `t`. -/
def K (t : Nat) : UInt32 :=
  if t < 20 then 0x5a827999 else if t < 40 then 0x6ed9eba1 else if t < 60 then 0x8f1bbcdc else 0xca62c1d6

/-- The big-endian word at position `t` of a block. -/
def word (block : List UInt8) (t : Nat) : UInt32 :=
  (block.getD (4 * t) 0).toUInt32 <<< 24 ||| (block.getD (4 * t + 1) 0).toUInt32 <<< 16 |||
    (block.getD (4 * t + 2) 0).toUInt32 <<< 8 ||| (block.getD (4 * t + 3) 0).toUInt32

/-- The schedule `W(t)`. -/
def W (block : List UInt8) (t : Nat) : UInt32 :=
  if t < 16 then word block t
  else shift 1 (W block (t - 3) ^^^ W block (t - 8) ^^^ W block (t - 14) ^^^ W block (t - 16))

structure Words where
  a : UInt32
  b : UInt32
  c : UInt32
  d : UInt32
  e : UInt32

def initial : Words := ⟨0x67452301, 0xEFCDAB89, 0x98BADCFE, 0x10325476, 0xC3D2E1F0⟩

def round (block : List UInt8) (s : Words) (t : Nat) : Words :=
  ⟨shift 5 s.a + f t s.b s.c s.d + s.e + W block t + K t, s.a, shift 30 s.b, s.c, s.d⟩

/-- The 80 rounds on one block, added to the words from before. -/
def compress (h : Words) (block : List UInt8) : Words :=
  let s := (List.range 80).foldl (round block) h
  ⟨h.a + s.a, h.b + s.b, h.c + s.c, h.d + s.d, h.e + s.e⟩

/-- The length in bits as eight bytes, the highest first. -/
def lengthBytes (bits : Nat) : List UInt8 := [7, 6, 5, 4, 3, 2, 1, 0].map (fun i => UInt8.ofNat (bits / 256 ^ i))

/-- A one bit, the fewest zeros that reach 56 bytes beyond a whole block, and the length. -/
def padded (message : List UInt8) : List UInt8 :=
  message ++ [0x80] ++ List.replicate ((119 - message.length % 64) % 64) 0 ++ lengthBytes (8 * message.length)

def wordBytes (x : UInt32) : List UInt8 := [(x >>> 24).toUInt8, (x >>> 16).toUInt8, (x >>> 8).toUInt8, x.toUInt8]

def digest (message : List UInt8) : List UInt8 :=
  let h := (Blocks.blocks 64 (padded message)).foldl compress initial
  wordBytes h.a ++ wordBytes h.b ++ wordBytes h.c ++ wordBytes h.d ++ wordBytes h.e

end Sockify.Lib.Rfc3174
