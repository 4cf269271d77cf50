import Sockify.Core

/-! SHA-1 and base64 as `core/sha1.c` and `core/base64.c` compute them. Both
serve only to derive the `Sec-WebSocket-Accept` value. -/

namespace Sockify

structure Sha1State where
  a : UInt32
  b : UInt32
  c : UInt32
  d : UInt32
  e : UInt32
  deriving DecidableEq

/-- `struct sha1_ctx`; `block` holds the `block_len` bytes gathered so far. -/
structure Sha1Ctx where
  state : Sha1State
  totalLen : UInt64
  block : Bytes
  deriving DecidableEq

def rotl32 (value : UInt32) (bits : UInt32) : UInt32 := value <<< bits ||| value >>> (32 - bits)

def sha1Init : Sha1Ctx :=
  ⟨⟨0x67452301, 0xefcdab89, 0x98badcfe, 0x10325476, 0xc3d2e1f0⟩, 0, []⟩

/-- The first sixteen words of the schedule, read big-endian from the block. -/
def sha1Words : Bytes → List UInt32
  | b0 :: b1 :: b2 :: b3 :: rest =>
    (b0.toUInt32 <<< 24 ||| b1.toUInt32 <<< 16 ||| b2.toUInt32 <<< 8 ||| b3.toUInt32) :: sha1Words rest
  | _ => []

/-- The loop that extends the schedule, `w` being filled up to its length. -/
def sha1Extend : Nat → List UInt32 → List UInt32
  | 0, w => w
  | turns + 1, w =>
    let i := w.length
    sha1Extend turns
      (w ++ [rotl32 (w.getD (i - 3) 0 ^^^ w.getD (i - 8) 0 ^^^ w.getD (i - 14) 0 ^^^ w.getD (i - 16) 0) 1])

def sha1Round (i : Nat) (word : UInt32) (s : Sha1State) : Sha1State :=
  let f :=
    if i < 20 then s.b &&& s.c ||| ~~~s.b &&& s.d
    else if i < 40 then s.b ^^^ s.c ^^^ s.d
    else if i < 60 then s.b &&& s.c ||| s.b &&& s.d ||| s.c &&& s.d
    else s.b ^^^ s.c ^^^ s.d
  let k : UInt32 :=
    if i < 20 then 0x5a827999 else if i < 40 then 0x6ed9eba1 else if i < 60 then 0x8f1bbcdc else 0xca62c1d6
  ⟨rotl32 s.a 5 + f + s.e + k + word, s.a, rotl32 s.b 30, s.c, s.d⟩

def sha1Rounds : Nat → List UInt32 → Sha1State → Sha1State
  | _, [], s => s
  | i, word :: rest, s => sha1Rounds (i + 1) rest (sha1Round i word s)

def sha1Process (state : Sha1State) (block : Bytes) : Sha1State :=
  let s := sha1Rounds 0 (sha1Extend 64 (sha1Words block)) state
  ⟨state.a + s.a, state.b + s.b, state.c + s.c, state.d + s.d, state.e + s.e⟩

/-- One turn of the loop of `sha1_update`. -/
def sha1Absorb (ctx : Sha1Ctx) (byte : UInt8) : Sha1Ctx :=
  let block := ctx.block ++ [byte]
  if block.length = 64 then { ctx with state := sha1Process ctx.state block, block := [] }
  else { ctx with block }

def sha1Update (ctx : Sha1Ctx) (data : Bytes) : Sha1Ctx :=
  data.foldl sha1Absorb { ctx with totalLen := ctx.totalLen + UInt64.ofNat data.length }

/-- The padding loop of `sha1_final`. It stops within one block, so 64 turns
are enough. -/
def sha1Pad : Nat → Sha1Ctx → Sha1Ctx
  | 0, ctx => ctx
  | turns + 1, ctx => if ctx.block.length = 56 then ctx else sha1Pad turns (sha1Update ctx [0])

def sha1LengthByte (bitLen : UInt64) (i : Nat) : UInt8 := (bitLen >>> UInt64.ofNat (i * 8)).toUInt8

def sha1WordBytes (word : UInt32) : Bytes :=
  [(word >>> 24).toUInt8, (word >>> 16).toUInt8, (word >>> 8).toUInt8, word.toUInt8]

def sha1Final (ctx : Sha1Ctx) : Bytes :=
  let bitLen := ctx.totalLen * 8
  let padded := sha1Pad 64 (sha1Update ctx [0x80])
  let ctx := [7, 6, 5, 4, 3, 2, 1, 0].foldl (fun ctx i => sha1Update ctx [sha1LengthByte bitLen i]) padded
  sha1WordBytes ctx.state.a ++ sha1WordBytes ctx.state.b ++ sha1WordBytes ctx.state.c ++
    sha1WordBytes ctx.state.d ++ sha1WordBytes ctx.state.e

def sha1 (input : Bytes) : Bytes :=
  sha1Final (if input.length ≠ 0 then sha1Update sha1Init input else sha1Init)

/-- `base64_chars[index]`, the alphabet by ranges of its ASCII codes. -/
def base64Char (index : Nat) : UInt8 :=
  if index < 26 then UInt8.ofNat (65 + index)
  else if index < 52 then UInt8.ofNat (97 + (index - 26))
  else if index < 62 then UInt8.ofNat (48 + (index - 52))
  else if index = 62 then 43
  else 47

def base64Chars (triple : Nat) (count : Nat) : Bytes :=
  ([triple >>> 18 &&& 0x3f, triple >>> 12 &&& 0x3f, triple >>> 6 &&& 0x3f, triple &&& 0x3f].take count).map base64Char

/-- The encoding loop and its two padded tails. -/
def base64Loop : Bytes → Bytes
  | b0 :: b1 :: b2 :: rest =>
    base64Chars (b0.toNat <<< 16 ||| b1.toNat <<< 8 ||| b2.toNat) 4 ++ base64Loop rest
  | [b0, b1] => base64Chars (b0.toNat <<< 16 ||| b1.toNat <<< 8) 3 ++ [61]
  | [b0] => base64Chars (b0.toNat <<< 16) 2 ++ [61, 61]
  | [] => []

/-- The characters written before the terminating NUL; their number is `*written`. -/
def base64Encode (input : Bytes) (outputSize : Nat) : Except Err Bytes :=
  let encodedLen := (((input.length + 2) % sizeModulus) / 3 * 4) % sizeModulus
  if outputSize < (encodedLen + 1) % sizeModulus then .error .overflow
  else .ok (base64Loop input)

/-- `sockify_base64_encode` on the caller's buffer: the result code, what the
buffer holds afterwards, and `*written`. -/
def base64EncodeInto (input output : Bytes) : Except Err Unit × Bytes × Nat :=
  match base64Encode input output.length with
  | .error error => (.error error, output, 0)
  | .ok chars => (.ok (), chars ++ 0 :: output.drop (chars.length + 1), chars.length)

end Sockify
