import Mathlib.Data.List.Basic

/-! Base64 as RFC 4648 defines it: the alphabet, the four digits of three bytes,
and the decoder that the standard describes, with its padding and its zero bits. -/

namespace Sockify.Lib.Rfc4648

/-- The alphabet in the order of the values 0 to 63. -/
def alphabet : List UInt8 :=
  "ABCDEFGHIJKLMNOPQRSTUVWXYZabcdefghijklmnopqrstuvwxyz0123456789+/".toList.map (fun c => UInt8.ofNat c.toNat)

/-- The padding character `=`. -/
def pad : UInt8 := 61

def value (digit : UInt8) : Option Nat := alphabet.idxOf? digit

def Digit (digit : UInt8) (n : Nat) : Prop := n < 64 ∧ value digit = some n

/-- The bytes that four values of six bits stand for. -/
def first (v0 v1 : Nat) : UInt8 := UInt8.ofNat (v0 * 4 + v1 / 16)
def second (v1 v2 : Nat) : UInt8 := UInt8.ofNat (v1 % 16 * 16 + v2 / 4)
def third (v2 v3 : Nat) : UInt8 := UInt8.ofNat (v2 % 4 * 64 + v3)

/-- The last group: it may be padded, and then its unused bits are zero. -/
def decodeLast (c0 c1 c2 c3 : UInt8) : Option (List UInt8) := do
  let v0 ← value c0
  let v1 ← value c1
  if c2 = pad ∧ c3 = pad then
    if v1 % 16 = 0 then some [first v0 v1] else none
  else
    let v2 ← value c2
    if c3 = pad then
      if v2 % 4 = 0 then some [first v0 v1, second v1 v2] else none
    else
      let v3 ← value c3
      some [first v0 v1, second v1 v2, third v2 v3]

def decodeGroup (c0 c1 c2 c3 : UInt8) : Option (List UInt8) := do
  let v0 ← value c0
  let v1 ← value c1
  let v2 ← value c2
  let v3 ← value c3
  some [first v0 v1, second v1 v2, third v2 v3]

def decode : List UInt8 → Option (List UInt8)
  | [] => some []
  | [c0, c1, c2, c3] => decodeLast c0 c1 c2 c3
  | c0 :: c1 :: c2 :: c3 :: rest => do
    let group ← decodeGroup c0 c1 c2 c3
    let bytes ← decode rest
    some (group ++ bytes)
  | _ => none

variable {c0 c1 c2 c3 : UInt8} {v0 v1 v2 v3 : Nat} {rest bytes : List UInt8}

theorem value_pad : value pad = none := by decide +kernel

theorem Digit.not_pad (digit : Digit c0 v0) : c0 ≠ pad := by
  intro padded
  have found := digit.2
  rw [padded, value_pad] at found
  cases found

theorem decode_nil : decode [] = some [] := by rw [decode]

/-- A group without padding stands for three bytes, wherever it is. -/
theorem decode_group (d0 : Digit c0 v0) (d1 : Digit c1 v1) (d2 : Digit c2 v2) (d3 : Digit c3 v3)
    (later : decode rest = some bytes) :
    decode (c0 :: c1 :: c2 :: c3 :: rest) = some (first v0 v1 :: second v1 v2 :: third v2 v3 :: bytes) := by
  cases rest with
  | nil =>
    rw [decode_nil] at later
    obtain rfl := Option.some.inj later
    rw [decode, decodeLast, d0.2, d1.2, d2.2, d3.2]
    simp [d2.not_pad, d3.not_pad]
  | cons c rest =>
    rw [decode, decodeGroup, d0.2, d1.2, d2.2, d3.2, later]
    · rfl
    · exact nofun

theorem decode_one (d0 : Digit c0 v0) (d1 : Digit c1 v1) (zero : v1 % 16 = 0) :
    decode [c0, c1, pad, pad] = some [first v0 v1] := by
  rw [decode, decodeLast, d0.2, d1.2]
  simp [zero]

theorem decode_two (d0 : Digit c0 v0) (d1 : Digit c1 v1) (d2 : Digit c2 v2) (zero : v2 % 4 = 0) :
    decode [c0, c1, c2, pad] = some [first v0 v1, second v1 v2] := by
  rw [decode, decodeLast, d0.2, d1.2, d2.2]
  simp [d2.not_pad, zero]

end Sockify.Lib.Rfc4648
