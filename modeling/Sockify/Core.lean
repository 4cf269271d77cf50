import Mathlib.Algebra.Group.Nat.Defs
import Mathlib.Data.List.Basic

/-! Bytes, result codes, and the limits shared by every layer of the proxy. -/

namespace Sockify

abbrev Bytes := List UInt8

/-- The bytes of a string literal. -/
def ascii (text : String) : Bytes := text.toByteArray.data.toList

/-- The negative result codes. `SOCKIFY_OK` is the `ok` side of an `Except`. -/
inductive Err
  | invalid | nomem | overflow | again | closed | sys | protocol | unsupported
  | tlsHandshake | tlsVerify
  deriving DecidableEq, Repr

/-- `SOCKIFY_PROXY_IO_CHUNK`. -/
def ioChunk : Nat := 4096

/-- `SOCKIFY_WS_MAX_HTTP_REQUEST`. -/
def wsMaxHttpRequest : Nat := 8192

/-- `SOCKIFY_WS_MAX_FRAME_PAYLOAD`. -/
def wsMaxFramePayload : Nat := 65536

/-- The number of values of a 64-bit `size_t`. -/
def sizeModulus : Nat := 2 ^ 64

def minSize (a b : Nat) : Nat := if a < b then a else b

theorem minSize_eq (a b : Nat) : minSize a b = min a b := by
  unfold minSize
  split <;> omega

end Sockify
