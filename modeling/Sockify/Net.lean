import Sockify.Config

/-! Endpoints as text: `sockify_net_parse_endpoint`, which `net/net_posix.c` and
`net/net_windows.c` have in the same words. A C string is the list of its bytes
without the terminating NUL. -/

namespace Sockify

/-- `sizeof(endpoint->host)`. -/
def hostSize : Nat := 256

/-- `sizeof(endpoint->port)`. -/
def portSize : Nat := 16

/-- The first place of `c`. -/
def strchr (text : Bytes) (c : UInt8) : Option Nat := text.findIdx? (· == c)

/-- The last place of `c`. -/
def strrchr (text : Bytes) (c : UInt8) : Option Nat := (text.reverse.findIdx? (· == c)).map (text.length - 1 - ·)

/-- What `copy_part` leaves in a field of `size` bytes. -/
def copyPart (size : Nat) (src : Bytes) : Except Err Bytes :=
  if src.length ≥ size then .error .overflow else .ok src

/-- Both branches copy the host first: it stays when the port does not fit. -/
def copyEndpoint (host port : Bytes) (endpoint : Endpoint) : Endpoint × Except Err Unit :=
  match copyPart hostSize host with
  | .error _ => (endpoint, .error .overflow)
  | .ok host => match copyPart portSize port with
    | .error error => ({ endpoint with host := host }, .error error)
    | .ok port => (⟨host, port⟩, .ok ())

def netParseEndpoint (text : Bytes) (endpoint : Endpoint) : Endpoint × Except Err Unit :=
  if text.getD 0 0 = 91 then
    match strchr text 93 with
    | none => (endpoint, .error .invalid)
    | some endBracket =>
      if text.getD (endBracket + 1) 0 ≠ 58 then (endpoint, .error .invalid)
      else copyEndpoint ((text.drop 1).take (endBracket - 1)) (text.drop (endBracket + 2)) endpoint
  else
    match strrchr text 58 with
    | none => (endpoint, .error .invalid)
    | some colon =>
      if colon = 0 ∨ text.length = colon + 1 then (endpoint, .error .invalid)
      else copyEndpoint (text.take colon) (text.drop (colon + 1)) endpoint

end Sockify
