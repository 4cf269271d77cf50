import Sockify.Digest

/-! The upgrade request parser and the 101 response of `ws/ws_handshake.c`.
The index scans of the source are recursions on the rest of the request. -/

namespace Sockify

def wsGuid : Bytes := ascii "258EAFA5-E914-47DA-95CA-C5AB0DC85B11"

/-- `SOCKIFY_WS_ACCEPT_SIZE`. -/
def wsAcceptSize : Nat := 29

def asciiTolower (c : UInt8) : UInt8 := if c ≥ 65 ∧ c ≤ 90 then c + 32 else c

def ciEqual (a b : Bytes) : Bool := a.map asciiTolower == b.map asciiTolower

def isTokenSep (c : UInt8) : Bool := c == 44 || c == 32 || c == 9 || c == 13 || c == 10

/-- `ci_contains_token`: the current token is gathered until a separator. -/
def ciContainsToken (token : Bytes) : Bytes → Bytes → Bool
  | current, [] => ciEqual current token
  | current, c :: rest =>
    if isTokenSep c then ciEqual current token || ciContainsToken token [] rest
    else ciContainsToken token (current ++ [c]) rest

def isBlank (c : UInt8) : Bool := c == 32 || c == 9

def trimSpan (value : Bytes) : Bytes := ((value.dropWhile isBlank).reverse.dropWhile isBlank).reverse

def memoryContains (needle : Bytes) : Bytes → Bool
  | [] => needle.isEmpty
  | haystack@(_ :: rest) => needle.isPrefixOf haystack || memoryContains needle rest

/-- The position behind the first CRLFCRLF, counted from `i`. -/
def headerEndFrom (i : Nat) : Bytes → Option Nat
  | [] => none
  | byte :: rest =>
    if [13, 10, 13, 10].isPrefixOf (byte :: rest) then some (i + 4) else headerEndFrom (i + 1) rest

def findHeaderEnd (request : Bytes) : Except Err Nat :=
  if request.length > wsMaxHttpRequest then .error .overflow
  else match headerEndFrom 0 request with
    | some headerLen => .ok headerLen
    | none => .error .again

/-- A C string ends at its first NUL. -/
def cString (chars : Bytes) : Bytes := chars.takeWhile (· != 0)

def wsAcceptKey (clientKey : Bytes) (outputSize : Nat) : Except Err Bytes :=
  let key := cString clientKey
  if key.length = 0 ∨ key.length + wsGuid.length ≥ 256 then .error .invalid
  else if outputSize < wsAcceptSize then .error .overflow
  else base64Encode (sha1 (key ++ wsGuid)) outputSize

/-- The flags and the key that the header loop collects. -/
structure Upgrade where
  sawUpgrade : Bool
  sawConnection : Bool
  sawVersion : Bool
  key : Option Bytes

/-- One header line: the name up to the first colon and the trimmed value. -/
def headerLine (seen : Upgrade) (line : Bytes) : Except Err Upgrade :=
  let name := line.takeWhile (· != 58)
  if name.length ≥ line.length then .error .protocol
  else
    let value := trimSpan (line.drop (name.length + 1))
    if ciEqual name (ascii "Upgrade") then
      .ok (if ciEqual value (ascii "websocket") then { seen with sawUpgrade := true } else seen)
    else if ciEqual name (ascii "Connection") then
      .ok (if ciContainsToken (ascii "upgrade") [] value then { seen with sawConnection := true } else seen)
    else if ciEqual name (ascii "Sec-WebSocket-Version") then
      .ok (if value = ascii "13" then { seen with sawVersion := true } else seen)
    else if ciEqual name (ascii "Sec-WebSocket-Key") then
      .ok (if value.length ≠ 0 ∧ value.length < 128 then { seen with key := some value } else seen)
    else .ok seen

/-- The loop over the header lines. `line` is the part of the current line
already passed; an empty line ends the header. -/
def headerLines (seen : Upgrade) (line : Bytes) : Bytes → Except Err Upgrade
  | [] => .ok seen
  | 13 :: 10 :: rest =>
    if line = [] then .ok seen
    else match headerLine seen line with
      | .error error => .error error
      | .ok seen => headerLines seen [] rest
  | byte :: rest => headerLines seen (line ++ [byte]) rest

/-- The first line, and what follows its CRLF. -/
def requestLine (line : Bytes) : Bytes → Bytes × Bytes
  | [] => (line, [])
  | 13 :: 10 :: rest => (line, rest)
  | byte :: rest => requestLine (line ++ [byte]) rest

def responsePrefix : Bytes :=
  ascii "HTTP/1.1 101 Switching Protocols\r\nUpgrade: websocket\r\nConnection: Upgrade\r\nSec-WebSocket-Accept: "

def responseSuffix : Bytes := ascii "\r\n\r\n"

/-- `sockify_ws_build_handshake_response_ex`: the response and `*consumed`. -/
def wsBuildHandshakeResponse (request : Bytes) (responseSize : Nat) : Except Err (Bytes × Nat) :=
  match findHeaderEnd request with
  | .error error => .error error
  | .ok headerLen =>
    let (first, rest) := requestLine [] (request.take headerLen)
    if first.length < 14 then .error .protocol
    else if !ciEqual (first.take 4) (ascii "GET ") then .error .protocol
    else if !memoryContains (ascii " HTTP/1.1") first ∧ !memoryContains (ascii " HTTP/1.0") first then
      .error .protocol
    else match headerLines ⟨false, false, false, none⟩ [] rest with
      | .error error => .error error
      | .ok seen =>
        match seen.key with
        | none => .error .protocol
        | some key =>
          if !seen.sawUpgrade ∨ !seen.sawConnection ∨ !seen.sawVersion then .error .protocol
          else match wsAcceptKey key wsAcceptSize with
            | .error error => .error error
            | .ok accept =>
              let response := responsePrefix ++ accept ++ responseSuffix
              if response.length ≥ 256 then .error .overflow
              else if responseSize ≤ response.length then .error .overflow
              else .ok (response, headerLen)

end Sockify
