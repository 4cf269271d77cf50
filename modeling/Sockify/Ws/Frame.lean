import Sockify.Core

/-! The streaming frame parser and the frame writer of `ws/ws_frame.c`, with
the big-endian accessors of `core/byte_order.c` that they use. -/

namespace Sockify

def readBe16 (buf : Bytes) : Nat := (buf.getD 0 0).toNat <<< 8 ||| (buf.getD 1 0).toNat

def readBe64 (buf : Bytes) : Nat :=
  (buf.getD 0 0).toNat <<< 56 ||| (buf.getD 1 0).toNat <<< 48 ||| (buf.getD 2 0).toNat <<< 40 |||
  (buf.getD 3 0).toNat <<< 32 ||| (buf.getD 4 0).toNat <<< 24 ||| (buf.getD 5 0).toNat <<< 16 |||
  (buf.getD 6 0).toNat <<< 8 ||| (buf.getD 7 0).toNat

def writeBe16 (value : Nat) : Bytes := [UInt8.ofNat (value >>> 8 &&& 0xff), UInt8.ofNat (value &&& 0xff)]

def writeBe64 (value : Nat) : Bytes :=
  [UInt8.ofNat (value >>> 56 &&& 0xff), UInt8.ofNat (value >>> 48 &&& 0xff),
   UInt8.ofNat (value >>> 40 &&& 0xff), UInt8.ofNat (value >>> 32 &&& 0xff),
   UInt8.ofNat (value >>> 24 &&& 0xff), UInt8.ofNat (value >>> 16 &&& 0xff),
   UInt8.ofNat (value >>> 8 &&& 0xff), UInt8.ofNat (value &&& 0xff)]

namespace Opcode

def continuation : Nat := 0x0
def text : Nat := 0x1
def binary : Nat := 0x2
def close : Nat := 0x8
def ping : Nat := 0x9
def pong : Nat := 0xa

end Opcode

/-- `struct sockify_ws_message`; `payload_len` is the length of `payload`. -/
structure WsMessage where
  fin : Bool
  opcode : Nat
  payload : Bytes
  frameComplete : Bool
  deriving DecidableEq

/-- `WS_STATE_HEADER_1` to `WS_STATE_PAYLOAD`. -/
inductive WsState
  | header1 | header2 | extLen | mask | payload
  deriving DecidableEq

structure WsParser where
  state : WsState
  b0 : UInt8
  b1 : UInt8
  fin : Bool
  opcode : Nat
  masked : Bool
  extLenBytes : Bytes
  extLenNeeded : Nat
  extLenPos : Nat
  mask : Bytes
  maskPos : Nat
  payloadLen : Nat
  payloadRemaining : Nat
  payloadOffset : Nat
  fragmentedOpcode : Nat
  deriving DecidableEq

def wsParserInit : WsParser where
  state := .header1
  b0 := 0
  b1 := 0
  fin := false
  opcode := 0
  masked := false
  extLenBytes := List.replicate 8 0
  extLenNeeded := 0
  extLenPos := 0
  mask := List.replicate 4 0
  maskPos := 0
  payloadLen := 0
  payloadRemaining := 0
  payloadOffset := 0
  fragmentedOpcode := 0

def isControlOpcode (opcode : Nat) : Bool := decide (opcode ≥ 0x8)

def validOpcode (opcode : Nat) : Bool :=
  opcode == Opcode.continuation || opcode == Opcode.text || opcode == Opcode.binary ||
  opcode == Opcode.close || opcode == Opcode.ping || opcode == Opcode.pong

/-- The part of `reset_frame` that follows its fragmentation check. -/
def clearFrame (parser : WsParser) : WsParser :=
  { parser with
    state := .header1, b0 := 0, b1 := 0, fin := false, opcode := 0, masked := false
    extLenNeeded := 0, extLenPos := 0, maskPos := 0
    payloadLen := 0, payloadRemaining := 0, payloadOffset := 0 }

def resetFrame (parser : WsParser) : Except Err WsParser :=
  if parser.opcode = Opcode.text ∨ parser.opcode = Opcode.binary then
    if !parser.fin then
      if parser.fragmentedOpcode ≠ 0 then .error .protocol
      else .ok (clearFrame { parser with fragmentedOpcode := parser.opcode })
    else .ok (clearFrame parser)
  else if parser.opcode = Opcode.continuation then
    if parser.fragmentedOpcode = 0 then .error .protocol
    else if parser.fin then .ok (clearFrame { parser with fragmentedOpcode := 0 })
    else .ok (clearFrame parser)
  else .ok (clearFrame parser)

def prepareMessage (parser : WsParser) (payload : Bytes) (frameComplete : Bool) : WsMessage :=
  ⟨parser.fin, parser.opcode, payload, frameComplete⟩

def validateFrameHeader (parser : WsParser) : Except Err Unit :=
  if isControlOpcode parser.opcode then
    if !parser.fin ∨ parser.payloadLen > 125 then .error .protocol else .ok ()
  else if parser.opcode = Opcode.continuation then
    if parser.fragmentedOpcode = 0 then .error .protocol else .ok ()
  else if parser.fragmentedOpcode ≠ 0 then .error .protocol
  else .ok ()

/-- The parser with its length decided, and the code of the checks on it. -/
def finishLength (parser : WsParser) : WsParser × Except Err Unit :=
  if parser.extLenNeeded = 2 then
    let parser := { parser with payloadLen := readBe16 parser.extLenBytes }
    if parser.payloadLen < 126 then (parser, .error .protocol)
    else
      let parser := { parser with payloadRemaining := parser.payloadLen }
      (parser, validateFrameHeader parser)
  else if parser.extLenNeeded = 8 then
    let parser := { parser with payloadLen := readBe64 parser.extLenBytes }
    if parser.payloadLen < 65536 ∨ parser.extLenBytes.getD 0 0 &&& 0x80 ≠ 0 then (parser, .error .protocol)
    else
      let parser := { parser with payloadRemaining := parser.payloadLen }
      (parser, validateFrameHeader parser)
  else
    let parser := { parser with payloadRemaining := parser.payloadLen }
    (parser, validateFrameHeader parser)

/-- What one call of `sockify_ws_parser_feed` leaves: the parser, `*used`, and
the message or the code. -/
structure FeedResult where
  parser : WsParser
  used : Nat
  outcome : Except Err WsMessage

def emitEmptyFrame (parser : WsParser) (used : Nat) : FeedResult :=
  let message := prepareMessage parser [] true
  match resetFrame parser with
  | .ok parser => ⟨parser, used, .ok message⟩
  | .error error => ⟨parser, used, .error error⟩

/-- `WS_STATE_HEADER_1`: one byte. -/
def feedHeader1 (parser : WsParser) (byte : UInt8) : WsParser × Except Err Unit :=
  let parser := { parser with b0 := byte, fin := decide (byte &&& 0x80 ≠ 0), opcode := (byte &&& 0x0f).toNat }
  if byte &&& 0x70 ≠ 0 ∨ !validOpcode parser.opcode then (parser, .error .protocol)
  else ({ parser with state := .header2 }, .ok ())

/-- `WS_STATE_HEADER_2`: one byte. -/
def feedHeader2 (parser : WsParser) (byte : UInt8) : WsParser × Except Err Unit :=
  let parser := { parser with
    b1 := byte, masked := decide (byte &&& 0x80 ≠ 0), payloadLen := (byte &&& 0x7f).toNat }
  if !parser.masked then (parser, .error .protocol)
  else if parser.payloadLen = 126 then
    ({ parser with extLenNeeded := 2, extLenPos := 0, state := .extLen }, .ok ())
  else if parser.payloadLen = 127 then
    ({ parser with extLenNeeded := 8, extLenPos := 0, state := .extLen }, .ok ())
  else
    let parser := { parser with payloadRemaining := parser.payloadLen }
    match validateFrameHeader parser with
    | .error error => (parser, .error error)
    | .ok () => ({ parser with state := .mask }, .ok ())

/-- `WS_STATE_EXT_LEN`: one byte. -/
def feedExtLen (parser : WsParser) (byte : UInt8) : WsParser × Except Err Unit :=
  let parser := { parser with
    extLenBytes := parser.extLenBytes.set parser.extLenPos byte, extLenPos := parser.extLenPos + 1 }
  if parser.extLenPos = parser.extLenNeeded then
    match finishLength parser with
    | (parser, .error error) => (parser, .error error)
    | (parser, .ok ()) => ({ parser with state := .mask }, .ok ())
  else (parser, .ok ())

/-- `WS_STATE_MASK`: one byte. An empty frame is emitted by the caller. -/
def feedMask (parser : WsParser) (byte : UInt8) : WsParser :=
  let parser := { parser with mask := parser.mask.set parser.maskPos byte, maskPos := parser.maskPos + 1 }
  if parser.maskPos = 4 then { parser with state := .payload } else parser

/-- The unmasking loop, with the phase carried by the payload offset. -/
def unmask (mask : Bytes) (offset : Nat) : Bytes → Bytes
  | [] => []
  | byte :: rest => (byte ^^^ mask.getD (offset &&& 3) 0) :: unmask mask (offset + 1) rest

/-- `WS_STATE_PAYLOAD`, with at least one byte available. -/
def feedPayload (payloadCapacity : Nat) (parser : WsParser) (pos : Nat) (data : Bytes) : FeedResult :=
  if payloadCapacity = 0 then ⟨parser, pos, .error .overflow⟩
  else if isControlOpcode parser.opcode ∧ parser.payloadRemaining > payloadCapacity then
    ⟨parser, pos, .error .overflow⟩
  else
    let available := minSize data.length payloadCapacity
    let chunkLen := if available > parser.payloadRemaining then parser.payloadRemaining else available
    let payload := unmask parser.mask parser.payloadOffset (data.take chunkLen)
    let pos := pos + chunkLen
    let parser := { parser with
      payloadOffset := parser.payloadOffset + chunkLen
      payloadRemaining := parser.payloadRemaining - chunkLen }
    let message := prepareMessage parser payload (decide (parser.payloadRemaining = 0))
    if parser.payloadRemaining = 0 then
      match resetFrame parser with
      | .ok parser => ⟨parser, pos, .ok message⟩
      | .error error => ⟨parser, pos, .error error⟩
    else ⟨parser, pos, .ok message⟩

/-- The loop of `sockify_ws_parser_feed` on the bytes from `pos` on. -/
def feedLoop (payloadCapacity : Nat) : WsParser → Nat → Bytes → FeedResult
  | parser, pos, [] => ⟨parser, pos, .error .again⟩
  | parser, pos, byte :: rest =>
    match parser.state with
    | .header1 =>
      match feedHeader1 parser byte with
      | (parser, .error error) => ⟨parser, pos + 1, .error error⟩
      | (parser, .ok ()) => feedLoop payloadCapacity parser (pos + 1) rest
    | .header2 =>
      match feedHeader2 parser byte with
      | (parser, .error error) => ⟨parser, pos + 1, .error error⟩
      | (parser, .ok ()) => feedLoop payloadCapacity parser (pos + 1) rest
    | .extLen =>
      match feedExtLen parser byte with
      | (parser, .error error) => ⟨parser, pos + 1, .error error⟩
      | (parser, .ok ()) => feedLoop payloadCapacity parser (pos + 1) rest
    | .mask =>
      let parser := feedMask parser byte
      if parser.state = .payload ∧ parser.payloadRemaining = 0 then emitEmptyFrame parser (pos + 1)
      else feedLoop payloadCapacity parser (pos + 1) rest
    | .payload => feedPayload payloadCapacity parser pos (byte :: rest)

def wsParserFeed (parser : WsParser) (data : Bytes) (payloadCapacity : Nat) : FeedResult :=
  feedLoop payloadCapacity parser 0 data

/-- The bytes written to `output`; their number is `*written`. -/
def wsWriteFrame (opcode : Nat) (payload : Bytes) (outputSize : Nat) : Except Err Bytes :=
  if !validOpcode opcode then .error .protocol
  else if isControlOpcode opcode ∧ payload.length > 125 then .error .protocol
  else
    let headerLen := if payload.length ≤ 125 then 2 else if payload.length ≤ 65535 then 4 else 10
    if outputSize < (headerLen + payload.length) % sizeModulus then .error .overflow
    else
      let first := UInt8.ofNat (0x80 ||| opcode &&& 0x0f)
      let header :=
        if payload.length ≤ 125 then [first, UInt8.ofNat payload.length]
        else if payload.length ≤ 65535 then first :: 126 :: writeBe16 payload.length
        else first :: 127 :: writeBe64 payload.length
      .ok (header ++ payload)

end Sockify
