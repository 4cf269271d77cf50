import Mathlib.Logic.Relation
import Sockify.Server

/-! What the handlers of a session can do to it, one action at a time. A moment
is the session, the record of its calls, and the client bytes in hand: those
that were read and not yet parsed. The handlers are sequences of these actions
in the orders that the code chooses; everything said about all sequences holds
of every handler. -/

namespace Sockify.Behaviour
open Sockify

structure Moment where
  session : Session
  log : List Io
  hand : Bytes

/-- The output slot has nothing left to send. -/
def Idle (s : Session) : Prop := s.clientOutLen = s.clientOutPos

instance (s : Session) : Decidable (Idle s) := inferInstanceAs (Decidable (_ = _))

/-- The output slot refilled. -/
def fill (s : Session) (bytes : Bytes) : Session :=
  { s with clientOut := bytes, clientOutLen := bytes.length, clientOutPos := 0 }

def IsData (opcode : Nat) : Prop := opcode = Opcode.binary ∨ opcode = Opcode.text ∨ opcode = Opcode.continuation

instance (opcode : Nat) : Decidable (IsData opcode) := inferInstanceAs (Decidable (_ ∨ _ ∨ _))

/-- The effect of one delivered message, and what it places in the slot. -/
inductive Handled (s : Session) (msg : WsMessage) : Session → List Io → Prop
  | stored (data : IsData msg.opcode) (fits : msg.payload.length ≤ bufferWritable s.clientToTarget) :
      Handled s msg { s with clientToTarget := (bufferWrite s.clientToTarget msg.payload).buffer }
        [.store .client msg.payload msg.payload.length]
  | ponged (frame : Bytes) (ping : msg.opcode = Opcode.ping) (idle : Idle s)
      (written : wsWriteFrame Opcode.pong msg.payload s.clientOutCapacity = .ok frame) :
      Handled s msg (fill s frame) [.frame Opcode.pong msg.payload]
  | closeAnswered (frame : Bytes) (close : msg.opcode = Opcode.close) (idle : Idle s)
      (written : wsWriteFrame Opcode.close (msg.payload.take 125) s.clientOutCapacity = .ok frame) :
      Handled s msg
      { fill s frame with closing := .started, pendingClosePayload := msg.payload.take 125, pendingClose := false }
        [.frame Opcode.close (msg.payload.take 125)]
  | closeHeld (close : msg.opcode = Opcode.close) (busy : ¬ Idle s) :
      Handled s msg { s with closing := .started, pendingClosePayload := msg.payload.take 125, pendingClose := true } []
  | ignored (other : ¬ IsData msg.opcode ∧ msg.opcode ≠ Opcode.ping ∧ msg.opcode ≠ Opcode.close) : Handled s msg s []

/-- The session that an accepted request leaves, with its target started. -/
def upgraded (s : Session) (response : Bytes) (fd : Socket) (inProgress : Bool) (time : Int) : Session :=
  { fill s response with
    handshakeDone := true, targetFd := some fd, targetConnecting := inProgress, connectStartedAt := time
    targetTransport := transportInitPlain (some fd), targetRegistered := true }

/-- Actions of `session_read_client` and of what it calls. `early` stands for a
connect that has completed by the time it returns. -/
inductive ReadsClient (early : Prop) : Moment → Moment → Prop
  | touched {s l h} (time : Int) : ReadsClient early ⟨s, l, h⟩ ⟨{ s with lastActivityAt := time }, l, h⟩
  | refused {s l h} (limit : Nat) (error : Err) :
      ReadsClient early ⟨s, l, h⟩ ⟨s, l ++ [.read .client s.clientTransport limit (.error error)], h⟩
  | received {s l} (bytes : Bytes) (ready : s.clientTlsReady = true) (open_ : s.closing = .no)
      (nonempty : bytes ≠ []) (fits : bytes.length ≤ readLimit s) :
      ReadsClient early ⟨s, l, []⟩ ⟨s, l ++ [.read .client s.clientTransport (readLimit s) (.ok bytes)], bytes⟩
  | gathered {s l h} (unfinished : s.handshakeDone = false) (open_ : s.closing = .no)
      (fits : h.length ≤ wsMaxHttpRequest - s.handshake.length) :
      ReadsClient early ⟨s, l, h⟩ ⟨{ s with handshake := s.handshake ++ h }, l, []⟩
  | accepted {s l} (response : Bytes) (consumed : Nat) (fd : Socket) (inProgress : Bool) (time : Int)
      (unfinished : s.handshakeDone = false) (open_ : s.closing = .no) (ready : s.clientTlsReady = true)
      (granted : wsBuildHandshakeResponse s.handshake 256 = .ok (response, consumed))
      (prompt : inProgress = false → early) :
      ReadsClient early ⟨s, l, []⟩ ⟨upgraded s response fd inProgress time,
        l ++ [.response response, .connect (.ok (fd, inProgress))], s.handshake.drop consumed⟩
  | parsed {s l h} (result : FeedResult) (done : s.handshakeDone = true) (open_ : s.closing = .no)
      (room : payloadCapacity s ≠ 0) (fed : wsParserFeed s.wsParser h (payloadCapacity s) = result)
      (again : result.outcome = .error .again) :
      ReadsClient early ⟨s, l, h⟩
      ⟨{ s with wsParser := result.parser }, l ++ [.feed (h.take result.used)], h.drop result.used⟩
  | handled {s l h t extra} (result : FeedResult)
      (msg : WsMessage) (done : s.handshakeDone = true) (open_ : s.closing = .no)
      (room : payloadCapacity s ≠ 0) (fed : wsParserFeed s.wsParser h (payloadCapacity s) = result)
      (delivered : result.outcome = .ok msg) (effect : Handled { s with wsParser := result.parser } msg t extra) :
      ReadsClient early ⟨s, l, h⟩ ⟨t, l ++ .feed (h.take result.used) :: extra, h.drop result.used⟩
  | discarded {s l h} (closing : s.closing = .started) : ReadsClient early ⟨s, l, h⟩ ⟨s, l, []⟩
  | abandoned {s l h} (some_ : h ≠ []) (open_ : s.closing = .no) (full : payloadCapacity s = 0) :
      ReadsClient early ⟨s, l, h⟩ ⟨s, l ++ [.abandoned h], []⟩
  | cleared {s l h} (done : s.handshakeDone = true) : ReadsClient early ⟨s, l, h⟩ ⟨{ s with handshake := [] }, l, h⟩

/-- Actions of `session_write_client`. -/
inductive WritesClient : Moment → Moment → Prop
  | touched {s l h} (time : Int) : WritesClient ⟨s, l, h⟩ ⟨{ s with lastActivityAt := time }, l, h⟩
  | refused {s l h} (error : Err) (busy : s.clientOutPos < s.clientOutLen) :
      WritesClient ⟨s, l, h⟩ ⟨s, l ++ [.write .client s.clientTransport s.unsent (.error error)], h⟩
  | sent {s l h} (count : Nat) (busy : s.clientOutPos < s.clientOutLen) (fits : count ≤ s.unsent.length) :
      WritesClient ⟨s, l, h⟩ ⟨{ s with clientOutPos := s.clientOutPos + count },
        l ++ [.write .client s.clientTransport s.unsent (.ok count)], h⟩
  | emptied {s l h} (sent : ¬ s.clientOutPos < s.clientOutLen) :
      WritesClient ⟨s, l, h⟩ ⟨{ s with clientOutLen := 0, clientOutPos := 0 }, l, h⟩
  | closeAnswered {s l h} (frame : Bytes) (pending : s.pendingClose = true) (idle : Idle s)
      (written : wsWriteFrame Opcode.close s.pendingClosePayload s.clientOutCapacity = .ok frame) :
      WritesClient ⟨s, l, h⟩
      ⟨{ fill s frame with pendingClose := false }, l ++ [.frame Opcode.close s.pendingClosePayload], h⟩
  | framed {s l h} (frame : Bytes)
      (open_ : s.closing = .no) (settled : s.pendingClose = false) (done : s.handshakeDone = true)
      (idle : Idle s) (some_ : bufferReadable s.targetToClient ≠ 0)
      (written : wsWriteFrame Opcode.binary
        (bufferRead s.targetToClient (minSize ioChunk (bufferReadable s.targetToClient))).1
        s.clientOutCapacity = .ok frame) :
      WritesClient ⟨s, l, h⟩
        ⟨{ fill s frame with
            targetToClient := (bufferRead s.targetToClient (minSize ioChunk (bufferReadable s.targetToClient))).2 },
          l ++ [.frame Opcode.binary
            (bufferRead s.targetToClient (minSize ioChunk (bufferReadable s.targetToClient))).1], h⟩

/-- Actions of `session_drive_client_tls`. -/
inductive SecuresClient : Moment → Moment → Prop
  | refused {s l h} (error : Err) :
      SecuresClient ⟨s, l, h⟩ ⟨s, l ++ [.handshake .client s.clientTransport (.error error)], h⟩
  | secured {s l h} (unready : s.clientTlsReady = false) :
      SecuresClient ⟨s, l, h⟩
      ⟨{ s with clientTlsReady := true }, l ++ [.handshake .client s.clientTransport (.ok ())], h⟩

/-- Whether `session_handle_target_event` lets data through. `early` stands for
an event that does so while the connect is pending. -/
def Transfers (early : Prop) (s : Session) : Prop :=
  s.targetRegistered = true ∧
    ((s.targetTlsReady = true ∧ s.targetConnecting = false) ∨ (early ∧ s.targetConnecting = true))

/-- Actions of `session_handle_target_event`. -/
inductive ActsTarget (config : Config) (early : Prop) : Moment → Moment → Prop
  | touched {s l h} (time : Int) : ActsTarget config early ⟨s, l, h⟩ ⟨{ s with lastActivityAt := time }, l, h⟩
  | unconnected {s l h} (reply : Except Err Int) : ActsTarget config early ⟨s, l, h⟩ ⟨s, l ++ [.connected reply], h⟩
  | connectedPlain {s l h} (time : Int)
      (plain : config.targetTlsEnabled = false) (pending : s.targetConnecting = true) :
      ActsTarget config early ⟨s, l, h⟩
        ⟨{ s with targetConnecting := false, connectStartedAt := 0, lastActivityAt := time, targetTlsReady := true },
          l ++ [.connected (.ok 0)], h⟩
  | connectedTls {s l h} (time : Int) (connection : TlsConnection) (secure : config.targetTlsEnabled = true)
      (pending : s.targetConnecting = true) :
      ActsTarget config early ⟨s, l, h⟩
        ⟨{ s with
            targetConnecting := false, connectStartedAt := 0, lastActivityAt := time
            targetTransport := ⟨.tls, s.targetFd, some connection⟩, targetTlsReady := false },
          l ++ [.connected (.ok 0)], h⟩
  | handshakeRefused {s l h} (error : Err) :
      ActsTarget config early ⟨s, l, h⟩ ⟨s, l ++ [.handshake .target s.targetTransport (.error error)], h⟩
  | secured {s l h} (registered : s.targetRegistered = true)
      (connected : s.targetConnecting = false) (unready : s.targetTlsReady = false) :
      ActsTarget config early ⟨s, l, h⟩
        ⟨{ s with targetTlsReady := true }, l ++ [.handshake .target s.targetTransport (.ok ())], h⟩
  | readRefused {s l h} (error : Err) (transfers : Transfers early s) :
      ActsTarget config early ⟨s, l, h⟩ ⟨s, l ++ [.read .target s.targetTransport ioChunk (.error error)], h⟩
  | received {s l h} (bytes : Bytes)
      (time : Int) (transfers : Transfers early s) (low : bufferIsHigh s.targetToClient = false)
      (nonempty : bytes ≠ []) (chunk : bytes.length ≤ ioChunk) (fits : bytes.length ≤ bufferWritable s.targetToClient) :
      ActsTarget config early ⟨s, l, h⟩
        ⟨{ s with lastActivityAt := time, targetToClient := (bufferWrite s.targetToClient bytes).buffer },
          l ++ [.read .target s.targetTransport ioChunk (.ok bytes), .store .target bytes bytes.length], h⟩
  | writeRefused {s l h} (error : Err) (transfers : Transfers early s) :
      ActsTarget config early ⟨s, l, h⟩
        ⟨s, l ++ [.write .target s.targetTransport
          (bufferPeek s.clientToTarget (minSize ioChunk (bufferReadable s.clientToTarget))) (.error error)], h⟩
  | sent {s l h} (count : Nat) (transfers : Transfers early s)
      (fits : count ≤ (bufferPeek s.clientToTarget (minSize ioChunk (bufferReadable s.clientToTarget))).length) :
      ActsTarget config early ⟨s, l, h⟩
        ⟨{ s with clientToTarget := (bufferConsume s.clientToTarget count).1 },
          l ++ [.write .target s.targetTransport
            (bufferPeek s.clientToTarget (minSize ioChunk (bufferReadable s.clientToTarget))) (.ok count)], h⟩

/-- A connect completes by the time it returns. -/
def Immediate (env : Env) : Prop := ∃ n fd, env.connect n = .ok (fd, false)

/-- Any action of a client event. -/
def ActsClient (early : Prop) (events : Events) (before after : Moment) : Prop :=
  (events.read = true ∧ ReadsClient early before after) ∨ (events.write = true ∧ WritesClient before after) ∨
    SecuresClient before after

/-- Any action of a session's handlers. -/
def Acts (config : Config) (early : Prop) (before after : Moment) : Prop :=
  (∃ events, ActsClient early events before after) ∨ ActsTarget config early before after

/-- A sequence of actions. -/
abbrev Path (acts : Moment → Moment → Prop) : Moment → Moment → Prop := Relation.ReflTransGen acts

/-- The last thing a client event does to a session that it releases. Only
`drained` is the end of a close; `prior` is true of a session that was
upgraded before the event. -/
inductive EndsClient (prior : Prop) : Moment → Moment → Prop
  | here {s l h} (open_ : s.closing = .no) : EndsClient prior ⟨s, l, h⟩ ⟨s, l, h⟩
  | unparsed {s l h t hand} (bytes : Bytes) (open_ : s.closing = .no) (still : t.closing = .no) :
      EndsClient prior ⟨s, l, h⟩ ⟨t, l ++ [.feed bytes], hand⟩
  | unstarted {s l h t hand} (response : Bytes) (reply : Except Err (Socket × Bool)) (open_ : s.closing = .no)
      (still : t.closing = .no) : EndsClient prior ⟨s, l, h⟩ ⟨t, l ++ [.response response, .connect reply], hand⟩
  | interrupted {s l h} (busy : s.closing = .started → s.clientOutPos < s.clientOutLen) :
      EndsClient prior ⟨s, l, h⟩ ⟨s, l, h⟩
  | drained {s l h} (closing : s.closing = .started)
      (answered : s.pendingClose = false) (sent : ¬ s.clientOutPos < s.clientOutLen)
      (before : prior) : EndsClient prior ⟨s, l, h⟩ ⟨{ s with clientOutLen := 0, clientOutPos := 0 }, l, h⟩

/-- The last thing a target event does to a session that it releases. -/
inductive EndsTarget (early : Prop) : Moment → Moment → Prop
  | here (m : Moment) : EndsTarget early m m
  | unsecured {s l h t} : EndsTarget early ⟨s, l, h⟩ ⟨t, l ++ [.connected (.ok 0)], h⟩
  | overflowed {s l h} (bytes : Bytes)
      (time : Int) (transfers : Transfers early s) (low : bufferIsHigh s.targetToClient = false)
      (chunk : bytes.length ≤ ioChunk) (short : ¬ bytes.length ≤ bufferWritable s.targetToClient) :
      EndsTarget early ⟨s, l, h⟩
        ⟨{ s with lastActivityAt := time, targetToClient := (bufferWrite s.targetToClient bytes).buffer },
          l ++ [.read .target s.targetTransport ioChunk (.ok bytes),
          .store .target bytes (bufferWrite s.targetToClient bytes).written], h⟩

end Sockify.Behaviour
