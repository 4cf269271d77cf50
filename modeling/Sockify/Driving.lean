import Sockify.Ws.Frame

/-! Driving the frame parser over a byte stream that arrives in chunks, and the
frames that the pieces it delivers amount to. -/

namespace Sockify.Driving
open Sockify

/-- The least payload capacity that a control frame always fits. -/
def leastCapacity : Nat := 125

/-- What a drive leaves: the parser, the number of bytes it used, the messages
it delivered, and the error on which it stopped. -/
structure Driven where
  parser : WsParser
  consumed : Nat
  messages : List WsMessage
  failure : Option Err

/-- The capacities that the calls of a drive are made with, call by call. -/
def Pace := Nat → Nat

/-- Each call has room for any control frame. -/
def Roomy (pace : Pace) : Prop := ∀ call, leastCapacity ≤ pace call

/-- The capacities behind the first call. -/
def Pace.later (pace : Pace) : Pace := fun call => pace (call + 1)

theorem Roomy.later {pace : Pace} (roomy : Roomy pace) : Roomy pace.later := fun call => roomy (call + 1)

/-- A drive of the parser over chunks. The unused rest of a chunk is fed again
behind a message; any error but `again` ends the drive. -/
inductive Drives : Pace → WsParser → List Bytes → Driven → Prop
  | finished (pace : Pace) (parser : WsParser) : Drives pace parser [] ⟨parser, 0, [], none⟩
  | skipped {pace parser chunks driven}
      (rest : Drives pace parser chunks driven) : Drives pace parser ([] :: chunks) driven
  | again {pace parser chunk chunks after used driven}
      (fed : wsParserFeed parser chunk (pace 0) = ⟨after, used, .error .again⟩)
      (rest : Drives pace.later after chunks driven) :
      Drives pace parser (chunk :: chunks) { driven with consumed := used + driven.consumed }
  | delivered {pace parser chunk chunks after used msg driven}
      (fed : wsParserFeed parser chunk (pace 0) = ⟨after, used, .ok msg⟩)
      (rest : Drives pace.later after (chunk.drop used :: chunks) driven) :
      Drives pace parser (chunk :: chunks)
      { driven with consumed := used + driven.consumed, messages := msg :: driven.messages }
  | failed {pace parser chunk chunks after used error}
      (fed : wsParserFeed parser chunk (pace 0) = ⟨after, used, .error error⟩)
      (fatal : error ≠ .again) : Drives pace parser (chunk :: chunks) ⟨after, used, [], some error⟩

/-- A parser that calls without an error have led to, whatever their capacities. -/
inductive Reached : WsParser → Prop
  | init : Reached wsParserInit
  | fed {parser} (reached : Reached parser) (data : Bytes) (capacity : Nat)
      (fine : (∃ msg, (wsParserFeed parser data capacity).outcome = .ok msg) ∨
      (wsParserFeed parser data capacity).outcome = .error .again) :
      Reached (wsParserFeed parser data capacity).parser

/-- A piece of a frame in front of what follows it. -/
def join (piece : WsMessage) : List WsMessage → List WsMessage
  | [] => [piece]
  | next :: rest =>
    if piece.frameComplete then piece :: next :: rest
    else { piece with payload := piece.payload ++ next.payload, frameComplete := next.frameComplete } :: rest

/-- The frames of a series of pieces: a piece that does not complete its frame
is continued by the next one. -/
def assemble : List WsMessage → List WsMessage
  | [] => []
  | piece :: rest => join piece (assemble rest)

end Sockify.Driving
