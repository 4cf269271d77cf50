import Sockify.Lib.History
import Sockify.Proofs.Lifetimes
import Sockify.Streams

/-! The closing handshake: a CLOSE frame answers a CLOSE of the client, it is
the last thing placed in the output slot, and behind the client's CLOSE nothing
that it sent is parsed. -/

namespace Sockify.Proofs.ClosingHandshake
open Sockify Behaviour Framing Streams ParserCursor Soundness Simulation Lifetimes History

def Places : Io → Prop
  | .response _ | .frame _ _ => True
  | _ => False

def CloseSent (log : List Io) : Prop := ∃ payload, .frame Opcode.close payload ∈ log

def CloseHeard (log : List Io) : Prop := closed (start.signals (fed log)) = true

/-- What may come behind what. -/
def Orderly (past : List Io) : Io → Prop
  | .response _ => ¬ CloseSent past
  | .frame opcode _ => ¬ CloseSent past ∧ (opcode = Opcode.close → CloseHeard past)
  | .feed _ => ¬ CloseHeard past
  | _ => True

/-- How the flags of a session stand to its record at every moment. -/
structure Answering (m : Moment) : Prop where
  place : cursor m.session.wsParser = start.advance (fed m.log)
  heard : m.session.closing = .started ↔ CloseHeard m.log
  sent : CloseSent m.log → m.session.closing = .started ∧ m.session.pendingClose = false
  log : Justified Orderly m.log

variable {config : Config} {early : Prop} {m n : Moment} {s t : Session} {l l' more : List Io}
  {h h' bytes payload : Bytes} {opcode : Nat}

theorem Answering.open_unsent (answering : Answering ⟨s, l, h⟩) (open_ : s.closing = .no) : ¬ CloseSent l := by
  intro sent
  have started : s.closing = .started := (answering.sent sent).1
  rw [open_] at started
  cases started

theorem Answering.open_unheard (answering : Answering ⟨s, l, h⟩) (open_ : s.closing = .no) : ¬ CloseHeard l := by
  intro heard
  have started : s.closing = .started := answering.heard.mpr heard
  rw [open_] at started
  cases started

def Plain : Io → Prop
  | .response _ | .frame _ _ | .feed _ => False
  | _ => True

private theorem plain_fed (plain : ∀ io ∈ more, Plain io) : fed more = [] := by
  induction more with
  | nil => rfl
  | cons io rest ih =>
    have first := plain io (by simp)
    have later := ih fun io member => plain io (by simp [member])
    cases io with
    | feed => exact first.elim
    | _ => simpa using later

private theorem plain_sent (plain : ∀ io ∈ more, Plain io) : CloseSent (l ++ more) ↔ CloseSent l := by
  constructor
  · intro ⟨payload, member⟩
    rcases List.mem_append.mp member with old | new
    · exact ⟨payload, old⟩
    · exact (plain _ new).elim
  · intro ⟨payload, member⟩
    exact ⟨payload, List.mem_append_left _ member⟩

private theorem plain_orderly {io : Io} (plain : Plain io) (past : List Io) : Orderly past io := by
  cases io with
  | response | frame | feed => exact plain.elim
  | _ => trivial

/-- A step that leaves the parser and the closing handshake alone. -/
theorem Answering.still (more : List Io) (answering : Answering ⟨s, l, h⟩)
    (parser : t.wsParser = s.wsParser) (closing : t.closing = s.closing)
    (pending : t.pendingClose = s.pendingClose) (logged : l' = l ++ more)
    (plain : ∀ io ∈ more, Plain io) : Answering ⟨t, l', h'⟩ := by
  subst logged
  have bytes : fed (l ++ more) = fed l := by rw [fed_append, plain_fed plain, List.append_nil]
  refine ⟨?_, ?_, ?_, ?_⟩
  · simp only [parser, bytes]
    exact answering.place
  · simp only [closing, CloseHeard, bytes]
    exact answering.heard
  · intro sent
    simp only [closing, pending]
    exact answering.sent ((plain_sent plain).mp sent)
  · exact answering.log.quiet fun io member past => plain_orderly (plain io member) past

/-- What parsing some more bytes adds to what was heard. -/
theorem Answering.heard_feed (answering : Answering ⟨s, l, h⟩) (bytes : Bytes) :
    CloseHeard (l ++ [.feed bytes]) ↔ CloseHeard l ∨ closed ((cursor s.wsParser).signals bytes) = true := by
  have place : cursor s.wsParser = start.advance (fed l) := answering.place
  simp only [CloseHeard, fed_append, fed_cons,
    parsed, fed_nil, List.append_nil, Cursor.signals_append, closed_append, ← place, Bool.or_eq_true]

/-- Bytes are parsed while the session is open. -/
theorem Answering.feed (answering : Answering ⟨s, l, h⟩) (open_ : s.closing = .no)
    (place : cursor t.wsParser = (cursor s.wsParser).advance bytes)
    (heard : t.closing = .started ↔ closed ((cursor s.wsParser).signals bytes) = true) :
    Answering ⟨t, l ++ [.feed bytes], h'⟩ := by
  refine ⟨?_, ?_, ?_, ?_⟩
  · simp only [fed_append, fed_cons, parsed, fed_nil, List.append_nil, Cursor.advance_append]
    rw [place, answering.place]
  · rw [answering.heard_feed, or_iff_right (answering.open_unheard open_)]
    exact heard
  · intro ⟨payload, member⟩
    rcases List.mem_append.mp member with old | new
    · exact absurd ⟨payload, old⟩ (answering.open_unsent open_)
    · simp at new
  · exact answering.log.concat _ (answering.open_unheard open_)

private theorem sent_append : CloseSent (l ++ more) ↔ CloseSent l ∨ CloseSent more := by
  simp only [CloseSent, List.mem_append, exists_or]

/-- Something is placed in the slot. -/
theorem Answering.placed (answering : Answering ⟨s, l, h⟩) (unsent : ¬ CloseSent l) (parser : t.wsParser = s.wsParser)
    (closing : t.closing = s.closing) (silent : fed more = []) (orderly : Justified Orderly (l ++ more))
    (close : CloseSent more → s.closing = .started ∧ t.pendingClose = false) : Answering ⟨t, l ++ more, h'⟩ := by
  have bytes : fed (l ++ more) = fed l := by rw [fed_append, silent, List.append_nil]
  refine ⟨?_, ?_, ?_, orderly⟩
  · simp only [parser, bytes]
    exact answering.place
  · simp only [closing, CloseHeard, bytes]
    exact answering.heard
  · intro sent
    rw [sent_append] at sent
    simp only [closing]
    exact close (sent.resolve_left unsent)

/-- A frame is placed in the slot. -/
theorem Answering.frame (answering : Answering ⟨s, l, h⟩) (unsent : ¬ CloseSent l) (parser : t.wsParser = s.wsParser)
    (closing : t.closing = s.closing) (close : opcode = Opcode.close → s.closing = .started ∧ t.pendingClose = false) :
    Answering ⟨t, l ++ [.frame opcode payload], h'⟩ := by
  apply answering.placed unsent parser closing rfl
  · exact answering.log.concat _ ⟨unsent, fun same => answering.heard.mp (close same).1⟩
  · intro ⟨sent, member⟩
    obtain ⟨same, -⟩ : Opcode.close = opcode ∧ sent = payload := by simpa using member
    exact close same.symm

/-- What a message does once its bytes are parsed. -/
theorem answering_handled {msg : WsMessage} {extra : List Io} {parser : WsParser}
    (answering : Answering ⟨s, l, h⟩) (open_ : s.closing = .no)
    (place : cursor parser = (cursor s.wsParser).advance bytes)
    (heard : closed ((cursor s.wsParser).signals bytes) = (msg.opcode == 8))
    (effect : Handled { s with wsParser := parser } msg t extra) :
    Answering ⟨t, l ++ .feed bytes :: extra, h'⟩ := by
  have unsent : ¬ CloseSent (l ++ [.feed bytes]) := by
    intro sent
    rcases sent_append.mp sent with old | ⟨payload, new⟩
    · exact answering.open_unsent open_ old
    · simp at new
  rw [List.append_cons]
  cases effect with
  | stored data fits =>
    have fed : Answering ⟨{ s with wsParser := parser }, l ++ [.feed bytes], h'⟩ := by
      apply answering.feed open_ place
      rw [heard]
      rcases data with same | same | same <;> simp [open_, same, Opcode.binary, Opcode.text, Opcode.continuation]
    exact fed.still _ rfl rfl rfl rfl (by simp [Plain])
  | ponged frame ping idle written =>
    have fed : Answering ⟨{ s with wsParser := parser }, l ++ [.feed bytes], h'⟩ := by
      apply answering.feed open_ place
      rw [heard]
      simp [open_, ping, Opcode.ping]
    exact fed.frame unsent rfl rfl fun same => absurd same (by decide)
  | closeAnswered frame close idle written =>
    have fed : Answering ⟨{ s with wsParser := parser, closing := .started }, l ++ [.feed bytes], h'⟩ := by
      apply answering.feed open_ place
      rw [heard]
      simp [close, Opcode.close]
    exact fed.frame unsent rfl rfl fun _ => ⟨rfl, rfl⟩
  | closeHeld close busy =>
    rw [List.append_nil]
    apply answering.feed open_ place
    rw [heard]
    simp [close, Opcode.close]
  | ignored other =>
    rw [List.append_nil]
    apply answering.feed open_ place
    rw [heard]
    simpa [open_, Opcode.close] using other.2.2

private theorem answering_readsClient (sound : Sound config s) (answering : Answering ⟨s, l, h⟩) {l' : List Io}
    (act : ReadsClient early ⟨s, l, h⟩ ⟨t, l', h'⟩) : Answering ⟨t, l', h'⟩ := by
  cases act with
  | touched | gathered | discarded | cleared => exact answering.still [] rfl rfl rfl (by simp) (by simp)
  | refused | received | abandoned => exact answering.still _ rfl rfl rfl rfl (by simp [Plain])
  | accepted response consumed fd inProgress time unfinished open_ =>
    have unsent := answering.open_unsent open_
    refine answering.placed unsent rfl rfl (by simp) ?_ ?_
    · have responded : Justified Orderly (l ++ [.response response]) := answering.log.concat _ unsent
      rw [List.append_cons]
      exact responded.concat _ trivial
    · intro ⟨payload, member⟩
      simp at member
  | parsed result done open_ room fed again =>
    have spec := wsParserFeed_fed (Nat.pos_of_ne_zero room) h sound.parser
    rw [fed, Fed, again] at spec
    obtain ⟨used, exhausted⟩ := spec
    have all : h.take result.used = h := List.take_of_length_le (by omega)
    apply answering.feed open_
    · rw [all]
      exact exhausted.cursor
    · rw [all, exhausted.signals, closed_quiet]
      simp [open_]
  | handled result msg done open_ room fed delivered effect =>
    have spec := wsParserFeed_fed (Nat.pos_of_ne_zero room) h sound.parser
    rw [fed, Fed, delivered] at spec
    obtain ⟨used, total, delivers⟩ := spec
    obtain rfl : result.used = used := by omega
    obtain ⟨silent, signals⟩ := delivers.signals
    apply answering_handled answering open_ delivers.cursor ?_ effect
    rw [signals, closed_append, closed_quiet, closed_delivery]
    rfl

private theorem answering_writesClient (sound : Sound config s) (answering : Answering ⟨s, l, h⟩)
    (act : WritesClient ⟨s, l, h⟩ ⟨t, l', h'⟩) : Answering ⟨t, l', h'⟩ := by
  cases act with
  | touched | emptied => exact answering.still [] rfl rfl rfl (by simp) (by simp)
  | refused | sent => exact answering.still _ rfl rfl rfl rfl (by simp [Plain])
  | closeAnswered frame pending idle written =>
    have unsent : ¬ CloseSent l := by
      intro sent
      have answered : s.pendingClose = false := (answering.sent sent).2
      rw [answered] at pending
      cases pending
    exact answering.frame unsent rfl rfl fun _ => ⟨sound.pending pending, rfl⟩
  | framed frame open_ settled done idle some_ written =>
    exact answering.frame (answering.open_unsent open_) rfl rfl nofun

theorem answering_acts (sound : Sound config m.session) (answering : Answering m)
    (act : Acts config early m n) : Answering n := by
  rcases act with ⟨_, ⟨-, reads⟩ | ⟨-, writes⟩ | secures⟩ | target
  · exact answering_readsClient sound answering reads
  · exact answering_writesClient sound answering writes
  · cases secures <;> exact answering.still _ rfl rfl rfl rfl (by simp [Plain])
  · cases target with
    | touched => exact answering.still [] rfl rfl rfl (by simp) (by simp)
    | _ => exact answering.still _ rfl rfl rfl rfl (by simp [Plain])

theorem answering_created (created : Creation.Created config s) : Answering ⟨s, [], []⟩ where
  place := by
    rw [created.parser]
    rfl
  heard := by simp [created.closing.1, CloseHeard, Cursor.signals, closed]
  sent := by simp [CloseSent]
  log := justified_nil

private theorem orderly_ends (answering : Answering m) (ending : Ends early m n) :
    Justified Orderly (n.log ++ [.release n.session]) := by
  rcases ending with client | target
  · cases client with
    | here | interrupted | drained => exact answering.log.concat _ trivial
    | unparsed bytes open_ still =>
      exact (answering.log.concat (.feed bytes) (answering.open_unheard open_)).concat _ trivial
    | @unstarted s l h t hand response reply open_ still =>
      have responded : Justified Orderly (l ++ [.response response]) :=
        answering.log.concat _ (answering.open_unsent open_)
      have connected : Justified Orderly (l ++ [.response response, .connect reply]) := by
        simpa using responded.concat (.connect reply) trivial
      exact connected.concat _ trivial
  · cases target with
    | here => exact answering.log.concat _ trivial
    | unsecured => exact (answering.log.concat (.connected (.ok 0)) trivial).concat _ trivial
    | overflowed => exact (answering.log.quiet (by simp [Orderly])).concat _ trivial

/-- What an orderly record says of a CLOSE frame in it. -/
theorem orderly_close {past later : List Io}
    (orderly : Justified Orderly (past ++ .frame Opcode.close payload :: later)) :
    CloseHeard past ∧ ¬ CloseSent past ∧ ∀ io ∈ later, ¬ Places io := by
  obtain ⟨unsent, heard⟩ := orderly past _ later rfl
  refine ⟨heard rfl, unsent, fun io member places => ?_⟩
  obtain ⟨front, back, rfl⟩ := List.append_of_mem member
  have good : Orderly (past ++ .frame Opcode.close payload :: front) io := orderly _ io back (by simp)
  have sent : CloseSent (past ++ .frame Opcode.close payload :: front) := ⟨payload, by simp⟩
  cases io with
  | response => exact good sent
  | frame => exact good.1 sent
  | _ => exact places.elim

/-- In every run, a session places at most one CLOSE frame in its output slot,
behind a CLOSE of its client and with nothing behind it, and parses nothing
behind the client's CLOSE. Between two events a session that is closing still
has output to send. -/
theorem closing_handshake {config : Config} {w : World} (reachable : Reachable config w) (id : SessionId) :
    (∀ past payload later, w.log id = past ++ .frame Opcode.close payload :: later →
      CloseHeard past ∧ ¬ CloseSent past ∧ ∀ io ∈ later, ¬ Places io) ∧
    (∀ past bytes later, w.log id = past ++ .feed bytes :: later → ¬ CloseHeard past) ∧
    ∀ s, w.session? id = some s →
      (s.pendingClose = true → s.closing = .started) ∧
      (s.closing = .started → s.clientOutPos < s.clientOutLen) ∧
      (s.closing = .started ↔ CloseHeard (w.log id)) := by
  have inv := reachable_invariant reachable
  have begin_ : ∀ s, Creation.Created config s → Sound config s ∧ Answering ⟨s, [], []⟩ :=
    fun s created => ⟨created.sound, answering_created created⟩
  have step : ∀ m n, Sound config m.session ∧
      Answering m → Acts config True m n → Sound config n.session ∧ Answering n :=
    fun m n kept act => ⟨sound_acts kept.1 act, answering_acts kept.1 kept.2 act⟩
  have nothing : Justified Orderly [] := justified_nil
  have orderly : Justified Orderly (w.log id) :=
    inv.every_log _ _ begin_ step (fun _ kept => kept.2.log) (fun _ _ kept ending => orderly_ends kept.2 ending) nothing
      (fun s => nothing.concat (.release s) trivial) id
  refine ⟨?_, ?_, ?_⟩
  · intro past payload later layout
    rw [layout] at orderly
    exact orderly_close orderly
  · intro past bytes later layout
    exact orderly past _ later layout
  · intro s alive
    have lived := inv.lived id s alive
    obtain ⟨first, created, path⟩ := lived.path
    have kept := path_keeps _ step (begin_ first created) path
    exact ⟨kept.1.pending, lived.settled, kept.2.heard⟩

def deferred : World :=
  ((opened (sampleConfig 64) true).after
    (.scripted [.ok [130, 129, 0, 0, 0, 0, 9, 136, 128, 0, 0, 0, 0]] true 0) (.client 0 .reading)).after
    (.scripted [] true 4096) (.client 0 .writing)

theorem closing_handshake_deferred : ∃ past later, deferred.log 0 = past ++ .frame Opcode.close [] :: later ∧
    CloseHeard past ∧ ∃ s, deferred.session? 0 = some s ∧ s.closing = .started ∧ s.clientOutPos < s.clientOutLen := by
  obtain ⟨reachable, placed, present, closes⟩ : Reachable (sampleConfig 64) deferred ∧
      .frame Opcode.close [] ∈ deferred.log 0 ∧
      deferred.session? 0 ≠ none ∧ ∀ s ∈ deferred.session? 0, s.closing = .started :=
    And.imp_left (Runs.next_of (Runs.next_of (opened_runs trivial trivial) trivial) trivial) (by decide +kernel)
  obtain ⟨past, later, layout⟩ := List.append_of_mem placed
  obtain ⟨s, alive⟩ := Option.ne_none_iff_exists'.mp present
  obtain ⟨once, -, live⟩ := closing_handshake reachable 0
  have started : s.closing = .started := closes s alive
  exact ⟨past, later, layout, (once past [] later layout).1, s, alive, started, (live s alive).2.1 started⟩

end Sockify.Proofs.ClosingHandshake
