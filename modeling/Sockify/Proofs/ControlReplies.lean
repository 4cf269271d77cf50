import Sockify.Proofs.Changes
import Sockify.Proofs.ControlPieces

/-! PING and CLOSE frames that arrive over several reads, in whole runs. Until
the payload begins to arrive nothing is answered, and the first read that brings
a part of it decides: the part is answered, and is the whole payload exactly when
no read ends within the payload. -/

namespace Sockify.Proofs.ControlReplies
open Sockify Stateful Behaviour Framing Streams SessionLogic SessionSteps Soundness Simulation Lifetimes
open ParserCursor ParserSegmentation FrameGrammar ClientStream Absorption ClientReads PingReplies ControlPieces

/-- Nothing was placed in the output slot before the last of these reads. -/
def Flushed (grown : List Io) : Prop :=
  ∀ before after, grown = before ++ after → chunks .client after ≠ [] → frames before = []

/-- No read ends within a payload of this size behind a header of six bytes.
`place` counts the bytes of the frame that came before. -/
def Unsplit (size : Nat) : Nat → List Bytes → Prop
  | _, [] => True
  | place, bytes :: rest =>
    (place + bytes.length ≤ 6 ∨ 6 + size ≤ place + bytes.length) ∧ Unsplit size (place + bytes.length) rest

instance Unsplit.decidable (size : Nat) : (place : Nat) → (reads : List Bytes) → Decidable (Unsplit size place reads)
  | _, [] => isTrue trivial
  | place, bytes :: rest =>
    have := Unsplit.decidable size (place + bytes.length) rest
    inferInstanceAs (Decidable (_ ∧ _))

def ofOpcode (opcode : Nat) (placed : List (Nat × Bytes)) : List (Nat × Bytes) :=
  placed.filter fun one => one.1 = opcode

/-- A client is heard: these are the reads of its bytes from now on, as long as
the session reads, and these the frames placed meanwhile. The output slot is
idle at every read, and nothing but its reads ends an open session. -/
inductive Hears (id : SessionId) : World → List Bytes → List (Nat × Bytes) → Prop
  | whole (w : World) : Hears id w [] []
  | deaf {w} (reads : List Bytes) (shut : ∀ s, w.session? id = some s → s.closing ≠ .no) : Hears id w reads []
  | between {w env call grown reads placed}
      (enabled : call.Enabled w) (log : (w.after env call).log id = w.log id ++ grown)
      (silent : chunks .client grown = [])
      (lives : ∀ s, w.session? id = some s → s.closing = .no → (w.after env call).session? id ≠ none)
      (onward : Hears id (w.after env call) reads placed) : Hears id w reads (frames grown ++ placed)
  | read {w env events grown reads placed} (enabled : (Call.client id events).Enabled w)
      (log : (w.after env (.client id events)).log id = w.log id ++ grown) (arrived : chunks .client grown ≠ [])
      (fine : ∀ entry ∈ grown, healthy entry = true) (idle : ∀ s, w.session? id = some s → Idle s)
      (flushed : Flushed grown)
      (onward : Hears id (w.after env (.client id events)) reads placed) :
      Hears id w (chunks .client grown ++ reads) (frames grown ++ placed)

variable {config : Config} {early : Prop} {site : Site} {env : Env} {events : Events} {w : World}
  {id : SessionId} {x y : Own} {s t : Session} {m n : Moment}
variable {frame : ClientFrame} {front bytes back : Bytes} {reads : List Bytes}
  {entries more l grown : List Io} {size place : Nat}

private theorem unsplit_append {later : List Bytes} :
    Unsplit size place (reads ++ later) ↔
    Unsplit size place reads ∧ Unsplit size (place + reads.flatten.length) later := by
  induction reads generalizing place with
  | nil => simp [Unsplit]
  | cons bytes rest ih =>
    simp only [List.cons_append, Unsplit, ih, List.flatten_cons, List.length_append, and_assoc, Nat.add_assoc]

private theorem unsplit_early (early : place + reads.flatten.length ≤ 6) : Unsplit size place reads := by
  induction reads generalizing place with
  | nil => trivial
  | cons bytes rest ih =>
    rw [List.flatten_cons, List.length_append] at early
    exact ⟨.inl (by omega), ih (by omega)⟩

private theorem unsplit_late (late : 6 + size ≤ place) : Unsplit size place reads := by
  induction reads generalizing place with
  | nil => trivial
  | cons bytes rest ih => exact ⟨.inr (by omega), ih (by omega)⟩

/-- The read that brings the first of the payload decides. -/
theorem unsplit_decided {last : Bytes} {later : List Bytes} (early : place + reads.flatten.length ≤ 6)
    (begun : 6 ≤ place + reads.flatten.length + last.length)
    (some_ : size = 0 ∨ 6 < place + reads.flatten.length + last.length) :
    Unsplit size place (reads ++ last :: later) ↔ size ≤ place + reads.flatten.length + last.length - 6 := by
  rw [unsplit_append, Unsplit]
  constructor
  · rintro ⟨-, boundary, -⟩
    omega
  · intro whole
    exact ⟨unsplit_early early, .inr (by omega), unsplit_late (by omega)⟩

theorem Flushed.behind (first : List Io) {later : List Io} (flushed : Flushed (first ++ later))
    (silent : frames first = []) : Flushed later := by
  intro before after split reads
  have whole := flushed (first ++ before) after (by rw [split, List.append_assoc]) reads
  rw [frames_append, silent, List.nil_append] at whole
  exact whole

theorem Flushed.last (first : List Io) {later : List Io} (flushed : Flushed (first ++ later))
    (placed : frames first ≠ []) : chunks .client later = [] := by
  by_contra reads
  exact placed (flushed first later rfl reads)

/-! Reads of one event. -/

private theorem read_piece (time : Int) (control : IsControl frame)
    (awaiting : Awaiting config frame front (bytes ++ back) s) (idle : Idle s) (some_ : bytes ≠ [])
    (fits : bytes.length ≤ readLimit s) :
    Piece config frame front bytes back (absorb (bytes.length + 1) { s with lastActivityAt := time } bytes) := by
  obtain ⟨fuel, count⟩ := Nat.exists_eq_add_one_of_ne_zero (Nat.ne_of_gt (List.length_pos_iff.mpr some_))
  rw [readLimit, if_pos awaiting.done, minSize_eq] at fits
  have touched : Awaiting config frame front (bytes ++ back) { s with lastActivityAt := time } :=
    { awaiting with sound := { awaiting.sound with } }
  rw [count]
  exact absorb_piece control touched idle some_ (by simp only; omega) fuel

/-- The frame has been answered with the payload that had arrived. -/
structure Answers (config : Config) (frame : ClientFrame) (front : Bytes) (reads : List Bytes)
    (t : Session) (entries : List Io) : Prop where
  decided : ∃ first last, reads = first ++ [last] ∧ front.length + first.flatten.length ≤ lead frame
  begun : lead frame < (front ++ reads.flatten).length
  sound : Sound config t
  done : t.handshakeDone = true
  settled : t.pendingClose = false
  reply : frames entries = [(replyTo frame.opcode, frame.payload.take ((front ++ reads.flatten).length - 6))]

/-- Reads of the frame's bytes before which nothing was placed. -/
theorem absorbs_pieces (control : IsControl frame) (absorbs : Absorbs s reads t entries)
    (awaiting : Awaiting config frame front (reads.flatten ++ back) s) (idle : Idle s)
    (flushed : Flushed (entries ++ more)) :
    (Awaiting config frame (front ++ reads.flatten) back t ∧ Idle t ∧ frames entries = []) ∨
      (Answers config frame front reads t entries ∧ chunks .client more = []) := by
  induction absorbs generalizing front with
  | none => exact .inl ⟨by simpa using awaiting, idle, rfl⟩
  | @read s t u bytes rest entries later rc time open_ nonempty fits absorbed fine onward ih =>
    rw [List.flatten_cons, List.append_assoc] at awaiting
    have piece := read_piece time control awaiting idle nonempty fits
    rw [absorbed] at piece
    rw [List.cons_append, List.append_assoc] at flushed
    cases piece with
    | waits waiting slot silent =>
      have behind : Flushed (later ++ more) := Flushed.behind (_ :: entries) flushed (by simpa using silent)
      rw [List.flatten_cons, ← List.append_assoc, frames_cons, frames_append, silent]
      rcases ih waiting slot behind with waits | ⟨answers, ended⟩
      · exact .inl waits
      · obtain ⟨⟨first, last, rfl, before⟩, begun, sound, done, settled, reply⟩ := answers
        refine .inr ⟨⟨⟨bytes :: first, last, rfl, ?_⟩, by simpa using begun, sound, done, settled, by simpa [silent]
          using reply⟩, ended⟩
        rw [List.length_append] at before
        rw [List.flatten_cons, List.length_append]
        omega
    | answers begun sound done settled reply =>
      have placed : frames entries ≠ [] := by
        rw [reply]
        exact List.cons_ne_nil _ _
      have ended := Flushed.last (_ :: entries) flushed (by simpa using placed)
      rw [chunks_append, List.append_eq_nil_iff, onward.chunks] at ended
      obtain ⟨rfl, ended⟩ := ended
      cases onward
      have only : (bytes :: []).flatten = bytes := List.flatten_singleton
      refine .inr ⟨⟨⟨[], bytes, rfl, awaiting.early⟩, by rwa [only], sound, done, settled, ?_⟩, ended⟩
      rw [only, ← reply]
      simp
    | refuses inside silent other =>
      rcases fine with impossible | same
      · cases impossible
      · exact absurd (Except.error.inj same) other

/-! A session that hears nothing. -/

/-- Of a record, nothing more was heard, and only target data was framed. -/
def Unheard (l log : List Io) : Prop :=
  ∃ more, log = l ++ more ∧ chunks .client more = [] ∧ ∀ placed ∈ frames more, placed.1 = Opcode.binary

theorem Unheard.grows {log : List Io} (unheard : Unheard l log) : l <+: log := by
  obtain ⟨more, same, -⟩ := unheard
  exact ⟨more, same.symm⟩

structure Still (s : Session) (l : List Io) (m : Moment) : Prop where
  log : Unheard l m.log
  hand : m.hand = []
  done : m.session.handshakeDone = true
  parser : m.session.wsParser = s.wsParser
  closing : m.session.closing = s.closing
  settled : m.session.pendingClose = false

theorem Still.refl (done : s.handshakeDone = true) (settled : s.pendingClose = false) : Still s l ⟨s, l, []⟩ :=
  ⟨⟨[], (List.append_nil l).symm, rfl, fun _ impossible => absurd impossible List.not_mem_nil⟩, rfl, done,
    rfl, rfl, settled⟩

theorem Still.next {l' l'' : List Io} {h h' : Bytes} {u : Session} (still : Still s l ⟨t, l', h⟩)
    (more : List Io) (logged : l'' = l' ++ more) (silent : chunks .client more = [])
    (data : ∀ placed ∈ frames more, placed.1 = Opcode.binary) (hand : h' = [])
    (done : u.handshakeDone = t.handshakeDone) (parser : u.wsParser = t.wsParser)
    (closing : u.closing = t.closing) (settled : u.pendingClose = t.pendingClose) :
    Still s l ⟨u, l'', h'⟩ := by
  obtain ⟨⟨before, log, quiet, framed⟩, -, finished, same, state, unanswered⟩ := still
  refine ⟨⟨before ++ more, ?_, ?_, fun placed member => ?_⟩,
    hand, done.trans finished, parser.trans same, closing.trans state, settled.trans unanswered⟩
  · simp only at log
    rw [logged, log, List.append_assoc]
  · rw [chunks_append, quiet, silent]
    rfl
  · rw [frames_append] at member
    exact (List.mem_append.mp member).elim (framed placed) (data placed)

private theorem still_writes (still : Still s l m) (act : WritesClient m n) : Still s l n := by
  cases act with
  | touched | emptied => exact still.next [] (by simp) rfl (by simp) still.hand rfl rfl rfl rfl
  | refused | sent => exact still.next _ rfl rfl (by simp) still.hand rfl rfl rfl rfl
  | closeAnswered frame pending => cases pending.symm.trans still.settled
  | framed => exact still.next _ rfl rfl (by simp) still.hand rfl rfl rfl rfl

/-- The parser makes nothing of no bytes. -/
theorem wsParserFeed_nil (parser : WsParser)
    (capacity : Nat) : wsParserFeed parser [] capacity = ⟨parser, 0, .error .again⟩ :=
  rfl

private theorem still_reads (still : Still s l m) (act : ReadsClient early m n) :
    Still s l n ∨ ∃ more, n.log = l ++ more ∧ received .client more ≠ [] := by
  cases act with
  | touched | cleared => exact .inl (still.next [] (by simp) rfl (by simp) still.hand rfl rfl rfl rfl)
  | refused => exact .inl (still.next _ rfl rfl (by simp) still.hand rfl rfl rfl rfl)
  | received bytes ready open_ nonempty fits =>
    obtain ⟨before, log, -⟩ := still.log
    refine .inr ⟨before ++ [_], by rw [← List.append_assoc, ← log], ?_⟩
    simp [nonempty]
  | gathered unfinished | accepted response consumed fd inProgress time unfinished =>
    cases unfinished.symm.trans still.done
  | parsed result done open_ room fed again =>
    obtain rfl := still.hand
    rw [wsParserFeed_nil] at fed
    subst fed
    exact .inl (still.next _ rfl rfl (by simp) rfl rfl rfl rfl rfl)
  | handled result msg done open_ room fed delivered effect =>
    obtain rfl := still.hand
    rw [wsParserFeed_nil] at fed
    subst fed
    cases delivered
  | discarded => exact .inl (still.next [] (by simp) rfl (by simp) rfl rfl rfl rfl rfl)
  | abandoned some_ => exact absurd still.hand some_

private theorem still_acts (still : Still s l m) (act : Acts config early m n) :
    Still s l n ∨ ∃ more, n.log = l ++ more ∧ received .client more ≠ [] := by
  rcases act with ⟨_, ⟨-, reads⟩ | ⟨-, writes⟩ | secures⟩ | target
  · exact still_reads still reads
  · exact .inl (still_writes still writes)
  · cases secures <;> exact .inl (still.next _ rfl rfl (by simp) still.hand rfl rfl rfl rfl)
  · cases target with
    | touched => exact .inl (still.next [] (by simp) rfl (by simp) still.hand rfl rfl rfl rfl)
    | _ => exact .inl (still.next _ rfl rfl (by simp) still.hand rfl rfl rfl rfl)

private theorem acts_grows (act : Acts config early m n) : ∃ more, n.log = m.log ++ more := by
  rcases act with ⟨_, ⟨-, reads⟩ | ⟨-, writes⟩ | secures⟩ | target
  · cases reads with
    | touched | gathered | discarded | cleared => exact ⟨[], (List.append_nil _).symm⟩
    | _ => exact ⟨_, rfl⟩
  · cases writes with
    | touched | emptied => exact ⟨[], (List.append_nil _).symm⟩
    | _ => exact ⟨_, rfl⟩
  · cases secures <;> exact ⟨_, rfl⟩
  · cases target with
    | touched => exact ⟨[], (List.append_nil _).symm⟩
    | _ => exact ⟨_, rfl⟩

/-- A session is heard as long as it is not still. -/
theorem path_still (done : s.handshakeDone = true) (settled : s.pendingClose = false)
    (path : Path (Acts config early) ⟨s, l, []⟩ m) :
    Still s l m ∨ ∃ more, m.log = l ++ more ∧ received .client more ≠ [] := by
  refine path_keeps (fun m => Still s l m ∨ ∃ more, m.log = l ++ more ∧ received .client more ≠ []) ?_
    (.inl (.refl done settled)) path
  intro m n before act
  rcases before with still | ⟨more, log, heard⟩
  · exact still_acts still act
  · obtain ⟨later, grown⟩ := acts_grows act
    refine .inr ⟨more ++ later, by rw [grown, log, List.append_assoc], ?_⟩
    simp [heard]

private theorem fate_still {state : Option Session} {log : List Io}
    (fate : Fate (Acts config early) (Ends early) s l state log) (done : s.handshakeDone = true)
    (settled : s.pendingClose = false) (grows : log = l ++ grown) (silent : received .client grown = []) :
    (∀ placed ∈ frames grown, placed.1 = Opcode.binary) ∧ ∀ t, state = some t → Still s l ⟨t, log, []⟩ := by
  cases fate with
  | @kept t log path =>
    rcases path_still done settled path with still | ⟨more, log, heard⟩
    · refine ⟨?_, fun u same => Option.some.inj same ▸ still⟩
      obtain ⟨more, log, -, data⟩ := still.log
      obtain rfl : grown = more := List.append_cancel_left (grows.symm.trans log)
      exact data
    · obtain rfl : grown = more := List.append_cancel_left (grows.symm.trans log)
      exact absurd silent heard
  | @released m t past hand path ending =>
    refine ⟨?_, fun u impossible => by cases impossible⟩
    obtain ⟨last, ended, -, unframed⟩ := ends_silent ending
    have layout : ∀ more, m.log = l ++ more → grown = more ++ (last ++ [.release t]) := by
      intro more log
      have whole : past = m.log ++ last := ended
      rw [whole, log, List.append_assoc, List.append_assoc] at grows
      exact (List.append_cancel_left grows).symm
    rcases path_still done settled path with still | ⟨more, log, heard⟩
    · obtain ⟨more, log, -, data⟩ := still.log
      rw [layout more log]
      simpa [unframed] using data
    · rw [layout more log] at silent
      simp [heard] at silent

private theorem step_advances {call : Call} (inv : Invariant config True w) (enabled : call.Enabled w) :
    Later config True w (w.after env call) :=
  step_later inv enabled ⟨fun _ => trivial, fun _ _ _ _ _ _ => trivial⟩

/-- A session that gives no answer unless it reads, or that is gone. -/
structure Spent (id : SessionId) (w : World) : Prop where
  born : id < w.nextId
  live : ∀ s, w.session? id = some s → s.handshakeDone = true ∧ s.pendingClose = false

private theorem spent_step {call : Call} (inv : Invariant config True w) (spent : Spent id w)
    (enabled : call.Enabled w) (log : (w.after env call).log id = w.log id ++ grown)
    (silent : received .client grown = [] ∨ w.session? id = none) :
    (∀ placed ∈ frames grown, placed.1 = Opcode.binary) ∧ Spent id (w.after env call) ∧
      (w.session? id = none → (w.after env call).session? id = none) := by
  have later : Later config True w (w.after env call) := step_advances inv enabled
  have born := Nat.lt_of_lt_of_le spent.born later.advance.nextId
  cases present : w.session? id with
  | none =>
    obtain ⟨gone, same⟩ := later.advance.dead id spent.born present
    have nothing : grown = [] := List.append_right_eq_self.mp (log.symm.trans same)
    refine ⟨by simp [nothing], ⟨born, fun s alive => ?_⟩, fun _ => gone⟩
    cases gone.symm.trans alive
  | some s =>
    obtain ⟨done, settled⟩ := spent.live s present
    have quiet : received .client grown = [] := silent.resolve_right fun gone => by cases gone.symm.trans present
    obtain ⟨data, kept⟩ := fate_still (later.advance.live id s present) done settled log quiet
    refine ⟨data, ⟨born, fun t alive => ?_⟩, fun gone => by cases gone⟩
    have still := kept t alive
    exact ⟨still.done, still.settled⟩

/-- Only target data is framed when nothing more is read. -/
theorem hears_spent {placed : List (Nat × Bytes)} (hears : Hears id w reads placed)
    (inv : Invariant config True w) (spent : Spent id w)
    (nothing : reads.flatten = [] ∨ w.session? id = none) : ∀ one ∈ placed, one.1 = Opcode.binary := by
  induction hears with
  | whole | deaf => simp
  | @between w env call grown reads placed enabled log silent lives onward ih =>
    have quiet : received .client grown = [] := by rw [← chunks_flatten, silent, List.flatten_nil]
    obtain ⟨data, spent, gone⟩ := spent_step inv spent enabled log (.inl quiet)
    intro one member
    exact (List.mem_append.mp member).elim (data one)
      (ih (step_advances inv enabled).invariant spent (nothing.imp_right gone) one)
  | @read w env events grown reads placed enabled log arrived fine idle flushed onward ih =>
    have served := enabled
    obtain ⟨s, present, -⟩ := served
    rw [List.flatten_append, List.append_eq_nil_iff] at nothing
    have nothing := nothing.resolve_right fun gone => by cases gone.symm.trans present
    have quiet : received .client grown = [] := by rw [← chunks_flatten, nothing.1]
    obtain ⟨data, spent, gone⟩ := spent_step inv spent enabled log (.inl quiet)
    intro one member
    exact (List.mem_append.mp member).elim (data one)
      (ih (step_advances inv enabled).invariant spent (.inl nothing.2) one)

/-! An event of the client. -/

/-- What the write part does to a session with no answer to give. It ends no
session that is open and has an idle slot. -/
theorem sessionWriteClient_still (sound : Sound site.world.config x.session)
    (done : x.session.handshakeDone = true) (settled : x.session.pendingClose = false) :
    Yields site (fun _ z => ¬ (x.session.closing = .no ∧ Idle x.session) ∧ Unheard x.log z.log)
      (sessionWriteClient env site.id)
        (fun _ z => z.session.closing ≠ .released ∧ Still x.session x.log ⟨z.session, z.log, []⟩) x := by
  have start : Still x.session x.log ⟨x.session, x.log, []⟩ := .refl done settled
  by_cases free : x.session.closing = .no ∧ Idle x.session
  · obtain ⟨open_, idle⟩ := free
    rw [sessionWriteClient, yields_config, writeClientLoop_idle _ _ idle]
    refine yields_onlyIf (fun _ => ?_) fun impossible => absurd rfl impossible
    apply refillClientOut_cases sound
    · exact fun _ => ⟨sound.live, start⟩
    · intro frame _ pending
      cases pending.symm.trans settled
    · intro _ _ closing
      cases open_.symm.trans closing
    · exact fun frame _ _ _ _ _ _ => ⟨sound.live, start.next _ rfl rfl (by simp) rfl rfl rfl rfl rfl⟩
    · exact fun _ _ _ => ⟨sound.live, start.next [] (by simp) rfl (by simp) rfl rfl rfl rfl rfl⟩
  · let scene : Scene site := ⟨WritesClient, ⟨x.session, x.log, []⟩, sound, fun _ _ => sound_writesClient⟩
    have here : scene.At [] x := .refl
    have answered : Answered True x.session := fun _ _ => trivial
    refine (sessionWriteClient_yields (fun _ _ act => act) here answered).weaken ?_ ?_
    · intro _ z kept
      exact ⟨kept.1.sound.live, path_keeps (Still x.session x.log) (fun _ _ => still_writes) start kept.1⟩
    · intro _ z left
      obtain ⟨m, hand, path, ending⟩ := left
      have still : Still x.session x.log m := path_keeps _ (fun _ _ => still_writes) start path
      obtain ⟨more, log, silent, data⟩ := still.log
      have last : Ends True m ⟨z.session, z.log, hand⟩ := .inl ending
      obtain ⟨last, ended, quiet, unframed⟩ := ends_silent last
      refine ⟨free, more ++ last, ?_, by rw [chunks_append, silent, quiet]; rfl, by simpa [unframed] using data⟩
      rw [← List.append_assoc, ← log]
      exact ended

private theorem writes_grows (path : Path WritesClient m n) : m.log <+: n.log := by
  refine path_keeps (fun n => m.log <+: n.log) (fun n u before act => before.trans ?_) (List.prefix_refl _) path
  cases act with
  | touched | emptied => exact List.prefix_refl _
  | _ => exact List.prefix_append _ _

/-- How a client event leaves a session that it keeps: it has read, and behind
that it may have written. -/
def Lasts (config : Config) (x z : Own) : Prop :=
  ∃ y, Returns config x y ∧ y.log <+: z.log ∧
    (y.session.pendingClose = false → Still y.session y.log ⟨z.session, z.log, []⟩)

inductive Finishes (config : Config) (x z : Own) : Prop
  | unread (log : z.log = x.log)
  | reading (releases : Releases x z)
  | writing {middle : Own} (returns : Returns config x middle) (grows : middle.log <+: z.log)
      (behind : middle.session.pendingClose = false → ¬ (middle.session.closing = .no ∧ Idle middle.session) ∧
      Unheard middle.log z.log)

/-- The write part behind the reads. -/
theorem sessionWriteClient_lasts (returns : Returns site.world.config x y) :
    Yields site (fun _ => Finishes site.world.config x) (sessionWriteClient env site.id)
      (fun _ z => z.session.closing ≠ .released ∧ Lasts site.world.config x z) y := by
  by_cases settled : y.session.pendingClose = false
  · apply (sessionWriteClient_still returns.sound returns.done settled).weaken
    · exact fun _ z kept => ⟨kept.1, y, returns, kept.2.log.grows, fun _ => kept.2⟩
    · exact fun _ z left => .writing returns left.2.grows fun _ => left
  · let scene : Scene site := ⟨WritesClient, ⟨y.session, y.log, []⟩, returns.sound, fun _ _ => sound_writesClient⟩
    have here : scene.At [] y := .refl
    have answered : Answered True y.session := fun _ _ => trivial
    apply (sessionWriteClient_yields (fun _ _ act => act) here answered).weaken
    · exact fun _ z kept =>
        ⟨kept.1.sound.live, y, returns, writes_grows kept.1, fun answered => absurd answered settled⟩
    · intro _ z left
      obtain ⟨m, hand, path, ending⟩ := left
      have last : Ends True m ⟨z.session, z.log, hand⟩ := .inl ending
      obtain ⟨more, ended, -⟩ := ends_silent last
      exact .writing returns ((writes_grows path).trans ⟨more, ended.symm⟩) fun answered => absurd answered settled

private theorem sessionHandleClientEvent_hears (sound : Sound site.world.config x.session)
    (done : x.session.handshakeDone = true) :
    Yields site (fun _ => Finishes site.world.config x)
      (sessionHandleClientEvent env site.id events) (fun _ => Lasts site.world.config x) x := by
  have ready := (sound.late done).2.2
  rw [sessionHandleClientEvent]
  split
  · exact yields_close sound.live (.unread rfl)
  rw [yields_deref, if_neg (by simp [ready])]
  apply parts_yields (Returns site.world.config x) fun z => z.session.closing ≠ .released ∧ Lasts site.world.config x z
  · exact fun _ => (sessionReadClient_absorbs env sound done).weaken (fun _ _ kept => kept)
      fun _ _ left => .reading left
  · exact fun _ => .refl sound done
  · exact fun y returns _ => sessionWriteClient_lasts returns
  · exact fun y returns => ⟨returns.sound.live, y, returns, List.prefix_refl _, .refl returns.done⟩
  · rintro y (returns | lasts)
    · exact returns.sound.live
    · exact lasts.1
  · rintro z ⟨live, y, returns, grows, still⟩
    refine updateEvents_yields live fun u session log _ => ⟨y, returns, log.symm ▸ grows, fun settled => ?_⟩
    rw [session, log]
    exact still settled

private theorem ofOpcode_append {opcode : Nat} (first last : List (Nat × Bytes)) :
    ofOpcode opcode (first ++ last) = ofOpcode opcode first ++ ofOpcode opcode last := List.filter_append ..

/-- Target data answers nothing. -/
theorem ofOpcode_data {placed : List (Nat × Bytes)} (control : IsControl frame)
    (data : ∀ one ∈ placed, one.1 = Opcode.binary) :
    ofOpcode (replyTo frame.opcode) placed = [] := by
  refine List.filter_eq_nil_iff.mpr fun one member => ?_
  rw [data one member]
  rcases control.kind with ping | close
  · simp [ping, replyTo, Opcode.ping, Opcode.pong, Opcode.binary]
  · simp [close, replyTo, Opcode.ping, Opcode.close, Opcode.binary]

inductive Reading (config : Config) (frame : ClientFrame) (front back : Bytes) (id : SessionId)
    (reads : List Bytes) (placed : List (Nat × Bytes)) (after : World) : Prop
  | waits (t : Session) (alive : after.session? id = some t)
      (awaiting : Awaiting config frame (front ++ reads.flatten) back t)
      (data : ∀ one ∈ placed, one.1 = Opcode.binary)
  | decides (first : List Bytes)
      (last : Bytes) (cut : reads = first ++ [last]) (before : front.length + first.flatten.length ≤ lead frame)
      (begun : lead frame < (front ++ reads.flatten).length) (spent : Spent id after)
      (outcome : ofOpcode (replyTo frame.opcode) placed =
      [(replyTo frame.opcode, frame.payload.take ((front ++ reads.flatten).length - 6))] ∨
        (front ++ reads.flatten).length < 6 + frame.payload.length ∧
        after.session? id = none ∧ ofOpcode (replyTo frame.opcode) placed = [])

theorem Answers.reading {after : World} {later : List (Nat × Bytes)} (control : IsControl frame)
    (answers : Answers config frame front reads t entries) (spent : Spent id after)
    (data : ∀ one ∈ later, one.1 = Opcode.binary) :
    Reading config frame front back id reads (frames entries ++ later) after := by
  obtain ⟨first, last, cut, before⟩ := answers.decided
  refine .decides first last cut before answers.begun spent (.inl ?_)
  rw [ofOpcode_append, ofOpcode_data control data, answers.reply]
  simp [ofOpcode]

private theorem returns_quiet {last : List Io}
    (ending : last = [] ∨ ∃ limit, last = [.read .client s.clientTransport limit (.error .again)]) :
    chunks .client last = [] ∧ frames last = [] := by
  rcases ending with rfl | ⟨limit, rfl⟩
  · exact ⟨rfl, rfl⟩
  · exact ⟨rfl, rfl⟩

/-- Where the session stands behind the reads of an event, and what it has placed. -/
theorem returns_pieces (control : IsControl frame) (returns : Returns config x y)
    (log : y.log ++ more = x.log ++ grown)
    (awaiting : Awaiting config frame front ((chunks .client grown).flatten ++ back) x.session)
    (idle : Idle x.session) (flushed : Flushed grown) :
    y.session.pendingClose = false ∧ (chunks .client more = [] → ∃ placed, frames grown = placed ++ frames more ∧
      ((Awaiting config frame (front ++ (chunks .client grown).flatten) back y.session ∧ Idle y.session ∧ placed = []) ∨
        ∃ entries, placed = frames entries ∧
        Answers config frame front (chunks .client grown) y.session entries)) := by
  obtain ⟨reads, entries, last, absorbs, logged, ending⟩ := returns.log
  obtain ⟨quiet, unframed⟩ := returns_quiet ending
  obtain rfl : grown = entries ++ (last ++ more) := by
    rw [logged, List.append_assoc, List.append_assoc] at log
    exact (List.append_cancel_left log).symm
  have heard : chunks .client (entries ++ (last ++ more)) = reads ++ chunks .client more := by
    rw [chunks_append, chunks_append, absorbs.chunks, quiet, List.nil_append]
  rw [heard, List.flatten_append, List.append_assoc] at awaiting
  have pieces := absorbs_pieces control absorbs awaiting idle flushed
  have framed : frames (entries ++ (last ++ more)) = frames entries ++ frames more := by
    rw [frames_append, frames_append, unframed, List.nil_append]
  constructor
  · rcases pieces with ⟨waiting, -⟩ | ⟨answers, -⟩
    · exact waiting.settled
    · exact answers.settled
  · intro silent
    rw [heard, silent, List.append_nil]
    refine ⟨frames entries, framed, ?_⟩
    rcases pieces with ⟨waiting, idle, placed⟩ | ⟨answers, -⟩
    · rw [silent] at waiting
      exact .inl ⟨waiting, idle, placed⟩
    · exact .inr ⟨entries, rfl, answers⟩

/-- A session that waits still does, if nothing has been heard since. -/
theorem Still.awaiting {log : List Io} {later : Bytes} (still : Still s l ⟨t, log, []⟩)
    (awaiting : Awaiting config frame front later s) (sound : Sound config t) :
    Awaiting config frame front later t where
  sound := sound
  done := still.done
  open_ := still.closing.trans awaiting.open_
  split := awaiting.split
  early := awaiting.early
  place := still.parser ▸ awaiting.place
  takes := still.parser ▸ awaiting.takes

private theorem lead_le (frame : ClientFrame) : lead frame ≤ 6 := by
  unfold lead
  split <;> omega

private theorem lead_begun {total : Nat} (begun : lead frame < total) :
    6 ≤ total ∧ (frame.payload.length = 0 ∨ 6 < total) := by
  unfold lead at begun
  split at begun
  next empty => exact ⟨by omega, .inl (List.length_eq_zero_iff.mpr empty)⟩
  next => exact ⟨by omega, .inr begun⟩

/-- A session is released only while it reads a part of the payload, without an answer to it. -/
theorem releases_pieces {after : World} (control : IsControl frame) (releases : Releases x y)
    (log : y.log ++ [.release y.session] = x.log ++ grown)
    (awaiting : Awaiting config frame front ((chunks .client grown).flatten ++ back) x.session)
    (idle : Idle x.session) (fine : ∀ entry ∈ grown, healthy entry = true) (flushed : Flushed grown)
    (spent : Spent id after) (gone : after.session? id = none) :
    Reading config frame front back id (chunks .client grown) (frames grown) after := by
  cases releases with
  | failed limit error absorbs other logged =>
    rw [logged, List.append_assoc] at log
    have whole := List.append_cancel_left log
    have again := fine (.read .client y.session.clientTransport limit (.error error)) (by simp [← whole])
    exact absurd (eq_of_beq again) other
  | @spoiled reads entries t last more absorbs spoils logged =>
    rw [logged, List.append_assoc, List.append_assoc] at log
    obtain rfl := List.append_cancel_left log
    have heard : chunks .client (entries ++ (.read .client t.clientTransport (readLimit t) (.ok last) :: more ++
        [.release y.session])) = reads ++ [last] := by
      simp [absorbs.chunks, spoils.silent]
    rw [heard, List.flatten_append, List.flatten_singleton, List.append_assoc] at awaiting
    rw [heard]
    rcases absorbs_pieces control absorbs awaiting idle flushed with ⟨waiting, slot, placed⟩ | ⟨-, ended⟩
    · obtain ⟨time, outcome⟩ := spoils.outcome
      have piece := read_piece time control waiting slot spoils.nonempty spoils.fits
      rcases outcome with lost | ⟨u, error, kept, other⟩
      · rw [lost] at piece
        cases piece
      · rw [kept] at piece
        cases piece with
        | refuses inside silent =>
          have total : front ++ (reads ++ [last]).flatten = front ++ reads.flatten ++ last := by simp
          refine .decides reads last rfl (by simpa using waiting.early) ?_ spent (.inr ⟨?_, gone, ?_⟩)
          · rw [total]
            exact Nat.lt_of_le_of_lt (lead_le frame) inside.1
          · rw [total]
            exact inside.2
          · simp [placed, silent, ofOpcode]
    · cases ended

private theorem event_reads (control : IsControl frame) (inv : Invariant config True w)
    (enabled : (Call.client id events).Enabled w) (alive : w.session? id = some s)
    (awaiting : Awaiting config frame front ((chunks .client grown).flatten ++ back) s) (idle : Idle s)
    (log : (w.after env (.client id events)).log id = w.log id ++ grown)
    (arrived : chunks .client grown ≠ []) (fine : ∀ entry ∈ grown, healthy entry = true)
    (flushed : Flushed grown) :
    Reading config frame front back id (chunks .client grown) (frames grown) (w.after env (.client id events)) := by
  have later : Later config True w (w.after env (.client id events)) := step_advances inv enabled
  have born := Nat.lt_of_lt_of_le (inv.born alive) later.advance.nextId
  let own : Own := ⟨s, w.log id, w.interest id, 0⟩
  have event : ∀ site : Site, site.id = id → site.world.config = config → Sound site.world.config s →
      Yields site (fun _ => Finishes config own)
          (sessionHandleClientEvent env id events) (fun _ => Lasts config own) own := by
    rintro site rfl rfl sound
    exact sessionHandleClientEvent_hears sound awaiting.done
  have runs : (sessionHandleClientEvent env id events w.begin).2 = w.after env (.client id events) := rfl
  have call := session_left inv alive runs fun site same configured _ => event site same configured
  generalize w.after env (.client id events) = after at *
  rcases call with ⟨y, ⟨z, returns, ⟨more, grows⟩, still⟩, present, mine⟩ | ⟨y, finishes, gone, mine⟩
  · have whole : z.log ++ more = own.log ++ grown := grows.trans (mine.symm.trans log)
    obtain ⟨settled, pieces⟩ := returns_pieces control returns whole awaiting idle flushed
    have still := still settled
    obtain ⟨rest, logged, silent, data⟩ := still.log
    obtain rfl : more = rest := List.append_cancel_left (grows.trans logged)
    obtain ⟨placed, framed, outcome⟩ := pieces silent
    rw [framed]
    rcases outcome with ⟨waiting, -, rfl⟩ | ⟨entries, rfl, answers⟩
    · exact .waits y.session present (still.awaiting waiting (later.invariant.lived id _ present).sound) data
    · have spent : Spent id after :=
        ⟨born, fun t alive => Option.some.inj (present.symm.trans alive) ▸ ⟨still.done, still.settled⟩⟩
      exact answers.reading control spent data
  · rw [mine] at log
    have spent : Spent id after := ⟨born, fun t alive => by cases gone.symm.trans alive⟩
    cases finishes with
    | unread unread =>
      rw [unread] at log
      obtain rfl : [.release y.session] = grown := List.append_cancel_left log
      exact absurd rfl arrived
    | reading releases =>
      exact releases_pieces control releases log awaiting idle fine flushed spent gone
    | @writing z returns grows behind =>
      obtain ⟨more, grows⟩ := grows
      have whole : z.log ++ (more ++ [.release y.session]) = own.log ++ grown := by rw [← List.append_assoc, grows, log]
      obtain ⟨settled, pieces⟩ := returns_pieces control returns whole awaiting idle flushed
      obtain ⟨taken, rest, logged, silent, data⟩ := behind settled
      obtain rfl : more = rest := List.append_cancel_left (grows.trans logged)
      obtain ⟨placed, framed, outcome⟩ := pieces (by rw [chunks_append, silent]; rfl)
      rcases outcome with ⟨waiting, slot, rfl⟩ | ⟨entries, rfl, answers⟩
      · exact absurd ⟨waiting.open_, slot⟩ taken
      · rw [framed]
        exact answers.reading control spent (by simpa using data)

/-! Runs. -/

private theorem hears_replies {placed : List (Nat × Bytes)} (control : IsControl frame)
    (hears : Hears id w reads placed) (inv : Invariant config True w) (alive : w.session? id = some s)
    (awaiting : Awaiting config frame front reads.flatten s) :
    ofOpcode (replyTo frame.opcode) placed = [(replyTo frame.opcode, frame.payload)] ↔
    Unsplit frame.payload.length front.length reads := by
  have size := encode_length control.formed control.short
  induction hears generalizing front s with
  | whole w =>
    have all := awaiting.split
    rw [List.flatten_nil, List.append_nil] at all
    have early := awaiting.early
    rw [← all, size, lead] at early
    split at early
    · omega
    next some_ => exact absurd (List.length_pos_iff.mpr some_) (by omega)
  | deaf reads shut => exact absurd awaiting.open_ (shut s alive)
  | @between w env call grown reads placed enabled log silent lives onward ih =>
    have later : Later config True w (w.after env call) := step_advances inv enabled
    have quiet : received .client grown = [] := by rw [← chunks_flatten, silent, List.flatten_nil]
    obtain ⟨data, kept⟩ := fate_still (later.advance.live id s alive) awaiting.done awaiting.settled log quiet
    obtain ⟨t, present⟩ := Option.ne_none_iff_exists'.mp (lives s alive awaiting.open_)
    have waiting := (kept t present).awaiting awaiting (later.invariant.lived id t present).sound
    rw [ofOpcode_append, ofOpcode_data control data, List.nil_append]
    exact ih later.invariant present waiting
  | @read w env events grown reads placed enabled log arrived fine idle flushed onward ih =>
    rw [List.flatten_append] at awaiting
    have later : Later config True w (w.after env (.client id events)) := step_advances inv enabled
    rw [ofOpcode_append]
    cases event_reads control inv enabled alive awaiting (idle s alive) log arrived fine flushed with
    | waits t present waiting data =>
      have early := waiting.early.trans (lead_le frame)
      rw [List.length_append] at early
      rw [ofOpcode_data control data, List.nil_append]
      apply (ih later.invariant present waiting).trans
      rw [unsplit_append, List.length_append]
      exact (and_iff_right (unsplit_early early)).symm
    | decides first last cut before begun spent outcome =>
      have total : front.length + first.flatten.length + last.length =
          (front ++ (chunks .client grown).flatten).length := by
        simp [cut, Nat.add_assoc]
      have sizes := congrArg List.length awaiting.split
      rw [size, ← List.append_assoc, List.length_append] at sizes
      obtain ⟨least, some_⟩ := lead_begun begun
      have decided : Unsplit frame.payload.length front.length (chunks .client grown ++ reads) ↔
          frame.payload.length ≤ (front ++ (chunks .client grown).flatten).length - 6 := by
        rw [cut, List.append_assoc, ← cut, ← total]
        exact unsplit_decided (before.trans (lead_le frame)) (total ▸ least) (total ▸ some_)
      rw [decided]
      rcases outcome with reply | ⟨inside, gone, silent⟩
      · rw [reply]
        by_cases ends : frame.payload.length ≤ (front ++ (chunks .client grown).flatten).length - 6
        · have nothing : reads.flatten = [] := List.length_eq_zero_iff.mp (by omega)
          rw [ofOpcode_data control (hears_spent onward later.invariant spent (.inl nothing)),
            List.take_of_length_le ends]
          exact iff_of_true rfl ends
        · refine iff_of_false (fun same => ends ?_) ends
          have first := congrArg List.length (Prod.mk.inj (List.cons.inj same).1).2
          rw [List.length_take] at first
          omega
      · rw [silent, ofOpcode_data control (hears_spent onward later.invariant spent (.inr gone))]
        exact iff_of_false (fun impossible => by cases impossible) (by omega)

/-- A PING or a CLOSE that an open session starts to read is answered by one frame
with the payload of its own exactly when no read ends within its payload. -/
theorem control_answered_whole {placed : List (Nat × Bytes)} (reachable : Reachable config w)
    (alive : w.session? id = some s) (open_ : s.handshakeDone = true ∧ s.closing = .no)
    (between : s.wsParser.state = .header1) (formed : frame.WellFormed)
    (kind : frame.opcode = Opcode.ping ∨ frame.opcode = Opcode.close) (hears : Hears id w reads placed)
    (whole : reads.flatten = frame.encode) :
    ofOpcode (replyTo frame.opcode) placed = [(replyTo frame.opcode, frame.payload)] ↔
    Unsplit frame.payload.length 0 reads := by
  have inv := reachable_invariant reachable
  have sound := (inv.lived id s alive).sound
  have control : frame.isControl := by
    rcases kind with ping | close
    · simp [ClientFrame.isControl, ping, Opcode.ping]
    · simp [ClientFrame.isControl, close, Opcode.close]
  have rests : Rests _ s.wsParser := ⟨sound.parser, between, rfl⟩
  have sequence : ClientFrame.Sequence (decide (s.wsParser.fragmentedOpcode ≠ 0)) [frame] :=
    ⟨formed, .inl control, trivial⟩
  have takes : Takes (· = frame.opcode) s.wsParser reads.flatten :=
    sequence_takes rests sequence (by simp) (by simp [whole])
  have place : cursor s.wsParser = start.advance [] := by simp [cursor, between, start, seen]
  exact hears_replies ⟨formed, (formed.control control).2, kind⟩ hears inv alive
    ⟨sound, open_.1, open_.2, whole.symm, Nat.zero_le _, place, takes⟩

def added (id : SessionId) (w : World) (env : Env) (call : Call) : List Io :=
  ((w.after env call).log id).drop (w.log id).length

private theorem flushed_first (silent : chunks .client grown.tail = []) : Flushed grown := by
  intro before after split reads
  cases before with
  | nil => rfl
  | cons first rest =>
    rw [split, List.cons_append, List.tail_cons, chunks_append, List.append_eq_nil_iff] at silent
    exact absurd silent.2 reads

/-- An event that reads once, from an idle slot, and places these frames. -/
def ReadsOnce (id : SessionId) (w : World) (env : Env) (events : Events) (bytes : Bytes)
    (placed : List (Nat × Bytes)) : Prop :=
  (Call.client id events).Enabled w ∧
  (w.after env (.client id events)).log id = w.log id ++ added id w env (.client id events) ∧
  (chunks .client (added id w env (.client id events)) = [bytes] ∧
    chunks .client (added id w env (.client id events)).tail = []) ∧
  frames (added id w env (.client id events)) = placed ∧
  (∀ entry ∈ added id w env (.client id events), healthy entry = true) ∧ ∀ s ∈ w.session? id, Idle s

instance (id : SessionId) (w : World) (env : Env) (events : Events) (bytes : Bytes) (placed : List (Nat × Bytes)) :
    Decidable (ReadsOnce id w env events bytes placed) := inferInstanceAs (Decidable (_ ∧ _ ∧ _ ∧ _ ∧ _ ∧ _))

theorem ReadsOnce.hears {placed later : List (Nat × Bytes)}
    (once : ReadsOnce id w env events bytes placed)
    (onward : Hears id (w.after env (.client id events)) reads later) :
    Hears id w (bytes :: reads) (placed ++ later) := by
  obtain ⟨enabled, log, ⟨arrived, silent⟩, rfl, fine, idle⟩ := once
  have heard := Hears.read enabled log (by simp [arrived]) fine idle (flushed_first silent) onward
  rwa [arrived] at heard

/-- A session that is open, between two frames, with an idle slot. -/
theorem flushed_open :
    Reachable (sampleConfig 64) flushed ∧
    ∃ s, flushed.session? 0 = some s ∧ (s.handshakeDone = true ∧ s.closing = .no) ∧
    s.wsParser.state = .header1 ∧ Idle s := by
  obtain ⟨reachable, present, state⟩ : Reachable (sampleConfig 64) flushed ∧ flushed.session? 0 ≠ none ∧
      ∀ s ∈ flushed.session? 0, (s.handshakeDone = true ∧ s.closing = .no) ∧ s.wsParser.state = .header1 ∧ Idle s :=
    And.imp_left (Runs.next_of (opened_runs trivial trivial) trivial) (by decide +kernel)
  obtain ⟨s, alive⟩ := Option.ne_none_iff_exists'.mp present
  exact ⟨reachable, s, alive, state s alive⟩

/-- A PING of two bytes that arrives in two reads, the first of which ends in its header. -/
theorem control_answered_whole_header : ∃ placed, Hears 0 flushed [[137, 130, 0], [0, 0, 0, 1, 2]] placed ∧
    ofOpcode Opcode.pong placed = [(Opcode.pong, [1, 2])] := by
  obtain ⟨reachable, s, alive, open_, between, -⟩ := flushed_open
  obtain ⟨first, last⟩ : ReadsOnce 0 flushed (oneRead [137, 130, 0]) .reading [137, 130, 0] [] ∧
      ReadsOnce 0 (flushed.after (oneRead [137, 130, 0]) (.client 0 .reading))
        (oneRead [0, 0, 0, 1, 2]) .reading [0, 0, 0, 1, 2]
        [(Opcode.pong, [1, 2])] := by decide +kernel
  let frame : ClientFrame := ⟨true, Opcode.ping, [0, 0, 0, 0], [1, 2]⟩
  have formed : frame.WellFormed := by decide
  have hears := first.hears (last.hears (.whole _))
  exact ⟨_, hears,
    (control_answered_whole reachable alive open_ between formed (.inl rfl) hears (by decide)).mpr (by decide)⟩

/-- The same PING with its payload in two reads, the output flushed in between. -/
theorem split_ping_answered_twice : (sampleConfig 64).Accepted ∧ Reachable (sampleConfig 64) flushed ∧
    ∃ (s : Session) (frame : ClientFrame), flushed.session? 0 = some s ∧
      (s.handshakeDone = true ∧ s.closing = .no) ∧ s.wsParser.state = .header1 ∧ Idle s ∧
      frame.WellFormed ∧ frame.opcode = Opcode.ping ∧
      frame.payload = [1, 2] ∧ frame.encode = [[137, 130, 0, 0, 0, 0, 1], [2]].flatten ∧
      Hears 0 flushed [[137, 130, 0, 0, 0, 0, 1], [2]] [(Opcode.pong, [1]), (Opcode.pong, [2])] ∧
      ofOpcode (replyTo frame.opcode)
      [(Opcode.pong, [1]), (Opcode.pong, [2])] ≠ [(replyTo frame.opcode, frame.payload)] := by
  obtain ⟨reachable, s, alive, open_, between, idle⟩ := flushed_open
  let frame : ClientFrame := ⟨true, Opcode.ping, [0, 0, 0, 0], [1, 2]⟩
  let answered : World := flushed.after (oneRead [137, 130, 0, 0, 0, 0, 1]) (.client 0 .reading)
  let empties : Env := .scripted [] true 4096
  obtain ⟨first, last, enabled, log, silent, placed, lives⟩ :
      ReadsOnce 0 flushed (oneRead [137, 130, 0, 0, 0, 0, 1]) .reading [137, 130, 0, 0, 0, 0, 1] [(Opcode.pong, [1])] ∧
      ReadsOnce 0 (answered.after empties (.client 0 .writing)) (oneRead [2]) .reading [2] [(Opcode.pong, [2])] ∧
      (Call.client 0 .writing).Enabled answered ∧
      (answered.after empties (.client 0 .writing)).log 0 =
        answered.log 0 ++ added 0 answered empties (.client 0 .writing) ∧
      chunks .client (added 0 answered empties (.client 0 .writing)) = [] ∧
        frames (added 0 answered empties (.client 0 .writing)) = [] ∧
      (answered.after empties (.client 0 .writing)).session? 0 ≠ none := by decide +kernel
  have flushes := Hears.between enabled log silent (fun _ _ _ => lives) (last.hears (.whole _))
  rw [placed] at flushes
  exact ⟨by decide, reachable, s, frame, alive, open_, between, idle, by decide, rfl, rfl, by decide,
    first.hears flushes, by decide⟩

end Sockify.Proofs.ControlReplies
