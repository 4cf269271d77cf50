import Sockify.Proofs.CloseReads
import Sockify.Proofs.ClosingHandshake
import Sockify.Proofs.TargetEndings
import Sockify.Proofs.TargetStream
import Sockify.Proofs.UpgradeSegmentation

/-! The release that ends a close does not wait for the target. What is lost
then is what `client_to_target` held before the event, and the data that the
event itself brought in front of the CLOSE. -/

namespace Sockify.Proofs.GracefulClose
open Sockify Behaviour Framing Streams BufferQueue ParserCursor Soundness Simulation Lifetimes Changes
  TargetEndings ClosingHandshake TargetStream
open ClientStream CloseReads

/-- All that the client sent behind its request was parsed or is in hand. -/
structure Heeded (m : Moment) : Prop where
  bytes : delivered .target m.log ++ contents m.session.clientToTarget = dataOf (start.signals (fed m.log))
  early : m.session.handshakeDone = false → fed m.log = []
  late : m.session.handshakeDone = true → (∀ lost, .abandoned lost ∉ m.log) → ∃ request consumed rest,
    request <+: received .client m.log ∧ consumed ≤ request.length ∧
    wsBuildHandshakeResponse request 256 = .ok (responses m.log, consumed) ∧
    (received .client m.log).drop consumed = fed m.log ++ rest ∧ (m.session.closing = .no → rest = m.hand)

/-- The record of a session that was released at the end of a close. -/
structure CloseEnded (log past : List Io) (t : Session) : Prop where
  log : log = past ++ [.release t]
  closing : t.closing = .started
  sent : ¬ t.clientOutPos < t.clientOutLen
  heard : CloseHeard past

/-- The target has accepted all the data that the client sent in front of its CLOSE. -/
structure Forwarded (past : List Io) (t : Session) : Prop where
  empty : contents t.clientToTarget = []
  accepted : ∃ request consumed, request <+: received .client past ∧
    wsBuildHandshakeResponse request 256 = .ok (responses past, consumed) ∧
    delivered .target past = dataOf (start.signals ((received .client past).drop consumed))

/-- No session that the end of a close has released has lost any data of its client. -/
def Graceful (w : World) : Prop := ∀ id past t, CloseEnded (w.log id) past t → Forwarded past t

/-- The CLOSE is answered to the session's next reads, with no data in front of it. -/
def Unladen (env : Env) (s : Session) : Prop :=
  ∃ answered, Answers env s.clientTransport (readLimit s) 0 answered ∧
    closed ((cursor s.wsParser).signals answered.flatten) = true ∧
    dataOf ((cursor s.wsParser).signals answered.flatten) = []

/-- The event that ends a close finds nothing on its way to the target, and the
CLOSE, if it is still to come, comes without data. -/
def Drained (w : World) (env : Env) (call : Call) : Prop :=
  ∀ id events s past t, call = .client id events →
    w.session? id = some s → CloseEnded ((w.after env call).log id) past t →
    contents s.clientToTarget = [] ∧ (s.closing = .no → Unladen env s)

/-- No byte behind an upgrade request was given up for want of room. -/
def Unabandoned (w : World) : Prop := ∀ id lost, .abandoned lost ∉ w.log id

variable {config : Config} {early : Prop} {w : World} {env : Env} {id : SessionId} {m n : Moment} {s t u : Session}
variable {l l' log past more : List Io} {h h' : Bytes}

private theorem granted_within {request response : Bytes} {consumed : Nat}
    (granted : wsBuildHandshakeResponse request 256 = .ok (response, consumed)) :
    consumed ≤ request.length := by
  have found := UpgradeSegmentation.build_position granted
  unfold findHeaderEnd at found
  split at found
  · cases found
  · split at found
    next header position =>
      cases found
      have bounds := UpgradeSegmentation.headerEndFrom_bounds position
      omega
    · cases found

/-- A step that takes nothing from the client and parses nothing. -/
theorem Heeded.still (more : List Io) (heeded : Heeded ⟨s, l, h⟩)
    (done : t.handshakeDone = s.handshakeDone) (logged : l' = l ++ more)
    (reads : received .client more = []) (parses : fed more = []) (silent : responses more = [])
    (bytes : delivered .target more ++ contents t.clientToTarget = contents s.clientToTarget)
    (hand : s.handshakeDone = true → t.closing = .no → s.closing = .no ∧ h' = h) : Heeded ⟨t, l', h'⟩ where
  bytes := by
    have before : delivered .target l ++ contents s.clientToTarget = dataOf (start.signals (fed l)) := heeded.bytes
    rw [← bytes] at before
    simpa [logged, parses] using before
  early := fun unfinished => by simpa [logged, parses] using heeded.early (done ▸ unfinished)
  late := fun finished kept => by
    have finished : s.handshakeDone = true := done ▸ finished
    obtain ⟨request, consumed, rest, sofar, within, granted, behind, inHand⟩ := heeded.late finished
      (fun lost member => kept lost (by simp [logged, show .abandoned lost ∈ l from member]))
    refine ⟨request, consumed, rest, ?_, within, ?_, ?_, fun open_ => ?_⟩
    · simpa [logged, reads] using sofar
    · simpa [logged, silent] using granted
    · simpa [logged, reads, parses] using behind
    · obtain ⟨before, same⟩ := hand finished open_
      exact (inHand before).trans same.symm

/-- A call of the parser. -/
theorem Heeded.fed (data : Bytes) {used : Nat} {extra : List Io} (heeded : Heeded ⟨s, l, h⟩)
    (place : cursor s.wsParser = start.advance (fed l))
    (unclosed : closed (start.signals (fed l)) = false) (open_ : s.closing = .no)
    (done : s.handshakeDone = true) (finished : t.handshakeDone = true)
    (heard : dataOf ((cursor s.wsParser).signals (h.take used)) = data)
    (stored : contents t.clientToTarget = contents s.clientToTarget ++ data)
    (reads : received .client extra = []) (parses : Streams.fed extra = [])
    (silent : responses extra = []) (sends : delivered .target extra = []) :
    Heeded ⟨t, l ++ .feed (h.take used) :: extra, h.drop used⟩ where
  bytes := by
    have before : delivered .target l ++ contents s.clientToTarget = dataOf (start.signals (Streams.fed l)) :=
      heeded.bytes
    simp only [fed_append, fed_cons, parsed, parses, List.append_nil]
    rw [dataOf_fed _ unclosed, ← place, heard, ← before, stored]
    simp [sends]
  early := fun unfinished => absurd finished (by simp [show t.handshakeDone = false from unfinished])
  late := fun _ kept => by
    obtain ⟨request, consumed, rest, sofar, within, granted, behind, inHand⟩ := heeded.late done
      (fun lost member => kept lost (List.mem_append_left _ member))
    refine ⟨request, consumed, h.drop used, ?_, within, ?_, ?_, fun _ => rfl⟩
    · simpa [reads] using sofar
    · simpa [silent] using granted
    · have rest : rest = h := inHand open_
      rw [rest] at behind
      simpa [reads, parses] using behind

/-- What the moments of a session keep together. -/
structure Attended (config : Config) (m : Moment) : Prop where
  outgoing : Outgoing config m
  answering : Answering m
  heeded : Heeded m

private theorem heeded_readsClient (attended : Attended config ⟨s, l, h⟩)
    (act : ReadsClient early ⟨s, l, h⟩ ⟨t, l', h'⟩) : Heeded ⟨t, l', h'⟩ := by
  obtain ⟨outgoing, answering, heeded⟩ := attended
  have sound : Sound config s := outgoing.sound
  have place : cursor s.wsParser = start.advance (fed l) := answering.place
  have unclosed : s.closing = .no → closed (start.signals (fed l)) = false := by
    intro open_
    simpa [CloseHeard] using answering.open_unheard open_
  cases act with
  | touched => exact heeded.still [] rfl (by simp) rfl rfl rfl rfl fun _ open_ => ⟨open_, rfl⟩
  | refused => exact heeded.still _ rfl rfl (by simp) (by simp) (by simp) (by simp) fun _ open_ => ⟨open_, rfl⟩
  | received bytes ready open_ nonempty fits =>
    refine ⟨by simpa using heeded.bytes, by simpa using heeded.early, fun done kept => ?_⟩
    obtain ⟨request, consumed, rest, sofar, within, granted, behind, inHand⟩ := heeded.late done
      (fun lost member => kept lost (List.mem_append_left _ member))
    have none : rest = [] := inHand open_
    refine ⟨request, consumed, h', ?_, within, by simpa using granted, ?_, fun _ => rfl⟩
    · simpa using sofar.trans (List.prefix_append _ h')
    · have long : consumed ≤ (received .client l).length := within.trans sofar.length_le
      simp only at behind
      simp [List.drop_append_of_le_length long, behind, none]
  | gathered unfinished =>
    exact heeded.still [] rfl (by simp) rfl rfl rfl rfl fun done => absurd done (by simp [unfinished])
  | accepted response consumed fd inProgress time unfinished open_ ready granted =>
    obtain ⟨silent, -, gathered⟩ := outgoing.early unfinished
    have unparsed : fed l = [] := heeded.early unfinished
    simp only [List.append_nil] at gathered
    refine ⟨by simpa [upgraded, fill] using heeded.bytes, fun finished => by simp [upgraded] at finished, fun _ _ => ?_⟩
    refine ⟨s.handshake, consumed, _, ?_, granted_within granted, ?_, ?_, fun _ => rfl⟩
    · simp [gathered]
    · simpa [show responses l = [] from silent] using granted
    · simp [gathered, unparsed]
  | parsed result done open_ room fed again =>
    have spec := wsParserFeed_fed (Nat.pos_of_ne_zero room) h sound.parser
    rw [fed, Fed, again] at spec
    obtain ⟨used, exhausted⟩ := spec
    have all : h.take result.used = h := List.take_of_length_le (by omega)
    refine heeded.fed [] place (unclosed open_) open_ done done ?_ (by simp) rfl rfl rfl rfl
    rw [all, exhausted.signals, dataOf_quiet]
  | handled result msg done open_ room fed delivered effect =>
    have spec := wsParserFeed_fed (Nat.pos_of_ne_zero room) h sound.parser
    rw [fed, Fed, delivered] at spec
    obtain ⟨used, total, delivers⟩ := spec
    obtain rfl : result.used = used := by omega
    obtain ⟨silent, signals⟩ := delivers.signals
    have heard : dataOf ((cursor s.wsParser).signals (h.take result.used)) =
        if msg.opcode ≤ 2 then msg.payload else [] := by
      rw [signals, dataOf_append, dataOf_quiet, closed_quiet, dataOf_delivery]
      rfl
    cases effect with
    | stored data fits =>
      obtain ⟨-, -, stored⟩ := bufferWrite_fits sound.clientToTarget.valid fits
      rw [if_pos ((isData_iff _).mp data)] at heard
      exact heeded.fed _ place (unclosed open_) open_ done done heard stored (by simp) (by simp) (by simp) (by simp)
    | ponged frame ping idle written =>
      exact heeded.fed _ place (unclosed open_) open_ done done heard
        (by simp [ping, Opcode.ping, fill]) (by simp) (by simp) (by simp) (by simp)
    | closeAnswered frame close idle written =>
      exact heeded.fed _ place (unclosed open_) open_ done done heard
        (by simp [close, Opcode.close, fill]) (by simp) (by simp) (by simp) (by simp)
    | closeHeld close busy =>
      exact heeded.fed _ place (unclosed open_) open_ done done heard (by simp [close, Opcode.close]) rfl rfl rfl rfl
    | ignored other =>
      have notData := other.1
      rw [isData_iff] at notData
      exact heeded.fed _ place (unclosed open_) open_ done done heard (by simp [notData]) rfl rfl rfl rfl
  | discarded closing =>
    exact heeded.still [] rfl (by simp) rfl rfl rfl rfl fun _ open_ => by rw [closing] at open_; cases open_
  | abandoned some_ open_ full =>
    refine ⟨by simpa using heeded.bytes, by simpa using heeded.early, fun _ kept => ?_⟩
    exact absurd (List.mem_append_right l (List.mem_singleton_self _)) (kept h)
  | cleared done => exact heeded.still [] rfl (by simp) rfl rfl rfl rfl fun _ open_ => ⟨open_, rfl⟩

private theorem heeded_writesClient (heeded : Heeded ⟨s, l, h⟩)
    (act : WritesClient ⟨s, l, h⟩ ⟨t, l', h'⟩) : Heeded ⟨t, l', h'⟩ := by
  cases act with
  | touched | emptied => exact heeded.still [] rfl (by simp) rfl rfl rfl rfl fun _ open_ => ⟨open_, rfl⟩
  | _ => exact heeded.still _ rfl rfl (by simp) (by simp) (by simp) (by simp [fill]) fun _ open_ => ⟨open_, rfl⟩

private theorem heeded_actsTarget (sound : Sound config s) (heeded : Heeded ⟨s, l, h⟩)
    (act : ActsTarget config early ⟨s, l, h⟩ ⟨t, l', h'⟩) :
    Heeded ⟨t, l', h'⟩ := by
  have valid : Valid s.clientToTarget := sound.clientToTarget.valid
  cases act with
  | touched => exact heeded.still [] rfl (by simp) rfl rfl rfl rfl fun _ open_ => ⟨open_, rfl⟩
  | sent count transfers fits =>
    refine heeded.still _ rfl rfl (by simp) (by simp) (by simp) ?_ fun _ open_ => ⟨open_, rfl⟩
    obtain ⟨-, -, dropped, -⟩ := bufferConsume_spec valid count
    rw [bufferPeek_spec valid, List.length_take] at fits
    simp only [delivered_cons, given, if_pos, delivered_nil, List.append_nil]
    rw [dropped, bufferPeek_spec valid, List.take_take, Nat.min_eq_left (by omega), List.take_append_drop]
  | _ => exact heeded.still _ rfl rfl (by simp) (by simp) (by simp) (by simp) fun _ open_ => ⟨open_, rfl⟩

private theorem attended_acts (attended : Attended config m) (act : Acts config early m n) : Attended config n where
  outgoing := outgoing_acts attended.outgoing act
  answering := answering_acts attended.outgoing.sound attended.answering act
  heeded := by
    rcases act with ⟨_, ⟨-, reads⟩ | ⟨-, writes⟩ | secures⟩ | target
    · exact heeded_readsClient attended reads
    · exact heeded_writesClient attended.heeded writes
    · cases secures <;> exact attended.heeded.still _ rfl rfl (by simp) (by simp) (by simp) (by simp)
        fun _ open_ => ⟨open_, rfl⟩
    · exact heeded_actsTarget attended.outgoing.sound attended.heeded target

private theorem attended_created (created : Creation.Created config s) : Attended config ⟨s, [], []⟩ where
  outgoing := outgoing_created created
  answering := answering_created created
  heeded := by
    have sized := Creation.sessionBuffer_sized config
    refine ⟨?_, fun _ => rfl, fun done => absurd done (by simp [created.handshake.2])⟩
    simp [created.buffers.1, (contents_eq_nil sized.1.valid).mpr sized.2, Cursor.signals, dataOf]

theorem Lived.attended (lived : Lived config early s l) : Attended config ⟨s, l, []⟩ := by
  obtain ⟨first, created, path⟩ := lived.path
  exact path_keeps _ (fun _ _ => attended_acts) (attended_created created) path

/-! The release that ends a close. -/

def Unreleased (log : List Io) : Prop := ∀ t, .release t ∉ log

private theorem unreleased_acts (before : Unreleased m.log) (act : Acts config early m n) : Unreleased n.log := by
  rcases act with ⟨_, ⟨-, reads⟩ | ⟨-, writes⟩ | secures⟩ | target
  · cases reads with
    | handled result msg done open_ room fed delivered effect => cases effect <;> simpa [Unreleased] using before
    | _ => simpa [Unreleased] using before
  · cases writes <;> simpa [Unreleased] using before
  · cases secures <;> simpa [Unreleased] using before
  · cases target <;> simpa [Unreleased] using before

theorem Lived.unreleased (lived : Lived config early s l) : Unreleased l := by
  obtain ⟨first, created, path⟩ := lived.path
  exact path_keeps (fun m => Unreleased m.log) (fun _ _ => unreleased_acts) (by simp [Unreleased]) path

theorem CloseEnded.released (ended : CloseEnded (log ++ [.release t]) past u) : log = past ∧ t = u := by
  obtain ⟨same, last⟩ := List.append_inj' ended.log rfl
  exact ⟨same, by simpa using last⟩

theorem CloseEnded.unsettled (ended : CloseEnded log past t) : ¬ Settled t :=
  fun settled => ended.sent (settled ended.closing)

/-- What a client event that ends a close adds to what is on its way to the target. -/
theorem path_gained {events : Events} (sound : Sound config s) (done : s.handshakeDone = true)
    (path : Path (ActsClient True events) ⟨s, l, []⟩ ⟨t, past, h⟩) (closing : t.closing = .started) :
    ∃ more, past = l ++ more ∧ fed more <+: received .client more ∧
      contents t.clientToTarget = contents s.clientToTarget ++ dataOf
        ((cursor s.wsParser).signals (received .client more)) := by
  have all : Path (Acts config True) ⟨s, l, []⟩ ⟨t, past, h⟩ :=
    Relation.ReflTransGen.mono (fun _ _ act => .inl ⟨events, act⟩) _ _ path
  obtain ⟨more, rest, incoming⟩ := path_underway sound done all
  have log : past = l ++ more := incoming.log
  have sends : delivered .target past = delivered .target l :=
    path_keeps (fun m => delivered .target m.log = delivered .target l)
      (fun _ _ same act => (delivered_actsClient act).trans same) rfl path
  have bytes := incoming.bytes
  simp only [sends, List.append_assoc, List.append_cancel_left_eq] at bytes
  refine ⟨more, log, ⟨rest, incoming.reads.symm⟩, ?_⟩
  rw [bytes, incoming.reads]
  rcases incoming.ended closing with none | shut
  · rw [none, List.append_nil]
  · rw [Cursor.signals_append, dataOf_append, shut, if_pos rfl, List.append_nil]

/-- Whatever was read has been accepted by the target or is on its way. -/
theorem Attended.forwarded (attended : Attended config ⟨s, past, h⟩) (closing : s.closing = .started)
    (heard : CloseHeard past) (kept : ∀ lost, .abandoned lost ∉ past)
    (empty : contents s.clientToTarget = []) : ∃ request consumed, request <+: received .client past ∧
      wsBuildHandshakeResponse request 256 = .ok (responses past, consumed) ∧
      delivered .target past = dataOf (start.signals ((received .client past).drop consumed)) := by
  obtain ⟨request, consumed, rest, sofar, -, granted, behind, -⟩ :=
    attended.heeded.late (attended.outgoing.sound.upgraded_of_closing closing) kept
  refine ⟨request, consumed, sofar, granted, ?_⟩
  have bytes := attended.heeded.bytes
  simp only [empty, List.append_nil] at bytes
  rw [bytes, behind, Cursor.signals_append, dataOf_append, heard, if_pos rfl, List.append_nil]

/-- How a record comes to show the end of a close. -/
theorem ended_cases {call : Call} (reachable : Reachable config w) (enabled : call.Enabled w)
    (ended : CloseEnded ((w.after env call).log id) past t) :
    (w.after env call).log id = w.log id ∨
    ∃ events s more, call = .client id events ∧
      w.session? id = some s ∧ s.handshakeDone = true ∧ past = w.log id ++ more ∧
      fed more <+: received .client more ∧ contents t.clientToTarget = contents s.clientToTarget ++ dataOf
        ((cursor s.wsParser).signals (received .client more)) ∧
      ((∀ lost, .abandoned lost ∉ past) → contents t.clientToTarget = [] → Forwarded past t) := by
  have inv := reachable_invariant reachable
  have change := step_changes env inv enabled id
  generalize found : (w.after env call).session? id = state at change
  generalize logged : (w.after env call).log id = log at change ended
  cases change with
  | aside aside =>
    cases aside with
    | still => exact .inl rfl
    | expired alive =>
      obtain ⟨-, rfl⟩ := ended.released
      exact absurd (inv.lived id _ alive).settled ended.unsettled
    | born =>
      have layout := ended.log
      simp at layout
    | stillborn =>
      obtain ⟨rfl, -⟩ := CloseEnded.released (show CloseEnded ([] ++ [_]) past t from ended)
      have heard := ended.heard
      simp [CloseHeard, Cursor.signals, closed] at heard
  | client same alive fate =>
    have lived := inv.lived id _ alive
    cases fate with
    | kept path =>
      have all : Path (Acts config True) _ _ := Relation.ReflTransGen.mono (fun _ _ act => .inl ⟨_, act⟩) _ _ path
      have unreleased : Unreleased log :=
        path_keeps (fun m => Unreleased m.log) (fun _ _ => unreleased_acts) (Lived.unreleased lived) all
      exact absurd (by simp [ended.log]) (unreleased t)
    | released path ending =>
      obtain ⟨rfl, rfl⟩ := ended.released
      have closing := ended.closing
      cases ending with
      | here open_ | unparsed bytes open_ still | unstarted response reply open_ still => simp_all
      | interrupted busy => exact absurd (busy closing) ended.sent
      | drained closing answered sent before =>
        obtain ⟨more, front, parses, bytes⟩ := path_gained lived.sound before path closing
        have all : Path (Acts config True) _ _ := Relation.ReflTransGen.mono (fun _ _ act => .inl ⟨_, act⟩) _ _ path
        have attended : Attended config _ := path_keeps _ (fun _ _ => attended_acts) (Lived.attended lived) all
        exact .inr ⟨_, _, more, same, alive, before, front, parses, bytes, fun kept empty =>
          ⟨empty, attended.forwarded closing ended.heard kept empty⟩⟩
  | @target events s state log same alive fate =>
    subst same
    have lived := inv.lived id s alive
    obtain ⟨-, releases⟩ := target_reading env events inv alive (reachable_unended reachable alive)
    cases fate with
    | kept path =>
      have all : Path (Acts config True) _ _ := Relation.ReflTransGen.mono (fun _ _ => .inr) _ _ path
      have unreleased : Unreleased log :=
        path_keeps (fun m => Unreleased m.log) (fun _ _ => unreleased_acts) (Lived.unreleased lived) all
      exact absurd (by simp [ended.log]) (unreleased t)
    | released path ending =>
      obtain ⟨front, u, layout, settled⟩ := releases found
      rw [logged] at layout
      rw [layout] at ended
      obtain ⟨-, rfl⟩ := ended.released
      exact absurd settled ended.unsettled

/-- What the last event of a close reads carries data unless the CLOSE comes without. -/
theorem dataless_iff {events : Events} (inv : Invariant config True w)
    (present : w.session? id = some s) (done : s.handshakeDone = true)
    (ended : CloseEnded ((w.after env (.client id events)).log id) (w.log id ++ more) t)
    (parses : fed more <+: received .client more) :
    dataOf ((cursor s.wsParser).signals (received .client more)) = [] ↔ (s.closing = .no → Unladen env s) := by
  have log : (w.after env (.client id events)).log id = w.log id ++ (more ++ [.release t]) := by
    rw [ended.log, List.append_assoc]
  obtain ⟨shut, follows⟩ := event_follows env events inv present done log
  have same : chunks .client (more ++ [.release t]) = chunks .client more := by simp
  rw [same] at shut follows
  rw [← chunks_flatten]
  constructor
  · intro dataless open_
    have answering := (Lived.attended (inv.lived id s present)).answering
    have heard := ended.heard
    have unclosed : closed (start.signals (fed (w.log id))) = false := by
      simpa [CloseHeard] using answering.open_unheard open_
    rw [CloseHeard, fed_append, Cursor.signals_append,
      closed_append, unclosed, Bool.false_or, ← answering.place] at heard
    obtain ⟨rest, reads⟩ := parses
    refine ⟨chunks .client more, follows.answers dataless, ?_, dataless⟩
    rw [chunks_flatten, ← reads, Cursor.signals_append, closed_append, heard, Bool.true_or]
  · intro unladen
    by_cases open_ : s.closing = .no
    · obtain ⟨answered, answers, heard, dataless⟩ := unladen open_
      exact follows.dataless answers heard dataless
    · rw [shut open_]
      rfl

/-- What one callback keeps, and when. -/
theorem step_graceful {call : Call} (reachable : Reachable config w) (enabled : call.Enabled w)
    (kept : Unabandoned (w.after env call)) (graceful : Graceful w) :
    Graceful (w.after env call) ↔ Drained w env call := by
  have inv := reachable_invariant reachable
  constructor
  · intro after id events s past t same present ended
    rcases ended_cases reachable enabled ended with still | ⟨events', s', more, -, alive, done, rfl, parses, bytes, -⟩
    · rw [still] at ended
      exact absurd (by rw [ended.log]; simp) (Lived.unreleased (inv.lived id s present) t)
    · obtain rfl : s = s' := by simpa [present] using alive
      subst same
      have empty := (after id _ t ended).empty
      rw [bytes, List.append_eq_nil_iff] at empty
      exact ⟨empty.1, (dataless_iff inv present done ended parses).mp empty.2⟩
  · intro drained id past t ended
    rcases ended_cases reachable enabled ended
      with still | ⟨events, s, more, rfl, alive, done, rfl, parses, bytes, forwarded⟩
    · rw [still] at ended
      exact graceful id past t ended
    · obtain ⟨empty, unladen⟩ := drained id events s _ t rfl alive ended
      have nothing := (dataless_iff inv alive done ended parses).mpr unladen
      refine forwarded (fun lost member => kept id lost ?_) (by rw [bytes, empty, nothing]; rfl)
      rw [ended.log]
      exact List.mem_append_left _ member

/-- In every run whose closes end with nothing on its way to the target and no
more data brought by the last event, and in which no byte behind a request is
given up, no data in front of a CLOSE is lost; and no other event keeps it so. -/
theorem close_forwards {config : Config} :
    (∀ w, Runs (fun w env call => Drained w env call ∧ Unabandoned (w.after env call))
      (serverInit config) w → Graceful w) ∧
    ∀ w env call, Reachable config w → call.Enabled w → Unabandoned (w.after env call) → Graceful w →
      (Graceful (w.after env call) ↔ Drained w env call) := by
  constructor
  · intro w run
    apply runs_keep Graceful ?_ ?_ run
    · intro id past t ended
      have layout := ended.log
      simp [serverInit] at layout
    · exact fun w env call reachable enabled admitted graceful =>
        (step_graceful reachable enabled admitted.2 graceful).mpr admitted.1
  · exact fun w env call reachable enabled kept graceful => step_graceful reachable enabled kept graceful

/-- What came before the end of a close, and the session then released. -/
def closeEnd? (log : List Io) : Option (List Io × Session) :=
  match log.reverse with
  | .release t :: past =>
    if t.closing = .started ∧ ¬ t.clientOutPos < t.clientOutLen ∧ closed (start.signals (fed past.reverse)) = true
      then some (past.reverse, t) else none
  | _ => none

private theorem closeEnd?_ended (found : closeEnd? log = some (past, t)) : CloseEnded log past t := by
  unfold closeEnd? at found
  split at found
  next t' rest layout =>
    split at found
    next ends =>
      obtain ⟨rfl, rfl⟩ : rest.reverse = past ∧ t' = t := by simpa using found
      exact ⟨by rw [← List.reverse_reverse log, layout]; simp, ends.1, ends.2.1, ends.2.2⟩
    · cases found
  · cases found

def answeredClose : World :=
  let upgraded := (opened (sampleConfig 64) true).after (.scripted [] true 4096) (.client 0 .writing)
  let filled := upgraded.after (.scripted [.ok [130, 129, 0, 0, 0, 0, 9]] true 0) (.client 0 .reading)
  let emptied := filled.after (.scripted [] true 4096) (.target 0 .both)
  emptied.after (.scripted [.ok [136, 128, 0, 0, 0, 0]] true 0) (.client 0 .reading)

def shutDown : World := answeredClose.after (.scripted [] true 4096) (.client 0 .writing)

def abandons : Io → Bool
  | .abandoned _ => true
  | _ => false

/-- Sessions that were never created have no record. -/
theorem fresh_silent (reachable : Reachable config w) (one : w.nextId = 1) (other : id ≠ 0) : w.log id = [] := by
  apply ((reachable_invariant reachable).fresh id _).2
  rw [one]
  exact Nat.one_le_iff_ne_zero.mpr other

theorem close_forwards_shutDown :
    Graceful shutDown ∧ ∃ past t, CloseEnded (shutDown.log 0) past t ∧ delivered .target past = [9] := by
  obtain ⟨reachable, enabled, ⟨one, alive, empty⟩, two, kept, found⟩ :
      Reachable (sampleConfig 64) answeredClose ∧ (Call.client 0 .writing).Enabled answeredClose ∧
      (answeredClose.nextId = 1 ∧ answeredClose.session? 0 ≠ none ∧
        ∀ s ∈ answeredClose.session? 0, contents s.clientToTarget = [] ∧ s.closing ≠ .no) ∧
      shutDown.nextId = 1 ∧ (∀ io ∈ shutDown.log 0, abandons io = false) ∧
      (closeEnd? (shutDown.log 0)).any (fun ended => decide (delivered .target ended.1 = [9])) = true :=
    And.imp_left (Runs.next_of
      (Runs.next_of (Runs.next_of (Runs.next_of (opened_runs trivial trivial) trivial) trivial) trivial) trivial)
      (by decide +kernel)
  have later : Reachable (sampleConfig 64) shutDown := reachable.next _ _ trivial enabled
  have unabandoned : Unabandoned shutDown := by
    intro id lost member
    by_cases first : id = 0
    · have none := kept _ (first ▸ member)
      cases none
    · simp [fresh_silent later two first] at member
  have graceful : Graceful answeredClose := by
    intro id past t ended
    by_cases first : id = 0
    · obtain ⟨s, present⟩ := Option.ne_none_iff_exists'.mp alive
      have lived := (reachable_invariant reachable).lived 0 s present
      rw [first] at ended
      exact absurd (by rw [ended.log]; simp) (Lived.unreleased lived t)
    · have layout := ended.log
      simp [fresh_silent reachable one first] at layout
  have drained : Drained answeredClose (.scripted [] true 4096) (.client 0 .writing) := by
    intro id events s past t call present _
    cases call
    exact ⟨(empty s present).1, fun open_ => absurd open_ (empty s present).2⟩
  obtain ⟨⟨past, t⟩, found, sent⟩ := Option.any_eq_true _ _ |>.mp found
  have done := (close_forwards.2 answeredClose _ _ reachable enabled unabandoned graceful).mpr drained
  exact ⟨done, past, t, closeEnd?_ended found, of_decide_eq_true sent⟩

def fails : Io → Bool
  | .read _ _ _ (.error error) | .write _ _ _ (.error error) | .handshake _ _ (.error error) => decide (error ≠ .again)
  | _ => false

def cutOff : World := deferred.after (.scripted [] true 4096) (.client 0 .writing)

theorem close_loses :
    (sampleConfig 64).Accepted ∧ Runs (fun _ _ call => call ≠ .tick) (serverInit (sampleConfig 64)) cutOff ∧
    fed (cutOff.log 0) = [130, 129, 0, 0, 0, 0, 9, 136, 128, 0, 0, 0, 0] ∧
    (∀ io ∈ cutOff.log 0, fails io = false) ∧ ¬ Graceful cutOff := by
  obtain ⟨run, heard, fine, full⟩ : Runs (fun _ _ call => call ≠ .tick) (serverInit (sampleConfig 64)) cutOff ∧
      fed (cutOff.log 0) = [130, 129, 0, 0, 0, 0, 9, 136, 128, 0, 0, 0, 0] ∧ (∀ io ∈ cutOff.log 0, fails io = false) ∧
      (closeEnd? (cutOff.log 0)).any (fun ended => decide (contents ended.2.clientToTarget = [9])) = true :=
    And.imp_left (Runs.next_of (Runs.next_of (Runs.next_of (opened_runs nofun nofun) nofun) nofun) nofun)
      (by decide +kernel)
  refine ⟨by decide, run, heard, fine, fun graceful => ?_⟩
  obtain ⟨⟨past, t⟩, found, full⟩ := Option.any_eq_true _ _ |>.mp full
  have empty := (graceful 0 past t (closeEnd?_ended found)).empty
  simp [empty] at full

end Sockify.Proofs.GracefulClose
