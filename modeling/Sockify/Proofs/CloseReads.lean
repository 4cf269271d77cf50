import Sockify.Proofs.ClientReads
import Sockify.Proofs.ClientStream

/-! What a client event reads, told from the session that it finds and from what
`recv` answers, as long as nothing that it reads is stored. -/

namespace Sockify.Proofs.CloseReads
open Sockify Stateful Behaviour Streams BufferQueue Framing ParserCursor SessionLogic SessionSteps
  Soundness Simulation Lifetimes
open ClientStream Absorption ClientReads

/-- The answers from call `n` on, to reads that ask for the same. -/
def Answers (env : Env) (transport : Transport) (limit : Nat) : Nat → List Bytes → Prop
  | _, [] => True
  | n, bytes :: rest => transportRead env n transport limit = .ok bytes ∧ Answers env transport limit (n + 1) rest

/-- Reads that ask for the same until one of them has brought data or the CLOSE. -/
def Follows (env : Env) (transport : Transport) (limit : Nat) : Nat → Cursor → List Bytes → Prop
  | _, _, [] => True
  | n, place, bytes :: rest =>
    transportRead env n transport limit = .ok bytes ∧ (dataOf (place.signals bytes) = [] → rest ≠ [] →
      closed (place.signals bytes) = false ∧ Follows env transport limit (n + 1) (place.advance bytes) rest)

variable {config : Config} {site : Site} {env : Env} {x y z : Own} {w : World} {id : SessionId}
  {s t : Session} {l more : List Io}
variable {transport : Transport} {limit n : Nat} {place : Cursor} {bytes : Bytes} {reads : List Bytes} {events : Events}

private theorem signals_flatten :
    place.signals (bytes :: reads).flatten = place.signals bytes ++ (place.advance bytes).signals reads.flatten := by
  rw [List.flatten_cons, Cursor.signals_append]

/-- Reads without data are answers to reads that ask for the same. -/
theorem Follows.answers (follows : Follows env transport limit n place reads)
    (dataless : dataOf (place.signals reads.flatten) = []) :
    Answers env transport limit n reads := by
  induction reads generalizing n place with
  | nil => trivial
  | cons bytes rest ih =>
    obtain ⟨reply, onward⟩ := follows
    rw [signals_flatten, dataOf_append, List.append_eq_nil_iff] at dataless
    refine ⟨reply, ?_⟩
    by_cases last : rest = []
    · exact last ▸ trivial
    · obtain ⟨unclosed, onward⟩ := onward dataless.1 last
      exact ih onward (by simpa [unclosed] using dataless.2)

/-- Answers that bring the CLOSE without data are all that is read. -/
theorem Follows.dataless {answered : List Bytes} (follows : Follows env transport limit n place reads)
    (answers : Answers env transport limit n answered)
    (heard : closed (place.signals answered.flatten) = true)
    (dataless : dataOf (place.signals answered.flatten) = []) :
    dataOf (place.signals reads.flatten) = [] := by
  induction reads generalizing n place answered with
  | nil => rfl
  | cons bytes rest ih =>
    obtain ⟨reply, onward⟩ := follows
    cases answered with
    | nil => cases heard
    | cons first later =>
      obtain ⟨same, answers⟩ := answers
      obtain rfl : bytes = first := Except.ok.inj (reply.symm.trans same)
      rw [signals_flatten] at heard dataless ⊢
      rw [dataOf_append, List.append_eq_nil_iff] at dataless ⊢
      refine ⟨dataless.1, ?_⟩
      by_cases last : rest = []
      · simp [last, Cursor.signals, dataOf]
      · obtain ⟨unclosed, onward⟩ := onward dataless.1 last
        rw [if_neg (by simp [unclosed])] at dataless ⊢
        exact ih onward answers (by simpa [unclosed] using heard) dataless.2

/-! The reads of an upgraded session. -/

private theorem transport_reads {early : Prop} {m n : Moment} (act : ReadsClient early m n) :
    n.session.clientTransport = m.session.clientTransport := by
  cases act with
  | handled result msg done open_ room fed delivered effect => cases effect <;> rfl
  | _ => rfl

/-- A read without data that brings no CLOSE changes nothing about the reads behind it. -/
theorem quiet_read (sound : Sound config s) (done : s.handshakeDone = true)
    (path : Path (ReadsClient True) ⟨s, l, []⟩ ⟨t, l ++ more, []⟩) (open_ : t.closing = .no)
    (dataless : dataOf ((cursor s.wsParser).signals (received .client more)) = []) :
    closed ((cursor s.wsParser).signals (received .client more)) = false ∧
      cursor t.wsParser = (cursor s.wsParser).advance (received .client more) ∧
      t.clientTransport = s.clientTransport ∧ readLimit t = readLimit s := by
  have acts : ∀ m n, ReadsClient True m n → ActsClient True .reading m n := fun _ _ act => .inl ⟨rfl, act⟩
  have all : Path (Acts config True) ⟨s, l, []⟩ ⟨t, l ++ more, []⟩ :=
    Relation.ReflTransGen.mono (fun m n act => .inl ⟨_, acts m n act⟩) _ _ path
  obtain ⟨grown, rest, incoming⟩ := path_underway sound done all
  obtain rfl : more = grown := List.append_cancel_left incoming.log
  obtain ⟨rfl, -, unclosed⟩ := incoming.hand open_
  have reads : received .client more = fed more := by simpa using incoming.reads
  have same : t.clientTransport = s.clientTransport :=
    path_keeps (fun m => m.session.clientTransport = s.clientTransport)
      (fun _ _ same act => (transport_reads act).trans same) rfl path
  have sends : delivered .target (l ++ more) = delivered .target l :=
    path_keeps (fun m => delivered .target m.log = delivered .target l)
      (fun m n same act => (delivered_actsClient (acts m n act)).trans same) rfl path
  have bytes := incoming.bytes
  rw [reads] at dataless ⊢
  rw [sends, dataless, List.append_nil, List.append_cancel_left_eq] at bytes
  refine ⟨unclosed, incoming.place, same, ?_⟩
  have lengths := congrArg List.length bytes
  rw [contents_length incoming.sound.clientToTarget.valid, contents_length sound.clientToTarget.valid] at lengths
  have capacities := incoming.sound.clientToTarget.capacity.trans sound.clientToTarget.capacity.symm
  have finished : t.handshakeDone = true := incoming.done
  simp only [readLimit, bufferWritable, finished, done, if_true]
  rw [lengths, capacities]

/-- The reads behind the own part `x` are told by what it holds. -/
def Reads (env : Env) (x y : Own) : Prop :=
  ∃ more, y.log = x.log ++ more ∧ (x.session.closing ≠ .no → chunks .client more = []) ∧
    Follows env x.session.clientTransport (readLimit x.session) x.calls
      (cursor x.session.wsParser) (chunks .client more)

theorem Reads.none (more : List Io) (logged : y.log = x.log ++ more) (silent : chunks .client more = []) :
    Reads env x y :=
  ⟨more, logged, fun _ => silent, by rw [silent]; trivial⟩

theorem Reads.behind (extra : List Io) (reads : Reads env x y) (logged : z.log = y.log ++ extra)
    (silent : chunks .client extra = []) : Reads env x z := by
  obtain ⟨more, log, shut, follows⟩ := reads
  have same : chunks .client (more ++ extra) = chunks .client more := by rw [chunks_append, silent, List.append_nil]
  exact ⟨more ++ extra, by rw [logged, log, List.append_assoc], by rwa [same], by rwa [same]⟩

private theorem readClientLoop_follows (budget : Nat) (sound : Sound site.world.config x.session)
    (done : x.session.handshakeDone = true) :
    Yields site (fun _ => Reads env x) (readClientLoop env site.id budget)
      (fun _ y => Sound site.world.config y.session ∧ Reads env x y) x := by
  induction budget generalizing x with
  | zero =>
    rw [readClientLoop, yields_deref]
    exact yields_pure ⟨sound, .none [] (by simp) rfl⟩
  | succ budget ih =>
    apply readClientLoop_turn
    · exact fun _ => ⟨sound, .none [] (by simp) rfl⟩
    · exact fun _ _ => ⟨sound, .none [] (by simp) rfl⟩
    · exact fun _ _ _ => ⟨{ sound with }, .none _ rfl rfl⟩
    · exact fun _ _ _ _ _ => .none _ rfl rfl
    · intro bytes open_ _ reply
      obtain ⟨nonempty, fits⟩ := transportRead_fits reply
      have ready := (sound.late done).2.2
      let first : Io := .read .client x.session.clientTransport (readLimit x.session) (.ok bytes)
      let begun : Own :=
        ⟨{ x.session with lastActivityAt := env.time (x.calls + 1) }, x.log ++ [first], x.interest, x.calls + 1⟩
      let scene : Scene site := ⟨ReadsClient True, ⟨x.session, x.log, []⟩, sound, fun _ _ => sound_readsClient⟩
      have start : scene.At [] x := .refl
      have arrived : scene.At bytes begun := (start.step (y := { x with log := x.log ++ [first], calls := x.calls + 1 })
        (.received bytes ready open_ nonempty fits)).step (.touched _)
      have follows : ∀ {rest}, (dataOf ((cursor x.session.wsParser).signals bytes) = [] → rest ≠ [] →
          closed ((cursor x.session.wsParser).signals bytes) = false ∧
            Follows env x.session.clientTransport (readLimit x.session) (x.calls + 1)
            ((cursor x.session.wsParser).advance bytes) rest) →
          Follows env x.session.clientTransport (readLimit x.session) x.calls (cursor x.session.wsParser)
              (bytes :: rest) :=
        fun onward => ⟨reply, onward⟩
      have absorbs := readClientBytes_absorbs env (x := begun) _ open_ nonempty fits { sound with } done rfl
      have moves : Yields site (fun _ => scene.Left (EndsClient True)) (readClientBytes env site.id bytes)
          (fun more y => scene.At [] y ∧ (more = true → y.session.handshakeDone = true)) begun :=
        readClientBytes_yields (fun _ _ act => act) (fun _ => trivial) arrived ready
      refine yields_bind ((absorbs.and moves).weaken (fun _ _ keeps => keeps) ?_) ?_ fun _ =>
        .onlyIf (readClientLoop_inert _)
      · intro _ y spoiled
        obtain ⟨more, spoils, log⟩ := spoiled
        refine ⟨first :: more, by rw [log, List.append_assoc]; rfl, fun shut => absurd open_ shut, ?_⟩
        rw [chunks_cons, spoils.silent]
        exact follows fun _ impossible => absurd rfl impossible
      · intro more y goes
        obtain ⟨⟨entries, rc, absorbed, -, log, calls, kept, still⟩, there, -⟩ := goes
        have logged : y.log = x.log ++ (first :: entries) := by rw [log, List.append_assoc]; rfl
        have silent : chunks .client entries = [] := absorb_silent absorbed
        have once : chunks .client (first :: entries) = [bytes] := by rw [chunks_cons, silent]; rfl
        have brought : received .client (first :: entries) = bytes := by rw [← chunks_flatten, once]; simp
        have behind : ∀ z, Reads env y z → Reads env x z := by
          rintro z ⟨later, grows, shut, onward⟩
          refine ⟨first :: entries ++ later, by rw [grows, logged, List.append_assoc], fun closing =>
            absurd open_ closing, ?_⟩
          rw [chunks_append, once]
          refine follows fun dataless some_ => ?_
          have again : y.session.closing = .no := by
            by_contra closing
            exact some_ (shut closing)
          have path : Path (ReadsClient True) ⟨x.session, x.log, []⟩ ⟨y.session, x.log ++ (first :: entries), []⟩ :=
            logged ▸ there
          obtain ⟨unclosed, place, transport, limit⟩ := quiet_read sound done path again (by rwa [brought])
          rw [brought] at unclosed place
          rw [calls, place, transport, limit] at onward
          exact ⟨unclosed, onward⟩
        apply yields_onlyIf
        · exact fun _ => (ih kept still).weaken (fun _ z reads => ⟨reads.1, behind z reads.2⟩)
            fun _ z reads => behind z reads
        · exact fun _ => ⟨kept, behind y (.none [] (by simp) rfl)⟩

/-- The write part reads nothing. -/
theorem sessionWriteClient_unread (sound : Sound site.world.config y.session) (reads : Reads env x y) :
    Yields site (fun _ => Reads env x) (sessionWriteClient env site.id)
      (fun _ z => Sound site.world.config z.session ∧ Reads env x z) y := by
  let scene : Scene site := ⟨WritesClient, ⟨y.session, y.log, []⟩, sound, fun _ _ => sound_writesClient⟩
  have here : scene.At [] y := .refl
  have answered : Answered True y.session := fun _ _ => trivial
  have unread : ∀ {m}, Path WritesClient ⟨y.session, y.log, []⟩ m →
      ∃ extra, m.log = y.log ++ extra ∧ chunks .client extra = [] := by
    refine fun path =>
      path_keeps (fun m => ∃ extra, m.log = y.log ++ extra ∧ chunks .client extra = []) ?_ ⟨[], by simp, rfl⟩ path
    rintro m n ⟨extra, log, silent⟩ act
    cases act with
    | touched | emptied => exact ⟨extra, log, silent⟩
    | _ => exact ⟨extra ++ [_], by simp only at log; rw [log, List.append_assoc], by rw [chunks_append, silent]; rfl⟩
  refine (sessionWriteClient_yields (fun _ _ act => act) here answered).weaken ?_ ?_
  · intro _ z kept
    obtain ⟨extra, log, silent⟩ := unread kept.1
    exact ⟨kept.1.sound, reads.behind extra log silent⟩
  · intro _ z left
    obtain ⟨m, hand, path, ending⟩ := left
    obtain ⟨extra, log, silent⟩ := unread path
    have last : Ends True m ⟨z.session, z.log, hand⟩ := .inl ending
    obtain ⟨more, ended, quiet, -⟩ := ends_silent last
    exact (reads.behind extra (z := { y with log := m.log }) log silent).behind more ended quiet

/-- A client event of an upgraded session. -/
theorem sessionHandleClientEvent_follows (sound : Sound site.world.config x.session)
    (done : x.session.handshakeDone = true) :
    Yields site (fun _ => Reads env x) (sessionHandleClientEvent env site.id events) (fun _ => Reads env x) x := by
  have ready := (sound.late done).2.2
  rw [sessionHandleClientEvent]
  split
  · exact yields_close sound.live (.none [] (by simp) rfl)
  rw [yields_deref, if_neg (by simp [ready])]
  apply parts_yields (fun y => Sound site.world.config y.session ∧ Reads env x y) fun y =>
    Sound site.world.config y.session ∧ Reads env x y
  · intro _
    rw [sessionReadClient, yields_config]
    exact readClientLoop_follows _ sound done
  · exact fun _ => ⟨sound, .none [] (by simp) rfl⟩
  · exact fun y holds _ => sessionWriteClient_unread holds.1 holds.2
  · exact fun y holds => holds
  · exact fun y either => (or_self_iff.mp either).1.live
  · exact fun y holds => updateEvents_yields holds.1.live fun z _ log _ => holds.2.behind [] (by simp [log]) rfl

/-- What a client event reads is told by the session it finds. -/
theorem event_follows (env : Env) (events : Events) (inv : Invariant config True w)
    (present : w.session? id = some s) (done : s.handshakeDone = true)
    (log : (w.after env (.client id events)).log id = w.log id ++ more) :
    (s.closing ≠ .no → chunks .client more = []) ∧
      Follows env s.clientTransport (readLimit s) 0 (cursor s.wsParser) (chunks .client more) := by
  let own : Own := ⟨s, w.log id, w.interest id, 0⟩
  have event : ∀ site : Site, site.id = id →
      site.world.config = config → site.world.targetTlsContext = config.targetTlsEnabled →
      Sound site.world.config s → Yields site
          (fun _ => Reads env own) (sessionHandleClientEvent env id events) (fun _ => Reads env own) own := by
    rintro site rfl - - sound
    exact sessionHandleClientEvent_follows sound done
  have runs : (sessionHandleClientEvent env id events w.begin).2 = w.after env (.client id events) := rfl
  rcases session_left inv present runs event
    with ⟨y, ⟨grown, logged, shut, follows⟩, -, mine⟩ | ⟨y, ⟨grown, logged, shut, follows⟩, -, mine⟩
  · obtain rfl : more = grown := List.append_cancel_left (log.symm.trans (mine.trans logged))
    exact ⟨shut, follows⟩
  · have whole : w.log id ++ more = w.log id ++ (grown ++ [.release y.session]) := by
      rw [← log, mine, logged, List.append_assoc]
    obtain rfl := List.append_cancel_left whole
    have same : chunks .client (grown ++ [.release y.session]) = chunks .client grown := by simp
    rw [same]
    exact ⟨shut, follows⟩

end Sockify.Proofs.CloseReads
