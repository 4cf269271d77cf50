import Sockify.Proofs.Absorption

/-! `session_read_client` on an upgraded session: reads, each of which is
absorbed before the next one is made. -/

namespace Sockify.Proofs.ClientReads
open Sockify Stateful Behaviour Streams SessionLogic SessionSteps Soundness Simulation Absorption

inductive Absorbs : Session → List Bytes → Session → List Io → Prop
  | none (s : Session) : Absorbs s [] s []
  | read {s t u bytes rest entries later rc}
      (time : Int) (open_ : s.closing = .no) (nonempty : bytes ≠ []) (fits : bytes.length ≤ readLimit s)
      (absorbed : absorb (bytes.length + 1) { s with lastActivityAt := time } bytes = .kept t entries rc)
      (fine : rc = .ok () ∨ rc = .error .again)
      (onward : Absorbs t rest u later) :
      Absorbs s (bytes :: rest) u (.read .client s.clientTransport (readLimit s) (.ok bytes) :: (entries ++ later))

/-- A read on which the session's handler releases it, and what is recorded behind it. -/
structure Spoils (s : Session) (bytes : Bytes) (more : List Io) : Prop where
  open_ : s.closing = .no
  nonempty : bytes ≠ []
  fits : bytes.length ≤ readLimit s
  silent : chunks .client more = []
  outcome : ∃ time, absorb (bytes.length + 1) { s with lastActivityAt := time } bytes = .lost ∨
    ∃ t error, absorb (bytes.length + 1) { s with lastActivityAt := time } bytes =
      .kept t more (.error error) ∧ error ≠ .again

structure Returns (config : Config) (x y : Own) : Prop where
  log : ∃ bytes entries last, Absorbs x.session bytes y.session entries ∧ y.log = x.log ++ (entries ++ last) ∧
    (last = [] ∨ ∃ limit, last = [.read .client y.session.clientTransport limit (.error .again)])
  sound : Sound config y.session
  done : y.session.handshakeDone = true

inductive Releases (x y : Own) : Prop
  | failed {bytes entries} (limit : Nat)
  (error : Err) (absorbs : Absorbs x.session bytes y.session entries) (other : error ≠ .again)
      (log : y.log = x.log ++ (entries ++ [.read .client y.session.clientTransport limit (.error error)]))
  | spoiled {bytes entries s last more} (absorbs : Absorbs x.session bytes s entries) (spoils : Spoils s last more)
      (log : y.log = x.log ++ (entries ++ .read .client s.clientTransport (readLimit s) (.ok last) :: more))

variable {config : Config} {site : Site} {x y z : Own} {s t u : Session} {bytes : Bytes}
  {entries : List Io} {rc : Except Err Unit}

private theorem behind_kept {first : List Io} {outcome : Absorbed} (kept : outcome.behind first = .kept t entries rc) :
    ∃ later, outcome = .kept t later rc ∧ entries = first ++ later := by
  cases outcome with
  | kept _ later _ =>
    cases kept
    exact ⟨later, rfl, rfl⟩
  | lost => cases kept

/-- Nothing is read while bytes are absorbed. -/
theorem absorb_silent {fuel : Nat} {data : Bytes} (kept : absorb fuel s data = .kept t entries rc) :
    chunks .client entries = [] := by
  induction fuel generalizing s data entries with
  | zero => cases kept
  | succ fuel ih =>
    rw [absorb] at kept
    split at kept
    · cases kept
      rfl
    · split at kept
      · cases kept
        rfl
      · dsimp only at kept
        split at kept
        · split at kept
          next absorbed =>
            obtain ⟨later, rest, rfl⟩ := behind_kept kept
            rw [chunks_append, chunks_cons, absorbMessage_silent absorbed, ih rest]
            rfl
          · cases kept
        · obtain ⟨later, rest, rfl⟩ := behind_kept kept
          rw [chunks_append, ih rest]
          rfl
        · cases kept
          rfl

theorem Absorbs.chunks {reads : List Bytes} (absorbs : Absorbs s reads t entries) : chunks .client entries = reads := by
  induction absorbs with
  | none => rfl
  | read time open_ nonempty fits absorbed fine onward ih => simp [absorb_silent absorbed, ih]

theorem readClientBytes_absorbs (env : Env) (time : Int) (open_ : x.session.closing = .no)
    (nonempty : bytes ≠ []) (fits : bytes.length ≤ readLimit s)
    (sound : Sound site.world.config x.session) (done : x.session.handshakeDone = true)
    (same : x.session = { s with lastActivityAt := time }) :
    Yields site (fun _ y => ∃ more, Spoils s bytes more ∧ y.log = x.log ++ more) (readClientBytes env site.id bytes)
      (fun _ y => ∃ entries rc, absorb (bytes.length + 1) x.session bytes = .kept y.session entries rc ∧
        (rc = .ok () ∨ rc = .error .again) ∧
        y.log = x.log ++ entries ∧ y.calls = x.calls ∧ Sound site.world.config y.session ∧
        y.session.handshakeDone = true) x := by
  have still : s.closing = .no := by rwa [same] at open_
  rw [readClientBytes, yields_deref, if_neg (by simp [done])]
  refine yields_bind_stops (sessionProcessWsBytes_absorbs bytes sound done) ?_ ?_ ?_
  · intro rc y computes
    obtain ⟨entries, absorbed, logged⟩ := computes.absorbs
    split
    next failed =>
      obtain ⟨error, rfl⟩ : ∃ error, rc = .error error := by
        cases rc with
        | ok => exact absurd rfl failed.1
        | error error => exact ⟨error, rfl⟩
      have spoils : Spoils s bytes entries := by
        refine ⟨still, nonempty, fits, absorb_silent absorbed, time, .inr ⟨y.session, error, same ▸ absorbed, ?_⟩⟩
        rintro rfl
        exact failed.2 rfl
      exact yields_bind (m := fun _ _ => False) (yields_close computes.live ⟨entries, spoils, logged⟩)
        (fun _ _ impossible => impossible.elim) fun _ => .pure _
    next fine =>
      have fine : rc = .ok () ∨ rc = .error .again := by tauto
      rw [yields_deref]
      exact yields_pure ⟨entries, rc, absorbed, fine, logged, computes.calls, computes.sound fine, computes.done⟩
  · intro y impossible
    cases impossible.1
  · intro y gone
    obtain ⟨_, lost, more, log, silent⟩ := gone
    exact ⟨more, ⟨still, nonempty, fits, silent, time, .inl (same ▸ lost)⟩, log⟩

theorem Returns.behind {time : Int} (open_ : x.session.closing = .no) (nonempty : bytes ≠ [])
    (fits : bytes.length ≤ readLimit x.session)
    (absorbed : absorb (bytes.length + 1) { x.session with lastActivityAt := time } bytes = .kept y.session entries rc)
    (fine : rc = .ok () ∨ rc = .error .again)
    (logged : y.log = x.log ++ .read .client x.session.clientTransport (readLimit x.session) (.ok bytes) :: entries)
    (returns : Returns config y z) : Returns config x z := by
  obtain ⟨rest, later, last, onward, log, ending⟩ := returns.log
  refine ⟨⟨_, _, last, .read time open_ nonempty fits absorbed fine onward, ?_, ending⟩, returns.sound, returns.done⟩
  rw [log, logged]
  simp

theorem Releases.behind {time : Int} (open_ : x.session.closing = .no) (nonempty : bytes ≠ [])
    (fits : bytes.length ≤ readLimit x.session)
    (absorbed : absorb (bytes.length + 1) { x.session with lastActivityAt := time } bytes = .kept y.session entries rc)
    (fine : rc = .ok () ∨ rc = .error .again)
    (logged : y.log = x.log ++ .read .client x.session.clientTransport (readLimit x.session) (.ok bytes) :: entries)
    (releases : Releases y z) : Releases x z := by
  cases releases with
  | failed limit error onward other log =>
    refine .failed limit error (.read time open_ nonempty fits absorbed fine onward) other ?_
    rw [log, logged]
    simp
  | spoiled onward spoils log =>
    refine .spoiled (.read time open_ nonempty fits absorbed fine onward) spoils ?_
    rw [log, logged]
    simp

theorem Returns.refl (sound : Sound config x.session) (done : x.session.handshakeDone = true) : Returns config x x :=
  ⟨⟨[], [], [], .none _, (List.append_nil _).symm, .inl rfl⟩, sound, done⟩

/-- The loop, by what its first read brings. -/
theorem readClientLoop_absorbs (env : Env) (budget : Nat) (sound : Sound site.world.config x.session)
    (done : x.session.handshakeDone = true) :
    Yields site (fun _ => Releases x)
      (readClientLoop env site.id budget) (fun _ => Returns site.world.config x) x := by
  induction budget generalizing x with
  | zero =>
    rw [readClientLoop, yields_deref]
    exact yields_pure (.refl sound done)
  | succ budget ih =>
    apply readClientLoop_turn
    · exact fun _ => .refl sound done
    · exact fun _ _ => .refl sound done
    · exact fun _ _ _ => ⟨⟨[], [], _, .none _, rfl, .inr ⟨readLimit x.session, rfl⟩⟩, { sound with }, done⟩
    · exact fun error _ _ other _ => .failed (readLimit x.session) error (.none _) other rfl
    · intro bytes open_ _ reply
      obtain ⟨nonempty, fits⟩ := transportRead_fits reply
      let begun : Own := ⟨{ x.session with lastActivityAt := env.time (x.calls + 1) },
        x.log ++ [.read .client x.session.clientTransport (readLimit x.session) (.ok bytes)], x.interest, x.calls + 1⟩
      have first := readClientBytes_absorbs env (x := begun) _ open_ nonempty fits { sound with } done rfl
      refine yields_bind (first.weaken (fun _ _ keeps => keeps) ?_) ?_ ?_
      · intro _ y spoiled
        obtain ⟨more, spoils, log⟩ := spoiled
        refine .spoiled (.none _) spoils ?_
        rw [log, List.append_assoc]
        rfl
      · intro more y goes
        obtain ⟨entries, rc, absorbed, fine, log, -, sound, done⟩ := goes
        have logged : y.log = x.log ++
            .read .client x.session.clientTransport (readLimit x.session) (.ok bytes) :: entries := by
          rw [log, List.append_assoc]
          rfl
        apply yields_onlyIf
        · intro _
          refine (ih sound done).weaken ?_ ?_
          · exact fun _ z returns => returns.behind open_ nonempty fits absorbed fine logged
          · exact fun _ z releases => releases.behind open_ nonempty fits absorbed fine logged
        · exact fun _ => (Returns.refl sound done).behind open_ nonempty fits absorbed fine logged
      · exact fun _ => .onlyIf (readClientLoop_inert _)

theorem sessionReadClient_absorbs (env : Env) (sound : Sound site.world.config x.session)
    (done : x.session.handshakeDone = true) :
    Yields site (fun _ => Releases x) (sessionReadClient env site.id) (fun _ => Returns site.world.config x) x := by
  rw [sessionReadClient, yields_config]
  exact readClientLoop_absorbs env _ sound done

end Sockify.Proofs.ClientReads
