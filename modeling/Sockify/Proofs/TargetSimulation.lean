import Sockify.Proofs.ClientSimulation

/-! The code that serves a target event takes only the actions of `ActsTarget`. -/

namespace Sockify.Proofs.Simulation
open Sockify Stateful Behaviour SessionLogic SessionSteps Soundness

variable {site : Site} {scene : Scene site} {env : Env} {x : Own} {early : Prop}

/-- A target event neither fills the output slot nor starts a close. -/
theorem settled_target {config : Config} {s t : Session} {l l' : List Io} {h h' : Bytes} (settled : Settled s)
    (act : ActsTarget config early ⟨s, l, h⟩ ⟨t, l', h'⟩) : Settled t := by
  cases act <;> exact settled

theorem bufferWrite_short {buf : Buffer} (valid : BufferQueue.Valid buf) {bytes : Bytes}
    (failed : (bufferWrite buf bytes).status ≠ .ok () ∨ (bufferWrite buf bytes).written ≠ bytes.length) :
    ¬ bytes.length ≤ bufferWritable buf := by
  intro fits
  obtain ⟨status, written, -⟩ := BufferQueue.bufferWrite_fits valid fits
  rcases failed with refused | short
  · exact refused status
  · exact short written

theorem bufferWrite_whole {buf : Buffer} (valid : BufferQueue.Valid buf) {bytes : Bytes}
    (stored : ¬ ((bufferWrite buf bytes).status ≠ .ok () ∨ (bufferWrite buf bytes).written ≠ bytes.length)) :
    bytes.length ≤ bufferWritable buf := by
  obtain ⟨-, -, -, -, status⟩ := BufferQueue.bufferWrite_spec valid bytes
  exact status.mp (by tauto)

/-- One turn of the loop of `session_read_target`. -/
theorem readTargetLoop_turn {ended : Bool → Own → Prop} {alive : Unit → Own → Prop} {budget : Nat}
    (live : x.session.closing ≠ .released)
    (high : bufferIsHigh x.session.targetToClient = true → alive () x)
    (again : bufferIsHigh x.session.targetToClient = false →
      transportRead env x.calls x.session.targetTransport ioChunk = .error .again →
      alive () { x with
        log := x.log ++ [.read .target x.session.targetTransport ioChunk (.error .again)]
        calls := x.calls + 1 })
    (failed : ∀ error, bufferIsHigh x.session.targetToClient = false → error ≠ .again →
      transportRead env x.calls x.session.targetTransport ioChunk = .error error →
      ended false { x with
        log := x.log ++ [.read .target x.session.targetTransport ioChunk (.error error)]
        calls := x.calls + 1 })
    (overflows : ∀ bytes, bufferIsHigh x.session.targetToClient = false →
      transportRead env x.calls x.session.targetTransport ioChunk = .ok bytes →
      (bufferWrite x.session.targetToClient bytes).status ≠ .ok () ∨
        (bufferWrite x.session.targetToClient bytes).written ≠ bytes.length →
      ended false { x with
        session := { x.session with
          lastActivityAt := env.time (x.calls + 1)
          targetToClient := (bufferWrite x.session.targetToClient bytes).buffer }
        log := x.log ++ [.read .target x.session.targetTransport ioChunk (.ok bytes),
          .store .target bytes (bufferWrite x.session.targetToClient bytes).written]
        calls := x.calls + 1 })
    (stored : ∀ bytes, bufferIsHigh x.session.targetToClient = false →
      transportRead env x.calls x.session.targetTransport ioChunk = .ok bytes →
      ¬ ((bufferWrite x.session.targetToClient bytes).status ≠ .ok () ∨
        (bufferWrite x.session.targetToClient bytes).written ≠ bytes.length) →
      Yields site ended (readTargetLoop env site.id budget) alive { x with
        session := { x.session with
          lastActivityAt := env.time (x.calls + 1)
          targetToClient := (bufferWrite x.session.targetToClient bytes).buffer }
        log := x.log ++ [.read .target x.session.targetTransport ioChunk (.ok bytes),
          .store .target bytes (bufferWrite x.session.targetToClient bytes).written]
        calls := x.calls + 1 }) :
    Yields site ended (readTargetLoop env site.id (budget + 1)) alive x := by
  rw [readTargetLoop, yields_deref]
  split
  next full => exact yields_pure (high full)
  next notHigh =>
    have low : bufferIsHigh x.session.targetToClient = false := by simpa using notHigh
    rw [yields_readSide]
    simp only [Session.transport]
    split
    next reply =>
      rw [reply]
      exact yields_pure (again low reply)
    next error other reply =>
      rw [reply]
      exact yields_close live (failed error low (by simpa using other) reply)
    next bytes reply =>
      rw [reply, yields_touch, yields_deref, yields_update, yields_record, List.append_assoc]
      split
      next short => exact yields_close live (overflows bytes low reply short)
      next whole => exact stored bytes low reply whole

/-- One turn of the loop of `session_write_target`. -/
theorem writeTargetLoop_turn {ended : Bool → Own → Prop}
    {alive : Unit → Own → Prop} {budget : Nat} (live : x.session.closing ≠ .released)
    (empty : bufferReadable x.session.clientToTarget = 0 → alive () x)
    (again : bufferReadable x.session.clientToTarget ≠ 0 → transportWrite env x.calls x.session.targetTransport
        (bufferPeek x.session.clientToTarget (minSize ioChunk (bufferReadable x.session.clientToTarget))) =
        .error .again →
      alive () { x with
        log := x.log ++ [.write .target x.session.targetTransport
          (bufferPeek x.session.clientToTarget (minSize ioChunk (bufferReadable x.session.clientToTarget)))
            (.error .again)]
        calls := x.calls + 1 })
    (failed : ∀ error, bufferReadable x.session.clientToTarget ≠ 0 → error ≠ .again →
        transportWrite env x.calls x.session.targetTransport
        (bufferPeek x.session.clientToTarget (minSize ioChunk (bufferReadable x.session.clientToTarget))) =
          .error error →
      ended false { x with
        log := x.log ++ [.write .target x.session.targetTransport
          (bufferPeek x.session.clientToTarget (minSize ioChunk (bufferReadable x.session.clientToTarget)))
            (.error error)]
        calls := x.calls + 1 })
    (taken : ∀ sent, bufferReadable x.session.clientToTarget ≠ 0 → transportWrite env x.calls x.session.targetTransport
        (bufferPeek x.session.clientToTarget (minSize ioChunk (bufferReadable x.session.clientToTarget))) = .ok sent →
      Yields site ended (writeTargetLoop env site.id budget) alive { x with
        session := { x.session with
          lastActivityAt := if sent ≠ 0 then env.time (x.calls + 1) else x.session.lastActivityAt
          clientToTarget := (bufferConsume x.session.clientToTarget sent).1 }
        log := x.log ++ [.write .target x.session.targetTransport
          (bufferPeek x.session.clientToTarget (minSize ioChunk (bufferReadable x.session.clientToTarget))) (.ok sent)]
        calls := x.calls + 1 }) :
    Yields site ended (writeTargetLoop env site.id (budget + 1)) alive x := by
  rw [writeTargetLoop, yields_deref]
  split
  next none => exact yields_pure (empty none)
  next some_ =>
    rw [yields_writeSide]
    simp only [Session.transport]
    split
    next reply =>
      rw [reply]
      exact yields_pure (again some_ reply)
    next error other reply =>
      rw [reply]
      exact yields_close live (failed error some_ (by simpa using other) reply)
    next sent reply =>
      have onward := taken sent some_ reply
      rw [reply]
      by_cases moved : sent ≠ 0
      · rw [if_pos moved] at onward
        rw [onlyIf, if_pos moved, yields_touch, yields_update]
        exact onward
      · rw [if_neg moved] at onward
        rw [onlyIf, if_neg moved, yields_pure_bind, yields_update]
        exact onward

private theorem readTargetLoop_yields (scene : Scene site)
    (included : ∀ m n, ActsTarget site.world.config early m n → scene.acts m n) (budget : Nat)
    (here : scene.At [] x) (transfers : Transfers early x.session) :
    Yields site (fun _ => scene.Left (EndsTarget early)) (readTargetLoop env site.id budget)
      (fun _ y => scene.At [] y ∧ Transfers early y.session) x := by
  induction budget generalizing x with
  | zero =>
    rw [readTargetLoop, yields_deref]
    exact yields_pure ⟨here, transfers⟩
  | succ budget ih =>
    have valid := here.sound.targetToClient.valid
    apply readTargetLoop_turn here.sound.live
    · exact fun _ => ⟨here, transfers⟩
    · exact fun _ _ => ⟨here.step (included _ _ (.readRefused _ transfers)), transfers⟩
    · intro error _ _ _
      exact (here.step (h := []) (included _ _ (.readRefused _ transfers))).left (h := []) (.here _)
    · intro bytes low reply failed
      obtain ⟨-, chunk⟩ := transportRead_fits reply
      exact here.left (h := []) (.overflowed bytes _ transfers low chunk (bufferWrite_short valid failed))
    · intro bytes low reply stored
      obtain ⟨nonempty, chunk⟩ := transportRead_fits reply
      have fits := bufferWrite_whole valid stored
      obtain ⟨-, written, -⟩ := BufferQueue.bufferWrite_fits valid fits
      refine ih (here.step (h := []) (included _ _ ?_)) transfers
      rw [written]
      exact .received bytes _ transfers low nonempty chunk fits

private theorem writeTargetLoop_yields (scene : Scene site)
    (included : ∀ m n, ActsTarget site.world.config early m n → scene.acts m n) (budget : Nat)
    (here : scene.At [] x) (transfers : Transfers early x.session) :
    Yields site (fun _ => scene.Left (EndsTarget early))
      (writeTargetLoop env site.id budget) (fun _ y => scene.At [] y) x := by
  induction budget generalizing x with
  | zero =>
    rw [writeTargetLoop, yields_deref]
    exact yields_pure here
  | succ budget ih =>
    apply writeTargetLoop_turn here.sound.live
    · exact fun _ => here
    · exact fun _ _ => here.step (included _ _ (.writeRefused _ transfers))
    · intro error _ _ _
      exact (here.step (h := []) (included _ _ (.writeRefused _ transfers))).left (h := []) (.here _)
    · intro sent _ reply
      obtain ⟨fits, -⟩ := transportWrite_fits reply
      have touched := here.step (y := { x with session := { x.session with
        lastActivityAt := if sent ≠ 0 then env.time (x.calls + 1) else x.session.lastActivityAt } }) (h :=
          []) (included _ _ (.touched _))
      exact ih (touched.step (included _ _ (.sent sent transfers fits))) transfers

private theorem sessionReadTarget_part
    (included : ∀ m n, ActsTarget site.world.config early m n → scene.acts m n) (here : scene.At [] x)
    (transfers : Transfers early x.session) (settled : Settled x.session) :
    Yields site (fun _ => scene.Left (EndsTarget early)) (sessionReadTarget env site.id)
      (fun _ y => scene.At [] y ∧ Settled y.session ∧ Transfers early y.session) x := by
  rw [sessionReadTarget, yields_config]
  refine (readTargetLoop_yields (Scene.part (ActsTarget site.world.config early) (fun _ _ => sound_actsTarget) here)
    (fun _ _ act => act) _ Relation.ReflTransGen.refl transfers).weaken ?_ fun _ _ left =>
      Scene.Left.whole included left
  rintro _ y ⟨there, later⟩
  refine ⟨Scene.At.whole included there, ?_, later⟩
  exact path_keeps (fun m => Settled m.session) (fun m n holds act => settled_target holds act) settled there

private theorem sessionWriteTarget_part
    (included : ∀ m n, ActsTarget site.world.config early m n → scene.acts m n) (here : scene.At [] x)
    (transfers : Transfers early x.session) (settled : Settled x.session) :
    Yields site (fun _ => scene.Left (EndsTarget early)) (sessionWriteTarget env site.id)
      (fun _ y => scene.At [] y ∧ Settled y.session) x := by
  rw [sessionWriteTarget, yields_config]
  refine (writeTargetLoop_yields (Scene.part (ActsTarget site.world.config early) (fun _ _ => sound_actsTarget) here)
    (fun _ _ act => act) _ Relation.ReflTransGen.refl transfers).weaken ?_ fun _ _ left =>
      Scene.Left.whole included left
  intro _ y there
  refine ⟨Scene.At.whole included there, ?_⟩
  exact path_keeps (fun m => Settled m.session) (fun m n holds act => settled_target holds act) settled there

private theorem targetTransfer_yields
    (included : ∀ m n, ActsTarget site.world.config early m n → scene.acts m n) {events : Events}
    (here : scene.At [] x) (settled : Settled x.session)
    (transfers : events.read = true ∨ events.write = true → Transfers early x.session) :
    Yields site (fun _ => scene.Left (EndsTarget early))
      (targetTransfer env site.id events) (fun _ => Served scene env) x := by
  apply parts_yields (fun y => scene.At [] y ∧ Settled y.session ∧ (events.write = true → Transfers early y.session))
    fun y => scene.At [] y ∧ Settled y.session
  · intro read
    apply (sessionReadTarget_part included here (transfers (.inl read)) settled).weaken _ fun _ _ left => left
    exact fun _ y holds => ⟨holds.1, holds.2.1, fun _ => holds.2.2⟩
  · exact fun _ => ⟨here, settled, fun write => transfers (.inr write)⟩
  · rintro y ⟨there, settled, transfers⟩ write
    exact sessionWriteTarget_part included there (transfers write) settled
  · exact fun y holds => ⟨holds.1, holds.2.1⟩
  · rintro y (holds | holds)
    · exact holds.1.sound.live
    · exact holds.1.sound.live
  · exact fun y holds => updateEvents_serves holds.1 holds.2

/-- Behind the connect: drive the handshake, or let data through. -/
theorem targetSecured_yields (included : ∀ m n, ActsTarget site.world.config early m n → scene.acts m n)
    {events : Events} (here : scene.At [] x) (settled : Settled x.session)
    (registered : x.session.targetRegistered = true)
    (pending : x.session.targetConnecting = true → events.write = false ∧ (events.read = true → early)) :
    Yields site (fun _ => scene.Left (EndsTarget early))
      (targetSecured env site.id events) (fun _ => Served scene env) x := by
  rw [targetSecured, yields_deref]
  split
  next waiting =>
    obtain ⟨connected, unready⟩ : x.session.targetConnecting = false ∧ x.session.targetTlsReady = false := by
      simpa using waiting
    rw [yields_driveTarget unready]
    split
    next =>
      have secured := here.step (y := { x with
          session := { x.session with targetTlsReady := true }
          log := x.log ++ [.handshake .target x.session.targetTransport (.ok ())]
          calls := x.calls + 1 }) (included _ _ (.secured registered connected unready))
      exact targetTransfer_yields included secured settled fun _ => ⟨registered, .inl ⟨rfl, connected⟩⟩
    next error _ =>
      have refused := here.step (y := { x with
          log := x.log ++ [.handshake .target x.session.targetTransport (.error error)]
          calls := x.calls + 1 }) (included _ _ (.handshakeRefused error))
      split
      · exact updateEvents_serves refused settled
      · exact yields_close refused.sound.live (refused.left (h := []) (.here _))
  next ready =>
    refine targetTransfer_yields included here settled fun asked => ⟨registered, ?_⟩
    cases connecting : x.session.targetConnecting with
    | false => exact .inl ⟨by simpa [connecting] using ready, rfl⟩
    | true =>
      obtain ⟨noWrite, early⟩ := pending connecting
      exact .inr ⟨early (by simpa [noWrite] using asked), rfl⟩

/-- How `session_complete_target_connect` returns on a pending connect. -/
def Connected (scene : Scene site) (early : Prop) (rc : Except Err Unit) (y : Own) : Prop :=
  if rc = .ok () then
    scene.At [] y ∧ Settled y.session ∧ y.session.targetRegistered = true ∧ y.session.targetConnecting = false
  else scene.Left (EndsTarget early) y ∧ y.session.closing ≠ .released

private theorem completeTargetConnect_yields
    (included : ∀ m n, ActsTarget site.world.config early m n → scene.acts m n) (here : scene.At [] x)
    (settled : Settled x.session) (registered : x.session.targetRegistered = true)
    (pending : x.session.targetConnecting = true) :
    Yields site (fun _ => scene.Left (EndsTarget early))
      (sessionCompleteTargetConnect env site.id) (Connected scene early) x := by
  apply completeTargetConnect_cases pending
  · intro failed
    rw [Connected, if_neg (by simp)]
    exact ⟨(here.step (h := []) (included _ _ (.unconnected _))).left (h := []) (.here _), here.sound.live⟩
  · intro _ plain
    rw [Connected, if_pos rfl]
    exact ⟨here.step (included _ _ (.connectedPlain _ plain pending)), settled, registered, rfl⟩
  · intro error calls _ secure _
    rw [Connected, if_neg (by simp)]
    exact ⟨here.left (h := []) .unsecured, here.sound.live⟩
  · intro connection _ secure _
    rw [Connected, if_pos rfl]
    exact ⟨here.step (included _ _ (.connectedTls _ connection secure pending)), settled, registered, rfl⟩

theorem sessionHandleTargetEvent_yields
    (included : ∀ m n, ActsTarget site.world.config early m n → scene.acts m n) {events : Events}
    (here : scene.At [] x) (settled : Settled x.session)
    (registered : x.session.targetRegistered = true)
    (pending : x.session.targetConnecting = true →
      events.read = true → events.write = false → events.error = false → early) :
    Yields site (fun _ => scene.Left (EndsTarget early))
      (sessionHandleTargetEvent env site.id events) (fun _ => Served scene env) x := by
  rw [sessionHandleTargetEvent]
  split
  · exact yields_close here.sound.live (here.left (h := []) (.here _))
  next noError =>
    rw [yields_deref]
    split
    next completes =>
      refine yields_bind (completeTargetConnect_yields included here settled registered completes.1) ?_
        fun rc => .ite .sessionClose (.deref_bind _)
      intro rc y connected
      unfold Connected at connected
      split at connected
      next ok =>
        obtain ⟨there, settled, registered, done⟩ := connected
        rw [if_neg (by simp [ok])]
        exact targetSecured_yields included there settled registered (by simp [done])
      next failed =>
        rw [if_pos failed]
        exact yields_close connected.2 connected.1
    next waits =>
      refine targetSecured_yields included here settled registered fun connecting => ?_
      have noWrite : events.write = false := by simpa [connecting] using waits
      exact ⟨noWrite, fun read => pending connecting read noWrite (by simpa using noError)⟩

end Sockify.Proofs.Simulation
