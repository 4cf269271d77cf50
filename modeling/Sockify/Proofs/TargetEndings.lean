import Sockify.Proofs.Changes

/-! How a target event ends. A session that it keeps has not seen the end of
its target's stream, and one that it releases still owes its client the answer
to a CLOSE. -/

namespace Sockify.Proofs.TargetEndings
open Sockify Stateful Behaviour SessionLogic SessionSteps Soundness Simulation Lifetimes Changes

def Ending : Io → Prop
  | .read .target _ _ (.error error) => error ≠ .again
  | _ => False

def Unended (log : List Io) : Prop := ∀ io ∈ log, ¬ Ending io

variable {config : Config} {w : World} {site : Site} {env : Env} {x y : Own} {id : SessionId}
  {s t : Session} {l more : List Io}

theorem Unended.append (before : Unended l) (quiet : ∀ io ∈ more, ¬ Ending io) : Unended (l ++ more) := by
  intro io member
  rcases List.mem_append.mp member with old | new
  · exact before io old
  · exact quiet io new

structure Reading (y : Own) : Prop where
  live : y.session.closing ≠ .released
  settled : Settled y.session
  unended : Unended y.log

theorem Reading.moved (more : List Io) (reading : Reading x)
    (closing : y.session.closing = x.session.closing) (settled : Settled y.session)
    (logged : y.log = x.log ++ more) (quiet : ∀ io ∈ more, ¬ Ending io) : Reading y where
  live := closing ▸ reading.live
  settled := settled
  unended := logged ▸ reading.unended.append quiet

private theorem readTargetLoop_reading (budget : Nat) (reading : Reading x) :
    Yields site (fun _ y => Settled y.session) (readTargetLoop env site.id budget) (fun _ y => Reading y) x := by
  induction budget generalizing x with
  | zero =>
    rw [readTargetLoop, yields_deref]
    exact yields_pure reading
  | succ budget ih =>
    apply readTargetLoop_turn reading.live
    · exact fun _ => reading
    · exact fun _ _ => reading.moved _ rfl reading.settled rfl (by simp [Ending])
    · exact fun _ _ _ _ => reading.settled
    · exact fun _ _ _ _ => reading.settled
    · exact fun bytes _ _ _ => ih (reading.moved _ rfl reading.settled rfl (by simp [Ending]))

private theorem writeTargetLoop_reading (budget : Nat) (reading : Reading x) :
    Yields site (fun _ y => Settled y.session) (writeTargetLoop env site.id budget) (fun _ y => Reading y) x := by
  induction budget generalizing x with
  | zero =>
    rw [writeTargetLoop, yields_deref]
    exact yields_pure reading
  | succ budget ih =>
    apply writeTargetLoop_turn reading.live
    · exact fun _ => reading
    · exact fun _ _ => reading.moved _ rfl reading.settled rfl (by simp [Ending])
    · exact fun _ _ _ _ => reading.settled
    · exact fun sent _ _ => ih (reading.moved _ rfl reading.settled rfl (by simp [Ending]))

private theorem updateEvents_reading (reading : Reading x) :
    Yields site (fun _ y => Settled y.session) (sessionUpdateEvents env site.id) (fun _ y => Reading y) x := by
  apply updateEvents_yields reading.live
  intro y session log _
  exact reading.moved [] (by rw [session]) (session ▸ reading.settled) (by simp [log]) (by simp)

private theorem targetTransfer_reading (events : Events) (reading : Reading x) :
    Yields site (fun _ y => Settled y.session) (targetTransfer env site.id events) (fun _ y => Reading y) x := by
  apply parts_yields Reading Reading
  · intro _
    rw [sessionReadTarget, yields_config]
    exact readTargetLoop_reading _ reading
  · exact fun _ => reading
  · intro y reading _
    rw [sessionWriteTarget, yields_config]
    exact writeTargetLoop_reading _ reading
  · exact fun y reading => reading
  · exact fun y either => (or_self_iff.mp either).live
  · exact fun y reading => updateEvents_reading reading

private theorem targetSecured_reading (events : Events) (reading : Reading x) :
    Yields site (fun _ y => Settled y.session) (targetSecured env site.id events) (fun _ y => Reading y) x := by
  rw [targetSecured, yields_deref]
  split
  next waiting =>
    obtain ⟨-, unready⟩ : x.session.targetConnecting = false ∧ x.session.targetTlsReady = false := by
      simpa using waiting
    rw [yields_driveTarget unready]
    split
    · exact targetTransfer_reading events (reading.moved _ rfl reading.settled rfl (by simp [Ending]))
    · split
      · exact updateEvents_reading (reading.moved _ rfl reading.settled rfl (by simp [Ending]))
      · exact yields_close reading.live reading.settled
  · exact targetTransfer_reading events reading

private theorem completeTargetConnect_reading (reading : Reading x) (pending : x.session.targetConnecting = true) :
    Yields site (fun _ _ => False) (sessionCompleteTargetConnect env site.id) (fun _ y => Reading y) x := by
  apply completeTargetConnect_cases pending
  · exact fun _ => reading.moved _ rfl reading.settled rfl (by simp [Ending])
  · exact fun _ _ => reading.moved _ rfl reading.settled rfl (by simp [Ending])
  · exact fun _ _ _ _ _ => reading.moved _ rfl reading.settled rfl (by simp [Ending])
  · exact fun _ _ _ _ => reading.moved _ rfl reading.settled rfl (by simp [Ending])

private theorem sessionHandleTargetEvent_reading (site : Site) (env : Env) (events : Events)
    (reading : Reading x) :
    Yields site (fun _ y => Settled y.session)
      (sessionHandleTargetEvent env site.id events) (fun _ y => Reading y) x := by
  rw [sessionHandleTargetEvent]
  split
  · exact yields_close reading.live reading.settled
  · rw [yields_deref]
    split
    next completes =>
      refine yields_bind_kept (completeTargetConnect_reading reading completes.1) fun rc y reading => ?_
      split
      · exact yields_close reading.live reading.settled
      · exact targetSecured_reading events reading
    · exact targetSecured_reading events reading

theorem unended_actsClient {early : Prop} {events : Events} {m n : Moment} (before : Unended m.log)
    (act : ActsClient early events m n) :
    Unended n.log := by
  rcases act with ⟨-, reads⟩ | ⟨-, writes⟩ | secures
  · cases reads with
    | touched | gathered | discarded | cleared => exact before
    | handled result msg done open_ room fed delivered effect => cases effect <;> exact before.append (by simp [Ending])
    | _ => exact before.append (by simp [Ending])
  · cases writes with
    | touched | emptied => exact before
    | _ => exact before.append (by simp [Ending])
  · cases secures <;> exact before.append (by simp [Ending])

theorem unended_endsClient {prior : Prop} {m n : Moment} (before : Unended m.log)
    (ending : EndsClient prior m n) : Unended n.log := by
  cases ending with
  | here | interrupted | drained => exact before
  | _ => exact before.append (by simp [Ending])

/-- What a target event leaves. -/
theorem target_reading (env : Env) (events : Events) (inv : Invariant config True w)
    (present : w.session? id = some s) (before : Unended (w.log id)) :
    (∀ t, (w.after env (.target id events)).session? id = some t → Unended ((w.after env (.target id events)).log id)) ∧
    ((w.after env (.target id events)).session? id = none →
      ∃ front t, (w.after env (.target id events)).log id = front ++ [.release t] ∧ Settled t) := by
  have lived := inv.lived id s present
  have reading : Reading ⟨s, w.log id, w.interest id, 0⟩ := ⟨lived.sound.live, lived.settled, before⟩
  have runs : (sessionHandleTargetEvent env id events w.begin).2 = w.after env (.target id events) := rfl
  have event : ∀ site : Site, site.id = id →
      Yields site (fun _ y => Settled y.session) (sessionHandleTargetEvent env id events)
      (fun _ => Reading) ⟨s, w.log id, w.interest id, 0⟩ := by
    rintro site rfl
    exact sessionHandleTargetEvent_reading site env events reading
  rcases session_left inv present runs fun site same _ _ _ =>
    event site same with ⟨y, reading, alive, log⟩ | ⟨y, settled, gone, log⟩
  · rw [log]
    refine ⟨fun _ _ => reading.unended, fun gone => ?_⟩
    cases alive.symm.trans gone
  · refine ⟨fun t alive => ?_, fun _ => ⟨y.log, y.session, log, settled⟩⟩
    cases gone.symm.trans alive

/-- While a session lives, its target's stream has not ended. -/
theorem reachable_unended (reachable : Reachable config w) (alive : w.session? id = some s) : Unended (w.log id) := by
  induction reachable generalizing s with
  | refl => simp [World.session?, World.node?, serverInit] at alive
  | @tail w after run step ih =>
    obtain ⟨env, call, -, enabled, rfl⟩ := step
    have inv := reachable_invariant run
    have change := step_changes env inv enabled id
    generalize found : (w.after env call).session? id = state at change alive
    generalize logged : (w.after env call).log id = log at change ⊢
    cases change with
    | aside aside =>
      cases aside with
      | still => exact ih alive
      | expired | stillborn => cases alive
      | born => simp [Unended]
    | client same present fate =>
      cases fate with
      | kept path => exact path_keeps (fun m => Unended m.log) (fun _ _ => unended_actsClient) (ih present) path
      | released => cases alive
    | target same present fate =>
      subst same
      rw [← logged]
      exact (target_reading _ _ inv present (ih present)).1 _ (found.trans alive)

end Sockify.Proofs.TargetEndings
