import Sockify.Lib.Metered
import Sockify.Proofs.Registry

/-! However much waits at a descriptor, one callback makes no more calls than
the budgets of the configuration allow, so that the event loop gets to the
other sessions. -/

namespace Sockify.Proofs.BoundedWork
open Sockify Stateful Registry

variable {config : Config} {id : SessionId} {bound upgrade : Nat} {w u : World} {node old : Node} {α β : Type}

/-- The calls of one `session_close` at most: two of `sockify_event_loop_remove`,
two of `sockify_transport_destroy`, two of `sockify_net_close`, four of `free`. -/
def closeCalls : Nat := 10

/-- A session that a callback works on, and the calls that its upgrade makes. -/
structure Payer where
  id : SessionId
  upgrade : Nat

/-- A session that is there still has its close to come, and with its upgrade
before it the calls of that. -/
def credit (who : Option Payer) (w : World) : Nat :=
  match who with
  | some payer =>
    match w.session? payer.id with
    | some s => closeCalls + if s.handshakeDone then 0 else payer.upgrade
    | none => 0
  | none => 0

/-- The calls made so far in this callback, with those that are still to come. -/
def meter (who : Option Payer) : Meter World where
  paid := World.calls
  spent w := w.calls + credit who w
  covered _ := Nat.le_add_right _ _

variable {who : Option Payer}

abbrev Configured (config : Config) (w : World) : Prop := w.config = config

abbrev Costs (config : Config) (who : Option Payer) (bound : Nat) (program : Proc α) : Prop :=
  Spends (Configured config) (Configured config) (meter who) bound program

/-! The primitive steps. -/

private theorem spent_eq (who : Option Payer) (w : World) : (meter who).spent w = w.calls + credit who w := rfl

private theorem spent_none (w : World) : (meter none).spent w = w.calls := rfl

private theorem credit_congr (same : u.sessions = w.sessions) : credit who u = credit who w := by
  have same : u.session? = w.session? := by
    funext id
    rw [World.session?, World.session?, World.node?, World.node?, same]
  unfold credit
  simp only [same]

/-- A node is replaced, and its upgrade is not undone. -/
theorem credit_put (present : w.node? id = some old)
    (onward : old.session.handshakeDone = true → node.session.handshakeDone = true) :
    credit who (w.putNode id node) ≤ credit who w := by
  cases who with
  | none => exact Nat.le_refl _
  | some payer =>
    by_cases same : payer.id = id
    · cases before : old.session.handshakeDone with
      | false =>
        simp only [credit, same, World.session?, node_putNode_self, present, Option.map_some, before]
        split <;> simp
      | true => simp [credit, same, World.session?, present, onward before]
    · simp [credit, World.session?, node_putNode_other same]

private theorem credit_freed : credit who (w.freed id) ≤ credit who w := by
  cases who with
  | none => exact Nat.le_refl _
  | some payer =>
    by_cases same : payer.id = id
    · simp [credit, same, World.session?]
    · simp [credit, World.session?, node_freed_other same]

private theorem deref_costs (id : SessionId) : Costs config who 0 (deref id) := by
  intro w same
  unfold Ensures deref
  cases w.session? id with
  | none => exact ⟨same, (meter who).covered w⟩
  | some s => exact ⟨same, Nat.le_refl _⟩

private theorem derefNode_costs (id : SessionId) : Costs config who 0 (derefNode id) := by
  intro w same
  unfold Ensures derefNode
  cases w.node? id with
  | none => exact ⟨same, (meter who).covered w⟩
  | some node => exact ⟨same, Nat.le_refl _⟩

private theorem updateNode_costs {f : Node → Node}
    (onward : ∀ node, node.session.handshakeDone = true → (f node).session.handshakeDone = true) :
    Costs config who 0 (updateNode id f) := by
  intro w same
  unfold Ensures updateNode
  cases present : w.node? id with
  | none => exact ⟨same, (meter who).covered w⟩
  | some node => exact ⟨same, Nat.add_le_add_left (credit_put present (onward node)) _⟩

private theorem update_costs {f : Session → Session}
    (onward : ∀ s, s.handshakeDone = true → (f s).handshakeDone = true) :
    Costs config who 0 (update id f) := by
  intro w same
  unfold Ensures update World.put World.session?
  cases present : w.node? id with
  | none => exact ⟨same, (meter who).covered w⟩
  | some node => exact ⟨same, Nat.add_le_add_left (credit_put present (onward node.session)) _⟩

private theorem record_costs (io : Io) : Costs config who 0 (record id io) :=
  .change fun _ same => ⟨same, Nat.le_refl _⟩

private theorem setInterest_costs (side : Side) (events : Option Events) :
    Costs config who 0 (setInterest id side events) :=
  .change fun _ same => ⟨same, Nat.le_refl _⟩

private theorem called_spent (moves : u.sessions = w.sessions) (one : u.calls = w.calls + 1) :
    (meter who).spent u ≤ (meter who).spent w + 1 := by
  simp only [spent_eq, credit_congr moves, one]
  omega

private theorem nextCall_costs : Costs config who 1 nextCall := fun _ same => ⟨same, called_spent rfl rfl⟩

private theorem perform_costs (deed : Deed) : Costs config who 1 (perform deed) :=
  .change fun _ same => ⟨same, called_spent rfl rfl⟩

private theorem setNext_costs (prev next : Option SessionId) : Costs config who 0 (setNext prev next) := by
  cases prev with
  | some prev => exact updateNode_costs fun _ done => done
  | none => exact .change fun _ same => ⟨same, Nat.le_refl _⟩

private theorem setPrev_costs (next prev : Option SessionId) : Costs config who 0 (setPrev next prev) := by
  cases next with
  | some next => exact updateNode_costs fun _ done => done
  | none => exact .pure _

private theorem sessionFree_costs (id : SessionId) : Costs config who 4 (sessionFree id) := by
  change Costs config who (1 + (1 + (1 + 1))) _
  refine .bind (perform_costs _) fun _ =>
    .bind (perform_costs _) fun _ => .bind (perform_costs _) fun _ => .change fun w same => ⟨same, ?_⟩
  have less : credit who (w.freed id) ≤ credit who w := credit_freed
  have one : (w.freed id).calls = w.calls + 1 := rfl
  simp only [spent_eq, one]
  omega

private theorem serverUnlinkSession_costs (id : SessionId) : Costs config who 0 (serverUnlinkSession id) := by
  refine .free (derefNode_costs id) fun node => .free (.inspect _) fun head => .ite (fun _ => .pure _) fun _ => ?_
  refine .free (setNext_costs _ _) fun _ => .free (setPrev_costs _ _) fun _ =>
    .free (updateNode_costs fun _ done => done) fun _ => ?_
  exact .change fun _ same => ⟨same, Nat.le_refl _⟩

/-- The calls of `session_close`, with nobody to pay for them. -/
theorem sessionClose_calls (id : SessionId) : Costs config who closeCalls (sessionClose id) := by
  change Costs config who (1 + (1 + (2 + (2 + (0 + (4 + 0)))))) _
  have removes : ∀ side fd f, (∀ s : Session, s.handshakeDone = true → (f s).handshakeDone = true) →
      Costs config who 1 (do perform (.dispose id (.remove fd)); setInterest id side none; update id f) :=
    fun side fd f onward => .last (perform_costs _) fun _ => .free (setInterest_costs side none) fun _ =>
      update_costs onward
  have drops : ∀ transport fd f, (∀ s : Session, s.handshakeDone = true → (f s).handshakeDone = true) →
      Costs config who 2
          (do perform (.dispose id (.destroy transport)); update id f; perform (.dispose id (.close fd))) :=
    fun transport fd f onward => show Costs config who (1 + 1) _ from
      .bind (perform_costs _) fun _ => .free (update_costs onward) fun _ => perform_costs _
  refine .free (deref_costs id) fun s =>
    .ite (fun _ => .pure _) fun _ => .free (update_costs fun _ done => done) fun _ => ?_
  refine .bind (.onlyIf fun _ => removes _ _ _ fun _ done => done) fun _ =>
    .bind (.onlyIf fun _ => removes _ _ _ fun _ done => done) fun _ => ?_
  refine .bind (.onlyIf fun _ => drops _ _ _ fun _ done => done) fun _ =>
    .bind (.onlyIf fun _ => drops _ _ _ fun _ done => done) fun _ => ?_
  exact .bind (serverUnlinkSession_costs id) fun _ => .bind (sessionFree_costs id) fun _ => record_costs _

/-- Behind its close a session is gone. -/
theorem sessionClose_gone {s : Session} (present : w.session? id = some s) (live : s.closing ≠ .released) :
    Ensures (fun _ _ => True) (sessionClose id) (fun _ after => after.session? id = none) w := by
  have ends : ∀ u : World, Ensures (fun _ _ => True) (do sessionFree id; record id (.release s))
      (fun _ after => after.session? id = none) u := by
    intro u
    simp [sessionFree, perform, record, World.session?, World.logged, World.node?, World.freed]
  have found : deref id w = (.ok s, w) := by simp [deref, present]
  rw [sessionClose, ensures_bind]
  refine ensures_of_run found ?_
  rw [if_neg live]
  exact ensures_last (fun _ => ensures_last fun _ => ensures_last fun _ => ensures_last fun _ => ensures_last fun _ =>
    ensures_last fun _ => ends) w

/-- What a session is credited with pays for its close. -/
theorem sessionClose_costs (id : SessionId) (upgrade : Nat) :
    Costs config (some ⟨id, upgrade⟩) 0 (sessionClose id) := by
  intro w same
  cases present : w.session? id with
  | none =>
    have missed : sessionClose id w = (.error (.noSuchSession id), w) := by
      simp [sessionClose, Bind.bind, deref, present]
    unfold Ensures
    rw [missed]
    exact ⟨same, (meter _).covered w⟩
  | some s =>
    by_cases dead : s.closing = .released
    · have still : sessionClose id w = (.ok (), w) := by simp [sessionClose, Bind.bind, deref, present, dead, Pure.pure]
      exact ensures_of_run still ⟨same, Nat.le_refl _⟩
    · have calls : Costs config none closeCalls (sessionClose id) := sessionClose_calls id
      have enough : w.calls + closeCalls ≤ (meter (some ⟨id, upgrade⟩)).spent w := by
        simp only [spent_eq, credit, present]
        omega
      refine ((calls w same).both (sessionClose_gone present dead)).weaken (fun _ after both => ?_)
        fun _ after both => ?_
      · obtain ⟨⟨kept, rise⟩, gone⟩ := both
        have none_ : credit (some ⟨id, upgrade⟩) after = 0 := by simp [credit, gone]
        refine ⟨kept, ?_⟩
        rw [spent_eq, none_]
        exact Nat.le_trans rise enough
      · exact ⟨both.1.1, Nat.le_trans both.1.2 enough⟩

private theorem sessionTouch_costs (env : Env) (id : SessionId) : Costs config who 0 (sessionTouch env id) :=
  .free (.inspect _) fun _ => update_costs fun _ done => done

/-! The parts of a handler. -/

private theorem sessionMakeWsFrame_costs (opcode : Nat) (payload : Bytes) :
    Costs config who 0 (sessionMakeWsFrame id opcode payload) := by
  refine .free (deref_costs id) fun s => .ite (fun _ => .pure _) fun _ => ?_
  cases wsWriteFrame opcode payload s.clientOutCapacity with
  | error error => exact .pure _
  | ok written => exact .free (update_costs fun _ done => done) fun _ => .free (record_costs _) fun _ => .pure _

private theorem sessionRegisterTarget_costs (env : Env) : Costs config who 1 (sessionRegisterTarget env id) := by
  refine .free (deref_costs id) fun s => .ite (fun _ => .pure _) fun _ => .last nextCall_costs fun n => ?_
  cases env.loopAdd n .target with
  | error error => exact .pure _
  | ok value => exact .free (setInterest_costs _ _) fun _ => .free (update_costs fun _ done => done) fun _ => .pure _

private theorem sessionStartTarget_costs (env : Env) : Costs config who 2 (sessionStartTarget env id) := by
  change Costs config who (1 + 1) _
  refine .free (deref_costs id) fun s => .ite (fun _ => .pure _) fun _ => .bind nextCall_costs fun n =>
    .free (record_costs _) fun _ => ?_
  cases env.connect n with
  | error error => exact .pure _
  | ok reply => exact .free (update_costs fun _ done => done) fun _ => sessionRegisterTarget_costs env

private theorem targetInitTls_costs (env : Env) : Costs config who 2 (targetInitTls env id) := by
  change Costs config who (1 + 1) _
  refine .free (.inspect _) fun c => .free (.inspect _) fun context => .bind nextCall_costs fun _ => ?_
  refine .free (update_costs fun _ done => done) fun _ => .ite (fun _ => .pure _) fun _ => ?_
  refine .free (deref_costs id) fun s => .last nextCall_costs fun n => ?_
  dsimp only
  split
  · exact .pure _
  · exact .free (update_costs fun _ done => done) fun _ => .pure _

private theorem sessionCompleteTargetConnect_costs (env : Env) :
    Costs config who 3 (sessionCompleteTargetConnect env id) := by
  change Costs config who (1 + 2) _
  refine .free (deref_costs id) fun s => .ite (fun _ => .pure _) fun _ => .bind nextCall_costs fun n =>
    .free (record_costs _) fun _ => ?_
  refine .ite (fun _ => .pure _) fun _ => .free (update_costs fun _ done => done) fun _ => ?_
  exact .free (.inspect _) fun c =>
    .ite (fun _ => targetInitTls_costs env) fun _ => .free (update_costs fun _ done => done) fun _ => .pure _

private theorem sessionDriveClientTls_costs (env : Env) : Costs config who 1 (sessionDriveClientTls env id) := by
  refine .free (deref_costs id) fun s => .ite (fun _ => .pure _) fun _ => .last nextCall_costs fun n =>
    .free (record_costs _) fun _ => ?_
  cases transportHandshake env n s.clientTransport with
  | error error => exact .pure _
  | ok value => exact .free (update_costs fun _ done => done) fun _ => .pure _

private theorem sessionDriveTargetTls_costs (env : Env) : Costs config who 1 (sessionDriveTargetTls env id) := by
  refine .free (deref_costs id) fun s => .ite (fun _ => .pure _) fun _ => .last nextCall_costs fun n =>
    .free (record_costs _) fun _ => ?_
  cases transportHandshake env n s.targetTransport with
  | error error => exact .pure _
  | ok value => exact .free (update_costs fun _ done => done) fun _ => .pure _

/-- Messages are handled without any call. -/
theorem sessionHandleWsMessage_costs (msg : WsMessage) :
    Costs config (some ⟨id, upgrade⟩) 0 (sessionHandleWsMessage id msg) := by
  refine .ite (fun _ => ?_) fun _ => .ite (fun _ => ?_) fun _ => .ite (fun _ => ?_) fun _ => .pure _
  · exact .free (deref_costs id) fun s =>
        .free (update_costs fun _ done => done) fun _ => .free (record_costs _) fun _ =>
      .onlyIf fun _ => sessionClose_costs id upgrade
  · exact .free (sessionMakeWsFrame_costs _ _) fun rc => .onlyIf fun _ => sessionClose_costs id upgrade
  · refine .free (update_costs fun _ done => done) fun _ => .free (deref_costs id) fun s => .onlyIf fun _ => ?_
    exact .free (sessionMakeWsFrame_costs _ _) fun rc => .onlyIf fun _ => update_costs fun _ done => done

private theorem processDone_costs : Costs config who 0 (processDone id) :=
  .free (deref_costs id) fun _ => .ite (fun _ => .pure _) fun _ => .pure _

/-- However many frames there are in the bytes of one read. -/
theorem processLoop_costs (fuel : Nat) (data : Bytes) :
    Costs config (some ⟨id, upgrade⟩) 0 (processLoop id fuel data) := by
  induction fuel generalizing data with
  | zero => exact .fault _
  | succ fuel ih =>
    refine .ite (fun _ => processDone_costs) fun _ =>
      .free (deref_costs id) fun s => .ite (fun _ => processDone_costs) fun _ => ?_
    refine .ite (fun _ => .free (record_costs _) fun _ => .pure _) fun _ =>
      .free (update_costs fun _ done => done) fun _ => ?_
    refine .free (record_costs _) fun _ => ?_
    cases (wsParserFeed s.wsParser data (payloadCapacity s)).outcome with
    | ok msg => exact .free (sessionHandleWsMessage_costs msg) fun _ => ih _
    | error error =>
      cases error with
      | again => exact .ite (fun _ => processDone_costs) fun _ => ih _
      | _ => exact .pure _

private theorem sessionProcessWsBytes_costs (data : Bytes) : Costs config (some ⟨id, upgrade⟩) 0
    (sessionProcessWsBytes id data) :=
  processLoop_costs _ data

private theorem handshakeRest_costs (consumed : Nat) :
    Costs config (some ⟨id, upgrade⟩) 0 (handshakeRest id consumed) := by
  refine .free (deref_costs id) fun s =>
    .ite (fun _ => .free (sessionProcessWsBytes_costs _) fun rc => ?_) fun _ => update_costs fun _ done => done
  exact .ite (fun _ => sessionClose_costs id upgrade) fun _ => update_costs fun _ done => done

/-! The upgrade, which is paid for in advance. -/

def Unfinished (config : Config) (id : SessionId) (w : World) : Prop :=
  w.config = config ∧ ∃ s, w.session? id = some s ∧ s.handshakeDone = false

private theorem unfinished_configured (w : World) (unfinished : Unfinished config id w) : Configured config w :=
  unfinished.1

abbrev Upgrades (config : Config) (id : SessionId) (program : Proc α) : Prop :=
  Spends (Unfinished config id) (Configured config) (meter (some ⟨id, 2⟩)) 0 program

abbrev Awaits (config : Config) (id : SessionId) (program : Proc α) : Prop :=
  Spends (Unfinished config id) (Unfinished config id) (meter (some ⟨id, 2⟩)) 0 program

theorem Upgrades.of_costs {program : Proc α} (costs : Costs config (some ⟨id, 2⟩) 0 program) :
    Upgrades config id program :=
  costs.within unfinished_configured fun _ kept => kept

theorem Awaits.upgrades {program : Proc α} {next : α → Proc β} (first : Awaits config id program)
    (rest : ∀ value, Upgrades config id (next value)) : Upgrades config id (program >>= next) :=
  first.sequence rest unfinished_configured

theorem Upgrades.behind {program : Proc α} {next : α → Proc β} (first : Upgrades config id program)
    (rest : ∀ value, Costs config (some ⟨id, 2⟩) 0 (next value)) : Upgrades config id (program >>= next) :=
  first.sequence rest fun _ kept => kept

private theorem awaits_deref : Awaits config id (deref id) := by
  rintro w ⟨same, s, present, unfinished⟩
  have found : deref id w = (.ok s, w) := by simp [deref, present]
  exact ensures_of_run found ⟨⟨same, s, present, unfinished⟩, Nat.le_refl _⟩

private theorem session_put_self {s t : Session} (present : w.session? id = some s) :
    (w.put id t).session? id = some t := by
  obtain ⟨node, found, -⟩ := Option.map_eq_some_iff.mp present
  simp [World.put, found, World.session?]

private theorem awaits_update {f : Session → Session}
    (still : ∀ s, (f s).handshakeDone = s.handshakeDone) : Awaits config id (update id f) := by
  rintro w ⟨same, s, present, unfinished⟩
  have moved : update id f w = (.ok (), w.put id (f s)) := by simp [update, present]
  have costs : Costs config (some ⟨id, 2⟩) 0 (update id f) := update_costs fun s done => (still s).trans done
  have cost := costs w same
  unfold Ensures at cost
  rw [moved] at cost
  exact ensures_of_run moved ⟨⟨cost.1, f s, session_put_self present, (still s).trans unfinished⟩, cost.2⟩

private theorem awaits_record (io : Io) : Awaits config id (record id io) :=
  .change fun _ unfinished => ⟨unfinished, Nat.le_refl _⟩

private theorem sessionSetClientOut_awaits (data : Bytes) : Awaits config id (sessionSetClientOut id data) :=
  .free awaits_deref fun _ => .ite (fun _ => .pure _) fun _ => .ite (fun _ => .pure _) fun _ =>
    .free (awaits_update fun _ => rfl) fun _ => .free (awaits_record _) fun _ => .pure _

/-- The connect and the registration are what the session was credited with. -/
theorem handshakeAccepted_upgrades (env : Env) (consumed : Nat) :
    Upgrades config id (handshakeAccepted env id consumed) := by
  have settles : ∀ w, Unfinished config id w →
      ∃ value left, update id (fun s => { s with handshakeDone := true }) w = (.ok value, left) ∧
      Configured config left ∧ (meter (some ⟨id, 2⟩)).spent left + 2 ≤ (meter (some ⟨id, 2⟩)).spent w := by
    rintro w ⟨same, s, present, unfinished⟩
    obtain ⟨node, found, rfl⟩ := Option.map_eq_some_iff.mp present
    refine ⟨(), w.putNode id { node with session := { node.session with handshakeDone := true } }, ?_, same, ?_⟩
    · simp only [update, present, World.put, found]
    · have before : credit (some ⟨id, 2⟩) w = closeCalls + 2 := by simp [credit, present, unfinished]
      have settled : credit (some ⟨id, 2⟩)
          (w.putNode id { node with session := { node.session with handshakeDone := true } }) = closeCalls := by
        simp [credit, World.session?]
      rw [spent_eq, spent_eq, before, settled]
      exact Nat.le_refl _
  refine .prepaid settles fun _ => ?_
  exact .last (sessionStartTarget_costs env) fun rc => .ite (fun _ => sessionClose_costs id 2) fun _ =>
    handshakeRest_costs consumed

private theorem sessionHandleHandshakeBytes_upgrades (env : Env) (data : Bytes) :
    Upgrades config id (sessionHandleHandshakeBytes env id data) := by
  have closes : Upgrades config id (sessionClose id) := .of_costs (sessionClose_costs id 2)
  refine awaits_deref.upgrades fun s =>
    .ite (fun _ => closes) fun _ => Awaits.upgrades (awaits_update fun _ => rfl) fun _ => ?_
  refine awaits_deref.upgrades fun s => ?_
  cases wsBuildHandshakeResponse s.handshake 256 with
  | error error =>
    cases error with
    | again => exact .of_costs (.pure _)
    | _ => exact closes
  | ok reply =>
    exact (sessionSetClientOut_awaits reply.1).upgrades fun rc =>
      .ite (fun _ => closes) fun _ => handshakeAccepted_upgrades env reply.2

private theorem deref_settles {next : Session → Proc β}
    (fresh : ∀ s, s.handshakeDone = false → Upgrades config id (next s))
    (done : ∀ s, s.handshakeDone = true → Costs config (some ⟨id, 2⟩) 0 (next s)) :
    Costs config (some ⟨id, 2⟩) 0 (deref id >>= next) := by
  intro w same
  cases present : w.session? id with
  | none =>
    have missed : (deref id >>= next) w = (.error (.noSuchSession id), w) := by simp [Bind.bind, deref, present]
    unfold Ensures
    rw [missed]
    exact ⟨same, (meter _).covered w⟩
  | some s =>
    have found : deref id w = (.ok s, w) := by simp [deref, present]
    rw [ensures_bind]
    refine ensures_of_run found ?_
    cases state : s.handshakeDone with
    | false => exact fresh s state w ⟨same, s, present, state⟩
    | true => exact done s state w same

/-! The handlers. -/

private theorem readSide_costs (env : Env) (side : Side) (limit : Nat) :
    Costs config who 1 (readSide env id side limit) :=
  .free (deref_costs id) fun _ => .last nextCall_costs fun _ => .free (record_costs _) fun _ => .pure _

private theorem writeSide_costs (env : Env) (side : Side) (data : Bytes) :
    Costs config who 1 (writeSide env id side data) :=
  .free (deref_costs id) fun _ => .last nextCall_costs fun _ => .free (record_costs _) fun _ => .pure _

private theorem readClientBytes_costs (env : Env) (bytes : Bytes) :
    Costs config (some ⟨id, 2⟩) 0 (readClientBytes env id bytes) := by
  refine deref_settles (fun s unfinished => ?_) fun s done => ?_
  · rw [if_pos (by rw [unfinished]; rfl)]
    refine (sessionHandleHandshakeBytes_upgrades env bytes).behind fun _ => ?_
    exact .free (deref_costs id) fun s => .ite (fun _ => .pure _) fun _ => .pure _
  · rw [if_neg (by rw [done]; nofun)]
    refine .free (sessionProcessWsBytes_costs bytes) fun rc => .ite (fun _ => ?_) fun _ => ?_
    · exact .free (sessionClose_costs id 2) fun _ => .pure _
    · exact .free (deref_costs id) fun s => .pure _

private theorem readClientLoop_costs (env : Env) (budget : Nat) :
    Costs config (some ⟨id, 2⟩) budget (readClientLoop env id budget) := by
  induction budget with
  | zero => exact .free (deref_costs id) fun _ => .pure _
  | succ budget ih =>
    refine .free (deref_costs id) fun s => .ite (fun _ => .pure _) fun _ => .ite (fun _ => .pure _) fun _ => ?_
    rw [Nat.add_comm]
    refine .bind (readSide_costs env .client (readLimit s)) fun reply => ?_
    cases reply with
    | ok bytes =>
      exact .free (sessionTouch_costs env id) fun _ =>
        .free (readClientBytes_costs env bytes) fun more => .onlyIf fun _ => ih
    | error error =>
      cases error with
      | again => exact .pure _
      | _ => exact (sessionClose_costs id 2).weaken (Nat.zero_le _)

private theorem writeClientLoop_costs (env : Env) (budget : Nat) :
    Costs config (some ⟨id, upgrade⟩) budget (writeClientLoop env id budget) := by
  induction budget with
  | zero => exact .free (deref_costs id) fun _ => .pure _
  | succ budget ih =>
    refine .free (deref_costs id) fun s => .ite (fun _ => ?_) fun _ => .pure _
    rw [Nat.add_comm]
    refine .bind (writeSide_costs env .client s.unsent) fun reply => ?_
    cases reply with
    | ok sent =>
      exact .free (update_costs fun _ done => done) fun _ =>
        .free (.onlyIf fun _ => sessionTouch_costs env id) fun _ => ih
    | error error =>
      cases error with
      | again => exact .pure _
      | _ => exact .free (sessionClose_costs id upgrade) fun _ => .pure _

private theorem refillClientOut_costs : Costs config (some ⟨id, upgrade⟩) 0 (refillClientOut id) := by
  refine .free (deref_costs id) fun s =>
    .ite (fun _ => .pure _) fun _ => .free (update_costs fun _ done => done) fun _ => ?_
  refine .free (deref_costs id) fun s => .ite (fun _ => ?_) fun _ =>
    .ite (fun _ => sessionClose_costs id upgrade) fun _ => .ite (fun _ => ?_) fun _ => .pure _
  · exact .free (sessionMakeWsFrame_costs _ _) fun rc => .onlyIf fun _ => update_costs fun _ done => done
  · exact .free (update_costs fun _ done => done) fun _ =>
      .free (sessionMakeWsFrame_costs _ _) fun rc => .onlyIf fun _ => sessionClose_costs id upgrade

private theorem readTargetLoop_costs (env : Env) (budget : Nat) :
    Costs config (some ⟨id, upgrade⟩) budget (readTargetLoop env id budget) := by
  induction budget with
  | zero => exact .free (deref_costs id) fun _ => .pure _
  | succ budget ih =>
    refine .free (deref_costs id) fun s => .ite (fun _ => .pure _) fun _ => ?_
    rw [Nat.add_comm]
    refine .bind (readSide_costs env .target ioChunk) fun reply => ?_
    cases reply with
    | ok bytes =>
      refine .free (sessionTouch_costs env id) fun _ =>
        .free (deref_costs id) fun s => .free (update_costs fun _ done => done) fun _ => ?_
      exact .free (record_costs _) fun _ =>
        .ite (fun _ => (sessionClose_costs id upgrade).weaken (Nat.zero_le _)) fun _ => ih
    | error error =>
      cases error with
      | again => exact .pure _
      | _ => exact (sessionClose_costs id upgrade).weaken (Nat.zero_le _)

private theorem writeTargetLoop_costs (env : Env) (budget : Nat) :
    Costs config (some ⟨id, upgrade⟩) budget (writeTargetLoop env id budget) := by
  induction budget with
  | zero => exact .free (deref_costs id) fun _ => .pure _
  | succ budget ih =>
    refine .free (deref_costs id) fun s => .ite (fun _ => .pure _) fun _ => ?_
    rw [Nat.add_comm]
    refine .bind (writeSide_costs env .target _) fun reply => ?_
    cases reply with
    | ok sent =>
      exact .free (.onlyIf fun _ => sessionTouch_costs env id) fun _ =>
        .free (update_costs fun _ done => done) fun _ => ih
    | error error =>
      cases error with
      | again => exact .pure _
      | _ => exact (sessionClose_costs id upgrade).weaken (Nat.zero_le _)

/-- The configuration settles the budget of a loop. -/
theorem budgeted {next : Config → Proc β} (rest : Costs config who bound (next config)) :
    Costs config who bound (inspect World.config >>= next) := by
  refine .knowing fun value w both => ?_
  obtain ⟨same, rfl⟩ := both
  rw [show w.config = config from same]
  exact rest w same

private theorem sessionReadClient_costs (env : Env) :
    Costs config (some ⟨id, 2⟩) config.readBudget (sessionReadClient env id) :=
  budgeted (readClientLoop_costs env config.readBudget)

private theorem sessionWriteClient_costs (env : Env) :
    Costs config (some ⟨id, upgrade⟩) config.writeBudget (sessionWriteClient env id) :=
  budgeted (.last (writeClientLoop_costs env config.writeBudget) fun _ => .onlyIf fun _ => refillClientOut_costs)

private theorem sessionReadTarget_costs (env : Env) :
    Costs config (some ⟨id, upgrade⟩) config.readBudget (sessionReadTarget env id) :=
  budgeted (readTargetLoop_costs env config.readBudget)

private theorem sessionWriteTarget_costs (env : Env) :
    Costs config (some ⟨id, upgrade⟩) config.writeBudget (sessionWriteTarget env id) :=
  budgeted (writeTargetLoop_costs env config.writeBudget)

private theorem loopModify_costs (env : Env) (side : Side) (events : Events) :
    Costs config who 1 (loopModify env id side events) := by
  refine .last nextCall_costs fun n => ?_
  cases env.loopModify n side with
  | ok value => exact setInterest_costs _ _
  | error error => exact .pure _

private theorem transportWantsCalls_costs : Costs config who 2 transportWantsCalls := by
  change Costs config who (1 + 1) _
  exact .bind nextCall_costs fun _ => .last nextCall_costs fun _ => .pure _

private theorem sessionUpdateEvents_costs (env : Env) : Costs config who 6 (sessionUpdateEvents env id) := by
  change Costs config who (2 + (1 + (2 + 1))) _
  refine .free (deref_costs id) fun s => .ite (fun _ => .pure _) fun _ => .free (.inspect _) fun n => ?_
  refine .bind (.onlyIf fun _ => transportWantsCalls_costs) fun _ =>
    .bind (.onlyIf fun _ => loopModify_costs env _ _) fun _ => ?_
  exact .free (.inspect _) fun m =>
    .bind (.onlyIf fun _ => transportWantsCalls_costs) fun _ => .onlyIf fun _ => loopModify_costs env _ _

private theorem runUnlessReleased_costs {part rest : Proc Unit} {more : Nat}
    (first : Costs config who bound part) (last : Costs config who more rest) :
    Costs config who (bound + more) (runUnlessReleased id part rest) :=
  .bind first fun _ => .free (deref_costs id) fun _ => .ite (fun _ => .pure _) fun _ => last

private theorem clientTransfer_costs (env : Env) (events : Events) :
    Costs config (some ⟨id, 2⟩) (config.readBudget + (config.writeBudget + 6)) (clientTransfer env id events) := by
  have writes : Costs config (some ⟨id, 2⟩) (config.writeBudget + 6)
      (if events.write then runUnlessReleased id (sessionWriteClient env id) (sessionUpdateEvents env id)
          else sessionUpdateEvents env id) :=
    .ite (fun _ => runUnlessReleased_costs (sessionWriteClient_costs env) (sessionUpdateEvents_costs env)) fun _ =>
      (sessionUpdateEvents_costs env).weaken (by omega)
  exact .ite (fun _ => runUnlessReleased_costs (sessionReadClient_costs env) writes) fun _ => writes.weaken (by omega)

private theorem targetTransfer_costs (env : Env) (events : Events) :
    Costs config (some ⟨id, upgrade⟩)
      (config.readBudget + (config.writeBudget + 6)) (targetTransfer env id events) := by
  have writes : Costs config (some ⟨id, upgrade⟩) (config.writeBudget + 6)
      (if events.write then runUnlessReleased id (sessionWriteTarget env id) (sessionUpdateEvents env id)
          else sessionUpdateEvents env id) :=
    .ite (fun _ => runUnlessReleased_costs (sessionWriteTarget_costs env) (sessionUpdateEvents_costs env)) fun _ =>
      (sessionUpdateEvents_costs env).weaken (by omega)
  exact .ite (fun _ => runUnlessReleased_costs (sessionReadTarget_costs env) writes) fun _ => writes.weaken (by omega)

private theorem sessionHandleClientEvent_costs (env : Env) (events : Events) :
    Costs config (some ⟨id, 2⟩) (1 + (config.readBudget + (config.writeBudget + 6)))
      (sessionHandleClientEvent env id events) := by
  have closes : ∀ bound, Costs config (some ⟨id, 2⟩) bound (sessionClose id) :=
    fun bound => (sessionClose_costs id 2).weaken (Nat.zero_le _)
  have transfers : Costs config (some ⟨id, 2⟩) _ (clientTransfer env id events) := clientTransfer_costs env events
  refine .ite (fun _ => closes _) fun _ =>
    .free (deref_costs id) fun s => .ite (fun _ => ?_) fun _ => transfers.weaken (by omega)
  refine .bind (sessionDriveClientTls_costs env) fun rc =>
    .ite (fun _ => (sessionUpdateEvents_costs env).weaken (by omega)) fun _ => ?_
  exact .free (deref_costs id) fun s => .ite (fun _ => closes _) fun _ => transfers

private theorem targetSecured_costs (env : Env) (events : Events) :
    Costs config (some ⟨id, upgrade⟩)
      (1 + (config.readBudget + (config.writeBudget + 6))) (targetSecured env id events) := by
  refine .free (deref_costs id) fun s => .ite (fun _ => ?_) fun _ => (targetTransfer_costs env events).weaken (by omega)
  refine .bind (sessionDriveTargetTls_costs env) fun rc =>
    .ite (fun _ => (sessionUpdateEvents_costs env).weaken (by omega)) fun _ => ?_
  exact .free (deref_costs id) fun s =>
    .ite (fun _ => (sessionClose_costs id upgrade).weaken (Nat.zero_le _)) fun _ => targetTransfer_costs env events

private theorem sessionHandleTargetEvent_costs (env : Env) (events : Events) :
    Costs config (some ⟨id, upgrade⟩)
      (3 + (1 + (config.readBudget + (config.writeBudget + 6)))) (sessionHandleTargetEvent env id events) := by
  have closes : ∀ bound, Costs config (some ⟨id, upgrade⟩) bound (sessionClose id) :=
    fun bound => (sessionClose_costs id upgrade).weaken (Nat.zero_le _)
  refine .ite (fun _ => closes _) fun _ =>
    .free (deref_costs id) fun s => .ite (fun _ => ?_) fun _ => (targetSecured_costs env events).weaken (by omega)
  exact .bind (sessionCompleteTargetConnect_costs env) fun rc =>
    .ite (fun _ => closes _) fun _ => targetSecured_costs env events

/-! The listener and the tick. -/

/-- What is charged for a session that was set up, and for one that was discarded. -/
def setUpPrice (bound : Nat) (created : Option SessionId) : Nat := if created = none then bound + closeCalls else bound

abbrev Creates (config : Config) (bound : Nat) (program : Proc (Option SessionId)) : Prop :=
  Charges (Configured config) (Configured config) (meter none) (setUpPrice bound) (bound + closeCalls) program

theorem Creates.behind {program : Proc α} {next : α → Proc (Option SessionId)} {more : Nat}
    (first : Costs config none bound program) (rest : ∀ value, Creates config more (next value)) :
    Creates config (bound + more) (program >>= next) := by
  refine (Charges.behind first rest fun _ kept => kept).weaken (fun created => ?_) (by omega)
  unfold setUpPrice
  split <;> omega

private theorem creates_giveUp : Creates config bound (do sessionClose id; pure none) :=
  .ends (sessionClose_calls id) none (by simp [setUpPrice]) (by omega)

private theorem sessionAlloc_costs (fd : Socket) : Costs config none 0 (sessionAlloc fd) :=
  fun _ same => ⟨same, Nat.le_refl _⟩

private theorem sessionInitClient_costs (env : Env) (fd : Socket) :
    Costs config who 1 (sessionInitClient env id fd) := by
  refine .free (.inspect _) fun c =>
    .free (.inspect _) fun context => .ite (fun _ => .ite (fun _ => .pure _) fun _ => ?_) fun _ => ?_
  · refine .last nextCall_costs fun n => ?_
    cases env.tlsCreate n (some fd) true none with
    | error error => exact .pure _
    | ok connection => exact .free (update_costs fun _ done => done) fun _ => .pure _
  · exact .free (update_costs fun _ done => done) fun _ => .pure _

private theorem serverLinkSession_costs (id : SessionId) : Costs config who 0 (serverLinkSession id) := by
  refine .free (.inspect _) fun head => .free (updateNode_costs fun _ done => done) fun _ => ?_
  have counts : Costs config who 0
      (change fun w => { w with head := some id, activeConnections := w.activeConnections + 1 } : Proc Unit) :=
    .change fun _ same => ⟨same, Nat.le_refl _⟩
  cases head with
  | none => exact counts
  | some first => exact .free (updateNode_costs fun _ done => done) fun _ => counts

private theorem sessionRegisterClient_creates (env : Env) : Creates config 1 (sessionRegisterClient env id) := by
  change Creates config (1 + 0) _
  refine .free (.inspect _) fun c => Creates.behind nextCall_costs fun n => ?_
  cases env.loopAdd n .client with
  | error error => exact creates_giveUp
  | ok value =>
    refine .free (setInterest_costs _ _) fun _ =>
      .free (update_costs fun _ done => done) fun _ => .free (serverLinkSession_costs id) fun _ => ?_
    exact .free (update_costs fun _ done => done) fun _ => .pure _

theorem sessionSetUp_creates (env : Env) (fd : Socket) : Creates config 5 (sessionSetUp env id fd) := by
  change Creates config (1 + (1 + (1 + (1 + 1)))) _
  refine .free (.inspect _) fun c => Creates.behind (sessionInitClient_costs env fd) fun rc =>
    .ite (fun _ => creates_giveUp) fun _ => ?_
  refine .free (update_costs fun _ done => done) fun _ =>
    Creates.behind nextCall_costs fun first => Creates.behind nextCall_costs fun second => ?_
  refine Creates.behind nextCall_costs fun third => .ite (fun _ => creates_giveUp) fun _ => ?_
  exact .free (update_costs fun _ done => done) fun _ => sessionRegisterClient_creates env

theorem sessionCreate_creates (env : Env) (fd : Socket) : Creates config 6 (sessionCreate env fd) := by
  change Creates config (1 + 5) _
  exact Creates.behind nextCall_costs fun n =>
    .ite (fun _ => .pure _) fun _ => .free (sessionAlloc_costs fd) fun id => sessionSetUp_creates env fd

/-- Only the last session of a turn can have been discarded. -/
theorem listenerLoop_costs (env : Env) (budget : Nat) :
    Costs config none (7 * budget + closeCalls) (listenerLoop env budget) := by
  induction budget with
  | zero => exact .pure _
  | succ budget ih =>
    have turn : 7 * (budget + 1) + closeCalls = 1 + (6 + (7 * budget + closeCalls)) := by omega
    rw [turn]
    refine .bind nextCall_costs fun n => ?_
    cases env.accept n with
    | error error => exact .pure _
    | ok fd =>
      refine .free (.inspect _) fun c => .free (.inspect _) fun active => .ite (fun _ => ?_) fun _ => ?_
      · exact (Spends.bind (perform_costs _) fun _ => ih).weaken (by omega)
      · have goes : ∀ created : Option SessionId,
              Costs config none (if created = none then 0 else 7 * budget + closeCalls)
            (onlyIf (created ≠ none) (listenerLoop env budget)) := by
          intro created
          cases created with
          | none => exact .pure _
          | some id => exact .onlyIf fun _ => ih
        refine (sessionCreate_creates env fd).settle goes (fun _ kept => kept)
          (fun created _ => ?_) (fun created => ?_) (by omega)
        · unfold setUpPrice
          split <;> omega
        · unfold setUpPrice
          split <;> omega

private theorem listenerCallback_costs (env : Env) (events : Events) :
    Costs config none (7 * config.acceptBudget + closeCalls) (listenerCallback env events) :=
  budgeted (.onlyIf fun _ => listenerLoop_costs env config.acceptBudget)

private theorem tickLoop_costs (now : Int) (fuel : Nat) (head : Option SessionId) :
    Costs config none (closeCalls * fuel) (tickLoop now fuel head) := by
  induction fuel generalizing head with
  | zero =>
    cases head with
    | none => exact .pure _
    | some id => exact .fault _
  | succ fuel ih =>
    cases head with
    | none => exact .pure _
    | some id =>
      rw [Nat.mul_succ, Nat.add_comm]
      refine .free (derefNode_costs id) fun node => .free (.inspect _) fun c => ?_
      exact .bind (.onlyIf fun _ => sessionClose_calls id) fun _ => ih node.next

private theorem proxyTick_costs (env : Env) (sessions : Nat) :
    Spends (fun w => w.config = config ∧ w.sessions.keys.card = sessions)
      (Configured config) (meter none) (closeCalls * sessions) (proxyTick env) := by
  have nothing : Spends (fun w => w.config = config ∧ w.sessions.keys.card = sessions) (Configured config) (meter none)
      (closeCalls * sessions) (pure () : Proc Unit) := fun _ both => ⟨both.1, Nat.le_add_right _ _⟩
  refine .knowing fun head => .knowing fun c => .ite (fun _ => ?_) fun _ => .ite (fun _ => ?_) fun _ =>
    .knowing fun n => .knowing fun count => ?_
  · exact nothing.within (fun _ both => both.1.1) fun _ kept => kept
  · exact nothing.within (fun _ both => both.1.1) fun _ kept => kept
  · intro w both
    obtain ⟨⟨⟨⟨⟨same, rfl⟩, -⟩, -⟩, -⟩, rfl⟩ := both
    exact tickLoop_costs _ _ _ w same

/-- The calls that a callback may make. An accept with what one session is built
from takes seven, and the last session may be closed again. A handler has a
budget of reads, a budget of writes, and twenty more: with the connect, the
handshake, the interest, and the close of its session. A tick may close every
session. -/
def callBudget (w : World) : Call → Nat
  | .accept _ => 7 * w.config.acceptBudget + closeCalls
  | .client _ _ | .target _ _ => w.config.readBudget + w.config.writeBudget + 20
  | .tick => closeCalls * w.sessions.keys.card

/-- What has been paid lies within what was to come and the bound. -/
theorem calls_le {program : Proc Unit} {before after : World → Prop} {m : Meter World}
    (spends : Spends before after m bound program) (holds : before w) (counts : m.paid = World.calls) :
    (program w).2.calls ≤ m.spent w + bound := by
  have spent := spends w holds
  unfold Ensures at spent
  split at spent
  next result same =>
    rw [same]
    exact counts ▸ (m.covered _).trans spent.2
  next result same =>
    rw [same]
    exact counts ▸ spent.2

/-- Whatever state the sessions are in, and whatever the sockets, the TLS
backend, the event loop and the allocator answer. -/
theorem callback_bounded (w : World) (env : Env) (call : Call) : (w.after env call).calls ≤ callBudget w call := by
  have same : Configured w.config w.begin := rfl
  have credited : ∀ id upgrade, (meter (some ⟨id, upgrade⟩)).spent w.begin ≤ closeCalls + upgrade := by
    intro id upgrade
    simp only [spent_eq, World.begin, credit]
    split
    · split <;> omega
    · omega
  cases call with
  | accept events =>
    have costs : Costs w.config none _ (listenerCallback env events) := listenerCallback_costs env events
    exact (calls_le costs same rfl).trans (by simp [spent_none, World.begin, callBudget])
  | client id events =>
    have costs : Costs w.config (some ⟨id, 2⟩) _ (sessionHandleClientEvent env id events) :=
      sessionHandleClientEvent_costs env events
    refine (calls_le costs same rfl).trans ((Nat.add_le_add_right (credited id 2) _).trans ?_)
    rw [callBudget, closeCalls]
    omega
  | target id events =>
    have costs : Costs w.config (some ⟨id, 0⟩) _ (sessionHandleTargetEvent env id events) :=
      sessionHandleTargetEvent_costs env events
    refine (calls_le costs same rfl).trans ((Nat.add_le_add_right (credited id 0) _).trans ?_)
    rw [callBudget, closeCalls]
    omega
  | tick =>
    exact (calls_le (proxyTick_costs env w.sessions.keys.card) (w := w.begin) ⟨same, rfl⟩ rfl).trans
      (by simp [spent_none, World.begin, callBudget])

end Sockify.Proofs.BoundedWork
