import Sockify.Proofs.Lifetimes
import Sockify.Proofs.ParserSegmentation

/-! Every call of the parser uses a byte, and a call that asks for more uses
them all. So `session_process_ws_bytes` ends, whatever it is given. -/

namespace Sockify.Proofs.ParserProgress
open Sockify Stateful Driving ParserCursor ParserSegmentation Registry Lifetimes

/-- How often the parser has been called for a session. -/
def parserCalls (log : List Io) : Nat := log.countP fun
  | .feed _ => true
  | _ => false

/-- The loop of `session_process_ws_bytes` without its exit behind a call that
asks for more and has used nothing: such a call is a fault here. -/
def strictLoop (id : SessionId) : Nat → Bytes → Proc (Except Err Unit)
  | 0, _ => fault .diverges
  | fuel + 1, data =>
    if data = [] then processDone id
    else do
      let s ← deref id
      if s.closing ≠ .no then processDone id
      else
        if payloadCapacity s = 0 then do
          record id (.abandoned data)
          pure (.error .again)
        else
          let result := wsParserFeed s.wsParser data (payloadCapacity s)
          update id fun s => { s with wsParser := result.parser }
          record id (.feed (data.take result.used))
          match result.outcome with
          | .ok msg => do
            sessionHandleWsMessage id msg
            strictLoop id fuel (data.drop result.used)
          | .error .again =>
            if result.used = 0 then fault .diverges else strictLoop id fuel (data.drop result.used)
          | .error error => pure (.error error)

variable {parser : WsParser} {data : Bytes} {capacity : Nat} {id : SessionId} {w : World} {α : Type}

/-- What a call without an error does with the bytes it is given. -/
theorem feed_progress (valid : Valid parser) (some_ : data ≠ []) (room : 0 < capacity) :
    ((∀ error, (wsParserFeed parser data capacity).outcome = .error error → error = .again) →
      1 ≤ (wsParserFeed parser data capacity).used ∧ (wsParserFeed parser data capacity).used ≤ data.length) ∧
    ((wsParserFeed parser data capacity).outcome = .error .again →
    (wsParserFeed parser data capacity).used = data.length) := by
  have spec := wsParserFeed_fed room data valid
  have count : 0 < data.length := List.length_pos_iff.mpr some_
  cases outcome : (wsParserFeed parser data capacity).outcome with
  | ok msg =>
    rw [Fed, outcome] at spec
    obtain ⟨used, total, delivered⟩ := spec
    have progress := delivered.progress
    exact ⟨fun _ => by omega, fun asked => by cases asked⟩
  | error error =>
    by_cases again : error = .again
    · subst again
      rw [Fed, outcome] at spec
      obtain ⟨all, -⟩ := spec
      exact ⟨fun _ => by omega, fun _ => by omega⟩
    · exact ⟨fun fine => absurd (fine error rfl) again, fun same => absurd (Except.error.inj same) again⟩

/-- Nothing is parsed from one state of the world to the other. -/
structure Unparsed (id : SessionId) (w after : World) : Prop where
  calls : parserCalls (after.log id) = parserCalls (w.log id)
  parser : ∀ t, after.session? id = some t → ∃ s, w.session? id = some s ∧ t.wsParser = s.wsParser

theorem Unparsed.refl (w : World) : Unparsed id w w := ⟨rfl, fun t present => ⟨t, present, rfl⟩⟩

theorem Unparsed.trans {a b c : World} (first : Unparsed id a b) (last : Unparsed id b c) : Unparsed id a c where
  calls := last.calls.trans first.calls
  parser := fun t present => by
    obtain ⟨s, middle, same⟩ := last.parser t present
    obtain ⟨r, before, earlier⟩ := first.parser s middle
    exact ⟨r, before, same.trans earlier⟩

/-- A program that calls no parser, and stops on missing sessions only. -/
abbrev Quiet (id : SessionId) (program : Proc α) : Prop := Advances (· ≠ .diverges) (Unparsed id) program

section quiet
variable {other : SessionId} {node after : Node}

private theorem unparsed_putNode (found : w.node? other = some node)
    (same : after.session.wsParser = node.session.wsParser) :
    Unparsed id w (w.putNode other after) where
  calls := rfl
  parser := fun t present => by
    rw [World.session?, node_putNode] at present
    split at present
    next here =>
      cases present
      exact ⟨node.session, by rw [World.session?, here, found]; rfl, same⟩
    · exact ⟨t, present, rfl⟩

private theorem quiet_deref : Quiet id (deref other) := by
  intro w
  unfold Ensures deref
  cases w.session? other with
  | none => exact ⟨nofun, .refl w⟩
  | some s => exact .refl w

private theorem quiet_derefNode : Quiet id (derefNode other) := by
  intro w
  unfold Ensures derefNode
  cases w.node? other with
  | none => exact ⟨nofun, .refl w⟩
  | some node => exact .refl w

private theorem quiet_updateNode {f : Node → Node} (keeps : ∀ node, (f node).session = node.session) :
    Quiet id (updateNode other f) := by
  intro w
  unfold Ensures updateNode
  cases found : w.node? other with
  | none => exact ⟨nofun, .refl w⟩
  | some node => exact unparsed_putNode found (by rw [keeps])

private theorem quiet_update {f : Session → Session} (keeps : ∀ s, (f s).wsParser = s.wsParser) :
    Quiet id (update other f) := by
  intro w
  unfold Ensures update
  cases present : w.session? other with
  | none => exact ⟨nofun, .refl w⟩
  | some s =>
    obtain ⟨node, found, rfl⟩ := Option.map_eq_some_iff.mp present
    simp only [World.put, found]
    exact unparsed_putNode found (keeps _)

private theorem quiet_record (io : Io) (silent : ∀ bytes, io ≠ .feed bytes) : Quiet id (record id io) := by
  refine Advances.change fun w => ⟨?_, fun t present => ⟨t, present, rfl⟩⟩
  have none_ : parserCalls [io] = 0 := by
    cases io with
    | feed bytes => exact absurd rfl (silent bytes)
    | _ => rfl
  have grown : (w.logged id io).log id = w.log id ++ [io] := Function.update_self _ _ _
  rw [grown, parserCalls, List.countP_append]
  exact congrArg _ none_

private theorem quiet_setInterest (side : Side) (events : Option Events) : Quiet id (setInterest other side events) :=
  Advances.change fun _ => ⟨rfl, fun t present => ⟨t, present, rfl⟩⟩

private theorem quiet_perform (deed : Deed) : Quiet id (perform deed) :=
  Advances.change fun _ => ⟨rfl, fun t present => ⟨t, present, rfl⟩⟩

private theorem quiet_freed : Quiet id (change (·.freed other)) := by
  refine Advances.change fun w => ⟨rfl, fun t present => ?_⟩
  by_cases same : id = other
  · rw [same, World.session?, node_freed_self] at present
    cases present
  · rw [World.session?, node_freed_other same] at present
    exact ⟨t, present, rfl⟩

private theorem quiet_bind {β : Type} {program : Proc α} {next : α → Proc β} (first : Quiet id program)
    (rest : ∀ value, Quiet id (next value)) :
    Quiet id (program >>= next) := by
  apply Advances.bind _ first rest
  exact fun _ _ _ => Unparsed.trans

private theorem quiet_pure (value : α) : Quiet id (pure value) := Advances.pure Unparsed.refl value

private theorem quiet_onlyIf {condition : Prop} [Decidable condition] {program : Proc Unit} (inner : Quiet id program) :
    Quiet id (onlyIf condition program) := Advances.onlyIf Unparsed.refl inner

private theorem quiet_ite {condition : Prop} [Decidable condition] {first last : Proc α}
    (yes : Quiet id first) (no : Quiet id last) :
    Quiet id (if condition then first else last) := by
  split
  · exact yes
  · exact no

private theorem quiet_setNext (prev next : Option SessionId) : Quiet id (setNext prev next) := by
  cases prev with
  | none => exact Advances.change fun w => ⟨rfl, fun t present => ⟨t, present, rfl⟩⟩
  | some prev => exact quiet_updateNode fun _ => rfl

private theorem quiet_setPrev (next prev : Option SessionId) : Quiet id (setPrev next prev) := by
  cases next with
  | none => exact quiet_pure ()
  | some next => exact quiet_updateNode fun _ => rfl

private theorem quiet_unlink : Quiet id (serverUnlinkSession id) := by
  refine quiet_bind quiet_derefNode fun node => quiet_bind (Advances.inspect Unparsed.refl _) fun head => ?_
  apply quiet_ite (quiet_pure ())
  refine quiet_bind (quiet_setNext _ _) fun _ => quiet_bind (quiet_setPrev _ _) fun _ => ?_
  refine quiet_bind (quiet_updateNode fun _ => rfl) fun _ => ?_
  exact Advances.change fun w => ⟨rfl, fun t present => ⟨t, present, rfl⟩⟩

private theorem quiet_free : Quiet id (sessionFree id) :=
  quiet_bind (quiet_perform _) fun _ =>
    quiet_bind (quiet_perform _) fun _ => quiet_bind (quiet_perform _) fun _ => quiet_freed

private theorem quiet_close : Quiet id (sessionClose id) := by
  refine quiet_bind quiet_deref fun s => quiet_ite (quiet_pure ()) ?_
  refine quiet_bind (quiet_update fun _ => rfl) fun _ => ?_
  refine quiet_bind (quiet_onlyIf (quiet_bind (quiet_perform _) fun _ =>
    quiet_bind (quiet_setInterest _ _) fun _ => quiet_update fun _ => rfl)) fun _ => ?_
  refine quiet_bind (quiet_onlyIf (quiet_bind (quiet_perform _) fun _ =>
    quiet_bind (quiet_setInterest _ _) fun _ => quiet_update fun _ => rfl)) fun _ => ?_
  refine quiet_bind (quiet_onlyIf (quiet_bind (quiet_perform _) fun _ =>
    quiet_bind (quiet_update fun _ => rfl) fun _ => quiet_perform _)) fun _ => ?_
  refine quiet_bind (quiet_onlyIf (quiet_bind (quiet_perform _) fun _ =>
    quiet_bind (quiet_update fun _ => rfl) fun _ => quiet_perform _)) fun _ => ?_
  refine quiet_bind quiet_unlink fun _ => quiet_bind quiet_free fun _ => ?_
  exact quiet_record _ nofun

private theorem quiet_makeWsFrame (opcode : Nat) (payload : Bytes) :
    Quiet id (sessionMakeWsFrame id opcode payload) := by
  refine quiet_bind quiet_deref fun s => quiet_ite (quiet_pure _) ?_
  cases wsWriteFrame opcode payload s.clientOutCapacity with
  | error error => exact quiet_pure _
  | ok written =>
    refine quiet_bind (quiet_update fun _ => rfl) fun _ => quiet_bind (quiet_record _ nofun) fun _ => ?_
    exact quiet_pure _

/-- What is done about a message calls no parser. -/
theorem quiet_handleWsMessage (msg : WsMessage) : Quiet id (sessionHandleWsMessage id msg) := by
  apply quiet_ite
  · refine quiet_bind quiet_deref fun s => quiet_bind (quiet_update fun _ => rfl) fun _ => ?_
    exact quiet_bind (quiet_record _ nofun) fun _ => quiet_onlyIf quiet_close
  apply quiet_ite
  · exact quiet_bind (quiet_makeWsFrame _ _) fun rc => quiet_onlyIf quiet_close
  apply quiet_ite
  · refine quiet_bind (quiet_update fun _ => rfl) fun _ => quiet_bind quiet_deref fun s => quiet_onlyIf ?_
    exact quiet_bind (quiet_makeWsFrame _ _) fun rc => quiet_onlyIf (quiet_update fun _ => rfl)
  · exact quiet_pure ()

private theorem quiet_done : Quiet id (processDone id) :=
  quiet_bind quiet_deref fun _ => quiet_ite (quiet_pure _) (quiet_pure _)

end quiet

/-! One turn of the loop. -/

section turn
variable {s t : Session} {β : Type}

private theorem deref_then (present : w.session? id = some s) (next : Session → Proc β) :
    (deref id >>= next) w = next s w := by
  simp [Bind.bind, deref, present]

private theorem update_then (present : w.session? id = some s) (f : Session → Session) (next : Unit → Proc β) :
    (update id f >>= next) w = next () (w.put id (f s)) := by
  simp [Bind.bind, update, present]

private theorem record_then (io : Io) (next : Unit → Proc β) : (record id io >>= next) w = next () (w.logged id io) :=
  rfl

private theorem deref_missing (missing : w.session? id = none) (next : Session → Proc β) :
    (deref id >>= next) w = (.error (.noSuchSession id), w) := by
  simp [Bind.bind, deref, missing]

private theorem put_present (present : w.session? id = some s) (t : Session) :
    (w.put id t).session? id = some t ∧ (w.put id t).log = w.log := by
  obtain ⟨node, found, -⟩ := Option.map_eq_some_iff.mp present
  simp only [World.put, found]
  exact ⟨by rw [World.session?, node_putNode_self]; rfl, rfl⟩

def called (id : SessionId) (s : Session) (data : Bytes) (w : World) : World :=
  (w.put id { s with wsParser := (wsParserFeed s.wsParser data (payloadCapacity s)).parser }).logged id
    (.feed (data.take (wsParserFeed s.wsParser data (payloadCapacity s)).used))

private theorem called_calls (present : w.session? id = some s) (data : Bytes) :
    parserCalls ((called id s data w).log id) = parserCalls (w.log id) + 1 := by
  have grown : (called id s data w).log id =
      w.log id ++ [.feed (data.take (wsParserFeed s.wsParser data (payloadCapacity s)).used)] := by
    have same :=
      (put_present present { s with wsParser := (wsParserFeed s.wsParser data (payloadCapacity s)).parser }).2
    rw [← same]
    exact Function.update_self _ _ _
  rw [grown, parserCalls, List.countP_append]
  rfl

private theorem parser_of_called (present : w.session? id = some s) (data : Bytes)
    (still : (called id s data w).session? id = some t) :
    t.wsParser = (wsParserFeed s.wsParser data (payloadCapacity s)).parser := by
  have same := (put_present present { s with wsParser := (wsParserFeed s.wsParser data (payloadCapacity s)).parser }).1
  have here : (called id s data w).session? id =
      some { s with wsParser := (wsParserFeed s.wsParser data (payloadCapacity s)).parser } :=
    same
  rw [here] at still
  rw [← Option.some.inj still]

end turn

/-- How the loop ends: as the strict one does, and after so many calls at most. -/
structure Settles (id : SessionId) (limit : Nat) (result strict : Except Fault (Except Err Unit) × World) : Prop where
  same : result = strict
  ends : result.1 ≠ .error .diverges
  calls : parserCalls (result.2.log id) ≤ limit

theorem Settles.weaken {result strict : Except Fault (Except Err Unit) × World} {limit wider : Nat}
    (settles : Settles id limit result strict) (fits : limit ≤ wider) : Settles id wider result strict :=
  ⟨settles.same, settles.ends, settles.calls.trans fits⟩

theorem Settles.quiet {program : Proc (Except Err Unit)} (quiet : Quiet id program) {limit : Nat}
    (few : parserCalls (w.log id) ≤ limit) :
    Settles id limit (program w) (program w) := by
  have step := quiet w
  unfold Ensures at step
  split at step
  next value after same =>
    rw [same]
    exact ⟨rfl, nofun, step.calls.trans_le few⟩
  next reason after same =>
    rw [same]
    exact ⟨rfl, fun stopped => step.1 (Except.error.inj stopped), step.2.calls.trans_le few⟩

/-- The two loops behind the same quiet program. -/
theorem Settles.behind {program : Proc Unit} (quiet : Quiet id program) {limit : Nat}
    (few : parserCalls (w.log id) ≤ limit) {first last : Proc (Except Err Unit)}
    (onward : ∀ after, Unparsed id w after → Settles id limit (first after) (last after)) :
    Settles id limit ((program >>= fun _ => first) w) ((program >>= fun _ => last) w) := by
  have step := quiet w
  unfold Ensures at step
  simp only [Bind.bind]
  split at step
  next value after same => exact onward after step
  next reason after same => exact ⟨rfl, fun stopped => step.1 (Except.error.inj stopped), step.2.calls.trans_le few⟩

private theorem processLoop_settles (fuel : Nat) (enough : data.length < fuel)
    (valid : ∀ s, w.session? id = some s → Valid s.wsParser) :
    Settles id (parserCalls (w.log id) + data.length) (processLoop id fuel data w) (strictLoop id fuel data w) := by
  induction fuel generalizing data w with
  | zero => omega
  | succ fuel ih =>
    rw [processLoop, strictLoop]
    by_cases empty : data = []
    · rw [if_pos empty, if_pos empty]
      exact .quiet quiet_done (Nat.le_add_right _ _)
    · rw [if_neg empty, if_neg empty]
      have count : 0 < data.length := List.length_pos_iff.mpr empty
      cases present : w.session? id with
      | none =>
        rw [deref_missing present, deref_missing present]
        exact ⟨rfl, by simp, Nat.le_add_right _ _⟩
      | some s =>
        rw [deref_then present, deref_then present]
        split
        · exact .quiet quiet_done (Nat.le_add_right _ _)
        · split
          · exact .quiet (quiet_bind (quiet_record (.abandoned data) (fun bytes same => by cases same)) fun _ =>
              quiet_pure _) (Nat.le_add_right _ _)
          next full =>
            rw [update_then present, update_then present, record_then, record_then, ← called]
            obtain ⟨progress, all⟩ := feed_progress (valid s present) empty (Nat.pos_of_ne_zero full)
            have calls := called_calls present data
            have parser := fun t => parser_of_called (t := t) present data
            have onward := fed_valid (payloadCapacity s) data (valid s present)
            cases outcome : (wsParserFeed s.wsParser data (payloadCapacity s)).outcome with
            | ok msg =>
              rw [outcome] at progress onward
              obtain ⟨some_, within⟩ := progress fun error impossible => by cases impossible
              apply Settles.behind (quiet_handleWsMessage msg) (by omega)
              intro after step
              have rest : (data.drop (wsParserFeed s.wsParser data (payloadCapacity s)).used).length < fuel := by
                rw [List.length_drop]
                omega
              have kept : ∀ t, after.session? id = some t → Valid t.wsParser := by
                intro t here
                obtain ⟨u, before, same⟩ := step.parser t here
                rw [same, parser u before]
                exact onward (.inl ⟨msg, rfl⟩)
              apply (ih rest kept).weaken
              rw [step.calls, calls, List.length_drop]
              omega
            | error error =>
              cases error with
              | again =>
                rw [outcome] at onward
                have used := all outcome
                have more : ¬ (wsParserFeed s.wsParser data (payloadCapacity s)).used = 0 := by omega
                simp only [if_neg more]
                have rest : (data.drop (wsParserFeed s.wsParser data (payloadCapacity s)).used).length < fuel := by
                  rw [List.length_drop]
                  omega
                have kept : ∀ t, (called id s data w).session? id = some t → Valid t.wsParser := by
                  intro t here
                  rw [parser t here]
                  exact onward (.inr rfl)
                apply (ih rest kept).weaken
                rw [calls, List.length_drop]
                omega
              | _ => exact .quiet (quiet_pure _) (by omega)

/-- From a parser that no call has failed on: a call makes progress, or asks for
more behind all its bytes; so `session_process_ws_bytes` ends after one call for
each byte at most, and never by its exit behind a call that used nothing. -/
theorem process_terminates {parser : WsParser} (reached : Reached parser) :
    (∀ data capacity, data ≠ [] → 0 < capacity →
      ((∀ error, (wsParserFeed parser data capacity).outcome = .error error → error = .again) →
        1 ≤ (wsParserFeed parser data capacity).used ∧ (wsParserFeed parser data capacity).used ≤ data.length) ∧
      ((wsParserFeed parser data capacity).outcome = .error .again →
      (wsParserFeed parser data capacity).used = data.length)) ∧
    ∀ w id s data, w.session? id = some s → s.wsParser = parser →
      (sessionProcessWsBytes id data w).1 ≠ .error .diverges ∧
      parserCalls ((sessionProcessWsBytes id data w).2.log id) ≤ parserCalls (w.log id) + data.length ∧
      sessionProcessWsBytes id data w = strictLoop id (data.length + 1) data w := by
  have valid := reached_valid reached
  refine ⟨fun data capacity some_ room => feed_progress valid some_ room, fun w id s data present same => ?_⟩
  have settles : Settles id _ (sessionProcessWsBytes id data w) (strictLoop id (data.length + 1) data w) :=
    processLoop_settles (data.length + 1) (Nat.lt_succ_self _) fun t here => by
      rw [present] at here
      rw [← Option.some.inj here, same]
      exact valid
  exact ⟨settles.ends, settles.calls, settles.same⟩

def oneByte : Bytes := [130, 129, 0, 0, 0, 0, 9]

theorem process_terminates_oneByte : (wsParserFeed wsParserInit oneByte 1).used ≤ 7 ∧
    (sessionProcessWsBytes 0 oneByte (connected (sampleConfig 64))).1 ≠ .error .diverges ∧
    parserCalls ((sessionProcessWsBytes 0 oneByte (connected (sampleConfig 64))).2.log 0) ≤
      parserCalls ((connected (sampleConfig 64)).log 0) + 7 := by
  obtain ⟨present, fresh⟩ : (connected (sampleConfig 64)).session? 0 ≠ none ∧
      ∀ s ∈ (connected (sampleConfig 64)).session? 0, s.wsParser = wsParserInit := by decide +kernel
  obtain ⟨s, alive⟩ := Option.ne_none_iff_exists'.mp present
  have fine : ∀ error, (wsParserFeed wsParserInit oneByte 1).outcome = .error error → error = .again :=
    fun _ impossible => nomatch impossible
  obtain ⟨progress, run⟩ := process_terminates .init
  obtain ⟨ends, calls, -⟩ := run (connected (sampleConfig 64)) 0 s oneByte alive (fresh s alive)
  exact ⟨((progress oneByte 1 nofun (by decide)).1 fine).2, ends, calls⟩

end Sockify.Proofs.ParserProgress
