import Sockify.Proofs.Noninterference

/-! Handlers, ticks and the shutdown do nothing to the world but work on the own
part of a session and release it. A property that neither of these breaks holds
behind all of them. -/

namespace Sockify.Proofs.Releases
open Sockify Stateful Registry SessionLogic Creation Lifetimes Locality Noninterference ServerRegistry

/-- A property that neither the work on one session nor its release breaks. -/
structure Steady (kept : World → Prop) : Prop where
  counted : ∀ w calls, kept w → kept { w with calls := calls }
  placed : ∀ (site : Site) (x y : Own), Idles x y → kept (site.place x) → kept (site.place y)
  released : ∀ (site : Site) (x : Own) (after : World), Released site x after → kept (site.place x) → kept after

variable {kept : World → Prop} {config : Config} {w : World} {id : SessionId} {s : Session} {env : Env}

section steady
variable (steady : Steady kept)
include steady

theorem Steady.callback {program : Proc Unit} (local_ : Local (surroundingsOf config id) Idles program)
    (inv : Invariant config True w) (present : w.session? id = some s) (holds : kept w) :
    kept (program w.begin).2 := by
  obtain ⟨order, linked⟩ := inv.linked
  obtain ⟨ending, idles, ends⟩ := local_ ⟨s, w.log id, w.interest id, 0⟩
  obtain ⟨-, left⟩ := ends _ (around inv linked present)
  have own : (siteOf linked present).place ⟨s, w.log id, w.interest id, 0⟩ = w.begin :=
    (siteOf linked present).place_own present
  have worked : kept ((siteOf linked present).place ending.own) :=
    steady.placed _ _ _ idles (own ▸ steady.counted w 0 holds)
  rw [own] at left
  split at left
  · exact steady.released _ _ _ left worked
  · rw [left]
    exact worked

theorem Steady.close (inv : Invariant config True w) :
    ∀ id, Keeps (fun u => Later config True w u ∧ kept u) (sessionClose id) := by
  refine keeps_sessionClose (fun u both => both.1.invariant.linked) (fun u id s both => both.1.invariant.live id s) ?_
  rintro site s after ⟨later, holds⟩ present released
  exact ⟨later.released inv present released,
    steady.released site _ after released ((site.place_own present).symm ▸ holds)⟩

theorem Steady.tick (inv : Invariant config True w) (holds : kept w) : kept (w.after env .tick) := by
  have begun : Invariant config True w.begin := inv.counted 0
  exact ((keeps_proxyTick (steady.close begun) env).final ⟨.refl begun, steady.counted w 0 holds⟩).2

end steady

/-! The shutdown. -/

private theorem keeps_shutdownLoop (closes : ∀ id, Keeps kept (sessionClose id)) (fuel : Nat) :
    Keeps kept (shutdownLoop fuel) := by
  induction fuel with
  | zero => exact .bind (.inspect _) fun head => .ite (fun _ => .pure _) fun _ => .fault _
  | succ fuel ih =>
    refine .bind (.inspect _) fun head => ?_
    cases head with
    | none => exact .pure _
    | some id => exact .bind (closes id) fun _ => ih

private theorem keeps_shutdown (closes : ∀ id, Keeps kept (sessionClose id)) : Keeps kept proxyShutdown :=
  .bind (.inspect _) fun count => keeps_shutdownLoop closes count

/-- The closing loop of `sockify_proxy_run` comes to its end, and leaves no session. -/
theorem shutdown_empties (inv : Invariant config True w) :
    ∃ after, proxyShutdown w = (.ok (), after) ∧ ∀ id, after.session? id = none := by
  obtain ⟨order, linked⟩ := inv.linked
  have live : Live w := inv.live
  have empties : Ensures (fun _ _ => False) proxyShutdown (fun _ after => Linked after []) w := by
    simp only [proxyShutdown, ensures_bind, ensures_inspect]
    exact shutdownLoop_empties live linked (linked_length_le linked)
  obtain ⟨_, after, runs, empty⟩ := empties.returns
  refine ⟨after, runs, fun id => session_none.mpr ?_⟩
  by_contra alive
  exact absurd (empty.live id alive) (by simp)

theorem Steady.shutdown (steady : Steady kept) (inv : Invariant config True w) (holds : kept w) :
    ∃ after, proxyShutdown w = (.ok (), after) ∧
    Later config True w after ∧ kept after ∧ ∀ id, after.session? id = none := by
  obtain ⟨after, runs, none⟩ := shutdown_empties inv
  have both := (keeps_shutdown (steady.close inv)).final ⟨.refl inv, holds⟩
  rw [runs] at both
  exact ⟨after, runs, both.1, both.2, none⟩

end Sockify.Proofs.Releases
