import Mathlib.Data.List.Pairwise
import Sockify.Proofs.CommandLine

/-! The order of the groups does not matter: each is judged by itself, and
assignments under different names commute. -/

namespace Sockify.Proofs.CommandOrder
open Sockify CommandLine

/-- The name of an option with a value. A switch may as well be given twice. -/
def name : Group → Option Bytes
  | .option arg _ => some arg
  | _ => none

def arguments : Group → List Bytes
  | .leave arg => [arg]
  | .switch arg => [arg]
  | .option arg value => [arg, value]
  | .dangling arg => [arg]
  | .positional text => [text]

/-- A switch, an option with its value, or an argument that is neither. -/
def Complete : Group → Prop
  | .leave _ => False
  | .switch arg => (switchSetting arg).isSome
  | .option arg _ => ¬ Leaves arg ∧ switchSetting arg = none ∧ Dashed arg
  | .dangling _ => False
  | .positional text => ¬ Leaves text ∧ switchSetting text = none ∧ ¬ Dashed text

instance : DecidablePred Complete := fun group => by
  cases group <;> unfold Complete <;> infer_instance

variable {gs gs' : List Group} {config c : Config}

/-- Complete groups are read as what they are. -/
theorem groups_arguments (complete : ∀ group ∈ gs, Complete group) : groups (gs.flatMap arguments) = gs := by
  induction gs with
  | nil => rfl
  | cons group rest ih =>
    have later := ih fun other member => complete other (List.mem_cons_of_mem _ member)
    have here := complete group List.mem_cons_self
    cases group with
    | leave | dangling => exact here.elim
    | switch arg =>
      obtain ⟨s, found⟩ := Option.isSome_iff_exists.mp here
      exact (cliLoop_switch proxyConfigInit 0 _ found).2.trans (congrArg _ later)
    | option arg value =>
      obtain ⟨stays, plain, dashed⟩ := here
      have read := groups_other (value :: rest.flatMap arguments) stays plain
      rw [if_pos dashed] at read
      exact read.trans (congrArg _ later)
    | positional text =>
      obtain ⟨stays, plain, undashed⟩ := here
      have read := groups_other (rest.flatMap arguments) stays plain
      rw [if_neg undashed] at read
      exact read.trans (congrArg _ later)

private theorem switch_fixed {arg : Bytes} {s s' : Setting} (found : switchSetting arg = some s)
    (same : settingName s' = settingName s) :
    s' = s := by
  unfold switchSetting at found
  split at found
  next =>
    cases found
    cases s' <;> first | rfl | exact absurd same (of_decide_eq_false rfl)
  next =>
    split at found
    next =>
      cases found
      cases s' <;> first | rfl | exact absurd same (of_decide_eq_false rfl)
    next =>
      split at found
      next =>
        cases found
        cases s' <;> first | rfl | exact absurd same (of_decide_eq_false rfl)
      next => cases found

/-- Two groups that assign under one name are one group, or assign the same. -/
theorem setting_unique {group group' : Group} {s s' : Setting} (once : (gs.filterMap name).Nodup) (member : group ∈ gs)
    (member' : group' ∈ gs) (found : group.setting = some s) (found' : group'.setting = some s')
    (same : settingName s = settingName s') : s = s' := by
  cases group with
  | switch arg => exact (switch_fixed found same.symm).symm
  | option arg value =>
    cases group' with
    | switch arg' => exact switch_fixed found' same
    | option arg' value' =>
      obtain rfl : arg = arg' := by rw [← cliOption_name arg value s found, same, cliOption_name arg' value' s' found']
      by_contra apart
      have different : Group.option arg value ≠ Group.option arg value' := by
        intro groups
        rw [groups, found'] at found
        exact apart (Option.some.inj found).symm
      have : Std.Symm fun a a' : Group => ∀ b, name a = some b → ∀ b', name a' = some b' → b ≠ b' :=
        ⟨fun _ _ pair b first b' last => (pair b' last b first).symm⟩
      exact (List.pairwise_filterMap.mp once).forall member member' different arg rfl arg rfl rfl
    | _ => cases found'
  | _ => cases found

/-- Reordered assignments, each to a field of its own, leave the same configuration. -/
theorem fold_perm (once : (gs.filterMap name).Nodup) (reordered : gs.Perm gs') :
    (gs.filterMap Group.setting).foldl Config.set config = (gs'.filterMap Group.setting).foldl Config.set config := by
  apply (reordered.filterMap Group.setting).foldl_eq'
  intro s member s' member' config
  obtain ⟨group, among, found⟩ := List.mem_filterMap.mp member
  obtain ⟨group', among', found'⟩ := List.mem_filterMap.mp member'
  by_cases same : s = s'
  · rw [same]
  · exact set_comm fun names => same (setting_unique once among among' found found' names)

private theorem accepts_perm (once : (gs.filterMap name).Nodup) (reordered : gs.Perm gs')
    (order : gs.filterMap Group.text = gs'.filterMap Group.text) (accepts : Accepts config 0 gs c) :
    Accepts config 0 gs' c := by
  obtain ⟨acceptable, ps, places, result, tls⟩ := accepts
  refine ⟨fun group member => acceptable group (reordered.mem_iff.mpr member), ps, order ▸ places, ?_, tls⟩
  rw [result, List.foldl_append, List.foldl_append, fold_perm once reordered]

private theorem code_ok (args : List Bytes) (config : Config) :
    (cliParseArgs args config).2 = .ok ↔ ∃ c, Accepts config 0 (groups args) c := by
  refine ⟨fun fine => ⟨_, (cliLoop_ok config 0 args).mp (Prod.ext rfl fine)⟩, fun ⟨c, accepts⟩ => ?_⟩
  rw [cliParseArgs, (cliLoop_ok config 0 args).mpr accepts]

/-- Without `--help` and `--version` there are two codes. -/
theorem code_complete (complete : ∀ group ∈ gs, Complete group) (config : Config) :
    (cliParseArgs (gs.flatMap arguments) config).2 = .ok ∨
    (cliParseArgs (gs.flatMap arguments) config).2 = .error .invalid := by
  rcases cliLoop_code config 0 (gs.flatMap arguments) with fine | invalid | exits
  · exact .inl fine
  · exact .inr invalid
  · obtain ⟨arg, leaves⟩ := ((cliLoop_exit config (Nat.zero_le 2) _).mp exits).leaves
    rw [groups_arguments complete] at leaves
    exact (complete _ leaves).elim

/-- Reordered groups give the same code, and the same configuration where it is `SOCKIFY_OK`. -/
theorem options_commute (config : Config) (complete : ∀ group ∈ gs, Complete group) (once : (gs.filterMap name).Nodup)
    (reordered : gs.Perm gs') (order : gs.filterMap Group.text = gs'.filterMap Group.text) :
    (cliParseArgs (gs.flatMap arguments) config).2 = (cliParseArgs (gs'.flatMap arguments) config).2 ∧
    ((cliParseArgs (gs.flatMap arguments) config).2 = .ok →
      (cliParseArgs (gs.flatMap arguments) config).1 = (cliParseArgs (gs'.flatMap arguments) config).1) := by
  have complete' : ∀ group ∈ gs', Complete group := fun group member => complete group (reordered.mem_iff.mpr member)
  have once' : (gs'.filterMap name).Nodup := (reordered.filterMap name).nodup_iff.mp once
  have same : (cliParseArgs (gs.flatMap arguments) config).2 = .ok ↔
      (cliParseArgs (gs'.flatMap arguments) config).2 = .ok := by
    rw [code_ok, code_ok, groups_arguments complete, groups_arguments complete']
    exact ⟨fun ⟨c, accepts⟩ => ⟨c, accepts_perm once reordered order accepts⟩,
      fun ⟨c, accepts⟩ => ⟨c, accepts_perm once' reordered.symm order.symm accepts⟩⟩
  constructor
  · rcases code_complete complete config with fine | invalid
    · rw [fine, same.mp fine]
    · rcases code_complete complete' config with fine | invalid'
      · rw [fine, same.mpr fine]
      · rw [invalid, invalid']
  · intro fine
    have accepts : Accepts config 0 gs (cliParseArgs (gs.flatMap arguments) config).1 := by
      have read := (cliLoop_ok config 0 (gs.flatMap arguments)).mp (Prod.ext rfl fine)
      rwa [groups_arguments complete] at read
    have returns := (cliLoop_ok config 0 (gs'.flatMap arguments)).mpr (by
      rw [groups_arguments complete']
      exact accepts_perm once reordered order accepts)
    rw [cliParseArgs, cliParseArgs, returns]
    rfl

def someGroups : List Group :=
  [.switch (ascii "--target-tls"), .switch (ascii "--target-tls"),
    .positional (ascii "[::1]:80"), .option (ascii "--buffer-size") (ascii "9"), .positional (ascii "b:2")]

def otherGroups : List Group :=
  [.option (ascii "--buffer-size") (ascii "9"),
    .positional (ascii "[::1]:80"), .positional (ascii "b:2"), .switch (ascii "--target-tls"),
    .switch (ascii "--target-tls")]

theorem options_commute_switched : (cliParseArgs (someGroups.flatMap arguments) proxyConfigInit).2 = .ok ∧
    (cliParseArgs (someGroups.flatMap arguments) proxyConfigInit).1 =
    (cliParseArgs (otherGroups.flatMap arguments) proxyConfigInit).1 := by
  have fine : (cliParseArgs (someGroups.flatMap arguments) proxyConfigInit).2 = .ok := by decide +kernel
  exact ⟨fine, (options_commute proxyConfigInit
    (by decide +kernel) (by decide +kernel) (by decide +kernel) (by decide +kernel)).2 fine⟩

end Sockify.Proofs.CommandOrder
