import Sockify.Proofs.Lifetimes

/-! Reading from the target stops at the high-water mark of the ring buffer. How
much one more read may bring depends on the distance of the mark from the
buffer's end, which the smaller buffer sizes make shorter than one read. -/

namespace Sockify.Proofs.Backpressure
open Sockify Behaviour Soundness Lifetimes

/-- One read always fits below the high-water mark, or none is ever made. -/
def Roomy (config : Config) : Prop := sessionBufferSize config = 1 ∨ 16377 ≤ sessionBufferSize config

instance (config : Config) : Decidable (Roomy config) := inferInstanceAs (Decidable (_ ∨ _))

variable {config : Config} {early : Prop} {m n : Moment} {buf : Buffer}

/-- The condition is the exact one on a buffer of this size. -/
theorem roomy_iff : Roomy config ↔
    ∀ length, length < sessionBufferSize config * 3 / 4 → ioChunk ≤ sessionBufferSize config - length := by
  have positive := Creation.sessionBufferSize_pos config
  have chunk : ioChunk = 4096 := rfl
  unfold Roomy
  constructor
  · intro roomy length low
    omega
  · intro fits
    have last := fits (sessionBufferSize config * 3 / 4 - 1)
    omega

private theorem chunk_fits (roomy : Roomy config) (sized : Sized config buf)
    (low : bufferIsHigh buf = false) : ioChunk ≤ bufferWritable buf := by
  rw [bufferIsHigh, decide_eq_false_iff_not, sized.highWater, not_le] at low
  rw [bufferWritable, sized.capacity]
  exact roomy_iff.mp roomy _ low

/-- Nothing was ever offered to the ring buffer that it did not take. -/
def Whole (log : List Io) : Prop := ∀ data written, .store .target data written ∈ log → written = data.length

private theorem whole_append {log more : List Io} (whole : Whole log) (rest : Whole more) : Whole (log ++ more) := by
  intro data written member
  rcases List.mem_append.mp member with old | new
  · exact whole data written old
  · exact rest data written new

private theorem whole_acts (whole : Whole m.log) (act : Acts config early m n) : Whole n.log := by
  rcases act with ⟨_, ⟨-, reads⟩ | ⟨-, writes⟩ | secures⟩ | target
  · cases reads with
    | handled result msg done open_ room fed delivered effect =>
      cases effect <;> exact whole_append whole (by simp [Whole])
    | touched | gathered | discarded | cleared => exact whole
    | _ => exact whole_append whole (by simp [Whole])
  · cases writes with
    | touched | emptied => exact whole
    | _ => exact whole_append whole (by simp [Whole])
  · cases secures <;> exact whole_append whole (by simp [Whole])
  · cases target with
    | touched => exact whole
    | _ => exact whole_append whole (by simp [Whole])

private theorem whole_ends (roomy : Roomy config) (sound : Sound config m.session) (whole : Whole m.log)
    (ending : Ends early m n) :
    Whole (n.log ++ [.release n.session]) := by
  refine whole_append ?_ (by simp [Whole])
  rcases ending with client | target
  · cases client with
    | here | interrupted | drained => exact whole
    | _ => exact whole_append whole (by simp [Whole])
  · cases target with
    | here => exact whole
    | unsecured => exact whole_append whole (by simp [Whole])
    | overflowed bytes time transfers low chunk short =>
      exact absurd (chunk.trans (chunk_fits roomy sound.targetToClient low)) short

/-- With a buffer of the right size, whatever is read from the target fits. -/
theorem target_reads_fit {config : Config} {w : World} (roomy : Roomy config)
    (reachable : Reachable config w) (id : SessionId) (data : Bytes) (written : Nat)
    (stored : .store .target data written ∈ w.log id) : written = data.length := by
  have logs := (reachable_invariant reachable).every_log (fun m => Sound config m.session ∧ Whole m.log) Whole
    (fun s created => ⟨created.sound, by simp [Whole]⟩)
      (fun _ _ kept act => ⟨sound_acts kept.1 act, whole_acts kept.2 act⟩)
    (fun _ kept => kept.2) (fun _ _ kept ending => whole_ends roomy kept.1 kept.2 ending)
      (by simp [Whole]) (by simp [Whole])
  exact logs id data written stored

/-- The smallest of the large buffers, and a read from the target. -/
def watered : World :=
  (opened (sampleConfig 16377) true).after (.scripted [.error .again, .ok [1, 2, 3]] true 0) (.target 0 .both)

theorem target_reads_fit_watered : .store .target [1, 2, 3] 3 ∈ watered.log 0 ∧ 3 = [1, 2, 3].length := by
  obtain ⟨reachable, stored⟩ : Reachable (sampleConfig 16377) watered ∧ .store .target [1, 2, 3] 3 ∈ watered.log 0 :=
    And.imp_left (Runs.next_of (opened_runs trivial trivial) trivial) (by decide +kernel)
  exact ⟨stored, target_reads_fit (by decide) reachable 0 [1, 2, 3] 3 stored⟩

def flooded : World :=
  (opened (sampleConfig 16) true).after (.scripted [.error .again, .ok (List.replicate 17 1)] true 0) (.target 0 .both)

theorem target_reads_overflow : (sampleConfig 16).Accepted ∧ Reachable (sampleConfig 16) flooded ∧
    flooded.session? 0 = none ∧ .store .target (List.replicate 17 1) 16 ∈ flooded.log 0 :=
  ⟨by decide, And.imp_left (Runs.next_of (opened_runs trivial trivial) trivial) (by decide +kernel)⟩

end Sockify.Proofs.Backpressure
