import Sockify.Digest
import Sockify.Lib.Rfc3174

/-! The streaming digest against the standard's. The padding goes through the
same byte loop as the message, so the whole input of the loop is the padded message. -/

namespace Sockify.Proofs.Sha1
open Sockify Sockify.Lib

variable {block : Bytes} {state : Sha1State} {ctx : Sha1Ctx} {n turns : Nat}

def words (state : Sha1State) : Rfc3174.Words := ⟨state.a, state.b, state.c, state.d, state.e⟩

private theorem sha1Words_eq (long : block.length = 4 * n) :
    sha1Words block = (List.range n).map (Rfc3174.word block) := by
  induction n generalizing block with
  | zero =>
    obtain rfl := List.eq_nil_of_length_eq_zero long
    rfl
  | succ n ih =>
    match block, long with
    | b0 :: b1 :: b2 :: b3 :: rest, long =>
      have short : rest.length = 4 * n := by
        simp only [List.length_cons] at long
        omega
      rw [sha1Words, ih short, List.range_succ_eq_map, List.map_cons, List.map_map]
      rfl

private theorem getD_range (g : Nat → UInt32) {i : Nat} (inside : i < n) : ((List.range n).map g).getD i 0 = g i := by
  rw [List.getD_eq_getElem?_getD, List.getElem?_map, List.getElem?_range inside]
  rfl

/-- Each turn of the loop appends the next word of the schedule. -/
theorem sha1Extend_eq (begun : 16 ≤ n) :
    sha1Extend turns ((List.range n).map (Rfc3174.W block)) = (List.range (n + turns)).map (Rfc3174.W block) := by
  induction turns generalizing n with
  | zero => rfl
  | succ turns ih =>
    have next : Rfc3174.W block n = rotl32 (Rfc3174.W block (n - 3) ^^^ Rfc3174.W block (n - 8) ^^^
        Rfc3174.W block (n - 14) ^^^ Rfc3174.W block (n - 16)) 1 := by
      rw [Rfc3174.W, if_neg (by omega)]
      rfl
    rw [sha1Extend]
    simp only [List.length_map, List.length_range]
    rw [getD_range _ (by omega), getD_range _ (by omega), getD_range _ (by omega), getD_range _ (by omega), ← next]
    have longer := ih (n := n + 1) (by omega)
    rw [List.range_succ, List.map_append, List.map_singleton] at longer
    rw [longer, Nat.add_right_comm, Nat.add_assoc]

private theorem schedule_eq (whole : block.length = 64) :
    sha1Extend 64 (sha1Words block) = (List.range' 0 80).map (Rfc3174.W block) := by
  have first : sha1Words block = (List.range 16).map (Rfc3174.W block) := by
    rw [sha1Words_eq (n := 16) whole]
    apply List.map_congr_left
    intro t early
    rw [Rfc3174.W, if_pos (List.mem_range.mp early)]
  rw [first, sha1Extend_eq (Nat.le_refl 16), List.range_eq_range']

private theorem round_eq (t : Nat) :
    words (sha1Round t (Rfc3174.W block t) state) = Rfc3174.round block (words state) t := by
  have order (x k w : UInt32) : x + k + w = x + w + k := by
    rw [UInt32.add_assoc, UInt32.add_comm k w, ← UInt32.add_assoc]
  simp only [words, sha1Round, Rfc3174.round]
  rw [order]
  rfl

private theorem rounds_eq (t count : Nat) : words (sha1Rounds t ((List.range' t count).map (Rfc3174.W block)) state) =
    (List.range' t count).foldl (Rfc3174.round block) (words state) := by
  induction count generalizing t state with
  | zero => rfl
  | succ count ih =>
    rw [List.range'_succ, List.map_cons, sha1Rounds, ih, List.foldl_cons, round_eq]

/-- One block is compressed as the standard says. -/
theorem process_eq (whole : block.length = 64) :
    words (sha1Process state block) = Rfc3174.compress (words state) block := by
  have rounds : words (sha1Rounds 0 ((List.range' 0 80).map (Rfc3174.W block)) state) =
      (List.range' 0 80).foldl (Rfc3174.round block) (words state) := rounds_eq 0 80
  rw [← schedule_eq whole, ← List.range_eq_range'] at rounds
  rw [Rfc3174.compress, ← rounds, sha1Process]
  generalize sha1Rounds 0 (sha1Extend 64 (sha1Words block)) state = s
  rfl

private theorem processAll_eq {all : List Bytes} (whole : ∀ block ∈ all, block.length = 64) :
    words (all.foldl sha1Process state) = all.foldl Rfc3174.compress (words state) := by
  induction all generalizing state with
  | nil => rfl
  | cons block rest ih =>
    rw [List.foldl_cons, List.foldl_cons, ← process_eq (whole block (List.mem_cons_self ..))]
    exact ih (fun other later => whole other (List.mem_cons_of_mem _ later))

/-- What the byte loop works on; the total length is only read at the end. -/
def view (ctx : Sha1Ctx) : Sha1State × Bytes := (ctx.state, ctx.block)

private theorem view_absorb (ctx : Sha1Ctx) (byte : UInt8) :
    view (sha1Absorb ctx byte) = Blocks.absorb sha1Process 64 (view ctx) byte := by
  rw [sha1Absorb, Blocks.absorb]
  by_cases full : (ctx.block ++ [byte]).length = 64
  · rw [if_pos full, if_pos (show ((view ctx).2 ++ [byte]).length = 64 from full)]
    rfl
  · rw [if_neg full, if_neg (show ((view ctx).2 ++ [byte]).length ≠ 64 from full)]
    rfl

private theorem view_fold (ctx : Sha1Ctx) (data : Bytes) :
    view (data.foldl sha1Absorb ctx) = data.foldl (Blocks.absorb sha1Process 64) (view ctx) := by
  induction data generalizing ctx with
  | nil => rfl
  | cons byte rest ih => rw [List.foldl_cons, List.foldl_cons, ih, view_absorb]

private theorem view_update (ctx : Sha1Ctx) (data : Bytes) :
    view (sha1Update ctx data) = data.foldl (Blocks.absorb sha1Process 64) (view ctx) := by
  rw [sha1Update, view_fold]
  rfl

private theorem view_updates (ctx : Sha1Ctx) (byte : Nat → UInt8) (all : List Nat) :
    view (all.foldl (fun ctx i => sha1Update ctx [byte i]) ctx) = (all.map byte).foldl
      (Blocks.absorb sha1Process 64) (view ctx) := by
  induction all generalizing ctx with
  | nil => rfl
  | cons i rest ih =>
    rw [List.foldl_cons, ih, view_update]
    rfl

private theorem absorb_length {current : Sha1State × Bytes} (open_ : current.2.length < 64) (byte : UInt8) :
    (Blocks.absorb sha1Process 64 current byte).2.length = (current.2.length + 1) % 64 := by
  rw [Blocks.absorb]
  by_cases full : (current.2 ++ [byte]).length = 64
  · rw [if_pos full]
    rw [List.length_append, List.length_singleton] at full
    rw [full]
    rfl
  · rw [if_neg full]
    rw [List.length_append, List.length_singleton] at full ⊢
    omega

/-- The number of zeros from an open block of this length to 56 bytes. -/
def missing (length : Nat) : Nat := (120 - length) % 64

/-- The padding loop pushes exactly the missing zeros and then leaves by its own condition. -/
theorem pad_spec (open_ : ctx.block.length < 64) (enough : missing ctx.block.length ≤ turns) :
    view (sha1Pad turns ctx) = (List.replicate (missing ctx.block.length) 0).foldl
      (Blocks.absorb sha1Process 64) (view ctx) ∧
      (sha1Pad turns ctx).block.length = 56 := by
  induction turns generalizing ctx with
  | zero =>
    have none_ : missing ctx.block.length = 0 := Nat.le_zero.mp enough
    rw [none_]
    rw [missing] at none_
    exact ⟨rfl, show ctx.block.length = 56 by omega⟩
  | succ turns ih =>
    rw [sha1Pad]
    by_cases done : ctx.block.length = 56
    · rw [if_pos done]
      refine ⟨?_, done⟩
      rw [done]
      rfl
    · rw [if_neg done]
      have step : view (sha1Update ctx [0]) = Blocks.absorb sha1Process 64 (view ctx) 0 := view_update ctx [0]
      have length : (sha1Update ctx [0]).block.length = (ctx.block.length + 1) % 64 :=
        (congrArg (fun current => current.2.length) step).trans (absorb_length open_ 0)
      have fewer : missing ctx.block.length = missing (sha1Update ctx [0]).block.length + 1 := by
        rw [length, missing, missing]
        omega
      rw [fewer] at enough ⊢
      obtain ⟨pushed, left⟩ := ih (by omega) (Nat.le_of_succ_le_succ enough)
      rw [pushed, step, List.replicate_succ, List.foldl_cons]
      exact ⟨rfl, left⟩

private theorem missing_lt (length : Nat) : missing length < 64 := Nat.mod_lt _ (by decide)

/-- More turns than needed change nothing. -/
theorem pad_turns (open_ : ctx.block.length < 64) (enough : missing ctx.block.length ≤ turns) (more : Nat) :
    sha1Pad (turns + more) ctx = sha1Pad turns ctx := by
  induction turns generalizing ctx with
  | zero =>
    have done : ctx.block.length = 56 := by
      rw [missing] at enough
      omega
    cases more with
    | zero => rfl
    | succ more => rw [Nat.zero_add, sha1Pad, sha1Pad, if_pos done]
  | succ turns ih =>
    rw [Nat.succ_add, sha1Pad, sha1Pad]
    by_cases done : ctx.block.length = 56
    · rw [if_pos done, if_pos done]
    · rw [if_neg done, if_neg done]
      have length : (sha1Update ctx [0]).block.length = (ctx.block.length + 1) % 64 :=
        (congrArg (fun current => current.2.length) (view_update ctx [0])).trans (absorb_length open_ 0)
      apply ih
      · omega
      · rw [length, missing]
        rw [missing] at enough
        omega

/-- The eight length bytes, the highest first. -/
theorem lengthByte_eq {i : Nat} (fits : 8 * n < 2 ^ 64) (low : i < 8) :
    sha1LengthByte (UInt64.ofNat n * 8) i = UInt8.ofNat (8 * n / 256 ^ i) := by
  have value : (UInt64.ofNat n * 8).toNat = 8 * n := by
    rw [UInt64.toNat_mul, UInt64.toNat_ofNat']
    show n % 2 ^ 64 * 8 % 2 ^ 64 = 8 * n
    omega
  apply UInt8.toNat_inj.mp
  rw [sha1LengthByte, UInt64.toNat_toUInt8, UInt64.toNat_shiftRight, UInt64.toNat_ofNat', value, UInt8.toNat_ofNat',
    Nat.mod_eq_of_lt (show i * 8 < 2 ^ 64 by omega),
      Nat.mod_eq_of_lt (show i * 8 < 64 by omega), Nat.shiftRight_eq_div_pow,
    Nat.mul_comm i 8, Nat.pow_mul]

private theorem lengthBytes_eq (fits : 8 * n < 2 ^ 64) :
    [7, 6, 5, 4, 3, 2, 1, 0].map (sha1LengthByte (UInt64.ofNat n * 8)) = Rfc3174.lengthBytes (8 * n) := by
  apply List.map_congr_left
  intro i member
  apply lengthByte_eq fits
  simp only [List.mem_cons, List.not_mem_nil, or_false] at member
  omega

private theorem update_total (ctx : Sha1Ctx) (data : Bytes) :
    (sha1Update ctx data).totalLen = ctx.totalLen + UInt64.ofNat data.length := by
  have kept : ∀ data : Bytes, ∀ ctx : Sha1Ctx, (data.foldl sha1Absorb ctx).totalLen = ctx.totalLen := by
    intro data
    induction data with
    | nil => exact fun _ => rfl
    | cons byte rest ih =>
      intro ctx
      rw [List.foldl_cons, ih, sha1Absorb]
      by_cases full : (ctx.block ++ [byte]).length = 64
      · rw [if_pos full]
      · rw [if_neg full]
  rw [sha1Update, kept]

/-- The context behind the message: its length is counted and its bytes are absorbed. -/
def gathered (input : Bytes) : Sha1Ctx := if input.length ≠ 0 then sha1Update sha1Init input else sha1Init

private theorem gathered_eq (input : Bytes) : gathered input = sha1Update sha1Init input := by
  cases input with
  | nil => rfl
  | cons byte rest => rfl

private theorem gathered_total (input : Bytes) : (gathered input).totalLen = UInt64.ofNat input.length := by
  rw [gathered_eq, update_total]
  exact UInt64.zero_add _

/-- All that `sha1_final` pushes behind the message is the padding of the standard. -/
theorem final_view (input : Bytes) (fits : 8 * input.length < 2 ^ 64) :
    view ([7, 6, 5, 4, 3, 2, 1, 0].foldl
      (fun ctx i => sha1Update ctx [sha1LengthByte ((gathered input).totalLen * 8) i])
        (sha1Pad 64 (sha1Update (gathered input) [0x80]))) =
    (Rfc3174.padded input).foldl (Blocks.absorb sha1Process 64) (sha1Init.state, []) := by
  have start : view (sha1Update (gathered input) [0x80]) =
      (input ++ [0x80]).foldl (Blocks.absorb sha1Process 64) (sha1Init.state, []) := by
    rw [view_update, gathered_eq, view_update, List.foldl_append]
    rfl
  have length : (sha1Update (gathered input) [0x80]).block.length = (input.length + 1) % 64 := by
    have open_ := congrArg (fun current => current.2.length) start
    rw [Blocks.foldl_absorb (by decide)] at open_
    exact open_.trans (by rw [Blocks.open_length, List.length_append, List.length_singleton])
  have zeros : missing (sha1Update (gathered input) [0x80]).block.length = (119 - input.length % 64) % 64 := by
    rw [length, missing]
    omega
  have open_ : (sha1Update (gathered input) [0x80]).block.length < 64 := by omega
  obtain ⟨pushed, -⟩ := pad_spec open_ (Nat.le_of_lt (missing_lt _))
  rw [view_updates, gathered_total, lengthBytes_eq fits, pushed, start, zeros, ← List.foldl_append, ← List.foldl_append,
    ← List.append_assoc]
  rfl

def output (state : Sha1State) : Bytes :=
  sha1WordBytes state.a ++ sha1WordBytes state.b ++
    sha1WordBytes state.c ++ sha1WordBytes state.d ++ sha1WordBytes state.e

private theorem output_length (state : Sha1State) : (output state).length = 20 := rfl

private theorem sha1_output (input : Bytes) : sha1 input = output
    ([7, 6, 5, 4, 3, 2, 1, 0].foldl (fun ctx i => sha1Update ctx [sha1LengthByte ((gathered input).totalLen * 8) i])
      (sha1Pad 64 (sha1Update (gathered input) [0x80]))).state := by
  rw [sha1, ← gathered, sha1Final, output]

theorem sha1_length (input : Bytes) : (sha1 input).length = 20 := by
  rw [sha1_output, output_length]

theorem sha1_digest {input : Bytes} (short : input.length < 2 ^ 61) : sha1 input = Rfc3174.digest input := by
  have whole := final_view input (by omega)
  rw [Blocks.foldl_absorb (by decide)] at whole
  rw [sha1_output]
  generalize [7, 6, 5, 4, 3, 2, 1, 0].foldl
    (fun ctx i => sha1Update ctx [sha1LengthByte ((gathered input).totalLen * 8) i])
    (sha1Pad 64 (sha1Update (gathered input) [0x80])) = ctx at whole ⊢
  have state : words ctx.state = (Blocks.blocks 64 (Rfc3174.padded input)).foldl Rfc3174.compress Rfc3174.initial := by
    rw [show ctx.state = _ from congrArg Prod.fst whole]
    exact processAll_eq (fun block member => Blocks.block_length member)
  rw [Rfc3174.digest, ← state]
  rfl

/-- The digest is the standard's, and the padding loop ends by its own condition:
any turns beyond the 64 change nothing. -/
theorem sha1_standard (input : Bytes) (short : input.length < 2 ^ 61) :
    sha1 input = Rfc3174.digest input ∧ (sha1 input).length = 20 ∧
    ∀ ctx : Sha1Ctx, ctx.block.length < 64 →
      (sha1Pad 64 ctx).block.length = 56 ∧ ∀ turns, sha1Pad (64 + turns) ctx = sha1Pad 64 ctx := by
  refine ⟨sha1_digest short, sha1_length input, ?_⟩
  intro ctx open_
  have enough := Nat.le_of_lt (missing_lt ctx.block.length)
  exact ⟨(pad_spec open_ enough).2, pad_turns open_ enough⟩

theorem sha1_standard_abc : sha1 (ascii "abc") = Rfc3174.digest (ascii "abc") :=
  (sha1_standard (ascii "abc") (by decide)).1

end Sockify.Proofs.Sha1
