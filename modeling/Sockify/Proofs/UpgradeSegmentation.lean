import Sockify.Ws.Handshake

/-! The upgrade request as it is gathered read by read. Where the reads are cut
decides nothing but how many bytes are there when the header is first whole. -/

namespace Sockify.Proofs.UpgradeSegmentation
open Sockify

def Segments (stream : Bytes) (chunks : List Bytes) : Prop :=
  chunks.flatten = stream ∧ ∀ chunk ∈ chunks, chunk ≠ [] ∧ chunk.length ≤ ioChunk

/-- What the session answers to these reads behind the bytes it has gathered:
nothing while the header is not whole, and nothing when it refuses. -/
def answer (gathered : Bytes) : List Bytes → Option Bytes
  | [] => none
  | chunk :: rest =>
    if chunk.length > wsMaxHttpRequest - gathered.length then none
    else match wsBuildHandshakeResponse (gathered ++ chunk) 256 with
      | .error .again => answer (gathered ++ chunk) rest
      | .error _ => none
      | .ok (response, _) => some response

/-- The first bytes of the stream are a valid request. -/
def Granted (stream response : Bytes) (header : Nat) : Prop :=
  wsBuildHandshakeResponse (stream.take wsMaxHttpRequest) 256 = .ok (response, header)

/-- A read that completes the header of a valid request may go beyond the limit. -/
def Overrun (stream : Bytes) : Prop :=
  ∃ response header, Granted stream response header ∧
    wsMaxHttpRequest + 1 < header + ioChunk ∧ wsMaxHttpRequest < stream.length

variable {stream gathered response request other : Bytes} {chunks : List Bytes} {header size : Nat}

theorem headerEndFrom_bounds {i : Nat} (found : headerEndFrom i request = some header) :
    i + 4 ≤ header ∧ header ≤ i + request.length := by
  induction request generalizing i with
  | nil => cases found
  | cons byte rest ih =>
    rw [headerEndFrom] at found
    split at found
    next here =>
      obtain rfl := Option.some.inj found
      have long := (List.isPrefixOf_iff_prefix.mp here).length_le
      simp only [List.length_cons, List.length_nil] at long
      exact ⟨Nat.le_refl _, by rw [List.length_cons]; omega⟩
    next =>
      have later := ih found
      rw [List.length_cons]
      omega

/-- The header of a stream ends in a prefix exactly when the prefix is long enough. -/
theorem headerEndFrom_take (i size : Nat) :
    headerEndFrom i (request.take size) = (headerEndFrom i request).filter
      (fun header => decide (header ≤ i + size)) := by
  induction request generalizing i size with
  | nil => simp [headerEndFrom]
  | cons byte rest ih =>
    cases size with
    | zero =>
      rw [List.take_zero, headerEndFrom]
      symm
      apply Option.filter_eq_none_iff.mpr
      intro header found
      have bounds := headerEndFrom_bounds found
      simp only [decide_eq_true_eq]
      omega
    | succ size =>
      have here : [13, 10, 13, 10].isPrefixOf (byte :: rest.take size) = true ↔
          [13, 10, 13, 10].isPrefixOf (byte :: rest) = true ∧ 4 ≤ size + 1 := by
        rw [List.isPrefixOf_iff_prefix, List.isPrefixOf_iff_prefix, ← List.take_succ_cons]
        exact List.prefix_take_iff
      rw [List.take_succ_cons, headerEndFrom, headerEndFrom]
      by_cases found : [13, 10, 13, 10].isPrefixOf (byte :: rest) = true
      · rw [if_pos found]
        by_cases enough : 4 ≤ size + 1
        · rw [if_pos (here.mpr ⟨found, enough⟩), Option.filter_some_pos (by simp; omega)]
        · rw [if_neg (fun both => enough (here.mp both).2), ih, Option.filter_some_neg (by simp; omega)]
          apply Option.filter_eq_none_iff.mpr
          intro header later
          have bounds := headerEndFrom_bounds later
          simp only [decide_eq_true_eq]
          omega
      · rw [if_neg found, if_neg (fun both => found (here.mp both).1), ih]
        congr 2
        funext header
        rw [show i + 1 + size = i + (size + 1) by omega]

/-- Only the header decides about a request. -/
theorem build_header (found : findHeaderEnd request = .ok header)
    (also : findHeaderEnd other = .ok header) (same : request.take header = other.take header) :
    wsBuildHandshakeResponse request 256 = wsBuildHandshakeResponse other 256 := by
  simp only [wsBuildHandshakeResponse, found, also, same]

theorem build_position (granted : wsBuildHandshakeResponse request 256 = .ok (response, header)) :
    findHeaderEnd request = .ok header := by
  simp only [wsBuildHandshakeResponse] at granted
  repeat' split at granted
  all_goals cases granted
  assumption

private theorem findHeaderEnd_take (stream : Bytes) (within : size ≤ wsMaxHttpRequest) :
    findHeaderEnd (stream.take size) = match (headerEndFrom 0 stream).filter (fun header => decide (header ≤ size)) with
      | some header => .ok header
      | none => .error .again := by
  have short : ¬ (stream.take size).length > wsMaxHttpRequest := by
    rw [List.length_take]
    omega
  have found : headerEndFrom 0 (stream.take size) =
      (headerEndFrom 0 stream).filter (fun header => decide (header ≤ size)) := by
    rw [headerEndFrom_take, Nat.zero_add]
  rw [findHeaderEnd, if_neg short]
  exact congrArg (fun found : Option Nat =>
    match found with | some header => Except.ok header | none => Except.error Err.again) found

/-- A prefix within the limit that has the whole header is answered as the
stream is; a shorter one waits. -/
theorem build_take (stream : Bytes) (within : size ≤ wsMaxHttpRequest) :
    wsBuildHandshakeResponse (stream.take size) 256 = wsBuildHandshakeResponse (stream.take wsMaxHttpRequest) 256 ∧
        (∃ header, headerEndFrom 0 stream = some header ∧ header ≤ size) ∨
      wsBuildHandshakeResponse (stream.take size) 256 = .error .again ∧
      ∀ header, headerEndFrom 0 stream = some header → size < header := by
  have here := findHeaderEnd_take stream within
  have there := findHeaderEnd_take stream (Nat.le_refl wsMaxHttpRequest)
  cases found : headerEndFrom 0 stream with
  | none =>
    rw [found] at here
    refine .inr ⟨?_, nofun⟩
    rw [wsBuildHandshakeResponse, here]
    rfl
  | some header =>
    rw [found] at here there
    by_cases enough : header ≤ size
    · refine .inl ⟨?_, header, rfl, enough⟩
      rw [Option.filter_some_pos (by simp; omega)] at here there
      apply build_header here there
      rw [List.take_take, List.take_take, Nat.min_eq_left enough, Nat.min_eq_left (Nat.le_trans enough within)]
    · refine .inr ⟨?_, ?_⟩
      · rw [Option.filter_some_neg (by simp; omega)] at here
        rw [wsBuildHandshakeResponse, here]
      · intro other same
        obtain rfl := Option.some.inj same
        omega

/-- The header of a granted stream, and where it ends. -/
theorem Granted.position (granted : Granted stream response header) :
    headerEndFrom 0 stream = some header ∧ header ≤ wsMaxHttpRequest ∧ 4 ≤ header ∧ header ≤ stream.length := by
  have found := build_position granted
  rw [findHeaderEnd_take stream (Nat.le_refl _)] at found
  cases position : headerEndFrom 0 stream with
  | none =>
    rw [position] at found
    cases found
  | some other =>
    rw [position] at found
    by_cases enough : other ≤ wsMaxHttpRequest
    · rw [Option.filter_some_pos (by simpa using enough)] at found
      obtain rfl := Except.ok.inj found
      have bounds := headerEndFrom_bounds position
      exact ⟨rfl, enough, by omega, by omega⟩
    · rw [Option.filter_some_neg (by simpa using enough)] at found
      cases found

/-- What follows a valid request leaves it valid. -/
theorem granted_request (granted : wsBuildHandshakeResponse request 256 = .ok (response, header)) (more : Bytes) :
    Granted (request ++ more) response header := by
  have found := build_position granted
  have within : request.length ≤ wsMaxHttpRequest := by
    rw [findHeaderEnd] at found
    split at found
    · cases found
    · omega
  rcases build_take (request ++ more) within with ⟨same, -⟩ | ⟨waits, -⟩
  · rw [List.take_left, granted] at same
    exact same.symm
  · rw [List.take_left, granted] at waits
    cases waits

/-- Reads of a stream that is no valid request are not answered. -/
theorem answer_failed (invalid : ∀ response header, ¬ Granted stream response header)
    (whole : gathered ++ chunks.flatten = stream) (within : gathered.length ≤ wsMaxHttpRequest) :
    answer gathered chunks = none := by
  induction chunks generalizing gathered with
  | nil => rfl
  | cons chunk rest ih =>
    rw [answer]
    split
    · rfl
    next fits =>
      have total : (gathered ++ chunk).length ≤ wsMaxHttpRequest := by
        rw [List.length_append]
        omega
      have layout : (gathered ++ chunk) ++ rest.flatten = stream := by
        rw [List.append_assoc, ← List.flatten_cons]
        exact whole
      have same : gathered ++ chunk = stream.take (gathered ++ chunk).length := by rw [← layout, List.take_left]
      split
      next => exact ih layout total
      next => rfl
      next response header granted =>
        rw [same] at granted
        rcases build_take stream total with ⟨answered, -⟩ | ⟨waits, -⟩
        · exact absurd (answered.symm.trans granted) (invalid response header)
        · rw [waits] at granted
          cases granted

/-- Reads of a valid request are answered, unless one of them both completes
the header and goes beyond the limit. -/
theorem answer_granted (granted : Granted stream response header) (whole : gathered ++ chunks.flatten = stream)
    (before : gathered.length < header)
    (small : ∀ past chunk later, chunks = past ++ chunk :: later → (gathered ++ past.flatten).length < header →
      (gathered ++ past.flatten ++ chunk).length ≤ wsMaxHttpRequest) : answer gathered chunks = some response := by
  obtain ⟨position, limit, -, inside⟩ := granted.position
  induction chunks generalizing gathered with
  | nil =>
    rw [List.flatten_nil, List.append_nil] at whole
    rw [whole] at before
    omega
  | cons chunk rest ih =>
    have total : (gathered ++ chunk).length ≤ wsMaxHttpRequest := by
      simpa using small [] chunk rest rfl (by simpa using before)
    have layout : (gathered ++ chunk) ++ rest.flatten = stream := by
      rw [List.append_assoc, ← List.flatten_cons]
      exact whole
    have same : gathered ++ chunk = stream.take (gathered ++ chunk).length := by rw [← layout, List.take_left]
    rw [answer, if_neg (by rw [List.length_append] at total; omega)]
    rcases build_take stream total with ⟨answered, -⟩ | ⟨waits, short⟩
    · rw [← same, granted] at answered
      rw [answered]
    · rw [← same] at waits
      rw [waits]
      apply ih layout (short header position)
      intro past other later parts under
      have later := small (chunk :: past) other later (by rw [parts, List.cons_append])
      simp only [List.flatten_cons, ← List.append_assoc] at later
      exact later under

/-- Away from an overrun, a valid request is answered however it is cut. -/
theorem answer_fits (granted : Granted stream response header) (fits : ¬ Overrun stream)
    (segments : Segments stream chunks) :
    answer [] chunks = some response := by
  obtain ⟨position, limit, some_, inside⟩ := granted.position
  obtain ⟨whole, sizes⟩ := segments
  apply answer_granted granted (by rw [List.nil_append, whole]) (by simp only [List.length_nil]; omega)
  intro past chunk later parts under
  rw [List.nil_append] at under ⊢
  have size := (sizes chunk (by simp [parts])).2
  have part : (past.flatten ++ chunk).length ≤ stream.length := by
    rw [← whole, parts]
    simp
  rw [List.length_append] at part ⊢
  by_contra excess
  exact fits ⟨response, header, granted, by omega, by omega⟩

/-- Reads that stop short of the end of the header are gathered. -/
theorem answer_waits {more : List Bytes} (position : headerEndFrom 0 stream = some header)
    (limit : header ≤ wsMaxHttpRequest) (whole : gathered ++ (chunks ++ more).flatten = stream)
    (short : (gathered ++ chunks.flatten).length < header) :
    answer gathered (chunks ++ more) = answer (gathered ++ chunks.flatten) more := by
  induction chunks generalizing gathered with
  | nil => rw [List.nil_append, List.flatten_nil, List.append_nil]
  | cons chunk rest ih =>
    rw [List.flatten_cons, ← List.append_assoc] at short ⊢
    have layout : (gathered ++ chunk) ++ (rest ++ more).flatten = stream := by
      rw [List.append_assoc, ← List.flatten_cons]
      exact whole
    have same : gathered ++ chunk = stream.take (gathered ++ chunk).length := by rw [← layout, List.take_left]
    have less : (gathered ++ chunk).length < header := by
      rw [List.length_append] at short
      omega
    have total : (gathered ++ chunk).length ≤ wsMaxHttpRequest := by omega
    rw [List.cons_append, answer, if_neg (by rw [List.length_append] at total; omega)]
    rcases build_take stream total with ⟨-, other, found, enough⟩ | ⟨waits, -⟩
    · rw [position] at found
      obtain rfl := Option.some.inj found
      omega
    · rw [← same] at waits
      rw [waits]
      exact ih layout short

def singles (stream : Bytes) : List Bytes := stream.map fun byte => [byte]

private theorem singles_flatten (stream : Bytes) : (singles stream).flatten = stream := by
  induction stream with
  | nil => rfl
  | cons byte rest ih =>
    rw [singles, List.map_cons, List.flatten_cons, List.singleton_append]
    exact congrArg (byte :: ·) ih

private theorem singles_sizes : ∀ chunk ∈ singles stream, chunk.length = 1 := by
  intro chunk member
  obtain ⟨byte, -, rfl⟩ := List.mem_map.mp member
  rfl

theorem singles_segments (stream : Bytes) : Segments stream (singles stream) := by
  refine ⟨singles_flatten stream, fun chunk member => ?_⟩
  have size := singles_sizes chunk member
  refine ⟨?_, by rw [size]; decide⟩
  rintro rfl
  cases size

theorem answer_singles (granted : Granted stream response header) : answer [] (singles stream) = some response := by
  obtain ⟨position, limit, some_, inside⟩ := granted.position
  apply answer_granted granted (by rw [List.nil_append, singles_flatten]) (by rw [List.length_nil]; omega)
  intro past chunk later parts under
  have size := singles_sizes chunk (by rw [parts]; simp)
  rw [List.length_append]
  omega

def lumped (stream : Bytes) (header : Nat) : List Bytes :=
  singles (stream.take (header - 1)) ++
    (stream.drop (header - 1)).take ioChunk :: singles ((stream.drop (header - 1)).drop ioChunk)

theorem lumped_segments (granted : Granted stream response header) : Segments stream (lumped stream header) := by
  obtain ⟨-, -, some_, inside⟩ := granted.position
  constructor
  · rw [lumped, List.flatten_append,
      List.flatten_cons, singles_flatten, singles_flatten, List.take_append_drop, List.take_append_drop]
  · intro chunk member
    rcases List.mem_append.mp member with first | rest
    · exact (singles_segments _).2 chunk first
    · rcases List.mem_cons.mp rest with rfl | last
      · refine ⟨fun empty => ?_, by rw [List.length_take]; omega⟩
        have size := congrArg List.length empty
        simp only [List.length_take, List.length_drop, List.length_nil, ioChunk] at size
        omega
      · exact (singles_segments _).2 chunk last

theorem answer_lumped (granted : Granted stream response header) (late : wsMaxHttpRequest + 1 < header + ioChunk)
    (long : wsMaxHttpRequest < stream.length) : answer [] (lumped stream header) = none := by
  obtain ⟨position, limit, some_, inside⟩ := granted.position
  have short : ([] ++ (singles (stream.take (header - 1))).flatten).length < header := by
    rw [List.nil_append, singles_flatten, List.length_take]
    omega
  have whole := (lumped_segments granted).1
  rw [lumped, answer_waits position limit whole short, List.nil_append, singles_flatten, answer, if_pos]
  simp only [List.length_take, List.length_drop]
  omega

end Sockify.Proofs.UpgradeSegmentation
