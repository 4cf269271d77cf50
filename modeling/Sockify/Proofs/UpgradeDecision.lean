import Sockify.Proofs.HandshakeGrammar
import Sockify.Proofs.Base64
import Sockify.Proofs.Sha1

/-! What the upgrade parser answers: it waits for the header, then it grants
exactly the requests of the grammar and refuses the others. -/

namespace Sockify.Proofs.UpgradeDecision
open Sockify HandshakeGrammar

variable {request header first key response : Bytes} {fields : List Bytes} {size consumed : Nat}

def accept (key : Bytes) : Bytes := base64Loop (sha1 (key ++ wsGuid))

/-- The 101 header block around an accept value. -/
def switching (value : Bytes) : Bytes := responsePrefix ++ value ++ responseSuffix

theorem accept_length (key : Bytes) : (accept key).length = 28 := by
  rw [accept, Base64.base64Loop_length, Sha1.sha1_length]
  rfl

private theorem switching_length (key : Bytes) : (switching (accept key)).length = 129 := by
  rw [switching, List.length_append, List.length_append, accept_length]
  rfl

/-- An offered key is short enough for its buffer, and only its text counts. -/
theorem wsAcceptKey_eq (short : key.length ≤ 127) : wsAcceptKey key wsAcceptSize =
    if cString key = [] then .error .invalid else .ok (accept (cString key)) := by
  have text : (cString key).length ≤ key.length := (List.takeWhile_sublist _).length_le
  have guid : wsGuid.length = 36 := by decide
  have encoded : base64Encode (sha1 (cString key ++ wsGuid)) wsAcceptSize = .ok (accept (cString key)) := by
    rw [Base64.base64Encode_eq (by rw [Sha1.sha1_length]; decide), Sha1.sha1_length]
    rfl
  simp only [wsAcceptKey]
  by_cases empty : cString key = []
  · rw [if_pos (.inl (List.length_eq_zero_iff.mpr empty)), if_pos empty]
  · have some_ : ¬ ((cString key).length = 0 ∨ (cString key).length + wsGuid.length ≥ 256) := by
      rw [List.length_eq_zero_iff]
      rintro (nil | long)
      · exact empty nil
      · omega
    rw [if_neg some_, if_neg (by decide), if_neg empty, encoded]

/-- What the scans of the parser find in a request with this header. -/
structure Scanned (request header first : Bytes) (fields : List Bytes) : Prop where
  found : findHeaderEnd request = .ok header.length
  split : requestLine [] (request.take header.length) = (first, (fields.map (· ++ crlf)).flatten ++ crlf)
  loop : headerLines ⟨false, false, false, none⟩ [] ((fields.map (· ++ crlf)).flatten ++ crlf) =
    fields.foldlM headerLine ⟨false, false, false, none⟩

theorem scanned (is : Header request header) (layout : Layout header first fields)
    (limit : request.length ≤ wsMaxHttpRequest) :
    Scanned request header first fields := by
  obtain ⟨found, taken⟩ := findHeaderEnd_header is limit
  refine ⟨found, ?_, ?_⟩
  · have lines : requestLine [] (first ++ crlf ++ ((fields.map (· ++ crlf)).flatten ++ crlf)) = _ :=
      requestLine_eq [] (layout.whole first (List.mem_cons_self ..))
    rw [← layout.text, List.nil_append] at lines
    rw [taken, lines]
  · exact headerLines_fields (fun line member => layout.whole line (List.mem_cons_of_mem _ member)) layout.full

/-- A valid request is answered with the block around the accept value of the
text of its last key; without any text there is no answer. -/
theorem build_valid (is : Header request header) (layout : Layout header first fields)
    (limit : request.length ≤ wsMaxHttpRequest) (valid : Valid first fields) (last : LastKey fields key) :
    wsBuildHandshakeResponse request size =
      if cString key = [] then .error .invalid
      else if size ≤ 129 then .error .overflow
      else .ok (switching (accept (cString key)), header.length) := by
  obtain ⟨seen, loop, read⟩ := foldlM_read ⟨false, false, false, none⟩ valid.colons
  have offered := read.offered key last
  have short : key.length ≤ 127 := by
    obtain ⟨before, line, after, -, ⟨name, -, -, -, short⟩, -⟩ := last
    exact short
  have version : ¬ (!memoryContains (ascii " HTTP/1.1") first ∧ !memoryContains (ascii " HTTP/1.0") first) := by
    rintro ⟨new, old⟩
    rw [Bool.not_eq_true', ← Bool.not_eq_true, memoryContains_iff] at new old
    exact valid.version.elim new old
  have flags : ¬ (!seen.sawUpgrade ∨ !seen.sawConnection ∨ !seen.sawVersion) := by
    rw [read.upgrade.mpr (.inr valid.upgrade),
      read.connection.mpr (.inr valid.connection), read.version.mpr (.inr valid.protocol)]
    decide
  obtain ⟨found, split, lines⟩ := scanned is layout limit
  simp only [wsBuildHandshakeResponse, found, split, lines, loop, offered, wsAcceptKey_eq short]
  rw [if_neg (Nat.not_lt.mpr valid.long),
    if_neg (by rw [ciEqual_iff.mpr valid.method]; decide), if_neg version, if_neg flags]
  by_cases empty : cString key = []
  · rw [if_pos empty, if_pos empty]
  · have length := switching_length (cString key)
    rw [if_neg empty, if_neg empty]
    simp only [switching] at length ⊢
    rw [length, if_neg (by decide)]

/-- Whatever the grammar does not allow is a protocol error. -/
theorem build_invalid (is : Header request header) (layout : Layout header first fields)
    (limit : request.length ≤ wsMaxHttpRequest) (invalid : ¬ Valid first fields) :
    wsBuildHandshakeResponse request size = .error .protocol := by
  obtain ⟨found, split, lines⟩ := scanned is layout limit
  simp only [wsBuildHandshakeResponse, found, split, lines]
  by_cases long : first.length < 14
  · rw [if_pos long]
  rw [if_neg long]
  cases method : ciEqual (first.take 4) (ascii "GET ") with
  | false => rfl
  | true =>
    rw [if_neg (by decide)]
    by_cases version : !memoryContains (ascii " HTTP/1.1") first ∧ !memoryContains (ascii " HTTP/1.0") first
    · rw [if_pos version]
    rw [if_neg version]
    by_cases colons : ∀ field ∈ fields, 58 ∈ field
    · obtain ⟨seen, loop, read⟩ := foldlM_read ⟨false, false, false, none⟩ colons
      rw [loop]
      simp only
      rcases lastKey_or fields with ⟨key, last⟩ | without
      · rw [read.offered key last]
        simp only
        apply if_pos
        by_contra all
        apply invalid
        simp only [Bool.not_eq_true', not_or, Bool.not_eq_false] at all
        obtain ⟨upgrade, connection, protocol⟩ := all
        obtain ⟨before, line, after, parts, offers, -⟩ := last
        refine ⟨Nat.not_lt.mp long, ciEqual_iff.mp method, ?_, colons, ?_, ?_, ?_, ?_⟩
        · by_contra neither
          rw [not_or, ← memoryContains_iff, ← memoryContains_iff, Bool.not_eq_true, Bool.not_eq_true] at neither
          apply version
          rw [neither.1, neither.2]
          exact ⟨rfl, rfl⟩
        · exact (read.upgrade.mp upgrade).resolve_left nofun
        · exact (read.connection.mp connection).resolve_left nofun
        · exact (read.version.mp protocol).resolve_left nofun
        · exact keyLine_has.mp ⟨line, by rw [parts]; simp, key, offers⟩
      · rw [read.kept without]
    · simp only [not_forall] at colons
      obtain ⟨field, member, absent⟩ := colons
      rw [foldlM_refused member absent]

/-- No value of a key field has a NUL byte. -/
def Plain (fields : List Bytes) : Prop :=
  ∀ line ∈ fields, ∀ name value, Field line name value → Same name (ascii "Sec-WebSocket-Key") → 0 ∉ value

theorem cString_plain (plain : 0 ∉ key) : cString key = key := by
  rw [cString, List.takeWhile_eq_self_iff]
  intro byte member
  have other : byte ≠ 0 := fun same => plain (same ▸ member)
  simpa using other

/-- Without a header the parser asks for more. -/
theorem build_waits (limit : request.length ≤ wsMaxHttpRequest) (absent : ¬ [13, 10, 13, 10] <:+: request) :
    wsBuildHandshakeResponse request size = .error .again := by
  have waits : findHeaderEnd request = .error .again := by
    rw [findHeaderEnd, if_neg (Nat.not_lt.mpr limit), headerEndFrom_none.mpr absent]
  simp only [wsBuildHandshakeResponse, waits]

/-- With a header it does not. -/
theorem build_answers (is : Header request header) (limit : request.length ≤ wsMaxHttpRequest) (room : 129 < size) :
    wsBuildHandshakeResponse request size ≠ .error .again := by
  obtain ⟨first, fields, layout⟩ := is.layout
  by_cases valid : Valid first fields
  · obtain ⟨key, last⟩ := valid.lastKey
    rw [build_valid is layout limit valid last, if_neg (Nat.not_le.mpr room)]
    split <;> nofun
  · rw [build_invalid is layout limit valid]
    nofun

/-- Only the header decides. -/
theorem build_same {other : Bytes} (is : Header request header) (also : Header other header)
    (limit : request.length ≤ wsMaxHttpRequest) (small : other.length ≤ wsMaxHttpRequest) :
    wsBuildHandshakeResponse other size = wsBuildHandshakeResponse request size := by
  obtain ⟨found, taken⟩ := findHeaderEnd_header is limit
  obtain ⟨there, front⟩ := findHeaderEnd_header also small
  simp only [wsBuildHandshakeResponse, found, taken, there, front]

/-- The parser waits for the first CRLFCRLF and then decides by the header
alone: it grants the valid requests, wholly consumed, and refuses the others. -/
theorem upgrade_decision (request : Bytes) (size : Nat) (limit : request.length ≤ wsMaxHttpRequest)
    (room : 256 ≤ size) :
    (wsBuildHandshakeResponse request size = .error .again ↔ ¬ [13, 10, 13, 10] <:+: request) ∧
    ∀ header, Header request header →
      (∀ other, other.length ≤ wsMaxHttpRequest → Header other header →
        wsBuildHandshakeResponse other size = wsBuildHandshakeResponse request size) ∧
      (∃ first fields, Layout header first fields) ∧
      ∀ first fields, Layout header first fields → Plain fields →
        ((∃ response, wsBuildHandshakeResponse request size = .ok (response, header.length)) ↔ Valid first fields) ∧
        (¬ Valid first fields → wsBuildHandshakeResponse request size = .error .protocol) := by
  constructor
  · constructor
    · intro waits inside
      obtain ⟨header, is⟩ := header_exists.mpr inside
      exact build_answers is limit (by omega) waits
    · exact build_waits limit
  intro header is
  refine ⟨fun other small also => build_same is also limit small, is.layout, ?_⟩
  intro first fields layout plain
  refine ⟨⟨?_, ?_⟩, build_invalid is layout limit⟩
  · rintro ⟨response, granted⟩
    by_contra invalid
    rw [build_invalid is layout limit invalid] at granted
    cases granted
  · intro valid
    obtain ⟨key, last⟩ := valid.lastKey
    obtain ⟨before, line, after, parts, ⟨name, field, named, some_, -⟩, -⟩ := id last
    have text : cString key = key := cString_plain (plain line (by rw [parts]; simp) name key field named)
    have full : cString key ≠ [] := by
      rw [text]
      exact List.ne_nil_of_length_pos some_
    rw [build_valid is layout limit valid last, if_neg full, if_neg (by omega)]
    exact ⟨_, rfl⟩

def grantedHeader : Bytes :=
  ascii "GET / HTTP/1.1\r\nUpgrade: websocket\r\nConnection: keep-alive, Upgrade\r\nSec-WebSocket-Version: 13\r\nSec-WebSocket-Key: abc\r\n\r\n"

def grantedFields : List Bytes :=
  [ascii "Upgrade: websocket", ascii "Connection: keep-alive, Upgrade",
    ascii "Sec-WebSocket-Version: 13", ascii "Sec-WebSocket-Key: abc"]

/-- The request as it is read. -/
private theorem granted_read : Header (grantedHeader ++ [130, 128]) grantedHeader ∧
    Layout grantedHeader (ascii "GET / HTTP/1.1") grantedFields ∧ (∀ line ∈ grantedFields, 0 ∉ line) ∧
    Valid (ascii "GET / HTTP/1.1") grantedFields := by
  refine ⟨?_, ⟨by decide +kernel, by decide +kernel, by decide +kernel⟩, by decide +kernel,
    by decide +kernel, rfl, .inl (by decide +kernel), by decide +kernel, ?_, ?_, ?_, ?_⟩
  · have position := header_of_position
      (show headerEndFrom 0 (grantedHeader ++ [130, 128]) = some grantedHeader.length by decide +kernel)
    rwa [List.take_left] at position
  · refine ⟨ascii "Upgrade: websocket", by decide +kernel, ascii "Upgrade", ascii "websocket", ?_, rfl, rfl⟩
    exact ⟨ascii " websocket", ⟨by decide +kernel, by decide +kernel⟩, [32], [], by decide +kernel⟩
  · refine ⟨ascii "Connection: keep-alive, Upgrade", by decide +kernel, ascii "Connection",
      ascii "keep-alive, Upgrade", ?_, rfl, ?_⟩
    · exact ⟨ascii " keep-alive, Upgrade", ⟨by decide +kernel, by decide +kernel⟩, [32], [], by decide +kernel⟩
    · exact contains_upgrade.mp (by decide +kernel)
  · refine ⟨ascii "Sec-WebSocket-Version: 13", by decide +kernel, ascii "Sec-WebSocket-Version",
      ascii "13", ?_, rfl, rfl⟩
    exact ⟨ascii " 13", ⟨by decide +kernel, by decide +kernel⟩, [32], [], by decide +kernel⟩
  · refine ⟨ascii "Sec-WebSocket-Key: abc", by decide +kernel, ascii "Sec-WebSocket-Key",
      ascii "abc", ?_, rfl, by decide, by decide⟩
    exact ⟨ascii " abc", ⟨by decide +kernel, by decide +kernel⟩, [32], [], by decide +kernel⟩

/-- Without NUL bytes a request means what its texts say. -/
private theorem plain_of_free {fields : List Bytes} (free : ∀ line ∈ fields, 0 ∉ line) : Plain fields := by
  intro line member name value field _ inside
  obtain ⟨rest, ⟨cut, -⟩, before, after, trimmed, -⟩ := field
  refine free line member ?_
  rw [cut, trimmed]
  simp [inside]

theorem upgrade_decision_granted :
    ∃ response, wsBuildHandshakeResponse (grantedHeader ++ [130, 128]) 256 = .ok (response, grantedHeader.length) := by
  obtain ⟨is, layout, free, valid⟩ := granted_read
  have decided :=
    (upgrade_decision (grantedHeader ++ [130, 128]) 256 (by decide +kernel) (by decide)).2 grantedHeader is
  exact (decided.2.2 (ascii "GET / HTTP/1.1") grantedFields layout (plain_of_free free)).1.mpr valid

end Sockify.Proofs.UpgradeDecision
