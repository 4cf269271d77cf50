import Sockify.Proofs.UpgradeDecision

/-! The accept value of a response. The key is copied with its length but
measured again as a C string, so a NUL byte cuts it. -/

namespace Sockify.Proofs.AcceptValue
open Sockify Sockify.Lib HandshakeGrammar UpgradeDecision

variable {request header first key response : Bytes} {fields : List Bytes} {size consumed : Nat}

/-- The response carries the accept value of the key: 28 characters of base64
for the digest of the whole key and the GUID, inside the fixed block. -/
def Carries (response key : Bytes) : Prop :=
  ∃ value, response = responsePrefix ++ value ++ responseSuffix ∧ value.length = 28 ∧
    Rfc4648.decode value = some (Rfc3174.digest (key ++ wsGuid))

private theorem lastKey_short (last : LastKey fields key) : key.length ≤ 127 := by
  obtain ⟨before, line, after, -, ⟨name, -, -, -, short⟩, -⟩ := last
  exact short

private theorem cString_length (key : Bytes) : (cString key).length ≤ key.length := (List.takeWhile_sublist _).length_le

/-- The text of a key is the whole key only without a NUL. -/
theorem cString_eq_iff : cString key = key ↔ 0 ∉ key := by
  constructor
  · intro same member
    rw [cString, List.takeWhile_eq_self_iff] at same
    have kept := same 0 member
    simp at kept
  · exact cString_plain

private theorem switching_injective {value other : Bytes} (same : switching value = switching other) :
    value = other := by
  rw [switching, switching, List.append_assoc, List.append_assoc] at same
  exact List.append_cancel_right (List.append_cancel_left same)

private theorem decode_accept (short : key.length ≤ 127) :
    Rfc4648.decode (accept key) = some (Rfc3174.digest (key ++ wsGuid)) := by
  have guid : wsGuid.length = 36 := by decide
  rw [accept, Base64.decode_loop, Sha1.sha1_digest (by rw [List.length_append]; omega)]

/-- The block around the accept value of a text carries that of a key exactly
when the two have one digest. -/
theorem carries_iff {text : Bytes} (short : text.length ≤ 127) : Carries (switching (accept text)) key ↔
    Rfc3174.digest (text ++ wsGuid) = Rfc3174.digest (key ++ wsGuid) := by
  constructor
  · rintro ⟨value, shape, -, decoded⟩
    rw [← switching_injective (show switching (accept text) = switching value from shape),
      decode_accept short] at decoded
    exact Option.some.inj decoded
  · intro same
    exact ⟨accept text, rfl, accept_length text, by rw [decode_accept short, same]⟩

/-- A granted request has a header within the limit. -/
theorem granted_header (granted : wsBuildHandshakeResponse request size = .ok (response, consumed)) :
    request.length ≤ wsMaxHttpRequest ∧ ∃ header, Header request header := by
  cases found : findHeaderEnd request with
  | error error =>
    simp only [wsBuildHandshakeResponse, found] at granted
    cases granted
  | ok position =>
    rw [findHeaderEnd] at found
    split at found
    · cases found
    next limit =>
      refine ⟨Nat.le_of_not_lt limit, ?_⟩
      by_contra without
      have absent := headerEndFrom_none (i := 0).mpr (fun inside => without (header_exists.mpr inside))
      rw [absent] at found
      cases found

/-- A granted request was valid, and it was answered by the text of its last key. -/
theorem granted_valid (granted : wsBuildHandshakeResponse request size = .ok (response, consumed))
    (is : Header request header) (layout : Layout header first fields) : Valid first fields := by
  by_contra invalid
  rw [build_invalid is layout (granted_header granted).1 invalid] at granted
  cases granted

theorem granted_response (granted : wsBuildHandshakeResponse request size = .ok (response, consumed))
    (is : Header request header) (layout : Layout header first fields) (last : LastKey fields key) :
    response = switching (accept (cString key)) := by
  rw [build_valid is layout (granted_header granted).1 (granted_valid granted is layout) last] at granted
  split at granted
  · cases granted
  split at granted
  · cases granted
  exact (Prod.mk.inj (Except.ok.inj granted)).1.symm

/-- The response carries the accept value of the last key exactly when the key
has no NUL, or its text happens to collide with it. -/
theorem accept_value (granted : wsBuildHandshakeResponse request size = .ok (response, consumed)) :
    (∃ header first fields key, Header request header ∧ Layout header first fields ∧ LastKey fields key) ∧
    ∀ header first fields key, Header request header → Layout header first fields → LastKey fields key →
      (Carries response key ↔ 0 ∉ key ∨ Rfc3174.digest (cString key ++ wsGuid) = Rfc3174.digest (key ++ wsGuid)) := by
  constructor
  · obtain ⟨-, header, is⟩ := granted_header granted
    obtain ⟨first, fields, layout⟩ := is.layout
    obtain ⟨key, last⟩ := (granted_valid granted is layout).lastKey
    exact ⟨header, first, fields, key, is, layout, last⟩
  · intro header first fields key is layout last
    rw [granted_response granted is layout last, carries_iff (Nat.le_trans (cString_length key) (lastKey_short last))]
    constructor
    · exact .inr
    · rintro (plain | collision)
      · rw [cString_eq_iff.mpr plain]
      · exact collision

def nulRequest : Bytes :=
  ascii "GET / HTTP/1.1\r\nUpgrade: websocket\r\nConnection: upgrade\r\nSec-WebSocket-Version: 13\r\nSec-WebSocket-Key: a" ++
    0 :: ascii "b\r\n\r\n"

def nulFields : List Bytes :=
  [ascii "Upgrade: websocket", ascii "Connection: upgrade",
    ascii "Sec-WebSocket-Version: 13", ascii "Sec-WebSocket-Key: a" ++ 0 :: ascii "b"]

/-- The request as it is read, and the text that answers it. -/
private theorem nulRequest_read : Header nulRequest nulRequest ∧ Layout nulRequest (ascii "GET / HTTP/1.1") nulFields ∧
    LastKey nulFields [97, 0, 98] ∧
    wsBuildHandshakeResponse nulRequest 256 = .ok (switching (accept [97]), nulRequest.length) := by
  refine ⟨?_, ⟨by decide +kernel, by decide +kernel, by decide +kernel⟩, ?_, by decide +kernel⟩
  · have position := header_of_position (show headerEndFrom 0 nulRequest = some nulRequest.length by decide +kernel)
    rwa [List.take_length] at position
  · refine ⟨nulFields.take 3, ascii "Sec-WebSocket-Key: a" ++ 0 :: ascii "b", [], by decide +kernel, ?_, nofun⟩
    refine ⟨ascii "Sec-WebSocket-Key", ⟨[32, 97, 0, 98], ⟨by decide +kernel, by decide +kernel⟩,
      [32], [], by decide +kernel⟩, rfl, by decide, by decide⟩

theorem accept_value_cut : Carries (switching (accept [97])) [97, 0, 98] ↔
    0 ∉ ([97, 0, 98] : Bytes) ∨
    Rfc3174.digest (cString [97, 0, 98] ++ wsGuid) = Rfc3174.digest ([97, 0, 98] ++ wsGuid) :=
  (accept_value nulRequest_read.2.2.2).2 nulRequest (ascii "GET / HTTP/1.1") nulFields [97, 0, 98]
    nulRequest_read.1 nulRequest_read.2.1 nulRequest_read.2.2.1

/-- Such a request is not answered with the accept value of its key. -/
theorem accept_value_nul : ∃ response consumed, wsBuildHandshakeResponse nulRequest 256 = .ok (response, consumed) ∧
    Header nulRequest nulRequest ∧
    Layout nulRequest (ascii "GET / HTTP/1.1") nulFields ∧ LastKey nulFields [97, 0, 98] ∧
    ¬ Carries response [97, 0, 98] := by
  obtain ⟨is, layout, last, granted⟩ := nulRequest_read
  refine ⟨switching (accept [97]), nulRequest.length, granted, is, layout, last, ?_⟩
  rw [carries_iff (by decide), ← Sha1.sha1_digest (by decide), ← Sha1.sha1_digest (by decide)]
  decide +kernel

end Sockify.Proofs.AcceptValue
