import Sockify.Lib.Spans
import Sockify.Ws.Handshake

/-! The upgrade request as a grammar: lines that end in CRLF, fields cut at their
first colon, values without the blanks around them. The scans of the parser are
related to it one by one, from the end of the header to the tokens of a value. -/

namespace Sockify.Proofs.HandshakeGrammar
open Sockify Sockify.Lib

def crlf : Bytes := [13, 10]

/-- `header` is the request up to and including its first CRLFCRLF. -/
def Header (request header : Bytes) : Prop :=
  ∃ before after, request = before ++ [13, 10, 13, 10] ++ after ∧ header = before ++ [13, 10, 13, 10] ∧
    ∀ other more, request = other ++ [13, 10, 13, 10] ++ more → before.length ≤ other.length

/-- The lines of a header: the first, and the fields in front of the empty one. -/
structure Layout (header first : Bytes) (fields : List Bytes) : Prop where
  text : header = first ++ crlf ++ ((fields.map (· ++ crlf)).flatten ++ crlf)
  whole : ∀ line ∈ first :: fields, ¬ crlf <:+: line
  full : ∀ field ∈ fields, field ≠ []

/-- Equal up to the case of ASCII letters. -/
def Same (a b : Bytes) : Prop := a.map asciiTolower = b.map asciiTolower

/-- A field line with the value behind its first colon, trimmed. -/
def Field (line name value : Bytes) : Prop := ∃ rest, Spans.Cut 58 line name rest ∧ Spans.Trimmed isBlank rest value

def Has (fields : List Bytes) (label : String) (property : Bytes → Prop) : Prop :=
  ∃ line ∈ fields, ∃ name value, Field line name value ∧ Same name (ascii label) ∧ property value

def Lists (value : Bytes) : Prop := ∃ token, Spans.Token isTokenSep value token ∧ Same token (ascii "upgrade")

structure Valid (first : Bytes) (fields : List Bytes) : Prop where
  long : 14 ≤ first.length
  method : Same (first.take 4) (ascii "GET ")
  version : ascii " HTTP/1.1" <:+: first ∨ ascii " HTTP/1.0" <:+: first
  colons : ∀ field ∈ fields, 58 ∈ field
  upgrade : Has fields "Upgrade" (fun value => Same value (ascii "websocket"))
  connection : Has fields "Connection" Lists
  protocol : Has fields "Sec-WebSocket-Version" (fun value => value = ascii "13")
  key : Has fields "Sec-WebSocket-Key" (fun value => 1 ≤ value.length ∧ value.length ≤ 127)

variable {request header first line name value token needle rest after : Bytes} {fields : List Bytes}
  {seen : Upgrade} {size : Nat}

section Scans

theorem ciEqual_iff {a b : Bytes} : ciEqual a b = true ↔ Same a b := by
  rw [ciEqual, beq_iff_eq, Same]

theorem memoryContains_iff {haystack : Bytes} : memoryContains needle haystack = true ↔ needle <:+: haystack := by
  induction haystack with
  | nil => rw [memoryContains, List.isEmpty_iff, List.infix_nil]
  | cons byte rest ih =>
    rw [memoryContains, Bool.or_eq_true, ih, List.isPrefixOf_iff_prefix, List.infix_cons_iff]

/-- The token search finds a token exactly when the value lists it. -/
theorem ciContainsToken_iff {current : Bytes} (free : ∀ c ∈ current, ¬ isTokenSep c) :
    ciContainsToken token current rest = true ↔
    ∃ part, Spans.Token isTokenSep (current ++ rest) part ∧ Same part token := by
  induction rest generalizing current with
  | nil =>
    rw [ciContainsToken, ciEqual_iff, List.append_nil]
    simp only [Spans.token_free free, exists_eq_left]
  | cons c rest ih =>
    rw [ciContainsToken]
    by_cases sep : isTokenSep c = true
    · rw [if_pos sep, Bool.or_eq_true, ciEqual_iff, ih (List.forall_mem_nil _)]
      simp only [Spans.token_separator free sep, or_and_right, exists_or, exists_eq_left, List.nil_append]
    · rw [if_neg sep]
      have longer : ∀ byte ∈ current ++ [c], ¬ isTokenSep byte := by
        intro byte member
        rcases List.mem_append.mp member with inside | here
        · exact free byte inside
        · rw [List.mem_singleton.mp here]
          exact sep
      rw [ih longer, List.append_assoc, List.singleton_append]

theorem contains_upgrade : ciContainsToken (ascii "upgrade") [] value = true ↔ Lists value :=
  ciContainsToken_iff (List.forall_mem_nil _)

end Scans

section Lines

/-- A CRLF does not begin inside a line that has none, whatever its CR is followed by. -/
theorem whole_cons {byte : UInt8} (whole : ¬ crlf <:+: byte :: line) : ¬ crlf <:+: line ∧
    ∀ more, byte = 13 → line ++ 13 :: 10 :: after = 10 :: more → False := by
  refine ⟨fun inner => whole (inner.trans (List.suffix_cons byte line).isInfix), ?_⟩
  intro more cr shape
  cases line with
  | nil => cases shape
  | cons next line =>
    obtain ⟨rfl, -⟩ := List.cons.inj shape
    rw [cr] at whole
    exact whole ⟨[], line, rfl⟩

theorem requestLine_eq (passed : Bytes) (whole : ¬ crlf <:+: line) :
    requestLine passed (line ++ crlf ++ after) = (passed ++ line, after) := by
  rw [List.append_assoc]
  induction line generalizing passed with
  | nil => rw [List.append_nil]; rfl
  | cons byte line ih =>
    obtain ⟨inner, apart⟩ := whole_cons whole
    rw [List.cons_append, requestLine, ih _ inner, List.append_assoc, List.singleton_append]
    exact apart

private theorem headerLines_end (seen : Upgrade) (after : Bytes) : headerLines seen [] (crlf ++ after) = .ok seen := by
  rw [crlf, List.cons_append, List.cons_append, List.nil_append, headerLines, if_pos rfl]

private theorem headerLines_line (passed : Bytes) (whole : ¬ crlf <:+: line)
    (full : passed ++ line ≠ []) :
    headerLines seen passed (line ++ crlf ++ after) = (headerLine seen (passed ++ line)).bind
      (headerLines · [] after) := by
  rw [List.append_assoc]
  induction line generalizing passed with
  | nil =>
    rw [List.append_nil] at full ⊢
    rw [List.nil_append, crlf, List.cons_append, List.cons_append, List.nil_append, headerLines, if_neg full]
    cases headerLine seen passed <;> rfl
  | cons byte line ih =>
    obtain ⟨inner, apart⟩ := whole_cons whole
    have same : passed ++ byte :: line = passed ++ [byte] ++ line := by simp
    rw [List.cons_append, headerLines, same, ih (passed ++ [byte]) inner (by simp)]
    exact apart

/-- The loop over the lines is a fold over the fields. -/
theorem headerLines_fields (whole : ∀ line ∈ fields, ¬ crlf <:+: line) (full : ∀ field ∈ fields, field ≠ []) :
    headerLines seen [] ((fields.map (· ++ crlf)).flatten ++ crlf) = fields.foldlM headerLine seen := by
  induction fields generalizing seen with
  | nil => exact headerLines_end seen []
  | cons line rest ih =>
    rw [List.map_cons, List.flatten_cons, List.append_assoc,
      headerLines_line [] (whole line (List.mem_cons_self ..)) (full line (List.mem_cons_self ..)),
        List.nil_append, List.foldlM_cons]
    cases headerLine seen line with
    | error error => rfl
    | ok next =>
      exact ih (fun other member => whole other (List.mem_cons_of_mem _ member))
        (fun other member => full other (List.mem_cons_of_mem _ member))

end Lines

section Position

theorem headerEndFrom_none {i : Nat} : headerEndFrom i request = none ↔ ¬ [13, 10, 13, 10] <:+: request := by
  induction request generalizing i with
  | nil => simp [headerEndFrom]
  | cons byte rest ih =>
    rw [headerEndFrom, List.infix_cons_iff, ← List.isPrefixOf_iff_prefix]
    by_cases here : [13, 10, 13, 10].isPrefixOf (byte :: rest) = true
    · rw [if_pos here]
      simp [here]
    · rw [if_neg here, ih, or_iff_right here]

private theorem headerEndFrom_some {i position : Nat} (found : headerEndFrom i request = some position) :
    ∃ before after, request = before ++ [13, 10, 13, 10] ++ after ∧ position = i + before.length + 4 ∧
      ∀ other more, request = other ++ [13, 10, 13, 10] ++ more → before.length ≤ other.length := by
  induction request generalizing i with
  | nil => cases found
  | cons byte rest ih =>
    rw [headerEndFrom] at found
    by_cases here : [13, 10, 13, 10].isPrefixOf (byte :: rest) = true
    · rw [if_pos here] at found
      obtain ⟨after, parts⟩ := List.isPrefixOf_iff_prefix.mp here
      exact ⟨[], after, parts.symm, (Option.some.inj found).symm, fun _ _ _ => Nat.zero_le _⟩
    · rw [if_neg here] at found
      obtain ⟨before, after, parts, place, least⟩ := ih found
      refine ⟨byte :: before, after, by rw [parts]; rfl, by rw [place, List.length_cons]; omega, ?_⟩
      intro other more shape
      cases other with
      | nil => exact absurd (List.isPrefixOf_iff_prefix.mpr ⟨more, shape.symm⟩) here
      | cons first other =>
        rw [List.cons_append, List.cons_append] at shape
        exact Nat.succ_le_succ (least other more (List.cons.inj shape).2)

/-- A request has a header exactly when it has a CRLFCRLF. -/
theorem header_exists : (∃ header, Header request header) ↔ [13, 10, 13, 10] <:+: request := by
  constructor
  · rintro ⟨header, before, after, parts, -, -⟩
    exact ⟨before, after, parts.symm⟩
  · intro inside
    cases found : headerEndFrom 0 request with
    | none => exact absurd inside (headerEndFrom_none.mp found)
    | some position =>
      obtain ⟨before, after, parts, -, least⟩ := headerEndFrom_some found
      exact ⟨_, before, after, parts, rfl, least⟩

theorem header_of_position {position : Nat} (found : headerEndFrom 0 request = some position) :
    Header request (request.take position) := by
  obtain ⟨before, after, parts, place, least⟩ := headerEndFrom_some found
  have length : position = (before ++ [13, 10, 13, 10]).length := by
    rw [place, List.length_append, Nat.zero_add]
    rfl
  exact ⟨before, after, parts, by rw [parts, length, List.take_left], least⟩

/-- The scan for the end of the header finds the header. -/
theorem findHeaderEnd_header (is : Header request header) (limit : request.length ≤ wsMaxHttpRequest) :
    findHeaderEnd request = .ok header.length ∧ request.take header.length = header := by
  obtain ⟨before, after, parts, rfl, least⟩ := is
  refine ⟨?_, by rw [parts, List.take_left]⟩
  rw [findHeaderEnd, if_neg (Nat.not_lt.mpr limit)]
  cases found : headerEndFrom 0 request with
  | none => exact absurd ⟨before, after, parts.symm⟩ (headerEndFrom_none.mp found)
  | some position =>
    obtain ⟨other, more, shape, place, first⟩ := headerEndFrom_some found
    have same := Nat.le_antisymm (least other more shape) (first before after parts)
    simp only [List.length_append, List.length_cons, List.length_nil]
    rw [place, same, Nat.zero_add]

private theorem first_line {text : Bytes} (inside : crlf <:+: text) :
    ∃ line after, text = line ++ crlf ++ after ∧ ¬ crlf <:+: line := by
  induction text with
  | nil => cases List.infix_nil.mp inside
  | cons byte rest ih =>
    by_cases here : crlf <+: byte :: rest
    · obtain ⟨after, parts⟩ := here
      exact ⟨[], after, parts.symm, by simp [crlf]⟩
    · rcases List.infix_cons_iff.mp inside with front | later
      · exact absurd front here
      · obtain ⟨line, after, parts, whole⟩ := ih later
        refine ⟨byte :: line, after, by rw [parts]; rfl, ?_⟩
        intro inner
        rcases List.infix_cons_iff.mp inner with front | deeper
        · apply here
          rw [parts, List.append_assoc, ← List.cons_append]
          exact front.trans (List.prefix_append _ _)
        · exact whole deeper

/-- Every header has its lines. -/
theorem layout_exists {before : Bytes} (text : Bytes) (shape : text = before ++ [13, 10, 13, 10])
    (least : ∀ other more, text = other ++ [13, 10, 13, 10] ++ more → before.length ≤ other.length) :
    ∃ first fields, Layout text first fields := by
  -- The first line is taken off; what is left is a header again, or the empty line.
  induction long : text.length using Nat.strongRecOn generalizing text before with
  | ind bound ih =>
    obtain ⟨line, after, parts, whole⟩ :=
      first_line (show crlf <:+: text from ⟨before, crlf, by rw [shape]; simp [crlf]⟩)
    have only (empty : after = crlf) : ∃ first fields, Layout text first fields :=
      ⟨line, [], by rw [parts, empty]; rfl, by simpa using whole, nofun⟩
    have same : line ++ (crlf ++ after) = before ++ [13, 10, 13, 10] := by rw [← List.append_assoc, ← parts, shape]
    rcases List.append_eq_append_iff.mp same with ⟨gap, front, tail⟩ | ⟨gap, front, tail⟩
    · match gap, tail with
      | [], tail => exact only (List.append_cancel_left (show crlf ++ after = crlf ++ crlf from tail))
      | [byte], tail => cases (List.cons.inj (List.cons.inj tail).2).1
      | cr :: lf :: gap, tail =>
        obtain ⟨rfl, lower⟩ := List.cons.inj tail
        obtain ⟨rfl, rest⟩ := List.cons.inj lower
        have behind : after = gap ++ [13, 10, 13, 10] := rest
        have shorter : after.length < bound := by
          rw [← long, parts]
          simp only [List.length_append, crlf, List.length_cons, List.length_nil]
          omega
        obtain ⟨first, fields, layout⟩ := ih after.length shorter after behind (by
          intro other more split
          have above := least (line ++ crlf ++ other) more (by rw [parts, split]; simp)
          rw [front] at above
          simp only [List.length_append, crlf, List.length_cons, List.length_nil] at above
          omega) rfl
        refine ⟨line, first :: fields, ?_, ?_, ?_⟩
        · rw [parts, layout.text]
          simp
        · intro other member
          cases member with
          | head => exact whole
          | tail _ member => exact layout.whole other member
        · intro field member
          cases member with
          | head =>
            rintro rfl
            have above :=
              least line ((fields.map (· ++ crlf)).flatten ++ crlf) (by rw [parts, layout.text]; simp [crlf])
            rw [front] at above
            simp only [List.length_append, List.length_cons] at above
            omega
          | tail _ member => exact layout.full field member
    · match gap, tail with
      | [], tail => exact only (List.append_cancel_left (show crlf ++ crlf = crlf ++ after from tail)).symm
      | [cr], tail => cases (List.cons.inj (List.cons.inj tail).2).1
      | cr :: lf :: gap, tail =>
        obtain ⟨rfl, lower⟩ := List.cons.inj tail
        obtain ⟨rfl, -⟩ := List.cons.inj lower
        exact absurd ⟨before, gap, by rw [front]; simp [crlf]⟩ whole

theorem Header.layout (is : Header request header) : ∃ first fields, Layout header first fields := by
  obtain ⟨before, after, parts, shape, least⟩ := is
  apply layout_exists header shape
  intro other more split
  apply least other (more ++ after)
  rw [parts, ← shape, split, List.append_assoc _ more]

end Position

section Fields

/-- A line with a colon is one field, and a line without is refused. -/
theorem field_exists (colon : 58 ∈ line) : ∃ name value, Field line name value :=
  ⟨_, _, _, Spans.cut_takeWhile colon, Spans.trimmed_trim _⟩

private theorem name_eq (field : Field line name value) : line.takeWhile (· != 58) = name := by
  obtain ⟨rest, cut, -⟩ := field
  have stop : (fun byte : UInt8 => byte != 58) = fun byte => decide (byte ≠ 58) := by
    funext byte
    simp [bne, beq_eq_decide]
  rw [stop, Spans.takeWhile_cut cut]

private theorem headerLine_refused (absent : 58 ∉ line) : headerLine seen line = .error .protocol := by
  have whole : line.takeWhile (· != 58) = line := by
    rw [List.takeWhile_eq_self_iff]
    intro byte member
    have other : byte ≠ 58 := fun same => absent (same ▸ member)
    simpa using other
  simp only [headerLine, whole]
  rw [if_pos (Nat.le_refl _)]

/-- The names that the loop looks for exclude each other. -/
theorem names_apart {a b : Bytes} (apart : a.map asciiTolower ≠ b.map asciiTolower)
    (same : ciEqual name a = true) : ciEqual name b = false := by
  apply Bool.eq_false_iff.mpr
  intro also
  exact apart ((ciEqual_iff.mp same).symm.trans (ciEqual_iff.mp also))

def KeyLine (line key : Bytes) : Prop :=
  ∃ name, Field line name key ∧ Same name (ascii "Sec-WebSocket-Key") ∧ 1 ≤ key.length ∧ key.length ≤ 127

def States (line : Bytes) (label : String) (property : Bytes → Prop) : Prop :=
  ∃ name value, Field line name value ∧ Same name (ascii label) ∧ property value

private theorem field_unique {other more : Bytes} (field : Field line name value)
    (also : Field line other more) : name = other ∧ value = more := by
  obtain ⟨rest, cut, trimmed⟩ := field
  obtain ⟨behind, again, shaved⟩ := also
  obtain rfl : name = other := (Spans.takeWhile_cut cut).symm.trans (Spans.takeWhile_cut again)
  have same : 58 :: rest = 58 :: behind := List.append_cancel_left (cut.1.symm.trans again.1)
  obtain rfl := (List.cons.inj same).2
  exact ⟨rfl, (Spans.trimmed_unique trimmed).trans (Spans.trimmed_unique shaved).symm⟩

private theorem states_iff (field : Field line name value) (label : String) (property : Bytes → Prop) :
    States line label property ↔ Same name (ascii label) ∧ property value := by
  constructor
  · rintro ⟨other, more, also, named, holds⟩
    obtain ⟨rfl, rfl⟩ := field_unique field also
    exact ⟨named, holds⟩
  · rintro ⟨named, holds⟩
    exact ⟨name, value, field, named, holds⟩

private theorem headerLine_eq (field : Field line name value) : headerLine seen line =
    if ciEqual name (ascii "Upgrade") then
      .ok (if ciEqual value (ascii "websocket") then { seen with sawUpgrade := true } else seen)
    else if ciEqual name (ascii "Connection") then
      .ok (if ciContainsToken (ascii "upgrade") [] value then { seen with sawConnection := true } else seen)
    else if ciEqual name (ascii "Sec-WebSocket-Version") then
      .ok (if value = ascii "13" then { seen with sawVersion := true } else seen)
    else if ciEqual name (ascii "Sec-WebSocket-Key") then
      .ok (if value.length ≠ 0 ∧ value.length < 128 then { seen with key := some value } else seen)
    else .ok seen := by
  have named := name_eq field
  obtain ⟨rest, cut, trimmed⟩ := field
  have behind : line.drop (name.length + 1) = rest := by
    rw [cut.1, List.drop_append, List.drop_of_length_le (Nat.le_succ _), Nat.add_sub_cancel_left]
    rfl
  have short : ¬ name.length ≥ line.length := by
    rw [cut.1, List.length_append, List.length_cons]
    omega
  have value_ : trimSpan rest = value := (Spans.trimmed_unique trimmed).symm
  simp only [headerLine, named, behind, value_]
  rw [if_neg short]

/-- What the loop remembers of a field with this name and value. -/
def note (seen : Upgrade) (name value : Bytes) : Upgrade where
  sawUpgrade := seen.sawUpgrade || (ciEqual name (ascii "Upgrade") && ciEqual value (ascii "websocket"))
  sawConnection :=
    seen.sawConnection || (ciEqual name (ascii "Connection") && ciContainsToken (ascii "upgrade") [] value)
  sawVersion := seen.sawVersion || (ciEqual name (ascii "Sec-WebSocket-Version") && decide (value = ascii "13"))
  key := if ciEqual name (ascii "Sec-WebSocket-Key") = true ∧ value.length ≠ 0 ∧ value.length < 128
    then some value else seen.key

/-- Only the flag that belongs to the name can change. -/
theorem headerLine_note (field : Field line name value) : headerLine seen line = .ok (note seen name value) := by
  rw [headerLine_eq field]
  cases upgrade : ciEqual name (ascii "Upgrade") with
  | true =>
    have other (b : Bytes) (apart : (ascii "Upgrade").map asciiTolower ≠ b.map asciiTolower) :=
      names_apart apart upgrade
    simp only [note, upgrade, other (ascii "Connection") (by decide), other (ascii "Sec-WebSocket-Version") (by decide),
      other (ascii "Sec-WebSocket-Key") (by decide)]
    cases ciEqual value (ascii "websocket") <;> simp
  | false =>
    cases connection : ciEqual name (ascii "Connection") with
    | true =>
      have other (b : Bytes) (apart : (ascii "Connection").map asciiTolower ≠ b.map asciiTolower) :=
        names_apart apart connection
      simp only [note, upgrade, connection,
        other (ascii "Sec-WebSocket-Version") (by decide), other (ascii "Sec-WebSocket-Key") (by decide)]
      cases ciContainsToken (ascii "upgrade") [] value <;> simp
    | false =>
      cases version : ciEqual name (ascii "Sec-WebSocket-Version") with
      | true =>
        have other := names_apart (b := ascii "Sec-WebSocket-Key") (by decide) version
        simp only [note, upgrade, connection, version, other]
        by_cases right : value = ascii "13" <;> simp [right]
      | false =>
        cases key : ciEqual name (ascii "Sec-WebSocket-Key") with
        | true =>
          simp only [note, upgrade, connection, version, key]
          by_cases fits : value.length ≠ 0 ∧ value.length < 128
          · simp [fits]
          · simp only [Bool.false_and, Bool.or_false, true_and, if_neg fits]
            rfl
        | false => simp [note, upgrade, connection, version, key]

structure Noted (seen next : Upgrade) (line : Bytes) : Prop where
  upgrade : next.sawUpgrade = true ↔
    seen.sawUpgrade = true ∨ States line "Upgrade" (fun value => Same value (ascii "websocket"))
  connection : next.sawConnection = true ↔ seen.sawConnection = true ∨ States line "Connection" Lists
  version : next.sawVersion = true ↔
    seen.sawVersion = true ∨ States line "Sec-WebSocket-Version" (fun value => value = ascii "13")
  offered : ∀ key, KeyLine line key → next.key = some key
  kept : (∀ key, ¬ KeyLine line key) → next.key = seen.key

private theorem note_noted (field : Field line name value) : Noted seen (note seen name value) line := by
  constructor
  · rw [states_iff field, note, Bool.or_eq_true, Bool.and_eq_true, ciEqual_iff, ciEqual_iff]
  · rw [states_iff field, note, Bool.or_eq_true, Bool.and_eq_true, ciEqual_iff, contains_upgrade]
  · rw [states_iff field, note, Bool.or_eq_true, Bool.and_eq_true, ciEqual_iff, decide_eq_true_iff]
  · rintro key ⟨other, also, named, small, large⟩
    obtain ⟨rfl, rfl⟩ := field_unique field also
    exact if_pos ⟨ciEqual_iff.mpr named, by omega, by omega⟩
  · intro without
    apply if_neg
    rintro ⟨named, some_, small⟩
    exact without value ⟨name, field, ciEqual_iff.mp named, by omega, by omega⟩

private theorem headerLine_noted (seen : Upgrade) (colon : 58 ∈ line) :
    ∃ next, headerLine seen line = .ok next ∧ Noted seen next line := by
  obtain ⟨name, value, field⟩ := field_exists colon
  exact ⟨note seen name value, headerLine_note field, note_noted field⟩

def LastKey (fields : List Bytes) (key : Bytes) : Prop :=
  ∃ before line after, fields = before ++ line :: after ∧
    KeyLine line key ∧ ∀ later ∈ after, ∀ other, ¬ KeyLine later other

/-- Either some line offers a key, and then one is the last, or none does. -/
theorem lastKey_or (fields : List Bytes) :
    (∃ key, LastKey fields key) ∨ ∀ field ∈ fields, ∀ key, ¬ KeyLine field key := by
  induction fields with
  | nil => exact .inr nofun
  | cons line rest ih =>
    rcases ih with ⟨key, before, chosen, after, parts, offers, last⟩ | none_
    · exact .inl ⟨key, line :: before, chosen, after, by rw [parts]; rfl, offers, last⟩
    · by_cases here : ∃ key, KeyLine line key
      · obtain ⟨key, offers⟩ := here
        exact .inl ⟨key, [], line, rest, rfl, offers, none_⟩
      · refine .inr ?_
        intro field member key offers
        cases member with
        | head => exact here ⟨key, offers⟩
        | tail _ member => exact none_ field member key offers

theorem keyLine_has : (∃ line ∈ fields, ∃ key, KeyLine line key) ↔
    Has fields "Sec-WebSocket-Key" (fun value => 1 ≤ value.length ∧ value.length ≤ 127) := by
  constructor
  · rintro ⟨line, member, key, name, field, named, bounds⟩
    exact ⟨line, member, name, key, field, named, bounds⟩
  · rintro ⟨line, member, name, key, field, named, bounds⟩
    exact ⟨line, member, key, name, field, named, bounds⟩

theorem Valid.lastKey (valid : Valid first fields) : ∃ key, LastKey fields key := by
  obtain ⟨line, member, key, offers⟩ := keyLine_has.mpr valid.key
  rcases lastKey_or fields with last | without
  · exact last
  · exact absurd offers (without line member key)

structure Read (seen last : Upgrade) (fields : List Bytes) : Prop where
  upgrade : last.sawUpgrade = true ↔
    seen.sawUpgrade = true ∨ Has fields "Upgrade" (fun value => Same value (ascii "websocket"))
  connection : last.sawConnection = true ↔ seen.sawConnection = true ∨ Has fields "Connection" Lists
  version : last.sawVersion = true ↔
    seen.sawVersion = true ∨ Has fields "Sec-WebSocket-Version" (fun value => value = ascii "13")
  offered : ∀ key, LastKey fields key → last.key = some key
  kept : (∀ field ∈ fields, ∀ key, ¬ KeyLine field key) → last.key = seen.key

private theorem has_cons {label : String} {property : Bytes → Prop} :
    Has (line :: fields) label property ↔ States line label property ∨ Has fields label property := by
  simp only [Has, States, List.mem_cons, exists_eq_or_imp]

private theorem has_nil {label : String} {property : Bytes → Prop} : ¬ Has [] label property := by
  rintro ⟨line, member, -⟩
  cases member

theorem foldlM_read (seen : Upgrade) (colons : ∀ field ∈ fields, 58 ∈ field) :
    ∃ last, fields.foldlM headerLine seen = .ok last ∧ Read seen last fields := by
  induction fields generalizing seen with
  | nil =>
    refine ⟨seen, rfl, by simp [has_nil], by simp [has_nil], by simp [has_nil], ?_, fun _ => rfl⟩
    rintro key ⟨before, line, after, parts, -⟩
    cases before <;> cases parts
  | cons line rest ih =>
    obtain ⟨next, step, noted⟩ := headerLine_noted seen (colons line (List.mem_cons_self ..))
    obtain ⟨last, steps, read⟩ := ih next (fun field member => colons field (List.mem_cons_of_mem _ member))
    refine ⟨last, ?_, ?_, ?_, ?_, ?_, ?_⟩
    · rw [List.foldlM_cons, step]
      exact steps
    · rw [read.upgrade, noted.upgrade, has_cons, or_assoc]
    · rw [read.connection, noted.connection, has_cons, or_assoc]
    · rw [read.version, noted.version, has_cons, or_assoc]
    · rintro key ⟨before, chosen, after, parts, offers, later⟩
      cases before with
      | nil =>
        obtain ⟨rfl, rfl⟩ := List.cons.inj parts
        rw [read.kept later, noted.offered key offers]
      | cons first before =>
        obtain ⟨-, rfl⟩ := List.cons.inj parts
        exact read.offered key ⟨before, chosen, after, rfl, offers, later⟩
    · intro without
      rw [read.kept (fun field member => without field (List.mem_cons_of_mem _ member)),
        noted.kept (without line (List.mem_cons_self ..))]

/-- A line without a colon ends the loop. -/
theorem foldlM_refused {field : Bytes} (member : field ∈ fields) (absent : 58 ∉ field) :
    fields.foldlM headerLine seen = .error .protocol := by
  induction fields generalizing seen with
  | nil => cases member
  | cons line rest ih =>
    rw [List.foldlM_cons]
    by_cases colon : 58 ∈ line
    · obtain ⟨next, step, -⟩ := headerLine_noted seen colon
      rw [step]
      cases member with
      | head => exact absurd colon absent
      | tail _ member => exact ih member
    · rw [headerLine_refused colon]
      rfl

end Fields

end Sockify.Proofs.HandshakeGrammar
