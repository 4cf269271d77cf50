import Sockify.Net

/-! What `sockify_net_parse_endpoint` accepts. The two syntaxes differ in which
delimiter counts; only the plain one is checked for empty parts. -/

namespace Sockify.Proofs.Endpoints
open Sockify

/-- `[host]:port`, as an IPv6 address is written. -/
def bracketed (endpoint : Endpoint) : Bytes := 91 :: endpoint.host ++ 93 :: 58 :: endpoint.port

def plain (endpoint : Endpoint) : Bytes := endpoint.host ++ 58 :: endpoint.port

def Writes (text : Bytes) (endpoint : Endpoint) : Prop :=
  text = bracketed endpoint ∧ 93 ∉ endpoint.host ∨ text = plain endpoint ∧ text.head? ≠ some 91 ∧ 58 ∉ endpoint.port

/-- Both parts have bytes, and fit where they go. -/
structure Usable (endpoint : Endpoint) : Prop where
  host : endpoint.host ≠ []
  port : endpoint.port ≠ []
  hostFits : endpoint.host.length ≤ 255
  portFits : endpoint.port.length ≤ 15

/-- The parser returns an endpoint exactly for a usable one and its text. -/
def Exact (text : Bytes) : Prop :=
  ∀ before parsed, netParseEndpoint text before = (parsed, .ok ()) ↔ Writes text parsed ∧ Usable parsed

/-- A bracketed text that fits, with nothing between its brackets or behind them. -/
def Hollow (text : Bytes) : Prop :=
  ∃ endpoint, text = bracketed endpoint ∧ 93 ∉ endpoint.host ∧ endpoint.host.length ≤ 255 ∧ endpoint.port.length ≤ 15 ∧
    (endpoint.host = [] ∨ endpoint.port = [])

variable {text front back : Bytes} {c : UInt8} {place : Nat} {before parsed endpoint : Endpoint}

private theorem strchr_split (back : Bytes) (free : c ∉ front) : strchr (front ++ c :: back) c = some front.length := by
  have none : front.findIdx? (· == c) = none := by
    apply List.findIdx?_eq_none_iff.mpr
    intro byte member
    have other : byte ≠ c := fun same => free (same ▸ member)
    simpa using other
  simp [strchr, List.findIdx?_append, none, List.findIdx?_cons]

private theorem strchr_some (found : strchr text c = some place) :
    ∃ front back, text = front ++ c :: back ∧ c ∉ front ∧ front.length = place := by
  obtain ⟨inside, here, first⟩ := List.findIdx?_eq_some_iff_getElem.mp found
  refine ⟨text.take place, text.drop (place + 1), ?_, ?_, List.length_take_of_le (Nat.le_of_lt inside)⟩
  · have same : text[place] = c := by simpa using here
    rw [← same, List.getElem_cons_drop, List.take_append_drop]
  · intro member
    obtain ⟨i, early, same⟩ := List.mem_take_iff_getElem.mp member
    exact absurd same (by simpa using first i (by omega))

private theorem strrchr_split (front : Bytes) (free : c ∉ back) :
    strrchr (front ++ c :: back) c = some front.length := by
  have reversed : (front ++ c :: back).reverse = back.reverse ++ c :: front.reverse := by simp
  have found : (back.reverse ++ c :: front.reverse).findIdx? (· == c) = some back.reverse.length :=
    strchr_split _ (by simpa using free)
  rw [strrchr, reversed, found]
  simp

private theorem strrchr_some (found : strrchr text c = some place) :
    ∃ front back, text = front ++ c :: back ∧ c ∉ back ∧ front.length = place := by
  obtain ⟨i, mirrored, rfl⟩ := Option.map_eq_some_iff.mp found
  obtain ⟨back, front, reversed, free, rfl⟩ := strchr_some mirrored
  refine ⟨front.reverse, back.reverse, ?_, by simpa using free, ?_⟩
  · rw [← List.reverse_reverse text, reversed]
    simp
  · have length := congrArg List.length reversed
    simp at length
    rw [length, List.length_reverse]
    omega

theorem copyEndpoint_ok {host port : Bytes} :
    copyEndpoint host port before = (parsed, .ok ()) ↔
    parsed = ⟨host, port⟩ ∧ host.length ≤ 255 ∧ port.length ≤ 15 := by
  unfold copyEndpoint copyPart hostSize portSize
  split
  next failed =>
    split at failed
    · simp; omega
    · cases failed
  next copied =>
    split at copied
    · cases copied
    · obtain rfl := Except.ok.inj copied
      split
      next failed =>
        split at failed
        · simp; omega
        · cases failed
      next copied =>
        split at copied
        · cases copied
        · obtain rfl := Except.ok.inj copied
          simp [eq_comm]
          omega

theorem parse_bracketed (free : 93 ∉ endpoint.host) :
    netParseEndpoint (bracketed endpoint) before = copyEndpoint endpoint.host endpoint.port before := by
  have found : strchr (bracketed endpoint) 93 = some (endpoint.host.length + 1) := by
    have split : bracketed endpoint = (91 :: endpoint.host) ++ 93 :: 58 :: endpoint.port := rfl
    rw [split, strchr_split _ (by simp [free])]
    rfl
  have opened : (bracketed endpoint).getD 0 0 = 91 := rfl
  have behind : (bracketed endpoint).drop (endpoint.host.length + 1 + 2) = endpoint.port := by
    have split : bracketed endpoint = (91 :: endpoint.host ++ [93, 58]) ++ endpoint.port := by simp [bracketed]
    rw [split, List.drop_left' (by simp)]
  rw [netParseEndpoint, if_pos opened, found]
  simp only [behind]
  simp [bracketed]

private theorem parse_plain (open_ : (plain endpoint).head? ≠ some 91) (free : 58 ∉ endpoint.port) :
    netParseEndpoint (plain endpoint) before =
      if endpoint.host = [] ∨ endpoint.port = [] then (before, .error .invalid)
      else copyEndpoint endpoint.host endpoint.port before := by
  have found : strrchr (plain endpoint) 58 = some endpoint.host.length := strrchr_split _ free
  have first : (plain endpoint).getD 0 0 ≠ 91 := by
    intro same
    apply open_
    cases all : plain endpoint with
    | nil => simp [plain] at all
    | cons byte rest => simpa [all] using same
  have ends : ((plain endpoint).length = endpoint.host.length + 1) ↔ endpoint.port = [] := by simp [plain]
  rw [netParseEndpoint, if_neg first, found]
  simp only [List.length_eq_zero_iff, ends]
  have behind : (plain endpoint).drop (endpoint.host.length + 1) = endpoint.port := by
    rw [plain, List.append_cons, List.drop_left' (by simp)]
  rw [behind]
  simp [plain]

/-- The first place of a byte tells the two parts apart. -/
theorem split_first {front' back' : Bytes} (free : c ∉ front) (free' : c ∉ front')
    (same : front ++ c :: back = front' ++ c :: back') :
    front = front' ∧ back = back' := by
  have place : front.length = front'.length := by
    have found := strchr_split back free
    rw [same, strchr_split _ free'] at found
    exact (Option.some.inj found).symm
  obtain ⟨fronts, backs⟩ := List.append_inj same place
  exact ⟨fronts, List.cons.inj backs |>.2⟩

private theorem split_last {front' back' : Bytes} (free : c ∉ back) (free' : c ∉ back')
    (same : front ++ c :: back = front' ++ c :: back') :
    front = front' ∧ back = back' := by
  have place : front.length = front'.length := by
    have found := strrchr_split front free
    rw [same, strrchr_split _ free'] at found
    exact (Option.some.inj found).symm
  obtain ⟨fronts, backs⟩ := List.append_inj same place
  exact ⟨fronts, List.cons.inj backs |>.2⟩

/-- What the parser does with a text of neither syntax. -/
theorem parse_other (other : ∀ endpoint, ¬ Writes text endpoint) :
    netParseEndpoint text before = (before, .error .invalid) := by
  rw [netParseEndpoint]
  split
  next opened =>
    split
    · rfl
    next place found =>
      obtain ⟨front, back, rfl, free, rfl⟩ := strchr_some found
      split
      · rfl
      next colon =>
        exfalso
        cases front with
        | nil => simp at opened
        | cons byte host =>
          cases back with
          | nil => simp at colon
          | cons byte' port =>
            obtain rfl : byte = 91 := by simpa using opened
            obtain rfl : byte' = 58 := by simpa [List.getElem?_append] using colon
            exact other ⟨host, port⟩ (.inl ⟨rfl, fun member => free (List.mem_cons_of_mem _ member)⟩)
  next opened =>
    split
    · rfl
    next place found =>
      obtain ⟨front, back, rfl, free, rfl⟩ := strrchr_some found
      refine absurd (.inr ⟨rfl, fun first => opened ?_, free⟩) (other ⟨front, back⟩)
      cases front with
      | nil => simp at first
      | cons => simpa using first

private theorem writes_unique (first : Writes text parsed) (second : Writes text endpoint) : parsed = endpoint := by
  have parts : ∀ a b : Endpoint, a.host = b.host ∧ a.port = b.port → a = b :=
    fun _ _ same => congrArg₂ Endpoint.mk same.1 same.2
  rcases first with ⟨rfl, free⟩ | ⟨rfl, open_, free⟩ <;> rcases second with ⟨same, free'⟩ | ⟨same, open', free'⟩
  · have opened : 93 ∉ 91 :: parsed.host := by simp [free]
    have opened' : 93 ∉ 91 :: endpoint.host := by simp [free']
    obtain ⟨hosts, ports⟩ := split_first opened opened' same
    exact parts _ _ ⟨List.cons.inj hosts |>.2, List.cons.inj ports |>.2⟩
  · exact absurd rfl open'
  · exact absurd (congrArg List.head? same) open_
  · exact parts _ _ (split_last free free' same)

/-- What was in the endpoint before does not matter. -/
theorem parse_anywhere (text : Bytes) (before other parsed : Endpoint) :
    netParseEndpoint text before = (parsed, .ok ()) ↔ netParseEndpoint text other = (parsed, .ok ()) := by
  have refused : ∀ e : Endpoint, ¬ (e, Except.error Err.invalid) = (parsed, (.ok () : Except Err Unit)) := by simp
  unfold netParseEndpoint
  split
  · split
    · simp only [refused]
    · split
      · simp only [refused]
      · rw [copyEndpoint_ok, copyEndpoint_ok]
  · split
    · simp only [refused]
    · split
      · simp only [refused]
      · rw [copyEndpoint_ok, copyEndpoint_ok]

/-- A text that is not hollow is parsed for what it writes, and refused otherwise. -/
theorem exact_filled (filled : ¬ Hollow text) : Exact text := by
  intro before parsed
  by_cases written : ∃ endpoint, Writes text endpoint
  · obtain ⟨endpoint, written⟩ := written
    have returns : netParseEndpoint text before = (parsed, .ok ()) ↔ parsed = endpoint ∧ Usable endpoint := by
      rcases written with ⟨rfl, free⟩ | ⟨rfl, open_, free⟩
      · rw [parse_bracketed free, copyEndpoint_ok]
        refine and_congr_right fun _ => ⟨fun ⟨host, port⟩ => ?_, fun usable => ⟨usable.hostFits, usable.portFits⟩⟩
        by_contra unusable
        refine filled ⟨endpoint, rfl, free, host, port, ?_⟩
        by_contra some_
        rw [not_or] at some_
        exact unusable ⟨some_.1, some_.2, host, port⟩
      · rw [parse_plain open_ free]
        split
        next empty =>
          refine ⟨nofun, fun ⟨_, usable⟩ => ?_⟩
          exact (empty.elim usable.host usable.port).elim
        next some_ =>
          rw [not_or] at some_
          rw [copyEndpoint_ok]
          exact and_congr_right fun _ =>
            ⟨fun ⟨host, port⟩ => ⟨some_.1, some_.2, host, port⟩, fun usable => ⟨usable.hostFits, usable.portFits⟩⟩
    rw [returns]
    refine ⟨fun ⟨same, usable⟩ => same ▸ ⟨written, usable⟩, fun ⟨other, usable⟩ => ?_⟩
    obtain rfl := writes_unique other written
    exact ⟨rfl, usable⟩
  · rw [parse_other fun endpoint writes => written ⟨endpoint, writes⟩]
    exact ⟨nofun, fun ⟨writes, _⟩ => absurd ⟨parsed, writes⟩ written⟩

/-- The parser accepts exactly the texts that spell an endpoint, and returns it,
unless the text is hollow: the brackets hide from it that a part is empty. -/
theorem endpoint_parsed (text : Bytes) : Exact text ↔ ¬ Hollow text := by
  constructor
  · intro exact_ hollow
    obtain ⟨endpoint, rfl, free, hostFits, portFits, empty⟩ := hollow
    have parsed :=
      (exact_ endpoint endpoint).mp (by rw [parse_bracketed free, copyEndpoint_ok]; exact ⟨rfl, hostFits, portFits⟩)
    exact empty.elim parsed.2.host parsed.2.port
  · exact exact_filled

/-- An address without a host, and one without a port. -/
theorem endpoint_accepted_hollow : ¬ Exact (ascii "[]:80") ∧ ¬ Exact (ascii "[::1]:") := by
  constructor
  · intro exact_
    have accepted := (exact_ ⟨[], []⟩ ⟨[], ascii "80"⟩).mp (by decide)
    exact accepted.2.host rfl
  · intro exact_
    have accepted := (exact_ ⟨[], []⟩ ⟨ascii "::1", []⟩).mp (by decide)
    exact accepted.2.port rfl

end Sockify.Proofs.Endpoints
