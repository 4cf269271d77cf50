import Mathlib.Data.List.TakeWhile

/-! Parts of a text: what is left between blanks, what is on either side of the
first delimiter, and the tokens between separators. Each part is described by
where it stands in the text, and then computed. -/

namespace Sockify.Lib.Spans

variable {α : Type*}

/-- `value` is `text` without the blanks at its two ends. -/
def Trimmed (blank : α → Bool) (text value : List α) : Prop :=
  ∃ left right, text = left ++ value ++ right ∧ (∀ item ∈ left, blank item) ∧ (∀ item ∈ right, blank item) ∧
    (∀ item ∈ value.head?, ¬ blank item) ∧ ∀ item ∈ value.getLast?, ¬ blank item

/-- `name` and `rest` stand on the two sides of the first delimiter. -/
def Cut (delimiter : α) (text name rest : List α) : Prop := text = name ++ delimiter :: rest ∧ delimiter ∉ name

/-- `token` stands between separators, or the ends of the text, and has none inside. -/
def Token (separator : α → Bool) (text token : List α) : Prop :=
  ∃ before after, text = before ++ token ++ after ∧ (∀ item ∈ token, ¬ separator item) ∧
    (∀ item ∈ before.getLast?, separator item) ∧ ∀ item ∈ after.head?, separator item

section Trimming
variable {blank : α → Bool} {text value other : List α}

theorem dropWhile_head (sharp : ∀ item ∈ text.head?, ¬ blank item) : text.dropWhile blank = text := by
  cases text with
  | nil => rfl
  | cons item rest => exact List.dropWhile_cons_of_neg (sharp item rfl)

theorem head_dropWhile (text : List α) : ∀ item ∈ (text.dropWhile blank).head?, ¬ blank item := by
  intro item first
  have stops := List.head?_dropWhile_not blank text
  rw [first] at stops
  simpa using stops

theorem trimmed_trim (text : List α) : Trimmed blank text ((text.dropWhile blank).reverse.dropWhile blank).reverse := by
  let core := text.dropWhile blank
  have split : core = (core.reverse.dropWhile blank).reverse ++ (core.reverse.takeWhile blank).reverse := by
    rw [← List.reverse_append, List.takeWhile_append_dropWhile, List.reverse_reverse]
  refine ⟨text.takeWhile blank, (core.reverse.takeWhile blank).reverse, ?_, ?_, ?_, ?_, ?_⟩
  · rw [List.append_assoc, ← split, List.takeWhile_append_dropWhile]
  · exact fun item member => List.mem_takeWhile_imp member
  · intro item member
    exact List.mem_takeWhile_imp (List.mem_reverse.mp member)
  · -- The value is a front part of what is left behind the leading blanks.
    intro item first
    apply head_dropWhile text item
    show item ∈ core.head?
    rw [split]
    cases kept : (core.reverse.dropWhile blank).reverse with
    | nil =>
      rw [kept] at first
      cases first
    | cons head tail =>
      rw [kept] at first
      exact first
  · intro item last
    rw [List.getLast?_reverse] at last
    exact head_dropWhile core.reverse item last

theorem trimmed_unique (trimmed : Trimmed blank text value) :
    value = ((text.dropWhile blank).reverse.dropWhile blank).reverse := by
  obtain ⟨left, right, rfl, leading, trailing, sharp, blunt⟩ := trimmed
  rw [List.append_assoc, List.dropWhile_append_of_pos leading]
  cases value with
  | nil =>
    have all : right.dropWhile blank = [] := List.dropWhile_eq_nil_iff.mpr trailing
    rw [List.nil_append, all]
    rfl
  | cons head tail =>
    rw [List.cons_append, List.dropWhile_cons_of_neg (sharp head rfl), ← List.cons_append, List.reverse_append,
      List.dropWhile_append_of_pos (fun item member => trailing item (List.mem_reverse.mp member)),
        dropWhile_head, List.reverse_reverse]
    intro item first
    rw [List.head?_reverse] at first
    exact blunt item first

end Trimming

section Cutting
variable [DecidableEq α] {delimiter : α} {text name rest : List α}

theorem takeWhile_cut (cut : Cut delimiter text name rest) : text.takeWhile (· ≠ delimiter) = name := by
  obtain ⟨rfl, absent⟩ := cut
  rw [List.takeWhile_append_of_pos]
  · simp
  · intro item member
    have other : item ≠ delimiter := fun same => absent (same ▸ member)
    simpa using other

/-- A text can be cut exactly where its first delimiter is. -/
theorem cut_takeWhile (inside : delimiter ∈ text) :
    Cut delimiter text (text.takeWhile (· ≠ delimiter)) (text.drop ((text.takeWhile (· ≠ delimiter)).length + 1)) := by
  induction text with
  | nil => cases inside
  | cons item text ih =>
    by_cases here : item = delimiter
    · rw [List.takeWhile_cons_of_neg (by simpa using here)]
      exact ⟨by rw [here]; rfl, List.not_mem_nil⟩
    · have later : delimiter ∈ text := by
        cases inside with
        | head => exact absurd rfl here
        | tail _ later => exact later
      obtain ⟨parts, absent⟩ := ih later
      rw [List.takeWhile_cons_of_pos (by simpa using here)]
      refine ⟨?_, ?_⟩
      · rw [List.length_cons, List.drop_succ_cons, List.cons_append, ← parts]
      · intro member
        cases member with
        | head => exact here rfl
        | tail _ member => exact absent member

end Cutting

section Tokens
variable {separator : α → Bool} {text token current rest : List α} {item : α}

/-- Two ways to read a separator-free front part that a separator, or the end, follows. -/
theorem free_unique {other after more : List α} (same : token ++ after = other ++ more)
    (free : ∀ item ∈ token, ¬ separator item) (plain : ∀ item ∈ other, ¬ separator item)
    (stop : ∀ item ∈ after.head?, separator item) (halt : ∀ item ∈ more.head?, separator item) :
    token = other := by
  rcases List.append_eq_append_iff.mp same with ⟨gap, shape, tail⟩ | ⟨gap, shape, tail⟩
  · cases gap with
    | nil => rw [shape, List.append_nil]
    | cons item gap =>
      exact absurd (stop item (by rw [tail]; rfl)) (plain item (by rw [shape]; simp))
  · cases gap with
    | nil => rw [shape, List.append_nil]
    | cons item gap =>
      exact absurd (halt item (by rw [tail]; rfl)) (free item (by rw [shape]; simp))

/-- A part of a separator-free text that a separator precedes starts the text. -/
theorem before_nil {before after : List α} (parts : current = before ++ after)
    (free : ∀ item ∈ current, ¬ separator item) (edge : ∀ item ∈ before.getLast?, separator item) :
    before = [] := by
  cases last : before.getLast? with
  | none => exact List.getLast?_eq_none_iff.mp last
  | some item =>
    have member : item ∈ current := by
      rw [parts]
      exact List.mem_append_left after (List.mem_of_getLast? last)
    exact absurd (edge item last) (free item member)

theorem token_free (free : ∀ item ∈ current, ¬ separator item) : Token separator current token ↔ token = current := by
  constructor
  · rintro ⟨before, after, parts, plain, edge, stop⟩
    rw [List.append_assoc] at parts
    obtain rfl := before_nil parts free edge
    exact free_unique (parts.symm.trans (List.append_nil current).symm) plain free stop nofun
  · rintro rfl
    exact ⟨[], [], by simp, free, nofun, nofun⟩

/-- The tokens of a text are those on the two sides of a separator. -/
theorem token_separator (free : ∀ item ∈ current, ¬ separator item) (sep : separator item) :
    Token separator (current ++ item :: rest) token ↔ token = current ∨ Token separator rest token := by
  constructor
  · rintro ⟨before, after, parts, plain, edge, stop⟩
    rw [List.append_assoc] at parts
    rcases List.append_eq_append_iff.mp parts with ⟨gap, shape, tail⟩ | ⟨gap, shape, tail⟩
    · cases gap with
      | nil =>
        -- The part in front would end with the last item of `current`.
        have start : before = [] :=
          before_nil (show current = before ++ [] by rw [shape, List.append_nil, List.append_nil]) free edge
        rw [start, List.nil_append] at parts
        exact .inl (free_unique parts.symm plain free stop (by rintro _ ⟨⟩; exact sep))
      | cons next gap =>
        obtain ⟨rfl, deeper⟩ := List.cons.inj tail
        refine .inr ⟨gap, after, by rw [List.append_assoc]; exact deeper, plain, ?_, stop⟩
        intro last ends
        apply edge
        rw [shape, List.getLast?_append, List.getLast?_cons, Option.mem_def.mp ends]
        rfl
    · obtain rfl := before_nil shape free edge
      rw [List.nil_append] at shape parts
      exact .inl (free_unique parts.symm plain free stop (by rintro _ ⟨⟩; exact sep))
  · rintro (rfl | ⟨before, after, rfl, plain, edge, stop⟩)
    · exact ⟨[], item :: rest, by simp, free, nofun, by rintro _ ⟨⟩; exact sep⟩
    · refine ⟨current ++ item :: before, after, by simp, plain, ?_, stop⟩
      intro last ends
      rw [List.getLast?_append] at ends
      cases before with
      | nil =>
        obtain rfl : item = last := by simpa using ends
        exact sep
      | cons first before =>
        apply edge
        simpa using ends

end Tokens

end Sockify.Lib.Spans
