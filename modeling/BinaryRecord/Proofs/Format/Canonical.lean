import BinaryRecord.Proofs.Format.Grammar

/-!
# Canonical texts

The canonical text of a format is one of its spellings, so reading it gives the format back, and
formats with one text are one format. Main statement: `Format.parse_text`.
-/

set_option autoImplicit false

namespace BinaryRecord

theorem isBlank_of_mem_nil : ∀ c ∈ ([] : List Char), Text.isBlank c = true :=
  List.forall_mem_nil _

namespace Group

def digits (group : Group) : List Char :=
  if group.count = 1 then [] else Nat.toDigits 10 group.count

theorem toList_text (group : Group) : group.text.toList = group.digits ++ [group.field.tag] := by
  unfold text digits
  split
  next => simp
  next => simp [Nat.toString_eq_repr]

theorem isDigit_of_mem_digits (group : Group) : ∀ c ∈ group.digits, c.isDigit = true := by
  intro c member
  unfold digits at member
  split at member
  · cases member
  · exact Nat.isDigit_of_mem_toDigits (by decide) (by decide) member

theorem ofDigitChars_digits {group : Group} (written : group.digits ≠ []) :
    Nat.ofDigitChars 10 group.digits 0 = group.count := by
  unfold digits at written ⊢
  split
  next once => exact absurd (if_pos once) written
  next => exact Nat.ofDigitChars_toDigits (by decide) (by decide)

theorem digits_eq_nil_iff {group : Group} : group.digits = [] ↔ group.count = 1 := by
  unfold digits
  split
  next once => exact iff_of_true rfl once
  next many => exact iff_of_false Nat.toDigits_ne_nil many

theorem digits_range {group : Group} (small : group.count < Size.limit)
    (written : group.digits ≠ []) :
    1 ≤ Nat.ofDigitChars 10 group.digits 0 ∧
      Nat.ofDigitChars 10 group.digits 0 < Size.limit := by
  rw [ofDigitChars_digits written]
  exact ⟨group.count_pos, small⟩

/-- The spelling of a group without blanks, and without digits where the count is one. -/
def spelling (group : Group) (small : group.count < Size.limit) : GroupSpelling where
  blanks := []
  digits := group.digits
  field := group.field
  isBlank_of_mem := isBlank_of_mem_nil
  isDigit_of_mem := group.isDigit_of_mem_digits
  count_range := digits_range small

theorem chars_spelling (group : Group) (small : group.count < Size.limit) :
    (group.spelling small).chars = group.text.toList := by
  rw [toList_text]
  rfl

theorem count_spelling (group : Group) (small : group.count < Size.limit) :
    (group.spelling small).count = group.count := by
  unfold GroupSpelling.count
  split
  next unwritten => exact (digits_eq_nil_iff.mp unwritten).symm
  next written => exact ofDigitChars_digits written

theorem group_spelling (group : Group) (small : group.count < Size.limit) :
    (group.spelling small).group = group := by
  have count := group.count_spelling small
  obtain ⟨_, _, _⟩ := group
  rw [GroupSpelling.group, Group.mk.injEq]
  exact ⟨count, rfl⟩

end Group

namespace Format

/-- A format that has a text: it has groups, and their counts are sizes. -/
structure Writable (format : Format) : Prop where
  groups_ne_nil : format.groups ≠ []
  count_lt : ∀ group ∈ format.groups, group.count < Size.limit

variable {format other : Format}

theorem toList_text (format : Format) :
    format.text.toList =
      format.order.marker :: format.groups.flatMap fun group => group.text.toList := by
  simp [text, String.toList_join, List.flatMap_map]

def Writable.spelling (writable : format.Writable) : FormatSpelling where
  order := format.order
  marker := [format.order.marker]
  groups := format.groups.pmap Group.spelling writable.count_lt
  blanks := []
  marked := ByteOrder.marked_of_ofMarker? (ByteOrder.ofMarker?_marker format.order)
  groups_ne_nil := mt List.pmap_eq_nil_iff.mp writable.groups_ne_nil
  isBlank_of_mem := isBlank_of_mem_nil

theorem Writable.chars_spelling (writable : format.Writable) :
    writable.spelling.chars = format.text.toList := by
  rw [toList_text]
  have groups : (format.groups.pmap Group.spelling writable.count_lt).flatMap GroupSpelling.chars =
      format.groups.flatMap fun group => group.text.toList := by
    simp only [List.flatMap_def, List.map_pmap, Group.chars_spelling, List.pmap_eq_map]
  simp [FormatSpelling.chars, spelling, groups]

theorem Writable.format_spelling (writable : format.Writable) :
    writable.spelling.format = format := by
  simp [FormatSpelling.format, spelling, List.map_pmap, Group.group_spelling]

theorem parse_text (writable : format.Writable) : parse format.text = .ok format := by
  have read := ofChars_spelled writable.spelling
  rwa [writable.chars_spelling, writable.format_spelling] at read

theorem text_inj (writable : format.Writable) (otherWritable : other.Writable) :
    other.text = format.text ↔ other = format := by
  constructor
  · intro same
    have read := parse_text otherWritable
    rw [same, parse_text writable] at read
    exact (Except.ok.inj read).symm
  · exact congrArg text

end Format

end BinaryRecord
