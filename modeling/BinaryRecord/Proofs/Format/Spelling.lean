import BinaryRecord.Format

/-!
# Spellings of formats

The grammar of format texts, stated without the scanner. A spelling holds the parts of a text; its
characters are the parts in a row, and the format that it spells is read off the parts.
-/

set_option autoImplicit false

namespace BinaryRecord

/-- The markers that a text may begin with, none among them, and the order that each stands for. -/
inductive ByteOrder.Marked : ByteOrder → List Char → Prop where
  | unmarked : Marked .little []
  | less : Marked .little ['<']
  | greater : Marked .big ['>']
  | exclamation : Marked .big ['!']
  | equals : Marked .little ['=']
  | commercialAt : Marked .little ['@']

/-- A group as it stands in a text. The digits of its count, if there are any, write a number from
one up that is a size. -/
structure GroupSpelling where
  blanks : List Char
  digits : List Char
  field : Field
  isBlank_of_mem : ∀ c ∈ blanks, Text.isBlank c = true
  isDigit_of_mem : ∀ c ∈ digits, c.isDigit = true
  count_range : digits ≠ [] →
    1 ≤ Nat.ofDigitChars 10 digits 0 ∧ Nat.ofDigitChars 10 digits 0 < Size.limit

namespace GroupSpelling

/-- The count that is spelled, which is one where no digits stand. -/
def count (spelling : GroupSpelling) : Nat :=
  if spelling.digits = [] then 1 else Nat.ofDigitChars 10 spelling.digits 0

theorem count_pos (spelling : GroupSpelling) : 0 < spelling.count := by
  unfold count
  split
  next => exact Nat.one_pos
  next written => exact (spelling.count_range written).1

def group (spelling : GroupSpelling) : Group :=
  ⟨spelling.count, spelling.field, spelling.count_pos⟩

def chars (spelling : GroupSpelling) : List Char :=
  spelling.blanks ++ spelling.digits ++ [spelling.field.tag]

def bare (field : Field) : GroupSpelling :=
  ⟨[], [], field, List.forall_mem_nil _, List.forall_mem_nil _, absurd rfl⟩

def indent (spelling : GroupSpelling) {c : Char} (blank : Text.isBlank c = true) : GroupSpelling :=
  { spelling with
    blanks := c :: spelling.blanks
    isBlank_of_mem := List.forall_mem_cons.mpr ⟨blank, spelling.isBlank_of_mem⟩ }

end GroupSpelling

/-- A whole text: a marker or none, one group at least, and blanks. -/
structure FormatSpelling where
  order : ByteOrder
  marker : List Char
  groups : List GroupSpelling
  blanks : List Char
  marked : order.Marked marker
  groups_ne_nil : groups ≠ []
  isBlank_of_mem : ∀ c ∈ blanks, Text.isBlank c = true

namespace FormatSpelling

def chars (spelling : FormatSpelling) : List Char :=
  spelling.marker ++ (spelling.groups.flatMap GroupSpelling.chars ++ spelling.blanks)

def format (spelling : FormatSpelling) : Format :=
  ⟨spelling.order, spelling.groups.map GroupSpelling.group⟩

end FormatSpelling

namespace ByteOrder

theorem Marked.nil_or_singleton {order : ByteOrder} {marker : List Char}
    (marked : order.Marked marker) :
    marker = [] ∧ order = default ∨ ∃ c, marker = [c] ∧ ofMarker? c = some order := by
  cases marked with
  | unmarked => exact .inl ⟨rfl, rfl⟩
  | less | greater | exclamation | equals | commercialAt => exact .inr ⟨_, rfl, rfl⟩

theorem marked_of_ofMarker? {c : Char} {order : ByteOrder} (found : ofMarker? c = some order) :
    order.Marked [c] := by
  unfold ofMarker? at found
  split at found
  next => cases found; exact .less
  next => cases found; exact .greater
  next => cases found; exact .exclamation
  next => cases found; exact .equals
  next => cases found; exact .commercialAt
  next => cases found

end ByteOrder

end BinaryRecord
