import BinaryRecord.Format.Error
import BinaryRecord.Proofs.Format.Symbols
import Mathlib.Data.List.DropRight
import Mathlib.Data.Nat.Find

/-!
# Violations of the grammar

How a text breaks the grammar of formats, stated without the scanner: at one character, by that
character and the digits directly before it, or at its end. The first violation of a text is decided
by the characters up to it. Main statement: `Format.FirstViolation.of_take_eq`.
-/

set_option autoImplicit false

namespace BinaryRecord.Format

/-- The digits that characters end in. -/
def trailingDigits (before : List Char) : List Char :=
  before.rtakeWhile Char.isDigit

/-- Where the digits that characters end in begin. -/
def digitsStart (before : List Char) : Nat :=
  before.length - (trailingDigits before).length

/-- A character breaks the grammar behind the characters before it. -/
inductive Violation (before : List Char) (c : Char) : FormatError → Prop where
  | misplacedOrder {order} : Symbol.Plays c (.marker order) →
      Violation before c (.misplacedOrder c before.length)
  | badChar : Symbol.Plays c .other → Violation before c (.badChar c before.length)
  | countOverflow : c.isDigit = true →
      Size.limit ≤ Nat.ofDigitChars 10 (trailingDigits before ++ [c]) 0 →
      Violation before c (.countOverflow (digitsStart before))
  | zeroCount {field : Field} : c = field.tag → trailingDigits before ≠ [] →
      Nat.ofDigitChars 10 (trailingDigits before) 0 = 0 →
      Violation before c (.zeroCount (digitsStart before))
  | danglingCount : Text.isBlank c = true → trailingDigits before ≠ [] →
      Violation before c
        (.danglingCount (String.ofList (trailingDigits before)) (digitsStart before))

/-- The end of a text breaks the grammar: a count has no tag, or there are no groups at all. -/
inductive Unfinished (chars : List Char) : FormatError → Prop where
  | danglingCount : trailingDigits chars ≠ [] →
      Unfinished chars
        (.danglingCount (String.ofList (trailingDigits chars)) (digitsStart chars))
  | empty : trailingDigits chars = [] → (∀ field : Field, field.tag ∉ chars) →
      Unfinished chars .empty

/-- Where the groups of a text begin: behind its marker, if it has one. -/
def groupsStart : List Char → Nat
  | [] => 0
  | c :: _ => if (ByteOrder.ofMarker? c).isSome then 1 else 0

def ViolatedAt (chars : List Char) (position : Nat) (error : FormatError) : Prop :=
  ∃ c, chars[position]? = some c ∧ Violation (chars.take position) c error

/-- No character from a position on breaks the grammar. -/
def IntactFrom (chars : List Char) (start : Nat) : Prop :=
  ∀ position, start ≤ position → ∀ error, ¬ ViolatedAt chars position error

structure FirstViolation (chars : List Char) (start position : Nat) (error : FormatError) :
    Prop where
  start_le : start ≤ position
  violated : ViolatedAt chars position error
  intact : ∀ earlier, start ≤ earlier → earlier < position →
    ∀ other, ¬ ViolatedAt chars earlier other

variable {chars other : List Char} {start position : Nat} {error : FormatError}

theorem lt_length_of_violatedAt (violated : ViolatedAt chars position error) :
    position < chars.length := by
  obtain ⟨c, found, _⟩ := violated
  exact (List.getElem?_eq_some_iff.mp found).1

theorem violatedAt_append_iff {before rest : List Char} {c : Char} :
    ViolatedAt (before ++ c :: rest) before.length error ↔ Violation before c error := by
  have found : (before ++ c :: rest)[before.length]? = some c := by simp
  have front : (before ++ c :: rest).take before.length = before := by simp
  constructor
  · intro violated
    obtain ⟨d, held, violation⟩ := violated
    obtain rfl : c = d := Option.some.inj (found.symm.trans held)
    exact front ▸ violation
  · intro violation
    exact ⟨c, found, front.symm ▸ violation⟩

theorem violatedAt_take_iff {count : Nat} (inside : position < count) :
    ViolatedAt (chars.take count) position error ↔ ViolatedAt chars position error := by
  have found : (chars.take count)[position]? = chars[position]? :=
    List.getElem?_take_of_lt inside
  have front : (chars.take count).take position = chars.take position := by
    rw [List.take_take, Nat.min_eq_left (Nat.le_of_lt inside)]
  rw [ViolatedAt, ViolatedAt, found, front]

theorem groupsStart_of_take_eq (same : other.take (position + 1) = chars.take (position + 1)) :
    groupsStart other = groupsStart chars := by
  cases chars with
  | nil => rw [(List.take_eq_nil_iff.mp same).resolve_left (Nat.succ_ne_zero position)]
  | cons c rest =>
      cases other with
      | nil => cases same
      | cons d others =>
          obtain rfl : d = c := (List.cons.inj same).1
          rfl

namespace FirstViolation

/-- Characters that are equal up to the first violation have the same one. -/
theorem of_take_eq (first : FirstViolation chars start position error)
    (same : other.take (position + 1) = chars.take (position + 1)) :
    FirstViolation other start position error := by
  have local_iff {earlier : Nat} {cause : FormatError} (inside : earlier < position + 1) :
      ViolatedAt other earlier cause ↔ ViolatedAt chars earlier cause := by
    rw [← violatedAt_take_iff inside, same, violatedAt_take_iff inside]
  refine ⟨first.start_le, (local_iff (Nat.lt_succ_self position)).mpr first.violated, ?_⟩
  intro earlier later before cause violated
  exact first.intact earlier later before cause ((local_iff (Nat.lt_succ_of_lt before)).mp violated)

end FirstViolation

/-- A text that breaks the grammar at characters does so at a first one. -/
theorem exists_firstViolation (touched : ¬ IntactFrom chars start) :
    ∃ position error, FirstViolation chars start position error := by
  classical
  have found : ∃ position, start ≤ position ∧ ∃ error, ViolatedAt chars position error := by
    apply Classical.byContradiction
    intro missing
    exact touched fun position behind error violated =>
      missing ⟨position, behind, error, violated⟩
  obtain ⟨behind, error, violated⟩ := Nat.find_spec found
  refine ⟨Nat.find found, error, behind, violated, ?_⟩
  intro earlier later before other broken
  exact Nat.find_min found before ⟨later, other, broken⟩

/-- A violation where the search starts is the first one. -/
theorem exists_firstViolation_iff_of_violatedAt {cause : FormatError}
    (violated : ViolatedAt chars start cause) :
    (∃ position, FirstViolation chars start position error) ↔ ViolatedAt chars start error := by
  constructor
  · intro found
    obtain ⟨position, first⟩ := found
    rcases Nat.eq_or_lt_of_le first.start_le with rfl | later
    · exact first.violated
    · exact absurd violated (first.intact start (Nat.le_refl start) later cause)
  · intro here
    exact ⟨start, Nat.le_refl start, here,
      fun _ later before => absurd before (Nat.not_lt.mpr later)⟩

/-- The search moves on over a character that breaks nothing. -/
theorem firstViolation_iff_succ (sound : ∀ cause, ¬ ViolatedAt chars start cause) :
    FirstViolation chars start position error ↔
      FirstViolation chars (start + 1) position error := by
  constructor
  · intro first
    have later : start ≠ position := by
      rintro rfl
      exact sound error first.violated
    exact ⟨Nat.lt_of_le_of_ne first.start_le later, first.violated,
      fun earlier behind => first.intact earlier (Nat.le_of_succ_le behind)⟩
  · intro first
    refine ⟨Nat.le_of_succ_le first.start_le, first.violated, ?_⟩
    intro earlier behind before
    rcases Nat.eq_or_lt_of_le behind with rfl | later
    · exact sound
    · exact first.intact earlier later before

theorem intactFrom_iff_succ (sound : ∀ cause, ¬ ViolatedAt chars start cause) :
    IntactFrom chars start ↔ IntactFrom chars (start + 1) := by
  constructor
  · intro intact position behind
    exact intact position (Nat.le_of_succ_le behind)
  · intro intact position behind
    rcases Nat.eq_or_lt_of_le behind with rfl | later
    · exact sound
    · exact intact position later

end BinaryRecord.Format
