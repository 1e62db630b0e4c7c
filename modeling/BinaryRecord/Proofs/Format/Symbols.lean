import BinaryRecord.Format.Symbol

/-!
# The parts that characters play

`Symbol.Plays` names the class of characters behind each part. The classes are disjoint and cover
every character, so that `Symbol.ofChar` is the one part that a character plays.
-/

set_option autoImplicit false

namespace BinaryRecord

theorem ByteOrder.char_of_ofMarker? {c : Char} {order : ByteOrder}
    (found : ofMarker? c = some order) : c = '<' ∨ c = '>' ∨ c = '!' ∨ c = '=' ∨ c = '@' := by
  unfold ofMarker? at found
  split at found
  all_goals first | decide | cases found

namespace Symbol

inductive Plays (c : Char) : Symbol → Prop where
  | digit : c.isDigit = true → Plays c (.digit (c.toNat - '0'.toNat))
  | tag {field} : c = field.tag → Plays c (.tag field)
  | marker {order} : ByteOrder.ofMarker? c = some order → Plays c (.marker order)
  | blank : Text.isBlank c = true → Plays c .blank
  | other : c.isDigit = false → (∀ field : Field, c ≠ field.tag) → ByteOrder.ofMarker? c = none →
      Text.isBlank c = false → Plays c .other

theorem plays_ofChar (c : Char) : Plays c (ofChar c) := by
  unfold ofChar
  split
  next digit => exact .digit digit
  next noDigit =>
    split
    next found => exact .tag (Field.ofTag?_eq_some_iff.mp found)
    next found => exact .marker found
    next noTag noMarker =>
      split
      next blank => exact .blank blank
      next noBlank =>
        refine .other (Bool.eq_false_iff.mpr noDigit) ?_ noMarker (Bool.eq_false_iff.mpr noBlank)
        rintro field rfl
        simp at noTag

/-- Blanks stand on either side of the visible characters of ASCII, where all other classes lie. -/
private theorem range_of_isBlank {c : Char} (blank : Text.isBlank c = true) :
    c.toNat < '!'.toNat ∨ '~'.toNat < c.toNat := by
  simp only [Text.isBlank, Text.inRanges, Text.blankRanges, List.any_cons, List.any_nil,
    Bool.or_eq_true, Bool.and_eq_true, decide_eq_true_eq, Bool.or_false] at blank
  have first : '!'.toNat = 33 := rfl
  have last : '~'.toNat = 126 := rfl
  omega

private theorem range_of_isDigit {c : Char} (digit : c.isDigit = true) :
    '!'.toNat ≤ c.toNat ∧ c.toNat ≤ '~'.toNat := by
  obtain ⟨lower, upper⟩ := Char.isDigit_iff_toNat.mp digit
  exact ⟨Nat.le_trans (by decide) lower, Nat.le_trans upper (by decide)⟩

private theorem range_tag (field : Field) :
    '!'.toNat ≤ field.tag.toNat ∧ field.tag.toNat ≤ '~'.toNat := by
  cases field <;> decide

private theorem range_of_marker {c : Char} {order : ByteOrder}
    (found : ByteOrder.ofMarker? c = some order) :
    '!'.toNat ≤ c.toNat ∧ c.toNat ≤ '~'.toNat := by
  rcases ByteOrder.char_of_ofMarker? found with rfl | rfl | rfl | rfl | rfl <;> decide

theorem ofChar_of_isDigit {c : Char} (digit : c.isDigit = true) :
    ofChar c = .digit (c.toNat - '0'.toNat) := by
  simp [ofChar, digit]

theorem isDigit_eq_false {c : Char} (part : ∀ value, ofChar c ≠ .digit value) :
    c.isDigit = false :=
  Bool.eq_false_iff.mpr fun digit => part _ (ofChar_of_isDigit digit)

theorem ofChar_of_isBlank {c : Char} (blank : Text.isBlank c = true) : ofChar c = .blank := by
  have outside := range_of_isBlank blank
  have played := plays_ofChar c
  generalize ofChar c = symbol at played ⊢
  cases played with
  | blank => rfl
  | digit digit =>
      have inside := range_of_isDigit digit
      omega
  | @tag field named =>
      have inside := named ▸ range_tag field
      omega
  | marker found =>
      have inside := range_of_marker found
      omega
  | other _ _ _ noBlank =>
      rw [blank] at noBlank
      cases noBlank

theorem ofChar_of_ofMarker? {c : Char} {order : ByteOrder}
    (found : ByteOrder.ofMarker? c = some order) : ofChar c = .marker order := by
  have apart : c.isDigit = false ∧ Field.ofTag? c = none := by
    rcases ByteOrder.char_of_ofMarker? found with rfl | rfl | rfl | rfl | rfl <;> decide
  simp [ofChar, apart, found]

theorem Plays.ofChar_eq {c : Char} {symbol : Symbol} (played : Plays c symbol) :
    ofChar c = symbol := by
  cases played with
  | digit digit => exact ofChar_of_isDigit digit
  | tag named => rw [named, ofChar_tag]
  | marker found => exact ofChar_of_ofMarker? found
  | blank blank => exact ofChar_of_isBlank blank
  | other noDigit noTag noMarker noBlank =>
      have noField : Field.ofTag? c = none := by
        cases found : Field.ofTag? c with
        | none => rfl
        | some field => exact absurd (Field.ofTag?_eq_some_iff.mp found) (noTag field)
      simp [ofChar, noDigit, noField, noMarker, noBlank]

theorem ofChar_eq_iff_plays {c : Char} {symbol : Symbol} : ofChar c = symbol ↔ Plays c symbol :=
  ⟨fun equal => equal ▸ plays_ofChar c, Plays.ofChar_eq⟩

end Symbol

end BinaryRecord
