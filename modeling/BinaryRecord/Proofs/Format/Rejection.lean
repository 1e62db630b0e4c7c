import BinaryRecord.Proofs.Format.Grammar
import BinaryRecord.Proofs.Format.Violations

/-!
# Rejected texts

The scanner stops at the first violation of a text and nowhere else, so what follows it has no part
in the error. A text without one is rejected for its end only. Main statement:
`Format.parse_eq_error_iff_firstViolation`.
-/

set_option autoImplicit false

namespace BinaryRecord

theorem bind_pure_eq_error_iff {ε α β : Type} {first : Except ε α} {made : α → β} {error : ε} :
    (first >>= fun value => pure (made value)) = .error error ↔ first = .error error := by
  cases first with
  | error cause => simp [bind, Except.bind]
  | ok value => exact iff_of_false nofun nofun

namespace RepeatCount

theorem push_of_limit_le {count : RepeatCount} {digit : Char} {value : Nat}
    (large : Size.limit ≤ count.value * 10 + value) :
    count.push digit value = .error (.countOverflow count.position) := by
  rw [push, Size.ofNat?_eq_none_iff.mpr large]

theorem group_of_zero {count : RepeatCount} (zero : count.value = 0) (field : Field) :
    count.group field = .error (.zeroCount count.position) :=
  dif_neg (Nat.not_lt.mpr (Nat.le_of_eq zero))

end RepeatCount

namespace Format

variable {before rest : List Char} {c : Char} {error : FormatError}

/-- The count that the digits at the end of characters write. -/
def countAfter (before : List Char) : RepeatCount :=
  ⟨digitsStart before, trailingDigits before, Nat.ofDigitChars 10 (trailingDigits before) 0⟩

/-- What the scanner holds behind characters. -/
def heldAfter (before : List Char) : Option RepeatCount :=
  if trailingDigits before = [] then none else some (countAfter before)

theorem heldAfter_of_eq_nil (unwritten : trailingDigits before = []) :
    heldAfter before = none :=
  if_pos unwritten

theorem heldAfter_of_ne_nil (written : trailingDigits before ≠ []) :
    heldAfter before = some (countAfter before) :=
  if_neg written

theorem getD_heldAfter (before : List Char) :
    (heldAfter before).getD (.start before.length) = countAfter before := by
  by_cases unwritten : trailingDigits before = []
  · rw [heldAfter_of_eq_nil unwritten, countAfter, digitsStart, unwritten]
    rfl
  · rw [heldAfter_of_ne_nil unwritten]
    rfl

theorem heldAfter_concat_of_not_isDigit (other : c.isDigit = false) :
    heldAfter (before ++ [c]) = none :=
  heldAfter_of_eq_nil (List.rtakeWhile_concat_neg Char.isDigit before c (Bool.eq_false_iff.mp other))

theorem trailingDigits_concat (digit : c.isDigit = true) :
    trailingDigits (before ++ [c]) = trailingDigits before ++ [c] :=
  List.rtakeWhile_concat_pos Char.isDigit before c digit

theorem ofDigitChars_concat (digits : List Char) (c : Char) :
    Nat.ofDigitChars 10 (digits ++ [c]) 0 =
      Nat.ofDigitChars 10 digits 0 * 10 + (c.toNat - '0'.toNat) := by
  rw [Nat.ofDigitChars_append, Nat.ofDigitChars_cons, Nat.ofDigitChars_nil, Nat.mul_comm]

theorem push_countAfter (digit : c.isDigit = true)
    (small : Nat.ofDigitChars 10 (trailingDigits before ++ [c]) 0 < Size.limit) :
    (countAfter before).push c (c.toNat - '0'.toNat) = .ok (countAfter (before ++ [c])) := by
  have value := ofDigitChars_concat (trailingDigits before) c
  refine RepeatCount.push_eq_ok_iff.mpr ⟨value ▸ small, ?_⟩
  simp only [countAfter, digitsStart, trailingDigits_concat digit, value, List.length_append,
    List.length_singleton, Nat.add_sub_add_right]

theorem heldAfter_concat_of_isDigit (digit : c.isDigit = true) :
    heldAfter (before ++ [c]) = some (countAfter (before ++ [c])) := by
  apply heldAfter_of_ne_nil
  rw [trailingDigits_concat digit]
  exact List.append_ne_nil_of_right_ne_nil _ (List.cons_ne_nil c [])

/-- The scanner stops at a violation, whatever stands behind it. -/
theorem scan_of_violation (violation : Violation before c error) :
    scan before.length (heldAfter before) (c :: rest) = .error error := by
  cases violation with
  | misplacedOrder plays => simp only [scan, plays.ofChar_eq]
  | badChar plays => simp only [scan, plays.ofChar_eq]
  | countOverflow digit large =>
      rw [ofDigitChars_concat] at large
      have pushed : (countAfter before).push c (c.toNat - '0'.toNat) = .error _ :=
        RepeatCount.push_of_limit_le large
      simp only [scan, Symbol.ofChar_of_isDigit digit, getD_heldAfter, pushed]
      rfl
  | @zeroCount field tag written zero =>
      have grouped : (countAfter before).group field = .error _ :=
        RepeatCount.group_of_zero zero field
      simp only [scan, tag, Symbol.ofChar_tag, heldAfter_of_ne_nil written, grouped]
      rfl
  | danglingCount blank written =>
      simp only [scan, Symbol.ofChar_of_isBlank blank, heldAfter_of_ne_nil written]
      rfl

theorem eq_of_violation {cause : FormatError} (violation : Violation before c error)
    (other : Violation before c cause) : cause = error := by
  have stopped : scan before.length (heldAfter before) [c] = .error error :=
    scan_of_violation violation
  rw [scan_of_violation other] at stopped
  exact Except.error.inj stopped

/-- Over a character that breaks nothing the scanner goes on, with what it then holds. -/
theorem scan_cons_eq_error_iff (sound : ∀ cause, ¬ Violation before c cause) :
    scan before.length (heldAfter before) (c :: rest) = .error error ↔
      scan (before.length + 1) (heldAfter (before ++ [c])) rest = .error error := by
  generalize part : Symbol.ofChar c = symbol
  have plays := Symbol.ofChar_eq_iff_plays.mp part
  cases plays with
  | digit digit =>
      have small : Nat.ofDigitChars 10 (trailingDigits before ++ [c]) 0 < Size.limit :=
        Nat.lt_of_not_le fun large => sound _ (.countOverflow digit large)
      simp only [scan, part, getD_heldAfter, push_countAfter digit small,
        heldAfter_concat_of_isDigit digit]
      rfl
  | @tag field named =>
      have next : heldAfter (before ++ [c]) = none :=
        heldAfter_concat_of_not_isDigit (Symbol.isDigit_eq_false (by simp [part]))
      rw [next]
      by_cases unwritten : trailingDigits before = []
      · simp only [scan, part, heldAfter_of_eq_nil unwritten]
        exact bind_pure_eq_error_iff
      · have positive : 0 < (countAfter before).value :=
          Nat.pos_of_ne_zero fun zero => sound _ (.zeroCount named unwritten zero)
        have grouped : (countAfter before).group field = .ok _ :=
          RepeatCount.group_eq_ok_iff.mpr ⟨positive, rfl⟩
        simp only [scan, part, heldAfter_of_ne_nil unwritten, grouped]
        exact bind_pure_eq_error_iff
  | marker found => exact absurd (.misplacedOrder (.marker found)) (sound _)
  | blank space =>
      have unwritten : trailingDigits before = [] :=
        Classical.byContradiction fun written => sound _ (.danglingCount space written)
      have next : heldAfter (before ++ [c]) = none :=
        heldAfter_concat_of_not_isDigit (Symbol.isDigit_eq_false (by simp [part]))
      simp only [scan, part, heldAfter_of_eq_nil unwritten, next]
  | other noDigit noTag noMarker noBlank =>
      exact absurd (.badChar (.other noDigit noTag noMarker noBlank)) (sound _)

/-- The scanner fails exactly at the first violation from where it stands, or at the end of a text
without one that ends in digits. -/
theorem scan_eq_error_iff (before rest : List Char) :
    scan before.length (heldAfter before) rest = .error error ↔
      (∃ position, FirstViolation (before ++ rest) before.length position error) ∨
        (IntactFrom (before ++ rest) before.length ∧ trailingDigits (before ++ rest) ≠ [] ∧
          error = (countAfter (before ++ rest)).dangling) := by
  -- What the scanner holds is a function of the characters behind it, so these may vary.
  induction rest generalizing before with
  | nil =>
      rw [List.append_nil]
      have intact : IntactFrom before before.length := by
        intro position behind cause violated
        exact absurd (lt_length_of_violatedAt violated) (Nat.not_lt.mpr behind)
      have noFirst : ¬ ∃ position, FirstViolation before before.length position error := by
        rintro ⟨position, first⟩
        exact intact position first.start_le error first.violated
      by_cases unwritten : trailingDigits before = []
      · simp [scan, heldAfter_of_eq_nil unwritten, noFirst, unwritten]
      · simp [scan, heldAfter_of_ne_nil unwritten, noFirst, unwritten, intact, eq_comm]
  | cons c rest restIH =>
      have here {cause : FormatError} :
          ViolatedAt (before ++ c :: rest) before.length cause ↔ Violation before c cause :=
        violatedAt_append_iff
      by_cases broken : ∃ cause, Violation before c cause
      · obtain ⟨cause, violation⟩ := broken
        have violated := here.mpr violation
        have touched : ¬ IntactFrom (before ++ c :: rest) before.length :=
          fun intact => intact _ (Nat.le_refl _) cause violated
        rw [scan_of_violation violation, exists_firstViolation_iff_of_violatedAt violated, here]
        simp only [touched, false_and, or_false, Except.error.injEq]
        constructor
        · rintro rfl
          exact violation
        · intro other
          exact eq_of_violation other violation
      · have sound : ∀ cause, ¬ ViolatedAt (before ++ c :: rest) before.length cause :=
          fun cause violated => broken ⟨cause, here.mp violated⟩
        have split : before ++ c :: rest = (before ++ [c]) ++ rest := by simp
        have next := restIH (before ++ [c])
        rw [List.length_append, List.length_singleton, ← split] at next
        rw [scan_cons_eq_error_iff (not_exists.mp broken), next, intactFrom_iff_succ sound]
        simp only [firstViolation_iff_succ sound]

/-- Characters that the scanner accepts hold no groups exactly if they hold no tag. -/
theorem eq_nil_iff_of_scan {position : Nat} {chars : List Char} {groups : List Group}
    (scanned : scan position none chars = .ok groups) :
    groups = [] ↔ ∀ field : Field, field.tag ∉ chars := by
  obtain ⟨spellings, blanks, blank, spelled, rfl⟩ := spelled_of_scan (by simp) scanned
  obtain rfl : chars = spellings.flatMap GroupSpelling.chars ++ blanks := spelled
  cases spellings with
  | nil =>
      refine iff_of_true rfl ?_
      intro field member
      have parts := Symbol.ofChar_of_isBlank (blank field.tag member)
      rw [Symbol.ofChar_tag] at parts
      cases parts
  | cons spelling spellings =>
      refine iff_of_false (List.cons_ne_nil _ _) ?_
      intro untagged
      exact untagged spelling.field (by simp [GroupSpelling.chars])

theorem scanGroups_eq_error_iff {position : Nat} {body : List Char} :
    scanGroups position body = .error error ↔
      scan position none body = .error error ∨
        (scan position none body = .ok [] ∧ error = .empty) := by
  unfold scanGroups
  cases scanned : scan position none body with
  | error cause => simp [bind, Except.bind]
  | ok groups => cases groups <;> simp [bind, Except.bind, eq_comm]

private theorem scanGroups_rejects_iff (before body : List Char)
    (unwritten : trailingDigits before = []) (untagged : ∀ field : Field, field.tag ∉ before) :
    scanGroups before.length body = .error error ↔
      (∃ position, FirstViolation (before ++ body) before.length position error) ∨
        (IntactFrom (before ++ body) before.length ∧ Unfinished (before ++ body) error) := by
  have scanFails {cause : FormatError} :
      scan before.length (heldAfter before) body = .error cause ↔ _ :=
    scan_eq_error_iff before body
  rw [heldAfter_of_eq_nil unwritten] at scanFails
  have tags : (∀ field : Field, field.tag ∉ before ++ body) ↔
      ∀ field : Field, field.tag ∉ body := by
    simp [untagged]
  rw [scanGroups_eq_error_iff]
  constructor
  · intro rejected
    rcases rejected with failed | ⟨accepted, rfl⟩
    · rcases scanFails.mp failed with first | ⟨intact, written, rfl⟩
      · exact .inl first
      · exact .inr ⟨intact, .danglingCount written⟩
    · right
      have intact : IntactFrom (before ++ body) before.length := by
        apply Classical.byContradiction
        intro touched
        obtain ⟨position, cause, first⟩ := exists_firstViolation touched
        cases accepted.symm.trans (scanFails.mpr (.inl ⟨position, first⟩))
      refine ⟨intact, .empty ?_ (tags.mpr ((eq_nil_iff_of_scan accepted).mp rfl))⟩
      apply Classical.byContradiction
      intro written
      cases accepted.symm.trans (scanFails.mpr (.inr ⟨intact, written, rfl⟩))
  · intro broken
    rcases broken with first | ⟨intact, unfinished⟩
    · exact .inl (scanFails.mpr (.inl first))
    · cases unfinished with
      | danglingCount written => exact .inl (scanFails.mpr (.inr ⟨intact, written, rfl⟩))
      | empty ended noTags =>
          right
          cases scanned : scan before.length none body with
          | error cause =>
              rcases scanFails.mp scanned with ⟨position, first⟩ | ⟨_, written, _⟩
              · exact absurd first.violated (intact position first.start_le cause)
              · exact absurd ended written
          | ok groups =>
              rw [(eq_nil_iff_of_scan scanned).mpr (tags.mp noTags)]
              exact ⟨rfl, rfl⟩

theorem ofChars_eq_error_iff (chars : List Char) :
    ofChars chars = .error error ↔
      (∃ position, FirstViolation chars (groupsStart chars) position error) ∨
        (IntactFrom chars (groupsStart chars) ∧ Unfinished chars error) := by
  have unmarked : scanGroups 0 chars = .error error ↔ _ :=
    scanGroups_rejects_iff [] chars rfl (fun _ => List.not_mem_nil)
  cases chars with
  | nil =>
      have empty : ofChars [] = .error error ↔ scanGroups 0 [] = .error error := by
        constructor
        · intro rejected
          cases rejected
          rfl
        · intro rejected
          cases rejected
          rfl
      exact empty.trans unmarked
  | cons c rest =>
      cases found : ByteOrder.ofMarker? c with
      | none =>
          simp only [ofChars, groupsStart, found]
          rw [bind_pure_eq_error_iff]
          exact unmarked
      | some order =>
          have part := Symbol.ofChar_of_ofMarker? found
          have unwritten : trailingDigits [c] = [] :=
            List.rtakeWhile_concat_neg Char.isDigit [] c
              (Bool.eq_false_iff.mp (Symbol.isDigit_eq_false (by simp [part])))
          have untagged : ∀ field : Field, field.tag ∉ [c] := by
            intro field member
            rw [← List.mem_singleton.mp member, Symbol.ofChar_tag] at part
            cases part
          simp only [ofChars, groupsStart, found]
          rw [bind_pure_eq_error_iff]
          exact scanGroups_rejects_iff [c] rest unwritten untagged

/-- A text is rejected for its first violation behind the marker, and only a text without one is
rejected for its end. What follows a violation has no part in the error. -/
theorem parse_eq_error_iff_firstViolation (text : String) (error : FormatError) :
    (parse text = .error error ↔
      (∃ position,
        FirstViolation text.toList (groupsStart text.toList) position error) ∨
      (IntactFrom text.toList (groupsStart text.toList) ∧ Unfinished text.toList error)) ∧
    ∀ (position : Nat) (other : String),
      FirstViolation text.toList (groupsStart text.toList) position error →
      other.toList.take (position + 1) = text.toList.take (position + 1) →
        parse other = .error error := by
  refine ⟨ofChars_eq_error_iff text.toList, ?_⟩
  intro position other first same
  apply (ofChars_eq_error_iff other.toList).mpr
  rw [groupsStart_of_take_eq same]
  exact .inl ⟨position, first.of_take_eq same⟩

/-- The count is too large from its last digit on, and no character behind it matters. -/
example : parse "<I 0018446744073709551616x" = .error (.countOverflow 3) := by
  rfl

end Format

end BinaryRecord
