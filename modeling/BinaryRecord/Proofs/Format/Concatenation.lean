import BinaryRecord.Proofs.Format.Marker
import BinaryRecord.Proofs.Format.Rejection

/-!
# Texts in a row

Nothing that the scanner holds outlives a complete format, so what stands behind one is read as it
would be at the start of a text. It is only farther from the start: an error of it is the same error
at a later position. Main statements: `Format.scan_append` and `Format.scan_shift`.
-/

set_option autoImplicit false

namespace BinaryRecord

theorem map_eq_error_iff {ε α β : Type} {first : Except ε α} {made : α → β} {error : ε} :
    made <$> first = .error error ↔ first = .error error := by
  rw [← bind_pure_comp, bind_pure_eq_error_iff]

/-- The error of a text that has moved away from the start. -/
def FormatError.shift (distance : Nat) : FormatError → FormatError
  | .empty => .empty
  | .badChar ch position => .badChar ch (position + distance)
  | .misplacedOrder ch position => .misplacedOrder ch (position + distance)
  | .danglingCount digits position => .danglingCount digits (position + distance)
  | .zeroCount position => .zeroCount (position + distance)
  | .countOverflow position => .countOverflow (position + distance)
  | .sizeOverflow => .sizeOverflow

namespace RepeatCount

def shift (distance : Nat) (count : RepeatCount) : RepeatCount :=
  { count with position := count.position + distance }

theorem dangling_shift (distance : Nat) (count : RepeatCount) :
    (count.shift distance).dangling = count.dangling.shift distance :=
  rfl

theorem push_shift (distance : Nat) (count : RepeatCount) (digit : Char) (value : Nat) :
    (count.shift distance).push digit value =
      ((count.push digit value).map (shift distance)).mapError (.shift distance) := by
  unfold push
  rw [shift]
  cases Size.ofNat? (count.value * 10 + value) <;> rfl

theorem group_shift (distance : Nat) (count : RepeatCount) (field : Field) :
    (count.shift distance).group field = (count.group field).mapError (.shift distance) := by
  by_cases positive : 0 < count.value
  · rw [group_eq_ok_iff.mpr ⟨positive, rfl⟩]
    exact group_eq_ok_iff.mpr ⟨positive, rfl⟩
  · have zero := Nat.eq_zero_of_not_pos positive
    have movedZero : (count.shift distance).value = 0 := zero
    rw [group_of_zero zero, group_of_zero movedZero]
    rfl

theorem getD_shift (distance position : Nat) (held : Option RepeatCount) :
    (held.map (shift distance)).getD (.start (position + distance)) =
      (held.getD (.start position)).shift distance := by
  cases held <;> rfl

end RepeatCount

namespace Format

/-- Characters that have moved away from the start, with the count that is held, are read as before,
and only the positions in errors move. -/
theorem scan_shift (distance position : Nat) (held : Option RepeatCount) (chars : List Char) :
    scan (position + distance) (held.map (RepeatCount.shift distance)) chars =
      (scan position held chars).mapError (.shift distance) := by
  induction chars generalizing position held with
  | nil => cases held <;> rfl
  | cons c rest restIH =>
      have moved : position + distance + 1 = position + 1 + distance := Nat.add_right_comm _ _ _
      generalize part : Symbol.ofChar c = symbol
      cases symbol with
      | digit value =>
          simp only [scan, part, RepeatCount.getD_shift, RepeatCount.push_shift, moved]
          cases (held.getD (.start position)).push c value with
          | error error => rfl
          | ok next => exact restIH (position + 1) (some next)
      | tag field =>
          have tail := restIH (position + 1) none
          rw [Option.map_none] at tail
          cases held with
          | none =>
              simp only [scan, part, Option.map_none, moved, tail]
              cases scan (position + 1) none rest <;> rfl
          | some count =>
              simp only [scan, part, Option.map_some, RepeatCount.group_shift, moved, tail]
              cases count.group field with
              | error error => rfl
              | ok group => cases scan (position + 1) none rest <;> rfl
      | marker order => simp only [scan, part]; rfl
      | blank =>
          cases held with
          | none =>
              simp only [scan, part, Option.map_none, moved]
              exact restIH (position + 1) none
          | some count =>
              simp only [scan, part, Option.map_some, RepeatCount.dangling_shift]
              rfl
      | other => simp only [scan, part]; rfl

private theorem scan_spelled_append (spellings : List GroupSpelling) {blanks : List Char}
    (blank : ∀ c ∈ blanks, Text.isBlank c = true) (position : Nat) (rest : List Char) :
    scan position none (spellings.flatMap GroupSpelling.chars ++ blanks ++ rest) =
      (spellings.map GroupSpelling.group ++ ·) <$>
        scan (position + (spellings.flatMap GroupSpelling.chars ++ blanks).length) none rest := by
  induction spellings generalizing position with
  | nil =>
      have read := scan_blanks blank position rest
      simp [read]
  | cons spelling later laterIH =>
      have tail := laterIH (position + spelling.chars.length)
      simp only [List.flatMap_cons, List.append_assoc, List.length_append] at tail ⊢
      rw [scan_groupSpelling, tail, Nat.add_assoc, Functor.map_map]
      rfl

/-- Behind characters that hold complete groups the scanner starts anew. -/
theorem scan_append {position : Nat} {front : List Char} {groups : List Group}
    (scanned : scan position none front = .ok groups) (back : List Char) :
    scan position none (front ++ back) =
      (groups ++ ·) <$> scan (position + front.length) none back := by
  obtain ⟨spellings, blanks, blank, spelled, rfl⟩ := spelled_of_scan (by simp) scanned
  obtain rfl : front = spellings.flatMap GroupSpelling.chars ++ blanks := spelled
  exact scan_spelled_append spellings blank position back

theorem scanGroups_append {position : Nat} {front : List Char} {groups : List Group}
    (accepted : scanGroups position front = .ok groups) (back : List Char) :
    scanGroups position (front ++ back) =
      (groups ++ ·) <$> scan (position + front.length) none back := by
  obtain ⟨scanned, nonempty⟩ := scanGroups_eq_ok_iff.mp accepted
  obtain ⟨group, later, rfl⟩ := List.exists_cons_of_ne_nil nonempty
  rw [scanGroups, scan_append scanned]
  cases scan (position + front.length) none back <;> rfl

theorem ofChars_append {front : List Char} {format : Format}
    (accepted : ofChars front = .ok format) (back : List Char) :
    ofChars (front ++ back) =
      (fun groups => ⟨format.order, format.groups ++ groups⟩) <$>
        scan front.length none back := by
  cases front with
  | nil => cases accepted
  | cons c rest =>
      cases found : ByteOrder.ofMarker? c with
      | some order =>
          simp only [ofChars, found] at accepted
          obtain ⟨groups, scanned, made⟩ := ok_of_bind accepted
          cases made
          simp only [List.cons_append, ofChars, found, scanGroups_append scanned, bind_pure_comp,
            Functor.map_map, List.length_cons, Nat.add_comm 1]
      | none =>
          simp only [ofChars, found] at accepted
          obtain ⟨groups, scanned, made⟩ := ok_of_bind accepted
          cases made
          have joined := scanGroups_append scanned back
          rw [Nat.zero_add] at joined
          simp only [List.cons_append] at joined ⊢
          simp only [ofChars, found, joined, bind_pure_comp, Functor.map_map]

variable {front back : String} {format : Format}

theorem parse_append (parsed : parse front = .ok format) (back : String) :
    parse (front ++ back) =
      (fun groups => ⟨format.order, format.groups ++ groups⟩) <$>
        scan front.length none back.toList := by
  have joined := ofChars_append parsed back.toList
  rwa [String.length_toList, ← String.toList_append] at joined

theorem parse_append_of_ok {other : Format} (parsed : parse front = .ok format)
    (free : MarkerFree back.toList) (otherParsed : parse back = .ok other) :
    parse (front ++ back) = .ok ⟨format.order, format.groups ++ other.groups⟩ := by
  obtain ⟨_, accepted⟩ := scanGroups_of_marked .unmarked free otherParsed
  rw [parse_append parsed, scan_of_scan front.length (scanGroups_eq_ok_iff.mp accepted).1]
  rfl

theorem parse_append_of_marker {c : Char} {order : ByteOrder} {rest : List Char}
    (parsed : parse front = .ok format) (begins : back.toList = c :: rest)
    (found : ByteOrder.ofMarker? c = some order) :
    parse (front ++ back) = .error (.misplacedOrder c front.length) := by
  rw [parse_append parsed, begins]
  simp only [scan, Symbol.ofChar_of_ofMarker? found]
  rfl

theorem parse_append_of_error {error : FormatError} (parsed : parse front = .ok format)
    (free : MarkerFree back.toList) (rejected : parse back = .error error)
    (inhabited : error ≠ .empty) :
    parse (front ++ back) = .error (error.shift front.length) := by
  have alone : (⟨.little, ·⟩) <$> scanGroups 0 back.toList = (.error error : Except _ Format) :=
    (ofChars_marked .unmarked free).symm.trans rejected
  have failed := scanGroups_eq_error_iff.mp (map_eq_error_iff.mp alone)
  have scanned := failed.resolve_right fun empty => inhabited empty.2
  have moved := scan_shift front.length 0 none back.toList
  rw [Nat.zero_add, Option.map_none, scanned] at moved
  rw [parse_append parsed, moved]
  rfl

theorem parse_append_of_blank (parsed : parse front = .ok format)
    (blank : ∀ c ∈ back.toList, Text.isBlank c = true) :
    parse (front ++ back) = .ok format := by
  have scanned := scan_blanks blank front.length []
  rw [List.append_nil] at scanned
  rw [parse_append parsed, scanned]
  change Except.ok ⟨format.order, format.groups ++ []⟩ = Except.ok format
  rw [List.append_nil]

end Format

end BinaryRecord
