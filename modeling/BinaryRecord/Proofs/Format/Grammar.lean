import BinaryRecord.Proofs.Format.Spelling
import BinaryRecord.Proofs.Format.Symbols

/-!
# The grammar of formats

The scanner accepts exactly the texts that have a spelling, and reads the format that is spelled.
Main statement: `Format.parse_eq_ok_iff_spelled`.
-/

set_option autoImplicit false

namespace BinaryRecord

theorem ok_of_bind {ε α β : Type} {first : Except ε α} {next : α → Except ε β} {result : β}
    (accepted : first >>= next = .ok result) :
    ∃ value, first = .ok value ∧ next value = .ok result := by
  cases first with
  | error error => cases accepted
  | ok value => exact ⟨value, rfl, accepted⟩

theorem map_eq_ok_iff {ε α β : Type} {first : Except ε α} {made : α → β} {result : β} :
    made <$> first = .ok result ↔ ∃ value, first = .ok value ∧ made value = result := by
  cases first with
  | error error => exact iff_of_false nofun nofun
  | ok value => simp [Functor.map, Except.map]

namespace RepeatCount

theorem push_eq_ok_iff {count next : RepeatCount} {digit : Char} {value : Nat} :
    count.push digit value = .ok next ↔
      count.value * 10 + value < Size.limit ∧
        next = ⟨count.position, count.digits ++ [digit], count.value * 10 + value⟩ := by
  unfold push
  cases sized : Size.ofNat? (count.value * 10 + value) with
  | none =>
      have large := Size.ofNat?_eq_none_iff.mp sized
      simp [Nat.not_lt.mpr large]
  | some total =>
      obtain ⟨small, rfl⟩ := Size.ofNat?_eq_some_iff.mp sized
      simp [small, eq_comm]

theorem group_eq_ok_iff {count : RepeatCount} {field : Field} {made : Group} :
    count.group field = .ok made ↔
      ∃ positive : 0 < count.value, made = ⟨count.value, field, positive⟩ := by
  unfold group
  split
  next positive => simp [positive, eq_comm]
  next zero => simp [zero]

/-- A count whose digits have been read, one at least, and of which they write the value. -/
structure Read (count : RepeatCount) : Prop where
  digits_ne_nil : count.digits ≠ []
  isDigit_of_mem : ∀ c ∈ count.digits, c.isDigit = true
  value_eq : count.value = Nat.ofDigitChars 10 count.digits 0
  value_lt : count.value < Size.limit

namespace Read

variable {count : RepeatCount}

theorem count_range (read : count.Read) (positive : 0 < count.value) :
    1 ≤ Nat.ofDigitChars 10 count.digits 0 ∧
      Nat.ofDigitChars 10 count.digits 0 < Size.limit := by
  rw [← read.value_eq]
  exact ⟨positive, read.value_lt⟩

/-- The spelling of the group that a count and a tag make up. -/
def spelling (read : count.Read) (field : Field) (positive : 0 < count.value) : GroupSpelling where
  blanks := []
  digits := count.digits
  field := field
  isBlank_of_mem := (GroupSpelling.bare field).isBlank_of_mem
  isDigit_of_mem := read.isDigit_of_mem
  count_range := fun _ => read.count_range positive

theorem group_spelling (read : count.Read) (field : Field) (positive : 0 < count.value) :
    (read.spelling field positive).group = ⟨count.value, field, positive⟩ := by
  simp [GroupSpelling.group, GroupSpelling.count, spelling, read.digits_ne_nil, read.value_eq]

end Read

end RepeatCount

namespace Format

def heldDigits : Option RepeatCount → List Char
  | none => []
  | some count => count.digits

theorem read_of_push {held : Option RepeatCount} {next : RepeatCount} {position : Nat} {c : Char}
    (read : ∀ count ∈ held, count.Read) (digit : c.isDigit = true)
    (pushed : (held.getD (.start position)).push c (c.toNat - '0'.toNat) = .ok next) :
    next.Read ∧ next.digits = heldDigits held ++ [c] := by
  obtain ⟨small, rfl⟩ := RepeatCount.push_eq_ok_iff.mp pushed
  cases held with
  | none =>
      refine ⟨⟨by simp, by simpa [RepeatCount.start] using digit, ?_, small⟩, rfl⟩
      simp [RepeatCount.start, Nat.ofDigitChars_cons]
  | some count =>
      have known := read count rfl
      refine ⟨⟨by simp, ?_, ?_, small⟩, rfl⟩
      · intro d member
        rcases List.mem_append.mp member with old | new
        · exact known.isDigit_of_mem d old
        · rw [List.mem_singleton.mp new]
          exact digit
      · simp [Nat.ofDigitChars_append, Nat.ofDigitChars_cons, known.value_eq, Nat.mul_comm]

/-- A run of digits does not write less than what stands before it. -/
private theorem le_ofDigitChars (digits : List Char) (n : Nat) :
    n ≤ Nat.ofDigitChars 10 digits n := by
  induction digits generalizing n with
  | nil => simp
  | cons c digits ih =>
      rw [Nat.ofDigitChars_cons]
      have step := ih (10 * n + (c.toNat - '0'.toNat))
      omega

-- Most proofs below compute with the equations of the scanner.
attribute [local simp] scan

theorem scan_blanks {blanks : List Char} (blank : ∀ c ∈ blanks, Text.isBlank c = true)
    (position : Nat) (rest : List Char) :
    scan position none (blanks ++ rest) = scan (position + blanks.length) none rest := by
  induction blanks generalizing position with
  | nil => rfl
  | cons c blanks ih =>
      have head := Symbol.ofChar_of_isBlank (blank c List.mem_cons_self)
      have tail := ih (fun d member => blank d (List.mem_cons_of_mem c member)) (position + 1)
      simp only [List.cons_append, scan, head, tail, List.length_cons]
      rw [Nat.add_assoc, Nat.add_comm 1]

theorem scan_digits {digits : List Char} (digit : ∀ c ∈ digits, c.isDigit = true)
    (position : Nat) (count : RepeatCount) (rest : List Char)
    (small : Nat.ofDigitChars 10 digits count.value < Size.limit) :
    scan position (some count) (digits ++ rest) =
      scan (position + digits.length)
        (some ⟨count.position, count.digits ++ digits, Nat.ofDigitChars 10 digits count.value⟩)
        rest := by
  induction digits generalizing position count with
  | nil => simp
  | cons c digits ih =>
      -- A front of the digits writes no more than all of them, so no digit on the way overflows.
      have head := Symbol.ofChar_of_isDigit (digit c List.mem_cons_self)
      rw [Nat.ofDigitChars_cons, Nat.mul_comm 10 count.value] at small
      have pushed : count.push c (c.toNat - '0'.toNat) = .ok _ :=
        RepeatCount.push_eq_ok_iff.mpr ⟨Nat.lt_of_le_of_lt (le_ofDigitChars digits _) small, rfl⟩
      have tail := ih (fun d member => digit d (List.mem_cons_of_mem c member)) (position + 1)
        ⟨count.position, count.digits ++ [c], _⟩ small
      simp only [List.cons_append, scan, head, Option.getD_some, pushed]
      rw [List.append_assoc, Nat.add_assoc, Nat.add_comm 1] at tail
      rw [Nat.ofDigitChars_cons, Nat.mul_comm 10 count.value]
      exact tail

private theorem scan_count {digits : List Char} (written : digits ≠ [])
    (digit : ∀ c ∈ digits, c.isDigit = true) (positive : 0 < Nat.ofDigitChars 10 digits 0)
    (small : Nat.ofDigitChars 10 digits 0 < Size.limit) (field : Field) (position : Nat)
    (rest : List Char) :
    scan position none (digits ++ field.tag :: rest) =
      (⟨Nat.ofDigitChars 10 digits 0, field, positive⟩ :: ·) <$>
        scan (position + digits.length + 1) none rest := by
  have started : scan position none (digits ++ field.tag :: rest) =
      scan position (some (.start position)) (digits ++ field.tag :: rest) := by
    cases digits with
    | nil => exact absurd rfl written
    | cons c digits =>
        have head := Symbol.ofChar_of_isDigit (digit c List.mem_cons_self)
        simp only [List.cons_append, scan, head, Option.getD_none, Option.getD_some]
  have grouped : RepeatCount.group ⟨position, digits, Nat.ofDigitChars 10 digits 0⟩ field = .ok _ :=
    RepeatCount.group_eq_ok_iff.mpr ⟨positive, rfl⟩
  rw [started, scan_digits digit position (.start position) _ small]
  simp only [RepeatCount.start, List.nil_append, scan, Symbol.ofChar_tag, grouped, bind_pure_comp]
  rfl

theorem scan_groupSpelling (spelling : GroupSpelling) (position : Nat) (rest : List Char) :
    scan position none (spelling.chars ++ rest) =
      (spelling.group :: ·) <$> scan (position + spelling.chars.length) none rest := by
  obtain ⟨blanks, digits, field, blank, digit, range⟩ := spelling
  simp only [GroupSpelling.chars, List.append_assoc, scan_blanks blank]
  by_cases written : digits = []
  · simp [written, scan, GroupSpelling.group, GroupSpelling.count, Group.single, Nat.add_assoc]
  · obtain ⟨positive, small⟩ := range written
    simp [scan_count written digit positive small, written, GroupSpelling.group,
      GroupSpelling.count, Nat.add_assoc]

theorem scan_spelled {spellings : List GroupSpelling} {blanks : List Char}
    (blank : ∀ c ∈ blanks, Text.isBlank c = true) (position : Nat) :
    scan position none (spellings.flatMap GroupSpelling.chars ++ blanks) =
      .ok (spellings.map GroupSpelling.group) := by
  induction spellings generalizing position with
  | nil =>
      have read := scan_blanks blank position []
      rw [List.append_nil] at read
      exact read
  | cons spelling spellings ih =>
      rw [List.flatMap_cons, List.append_assoc, scan_groupSpelling, ih]
      rfl

/-- The group that a tag completes is spelled by the digits held and the tag. -/
private theorem spelled_of_tag {position : Nat} {held : Option RepeatCount} {field : Field}
    {rest : List Char} {groups : List Group} (read : ∀ count ∈ held, count.Read)
    (scanned : scan position held (field.tag :: rest) = .ok groups) :
    ∃ (spelling : GroupSpelling) (tail : List Group),
      scan (position + 1) none rest = .ok tail ∧
      heldDigits held ++ [field.tag] = spelling.chars ∧
      groups = spelling.group :: tail := by
  cases held with
  | none =>
      simp only [scan, Symbol.ofChar_tag] at scanned
      obtain ⟨tail, inner, rest⟩ := ok_of_bind scanned
      cases rest
      exact ⟨.bare field, tail, inner, rfl, rfl⟩
  | some count =>
      have known := read count rfl
      simp only [scan, Symbol.ofChar_tag] at scanned
      obtain ⟨group, grouped, scanned⟩ := ok_of_bind scanned
      obtain ⟨positive, rfl⟩ := RepeatCount.group_eq_ok_iff.mp grouped
      obtain ⟨tail, inner, rest⟩ := ok_of_bind scanned
      cases rest
      refine ⟨known.spelling field positive, tail, inner, rfl, ?_⟩
      rw [known.group_spelling field positive]

/-- Characters that the scanner accepts have a spelling, behind the digits that it holds. -/
theorem spelled_of_scan {position : Nat} {held : Option RepeatCount} {chars : List Char}
    {groups : List Group} (read : ∀ count ∈ held, count.Read)
    (scanned : scan position held chars = .ok groups) :
    ∃ (spellings : List GroupSpelling) (blanks : List Char),
      (∀ c ∈ blanks, Text.isBlank c = true) ∧
      heldDigits held ++ chars = spellings.flatMap GroupSpelling.chars ++ blanks ∧
      groups = spellings.map GroupSpelling.group := by
  -- The digits of the count that is held belong to the group of the next tag, so the statement is
  -- about them and the characters together.
  induction chars generalizing position held groups with
  | nil =>
      cases held with
      | none =>
          cases scanned
          exact ⟨[], [], by simp, rfl, rfl⟩
      | some count => cases scanned
  | cons c rest ih =>
      generalize part : Symbol.ofChar c = symbol
      cases Symbol.ofChar_eq_iff_plays.mp part with
      | digit digit =>
          simp only [scan, part] at scanned
          obtain ⟨next, pushed, inner⟩ := ok_of_bind scanned
          obtain ⟨nextRead, digits⟩ := read_of_push read digit pushed
          have heldRead : ∀ count ∈ some next, count.Read := by simpa using nextRead
          obtain ⟨spellings, blanks, blank, spelled, rfl⟩ := ih heldRead inner
          refine ⟨spellings, blanks, blank, ?_, rfl⟩
          rw [← spelled, heldDigits, digits, List.append_assoc]
          rfl
      | @tag field named =>
          subst named
          obtain ⟨spelling, tail, inner, spelled, rfl⟩ := spelled_of_tag read scanned
          obtain ⟨spellings, blanks, blank, rest, rfl⟩ := ih (by simp) inner
          refine ⟨spelling :: spellings, blanks, blank, ?_, rfl⟩
          rw [List.flatMap_cons, List.append_assoc, ← rest, ← spelled, List.append_assoc]
          rfl
      | marker found =>
          simp only [scan, part] at scanned
          cases scanned
      | blank space =>
          cases held with
          | some count =>
              simp only [scan, part] at scanned
              cases scanned
          | none =>
              simp only [scan, part] at scanned
              obtain ⟨spellings, blanks, blank, spelled, rfl⟩ := ih (by simp) scanned
              cases spellings with
              | nil =>
                  refine ⟨[], c :: blanks, ?_, congrArg (c :: ·) spelled, rfl⟩
                  exact List.forall_mem_cons.mpr ⟨space, blank⟩
              | cons spelling spellings =>
                  refine ⟨spelling.indent space :: spellings, blanks, blank, ?_, rfl⟩
                  exact congrArg (c :: ·) spelled
      | other =>
          simp only [scan, part] at scanned
          cases scanned

theorem scanGroups_eq_ok_iff {position : Nat} {body : List Char} {groups : List Group} :
    scanGroups position body = .ok groups ↔ scan position none body = .ok groups ∧ groups ≠ [] := by
  unfold scanGroups
  cases scanned : scan position none body with
  | error error =>
      constructor
      · intro accepted
        cases accepted
      · intro accepted
        cases accepted.1
  | ok found =>
      cases found with
      | nil =>
          constructor
          · intro accepted
            cases accepted
          · intro accepted
            cases accepted.1
            exact absurd rfl accepted.2
      | cons group groups =>
          constructor
          · intro accepted
            cases accepted
            exact ⟨rfl, List.cons_ne_nil group groups⟩
          · intro accepted
            exact accepted.1

/-- The groups of a format never begin with a marker. -/
theorem ofMarker?_eq_none_of_scan {c : Char} {rest : List Char} {groups : List Group}
    {position : Nat} (scanned : scan position none (c :: rest) = .ok groups) :
    ByteOrder.ofMarker? c = none := by
  cases found : ByteOrder.ofMarker? c with
  | none => rfl
  | some order =>
      simp only [scan, Symbol.ofChar_of_ofMarker? found] at scanned
      cases scanned

theorem ofChars_spelled (spelling : FormatSpelling) :
    ofChars spelling.chars = .ok spelling.format := by
  obtain ⟨order, marker, groups, blanks, marked, nonempty, blank⟩ := spelling
  have read (position : Nat) :
      scanGroups position (groups.flatMap GroupSpelling.chars ++ blanks) =
        .ok (groups.map GroupSpelling.group) :=
    scanGroups_eq_ok_iff.mpr ⟨scan_spelled blank position, by simpa using nonempty⟩
  rcases marked.nil_or_singleton with ⟨rfl, rfl⟩ | ⟨c, rfl, found⟩
  · simp only [FormatSpelling.chars, List.nil_append]
    cases body : groups.flatMap GroupSpelling.chars ++ blanks with
    | nil =>
        have empty := read 0
        rw [body] at empty
        cases empty
    | cons c rest =>
        rw [body] at read
        have noMarker := ofMarker?_eq_none_of_scan (scanGroups_eq_ok_iff.mp (read 0)).1
        simp only [ofChars, noMarker, read]
        rfl
  · simp only [FormatSpelling.chars, List.singleton_append, ofChars, found, read]
    rfl

private theorem spelled_of_scanGroups {order : ByteOrder} {marker body : List Char}
    {position : Nat} {groups : List Group} (marked : order.Marked marker)
    (accepted : scanGroups position body = .ok groups) :
    ∃ spelling : FormatSpelling,
      spelling.chars = marker ++ body ∧ spelling.format = ⟨order, groups⟩ := by
  obtain ⟨scanned, nonempty⟩ := scanGroups_eq_ok_iff.mp accepted
  obtain ⟨spellings, blanks, blank, spelled, rfl⟩ := spelled_of_scan (by simp) scanned
  have inhabited : spellings ≠ [] := by simpa using nonempty
  exact ⟨⟨order, marker, spellings, blanks, marked, inhabited, blank⟩,
    congrArg (marker ++ ·) spelled.symm, rfl⟩

theorem spelled_of_ofChars {chars : List Char} {format : Format}
    (accepted : ofChars chars = .ok format) :
    ∃ spelling : FormatSpelling, spelling.chars = chars ∧ spelling.format = format := by
  cases chars with
  | nil => cases accepted
  | cons c rest =>
      cases found : ByteOrder.ofMarker? c with
      | some order =>
          simp only [ofChars, found] at accepted
          obtain ⟨groups, scanned, read⟩ := ok_of_bind accepted
          cases read
          exact spelled_of_scanGroups (ByteOrder.marked_of_ofMarker? found) scanned
      | none =>
          simp only [ofChars, found] at accepted
          obtain ⟨groups, scanned, read⟩ := ok_of_bind accepted
          cases read
          exact spelled_of_scanGroups .unmarked scanned

/-- A text is a format exactly when it has a spelling, and then it is the format spelled. -/
theorem parse_eq_ok_iff_spelled (text : String) (format : Format) :
    parse text = .ok format ↔
      ∃ spelling : FormatSpelling,
        spelling.chars = text.toList ∧ spelling.format = format := by
  constructor
  · exact spelled_of_ofChars
  · intro spelled
    obtain ⟨spelling, chars, rfl⟩ := spelled
    rw [parse, ← chars]
    exact ofChars_spelled spelling

end Format

end BinaryRecord
