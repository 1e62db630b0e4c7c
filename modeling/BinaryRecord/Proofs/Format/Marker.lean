import BinaryRecord.Proofs.Format.Grammar

/-!
# Markers and groups

The marker of a format decides its order and nothing else. Texts that agree after their markers have
the same groups, and a text without a marker takes the order of one that is put in front of it.
-/

set_option autoImplicit false

namespace BinaryRecord.Format

/-- What follows the marker of a text, which is all of a text without one. -/
def unmarked : List Char → List Char
  | [] => []
  | c :: rest => if (ByteOrder.ofMarker? c).isSome then rest else c :: rest

/-- Positions are for errors only. -/
theorem scan_of_scan {position : Nat} {chars : List Char} {groups : List Group} (other : Nat)
    (scanned : scan position none chars = .ok groups) : scan other none chars = .ok groups := by
  obtain ⟨spellings, blanks, blank, spelled, rfl⟩ := spelled_of_scan (by simp) scanned
  obtain rfl : chars = spellings.flatMap GroupSpelling.chars ++ blanks := spelled
  exact scan_spelled blank other

theorem scanGroups_of_scanGroups {position : Nat} {chars : List Char} {groups : List Group}
    (other : Nat) (scanned : scanGroups position chars = .ok groups) :
    scanGroups other chars = .ok groups := by
  obtain ⟨found, nonempty⟩ := scanGroups_eq_ok_iff.mp scanned
  exact scanGroups_eq_ok_iff.mpr ⟨scan_of_scan other found, nonempty⟩

theorem exists_ofChars_iff {chars : List Char} {groups : List Group} :
    (∃ order, ofChars chars = .ok ⟨order, groups⟩) ↔
      scanGroups 0 (unmarked chars) = .ok groups := by
  cases chars with
  | nil =>
      constructor
      · intro ordered
        obtain ⟨order, accepted⟩ := ordered
        cases accepted
      · intro accepted
        cases accepted
  | cons c rest =>
      cases found : ByteOrder.ofMarker? c with
      | none =>
          simp only [ofChars, unmarked, found, Option.isSome_none, Bool.false_eq_true, if_false]
          constructor
          · intro ordered
            obtain ⟨_, accepted⟩ := ordered
            obtain ⟨_, scanned, made⟩ := ok_of_bind accepted
            cases made
            exact scanned
          · intro scanned
            rw [scanned]
            exact ⟨.default, rfl⟩
      | some order =>
          simp only [ofChars, unmarked, found, Option.isSome_some, if_true]
          constructor
          · intro ordered
            obtain ⟨_, accepted⟩ := ordered
            obtain ⟨_, scanned, made⟩ := ok_of_bind accepted
            cases made
            exact scanGroups_of_scanGroups 0 scanned
          · intro scanned
            rw [scanGroups_of_scanGroups 1 scanned]
            exact ⟨order, rfl⟩

theorem parse_of_unmarked_eq {text other : String} {format : Format}
    (same : unmarked other.toList = unmarked text.toList) (parsed : parse text = .ok format) :
    ∃ order, parse other = .ok ⟨order, format.groups⟩ := by
  have scanned := exists_ofChars_iff.mp ⟨format.order, parsed⟩
  rw [← same] at scanned
  exact exists_ofChars_iff.mpr scanned

theorem groups_ne_nil_of_parse {text : String} {format : Format}
    (parsed : parse text = .ok format) : format.groups ≠ [] := by
  have scanned := exists_ofChars_iff.mp ⟨format.order, parsed⟩
  exact (scanGroups_eq_ok_iff.mp scanned).2

/-- No marker begins the text. -/
def MarkerFree (chars : List Char) : Prop :=
  ∀ c ∈ chars.head?, ByteOrder.ofMarker? c = none

instance : (chars : List Char) → Decidable (MarkerFree chars)
  | [] => isTrue fun _ => nofun
  | c :: _ => decidable_of_iff (ByteOrder.ofMarker? c = none) (by simp [MarkerFree])

/-- A marker in front of a text without one gives the text its order. -/
theorem ofChars_marked {order : ByteOrder} {marker body : List Char}
    (marked : order.Marked marker) (free : MarkerFree body) :
    ofChars (marker ++ body) = (⟨order, ·⟩) <$> scanGroups marker.length body := by
  rcases marked.nil_or_singleton with ⟨rfl, rfl⟩ | ⟨c, rfl, found⟩
  · cases body with
    | nil => rfl
    | cons c rest =>
        have noMarker := free c rfl
        simp only [List.nil_append, ofChars, noMarker, bind_pure_comp, List.length_nil]
  · simp only [List.singleton_append, ofChars, found, bind_pure_comp, List.length_singleton]

/-- Behind a marker stand the groups of the format, and the marker gives its order. -/
theorem scanGroups_of_marked {order : ByteOrder} {marker body : List Char} {format : Format}
    (marked : order.Marked marker) (free : MarkerFree body)
    (accepted : ofChars (marker ++ body) = .ok format) :
    format.order = order ∧ scanGroups marker.length body = .ok format.groups := by
  rw [ofChars_marked marked free] at accepted
  obtain ⟨groups, found, rfl⟩ := map_eq_ok_iff.mp accepted
  exact ⟨rfl, found⟩

theorem scanGroups_of_parse_marked {order : ByteOrder} {marker body : String} {format : Format}
    (marked : order.Marked marker.toList) (free : MarkerFree body.toList)
    (parsed : parse (marker ++ body) = .ok format) :
    format.order = order ∧ scanGroups marker.toList.length body.toList = .ok format.groups := by
  rw [parse, String.toList_append] at parsed
  exact scanGroups_of_marked marked free parsed

theorem markerFree_of_scan {position : Nat} {chars : List Char} {groups : List Group}
    (scanned : scan position none chars = .ok groups) : MarkerFree chars := by
  cases chars with
  | nil => exact fun _ => nofun
  | cons c rest =>
      rintro _ ⟨⟩
      exact ofMarker?_eq_none_of_scan scanned

end BinaryRecord.Format
