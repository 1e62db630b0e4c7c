import BinaryRecord.Proofs.Format.Marker
import BinaryRecord.Proofs.Layout.Totals

/-!
# Exact totals of compiled layouts

A format has a layout exactly when its exact size is a size. No number that is added up on the way
reaches the bound, and the marker of the format has no part in the totals. Main statement:
`Layout.compile_exact`.
-/

set_option autoImplicit false

-- Sums of natural numbers are the core library's, whatever else is in scope.
attribute [local instance (high)] Zero.ofOfNat0

namespace BinaryRecord

namespace Group

theorem length_le_valueSum (groups : List Group) : groups.length ≤ valueSum groups := by
  induction groups with
  | nil => exact Nat.le_refl 0
  | cons group later laterIH =>
      have positive := group.valueCount_pos
      rw [List.length_cons, valueSum_cons]
      omega

theorem valueSum_le_lengthSum (groups : List Group) : valueSum groups ≤ lengthSum groups := by
  induction groups with
  | nil => exact Nat.le_refl 0
  | cons group later laterIH =>
      rw [valueSum_cons, lengthSum_cons]
      exact Nat.add_le_add group.valueCount_le_length laterIH

theorem valueCount_eq (group : Group) :
    group.valueCount = if group.field = .bytes then 1 else group.count := by
  simp [valueCount, Field.isBytes]

end Group

/-- The number of values stays below the bound because it never exceeds the number of bytes, which
is checked first. -/
theorem Totals.valueCount_lt_of_add? {before : List Group} {group : Group} {totals added : Totals}
    (summed : ofGroups? before = some totals) (accepted : totals.add? group = some added) :
    totals.valueCount + group.valueCount < Size.limit := by
  obtain ⟨_, rfl⟩ := ofGroups?_eq_some_iff.mp summed
  obtain ⟨bounded, _⟩ := add?_eq_some_iff.mp accepted
  have values := Group.valueSum_le_lengthSum before
  have added := group.valueCount_le_length
  simp only at bounded ⊢
  omega

namespace Layout

theorem Exact.valueCount_le_size {layout : Layout} (exact : layout.Exact) :
    layout.valueCount ≤ layout.size := by
  have size := exact.size.trans (Group.sum_flatMap_slots layout.groups)
  simpa only [exact.valueCount_eq, size] using Group.valueSum_le_lengthSum layout.groups

theorem compile_of_parse_error {source : String} {error : FormatError}
    (rejected : Format.parse source = .error error) : compile source = .error error := by
  unfold compile
  rw [rejected]
  rfl

theorem compile_of_lt_limit {source : String} {format : Format}
    (parsed : Format.parse source = .ok format)
    (bounded : Group.lengthSum format.groups < Size.limit) :
    compile source = .ok
      ⟨source, format, Group.lengthSum format.groups, Group.valueSum format.groups⟩ :=
  compile_eq_ok_iff.mpr ⟨format, parsed, bounded, rfl⟩

theorem compile_of_limit_le {source : String} {format : Format}
    (parsed : Format.parse source = .ok format)
    (large : Size.limit ≤ Group.lengthSum format.groups) :
    compile source = .error .sizeOverflow := by
  have refused : Totals.ofGroups? format.groups = none := by
    cases summed : Totals.ofGroups? format.groups with
    | none => rfl
    | some totals =>
        have bounded := (Totals.ofGroups?_eq_some_iff.mp summed).1
        omega
  unfold compile
  rw [parsed]
  simp only [bind, Except.bind, refused]
  rfl

theorem format_of_compile {source : String} {format : Format} {layout : Layout}
    (parsed : Format.parse source = .ok format) (compiled : compile source = .ok layout) :
    Group.lengthSum format.groups < Size.limit ∧
      layout = ⟨source, format, Group.lengthSum format.groups, Group.valueSum format.groups⟩ := by
  obtain ⟨other, found, bounded, made⟩ := compile_eq_ok_iff.mp compiled
  obtain rfl : other = format := Except.ok.inj (found.symm.trans parsed)
  exact ⟨bounded, made⟩

theorem exists_compile_iff {source : String} {format : Format}
    (parsed : Format.parse source = .ok format) :
    (∃ layout, compile source = .ok layout) ↔ Group.lengthSum format.groups < Size.limit := by
  constructor
  · intro found
    obtain ⟨layout, compiled⟩ := found
    exact (format_of_compile parsed compiled).1
  · intro bounded
    exact ⟨_, compile_of_lt_limit parsed bounded⟩

theorem compile_eq_sizeOverflow_iff {source : String} {format : Format}
    (parsed : Format.parse source = .ok format) :
    compile source = .error .sizeOverflow ↔ Size.limit ≤ Group.lengthSum format.groups := by
  constructor
  · intro refused
    apply Nat.le_of_not_lt
    intro bounded
    cases (compile_of_lt_limit parsed bounded).symm.trans refused
  · exact compile_of_limit_le parsed

theorem size_pos_of_compile {source : String} {layout : Layout}
    (compiled : compile source = .ok layout) : 0 < layout.size := by
  obtain ⟨format, parsed, _, rfl⟩ := compile_eq_ok_iff.mp compiled
  calc
    0 < format.groups.length := List.length_pos_iff.mpr (Format.groups_ne_nil_of_parse parsed)
    _ ≤ Group.valueSum format.groups := Group.length_le_valueSum format.groups
    _ ≤ Group.lengthSum format.groups := Group.valueSum_le_lengthSum format.groups

/-- Texts that agree after their markers compile alike, up to the order. -/
theorem compile_of_unmarked_eq {source other : String} {layout : Layout}
    (same : Format.unmarked other.toList = Format.unmarked source.toList)
    (compiled : compile source = .ok layout) :
    ∃ marked, compile other = .ok marked ∧ marked.groups = layout.groups ∧
      marked.size = layout.size ∧ marked.valueCount = layout.valueCount := by
  obtain ⟨format, parsed, bounded, rfl⟩ := compile_eq_ok_iff.mp compiled
  obtain ⟨order, otherParsed⟩ := Format.parse_of_unmarked_eq same parsed
  exact ⟨_, compile_of_lt_limit otherParsed bounded, rfl, rfl, rfl⟩

theorem exists_compile_iff_of_unmarked_eq {source other : String}
    (same : Format.unmarked other.toList = Format.unmarked source.toList) :
    (∃ layout, compile source = .ok layout) ↔ ∃ layout, compile other = .ok layout := by
  constructor
  · intro found
    obtain ⟨layout, compiled⟩ := found
    obtain ⟨marked, otherCompiled, _⟩ := compile_of_unmarked_eq same compiled
    exact ⟨marked, otherCompiled⟩
  · intro found
    obtain ⟨layout, compiled⟩ := found
    obtain ⟨marked, otherCompiled, _⟩ := compile_of_unmarked_eq same.symm compiled
    exact ⟨marked, otherCompiled⟩

/-- A marker in front of a text without one decides the order of its layout. -/
theorem compile_marked {body marker : String} {order : ByteOrder} {layout : Layout}
    (marked : order.Marked marker.toList) (free : Format.MarkerFree body.toList)
    (compiled : compile body = .ok layout) :
    compile (marker ++ body) =
      .ok { layout with source := marker ++ body, format := ⟨order, layout.groups⟩ } := by
  obtain ⟨format, parsed, bounded, rfl⟩ := compile_eq_ok_iff.mp compiled
  obtain ⟨_, accepted⟩ := Format.scanGroups_of_marked .unmarked free parsed
  have read := Format.ofChars_marked marked free
  rw [← String.toList_append, Format.scanGroups_of_scanGroups _ accepted] at read
  exact compile_of_lt_limit read bounded

/-- A text that has groups compiles exactly when its exact size is below the bound, whatever its
marker is. The totals of the layout are the exact ones. -/
theorem compile_exact (source : String) :
    (∀ error, Format.parse source = .error error → compile source = .error error) ∧
    (∀ format, Format.parse source = .ok format →
      ((∃ layout, compile source = .ok layout) ↔
        (format.groups.map fun group => group.count * group.field.width).sum < Size.limit) ∧
      (compile source = .error .sizeOverflow ↔
        Size.limit ≤ (format.groups.map fun group => group.count * group.field.width).sum) ∧
      (∀ layout, compile source = .ok layout →
        layout.groups = format.groups ∧
        layout.size = (format.groups.map fun group => group.count * group.field.width).sum ∧
        layout.valueCount =
          (format.groups.map fun group => if group.field = .bytes then 1 else group.count).sum ∧
        1 ≤ layout.groups.length ∧ layout.groups.length ≤ layout.valueCount ∧
        layout.valueCount ≤ layout.size) ∧
      (∀ (before later : List Group) (group : Group) (totals added : Totals),
        format.groups = before ++ group :: later →
        Totals.ofGroups? before = some totals → totals.add? group = some added →
        totals.valueCount + group.valueCount < Size.limit)) ∧
    (∀ other : String, Format.unmarked other.toList = Format.unmarked source.toList →
      ((∃ layout, compile source = .ok layout) ↔ ∃ layout, compile other = .ok layout) ∧
      ∀ layout marked, compile source = .ok layout → compile other = .ok marked →
        marked.size = layout.size ∧ marked.valueCount = layout.valueCount ∧
        marked.groups.length = layout.groups.length) := by
  refine ⟨fun _ => compile_of_parse_error, ?_, ?_⟩
  · intro format parsed
    have lengths : (format.groups.map fun group => group.count * group.field.width).sum =
        Group.lengthSum format.groups := rfl
    have values : (format.groups.map fun group => if group.field = .bytes then 1 else group.count) =
        format.groups.map Group.valueCount :=
      List.map_congr_left fun group _ => group.valueCount_eq.symm
    rw [lengths, values]
    refine ⟨exists_compile_iff parsed, compile_eq_sizeOverflow_iff parsed, ?_, ?_⟩
    · intro layout compiled
      obtain ⟨_, rfl⟩ := format_of_compile parsed compiled
      have nonempty := List.length_pos_iff.mpr (Format.groups_ne_nil_of_parse parsed)
      exact ⟨rfl, rfl, rfl, nonempty, Group.length_le_valueSum format.groups,
        Group.valueSum_le_lengthSum format.groups⟩
    · intro before later group totals added _ summed accepted
      exact Totals.valueCount_lt_of_add? summed accepted
  · intro other same
    refine ⟨exists_compile_iff_of_unmarked_eq same, ?_⟩
    intro layout marked compiled otherCompiled
    obtain ⟨found, otherFound, groups, size, valueCount⟩ := compile_of_unmarked_eq same compiled
    obtain rfl : found = marked := Except.ok.inj (otherFound.symm.trans otherCompiled)
    exact ⟨size, valueCount, congrArg List.length groups⟩

/-- Each group is a size, and both together are one byte too many. -/
example : compile "9223372036854775807h 2c" = .error .sizeOverflow := by
  rfl

end Layout

end BinaryRecord
