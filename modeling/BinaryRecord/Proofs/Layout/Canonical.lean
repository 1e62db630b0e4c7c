import BinaryRecord.Packing
import BinaryRecord.Proofs.Format.Canonical
import BinaryRecord.Proofs.Format.Marker
import BinaryRecord.Proofs.Layout.Totals
import BinaryRecord.Unpacking

/-!
# Canonical texts of layouts

The text of a compiled layout compiles to the same layout, and two layouts have one text exactly
when they have one format. Main statement: `Layout.compile_text`.
-/

set_option autoImplicit false

namespace BinaryRecord

theorem Group.count_le_length (group : Group) : group.count ≤ group.length :=
  Nat.le_mul_of_pos_right _ group.field.width_pos

theorem Group.count_le_lengthSum {group : Group} {groups : List Group} (member : group ∈ groups) :
    group.count ≤ lengthSum groups := by
  induction groups with
  | nil => cases member
  | cons first later ih =>
      rw [lengthSum_cons]
      rcases List.mem_cons.mp member with rfl | inLater
      · exact Nat.le_trans group.count_le_length (Nat.le_add_right _ _)
      · exact Nat.le_trans (ih inLater) (Nat.le_add_left _ _)

namespace Layout

variable {source : String} {layout : Layout}

theorem writable_of_compile (compiled : compile source = .ok layout) :
    layout.format.Writable := by
  obtain ⟨format, parsed, bounded, rfl⟩ := compile_eq_ok_iff.mp compiled
  exact ⟨Format.groups_ne_nil_of_parse parsed,
    fun _ member => Nat.lt_of_le_of_lt (Group.count_le_lengthSum member) bounded⟩

/-- Only the source tells a layout from that of its canonical text. -/
theorem compile_text (compiled : compile source = .ok layout) :
    compile layout.text = .ok { layout with source := layout.text } := by
  have parsed := Format.parse_text (writable_of_compile compiled)
  obtain ⟨format, _, bounded, rfl⟩ := compile_eq_ok_iff.mp compiled
  exact compile_eq_ok_iff.mpr ⟨format, parsed, bounded, rfl⟩

theorem source_of_compile (compiled : compile source = .ok layout) : layout.source = source := by
  obtain ⟨_, _, _, rfl⟩ := compile_eq_ok_iff.mp compiled
  rfl

variable {other : String} {another : Layout}

theorem eq_iff_source_eq (compiled : compile source = .ok layout)
    (otherCompiled : compile other = .ok another) : another = layout ↔ other = source := by
  constructor
  · rintro rfl
    rw [← source_of_compile compiled, source_of_compile otherCompiled]
  · rintro rfl
    exact Except.ok.inj (otherCompiled.symm.trans compiled)

theorem text_eq_iff (compiled : compile source = .ok layout)
    (otherCompiled : compile other = .ok another) :
    another.text = layout.text ↔
      another.order = layout.order ∧ another.groups = layout.groups := by
  have texts : another.text = layout.text ↔ another.format = layout.format :=
    Format.text_inj (writable_of_compile compiled) (writable_of_compile otherCompiled)
  rw [texts]
  constructor
  · intro same
    exact ⟨congrArg Format.order same, congrArg Format.groups same⟩
  · rintro ⟨order, groups⟩
    obtain ⟨_, ⟨_, _⟩, _, _⟩ := layout
    obtain ⟨_, ⟨_, _⟩, _, _⟩ := another
    cases order
    cases groups
    rfl

/-- The text of a layout is its marker and its groups, each with its count unless it is one. It
compiles to a layout that differs in its source only, and so has the same text and packs and unpacks
alike. Layouts have one text exactly when they have one order and the same groups, but they are
equal only when they were written alike. -/
theorem text_normal_form (compiled : compile source = .ok layout) :
    layout.text.toList = layout.order.marker :: (layout.groups.flatMap fun group =>
      (if group.count = 1 then [] else (toString group.count).toList) ++ [group.field.tag]) ∧
    (∃ canonical, compile layout.text = .ok canonical ∧
      canonical.order = layout.order ∧ canonical.groups = layout.groups ∧
      canonical.size = layout.size ∧ canonical.valueCount = layout.valueCount ∧
      canonical.text = layout.text ∧ canonical.source = layout.text ∧
      (∀ values, canonical.pack values = layout.pack values) ∧
      (∀ offset values, canonical.packInto offset values = layout.packInto offset values) ∧
      (∀ buffer, canonical.unpack buffer = layout.unpack buffer) ∧
      ∀ offset buffer, canonical.unpackFrom offset buffer = layout.unpackFrom offset buffer) ∧
    ∀ other another, compile other = .ok another →
      (another.text = layout.text ↔
        another.order = layout.order ∧ another.groups = layout.groups) ∧
      (another = layout ↔ other = source) := by
  refine ⟨?_, ⟨_, compile_text compiled, rfl, rfl, rfl, rfl, rfl, rfl, fun _ => rfl, fun _ _ => rfl,
    fun _ => rfl, fun _ _ => rfl⟩, fun other another otherCompiled =>
      ⟨text_eq_iff compiled otherCompiled, eq_iff_source_eq compiled otherCompiled⟩⟩
  have digits (group : Group) : group.text.toList =
      (if group.count = 1 then [] else (toString group.count).toList) ++ [group.field.tag] := by
    rw [group.toList_text, Group.digits, Nat.toString_eq_repr, Nat.toList_repr]
  simp only [text, Format.toList_text, digits]
  rfl

/-- A format written with blanks and needless counts, against the same format without them. -/
theorem text_normal_form_specimen :
    compile ">2se?" = .ok specimen ∧ specimen.text.toList = ['>', '2', 's', 'e', '?'] ∧
      (∃ canonical, compile specimen.text = .ok canonical ∧ canonical.groups = specimen.groups) ∧
      ∃ spaced, compile "> 2s 01e 1? " = .ok spaced ∧ spaced.text = specimen.text ∧
        spaced ≠ specimen := by
  obtain ⟨chars, ⟨canonical, recompiled, _, groups, _⟩, others⟩ := text_normal_form compile_specimen
  have spaced : compile "> 2s 01e 1? " = .ok { specimen with source := "> 2s 01e 1? " } := rfl
  obtain ⟨texts, equal⟩ := others _ _ spaced
  refine ⟨compile_specimen, chars, ⟨canonical, recompiled, groups⟩, _, spaced,
    texts.mpr ⟨rfl, rfl⟩, ?_⟩
  intro same
  have written := equal.mp same
  revert written
  decide

end Layout

end BinaryRecord
