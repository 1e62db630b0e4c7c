import BinaryRecord.Layout.Slots

/-!
# Totals of compiled layouts

The checked totals of a layout are the exact sums over its groups, and so over its slots. A compiled
layout is exactly a parsed format whose exact size stays below the bound.
-/

set_option autoImplicit false

attribute [local instance (high)] Zero.ofOfNat0

namespace BinaryRecord

def Group.lengthSum (groups : List Group) : Nat :=
  (groups.map Group.length).sum

def Group.valueSum (groups : List Group) : Nat :=
  (groups.map Group.valueCount).sum

@[simp] theorem Group.lengthSum_nil : Group.lengthSum [] = 0 := rfl

@[simp] theorem Group.lengthSum_cons (group : Group) (later : List Group) :
    Group.lengthSum (group :: later) = group.length + Group.lengthSum later := by
  simp [lengthSum]

@[simp] theorem Group.valueSum_nil : Group.valueSum [] = 0 := rfl

@[simp] theorem Group.valueSum_cons (group : Group) (later : List Group) :
    Group.valueSum (group :: later) = group.valueCount + Group.valueSum later := by
  simp [valueSum]

@[simp] theorem Group.lengthSum_append (groups later : List Group) :
    lengthSum (groups ++ later) = lengthSum groups + lengthSum later := by
  simp [lengthSum]

@[simp] theorem Group.valueSum_append (groups later : List Group) :
    valueSum (groups ++ later) = valueSum groups + valueSum later := by
  simp [valueSum]

theorem Group.lengthSum_take_succ {groups : List Group} {group : Group} {index : Nat}
    (found : groups[index]? = some group) :
    lengthSum (groups.take (index + 1)) = lengthSum (groups.take index) + group.length := by
  simp [List.take_add_one, found]

theorem Group.valueSum_take_succ {groups : List Group} {group : Group} {index : Nat}
    (found : groups[index]? = some group) :
    valueSum (groups.take (index + 1)) = valueSum (groups.take index) + group.valueCount := by
  simp [List.take_add_one, found]

theorem Group.valueSum_take_add_drop (groups : List Group) (index : Nat) :
    valueSum (groups.take index) + valueSum (groups.drop index) = valueSum groups := by
  rw [← valueSum_append, List.take_append_drop]

theorem Group.length_flatMap_slots (groups : List Group) :
    (groups.flatMap Group.slots).length = Group.valueSum groups := by
  induction groups with
  | nil => rfl
  | cons group later laterIH => simp [laterIH]

theorem Group.sum_flatMap_slots (groups : List Group) :
    ((groups.flatMap Group.slots).map Slot.width).sum = Group.lengthSum groups := by
  induction groups with
  | nil => rfl
  | cons group later laterIH => simp [laterIH]

theorem Totals.add?_eq_some_iff {totals added : Totals} {group : Group} :
    totals.add? group = some added ↔
      totals.size + group.length < Size.limit ∧
        added = ⟨totals.size + group.length, totals.valueCount + group.valueCount⟩ := by
  unfold add? Group.length?
  constructor
  · intro accepted
    obtain ⟨length, lengthFound, accepted⟩ := Option.bind_eq_some_iff.mp accepted
    obtain ⟨size, sizeFound, accepted⟩ := Option.bind_eq_some_iff.mp accepted
    obtain ⟨_, rfl⟩ := Size.ofNat?_eq_some_iff.mp lengthFound
    obtain ⟨bounded, rfl⟩ := Size.ofNat?_eq_some_iff.mp sizeFound
    exact ⟨bounded, (Option.some.inj accepted).symm⟩
  · rintro ⟨bounded, rfl⟩
    have lengthFound : Size.ofNat? group.length = some group.length :=
      Size.ofNat?_eq_some_iff.mpr ⟨by omega, rfl⟩
    have sizeFound : Size.ofNat? (totals.size + group.length) =
        some (totals.size + group.length) :=
      Size.ofNat?_eq_some_iff.mpr ⟨bounded, rfl⟩
    simp [lengthFound, sizeFound]

theorem Totals.foldlM_add?_eq_some_iff (groups : List Group) (final : Totals) {totals : Totals}
    (bounded : totals.size < Size.limit) :
    groups.foldlM Totals.add? totals = some final ↔
      totals.size + Group.lengthSum groups < Size.limit ∧
        final = ⟨totals.size + Group.lengthSum groups,
          totals.valueCount + Group.valueSum groups⟩ := by
  induction groups generalizing totals with
  | nil => simp [bounded, eq_comm]
  | cons group later laterIH =>
      rw [List.foldlM_cons, Group.lengthSum_cons, Group.valueSum_cons, ← Nat.add_assoc,
        ← Nat.add_assoc]
      constructor
      · intro accepted
        obtain ⟨added, addedFound, accepted⟩ := Option.bind_eq_some_iff.mp accepted
        obtain ⟨addedBounded, rfl⟩ := add?_eq_some_iff.mp addedFound
        obtain ⟨laterBounded, rfl⟩ := (laterIH addedBounded).mp accepted
        exact ⟨laterBounded, rfl⟩
      · rintro ⟨laterBounded, rfl⟩
        have addedBounded : totals.size + group.length < Size.limit := by omega
        exact Option.bind_eq_some_iff.mpr
          ⟨_, add?_eq_some_iff.mpr ⟨addedBounded, rfl⟩,
            (laterIH addedBounded).mpr ⟨laterBounded, rfl⟩⟩

/-- The checked totals are the exact sums wherever the exact size is a size. -/
theorem Totals.ofGroups?_eq_some_iff {groups : List Group} {totals : Totals} :
    Totals.ofGroups? groups = some totals ↔
      Group.lengthSum groups < Size.limit ∧
        totals = ⟨Group.lengthSum groups, Group.valueSum groups⟩ := by
  have empty : (⟨0, 0⟩ : Totals).size < Size.limit := by decide
  have summed := foldlM_add?_eq_some_iff groups totals empty
  simpa [ofGroups?] using summed

namespace Layout

theorem compile_eq_ok_iff {source : String} {layout : Layout} :
    compile source = .ok layout ↔
      ∃ format, Format.parse source = .ok format ∧
        Group.lengthSum format.groups < Size.limit ∧
        layout = ⟨source, format, Group.lengthSum format.groups,
          Group.valueSum format.groups⟩ := by
  unfold compile
  cases parsed : Format.parse source with
  | error error => simp [bind, Except.bind]
  | ok format =>
      simp only [bind, Except.bind, Except.ok.injEq, exists_eq_left']
      cases summed : Totals.ofGroups? format.groups with
      | none =>
          have unbounded : ¬ Group.lengthSum format.groups < Size.limit := by
            intro bounded
            simp [Totals.ofGroups?_eq_some_iff.mpr ⟨bounded, rfl⟩] at summed
          simp [unbounded, throw, throwThe, MonadExceptOf.throw]
      | some totals =>
          obtain ⟨bounded, rfl⟩ := Totals.ofGroups?_eq_some_iff.mp summed
          simp [bounded, pure, Except.pure, eq_comm]

/-- The cached totals of a layout are those of its slots. -/
structure Exact (layout : Layout) : Prop where
  size : layout.size = (layout.slots.map Slot.width).sum
  valueCount : layout.valueCount = layout.slots.length

theorem Exact.valueCount_eq {layout : Layout} (exact : layout.Exact) :
    layout.valueCount = Group.valueSum layout.groups :=
  exact.valueCount.trans (Group.length_flatMap_slots layout.groups)

theorem exact_of_compile {source : String} {layout : Layout}
    (compiled : compile source = .ok layout) : layout.Exact := by
  obtain ⟨format, _, _, rfl⟩ := compile_eq_ok_iff.mp compiled
  constructor
  · exact (Group.sum_flatMap_slots format.groups).symm
  · exact (Group.length_flatMap_slots format.groups).symm

theorem size_lt_of_compile {source : String} {layout : Layout}
    (compiled : compile source = .ok layout) : layout.size < Size.limit := by
  obtain ⟨_, _, bounded, rfl⟩ := compile_eq_ok_iff.mp compiled
  exact bounded

theorem offset_succ {layout : Layout} {index : Nat} {slot : Slot}
    (found : layout.slots[index]? = some slot) :
    layout.offset (index + 1) = layout.offset index + slot.width := by
  rw [offset, List.take_add_one, found, List.map_append, List.sum_append]
  rfl

theorem offset_le_size {layout : Layout} (exact : layout.Exact) (index : Nat) :
    layout.offset index ≤ layout.size := by
  have parts := congrArg (fun slots => (slots.map Slot.width).sum)
    (List.take_append_drop index layout.slots)
  simp only [List.map_append, List.sum_append] at parts
  rw [exact.size, ← parts]
  exact Nat.le_add_right _ _

theorem end_le_size {layout : Layout} (exact : layout.Exact) {index : Nat} {slot : Slot}
    (found : layout.slots[index]? = some slot) :
    layout.offset index + slot.width ≤ layout.size := by
  simpa only [offset_succ found] using offset_le_size exact (index + 1)

/-- A layout with a byte string, a number and a boolean, for examples. -/
def specimen : Layout :=
  ⟨">2se?", ⟨.big, [⟨2, .bytes, by decide⟩, .single .half, .single .bool]⟩, 5, 3⟩

theorem compile_specimen : compile ">2se?" = .ok specimen := rfl

end Layout

end BinaryRecord
