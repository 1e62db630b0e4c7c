import BinaryRecord.Proofs.Layout.Compilation
import BinaryRecord.Proofs.Packing.Spans

/-!
# The cursor of packing

How far packing has come in front of each group, and in front of each value of a group: the index
counts the values behind it, and the output is as long as the groups behind it. So no group asks for
values that are not there. Main statement: `Layout.pack_in_range`.
-/

set_option autoImplicit false

-- Sums of natural numbers are the core library's, whatever else is in scope.
attribute [local instance (high)] Zero.ofOfNat0

namespace BinaryRecord

namespace Packer

variable {order : ByteOrder} {slot : Slot} {group : Group} {before groups : List Group}
  {values window front rest : List Value} {value : Value} {packer inner next : Packer}

theorem getElem?_of_next? {count place : Nat} (taken : packer.next? values count = some window)
    (inside : place < count) : values[packer.index + place]? = window[place]? := by
  obtain ⟨_, rfl⟩ := next?_eq_some_iff.mp taken
  rw [List.getElem?_take_of_lt inside, List.getElem?_drop]

theorem index_of_putAll (accepted : packer.putAll order slot front = .ok inner) :
    inner.index = packer.index + front.length := by
  rw [putAll_eq_fill] at accepted
  rw [index_of_fill accepted, List.length_replicate]

/-- Inside a group the index is the place of the value that is encoded next. -/
theorem getElem?_index_of_putAll {count : Nat}
    (taken : packer.next? values count = some (front ++ value :: rest))
    (accepted : packer.putAll order slot front = .ok inner) :
    values[inner.index]? = some value := by
  have inside : front.length < count := by
    rw [← length_of_next? taken, List.length_append, List.length_cons]
    omega
  rw [index_of_putAll accepted, getElem?_of_next? taken inside,
    List.getElem?_append_right (Nat.le_refl _), Nat.sub_self, List.getElem?_cons_zero]

/-- The packer stands behind the groups: it has counted their values and written their bytes. -/
structure Behind (packer : Packer) (before : List Group) : Prop where
  index_eq : packer.index = Group.valueSum before
  length_eq : packer.output.length = Group.lengthSum before

theorem behind_start : start.Behind [] :=
  ⟨rfl, rfl⟩

namespace Behind

theorem putGroup (behind : packer.Behind before)
    (enough : Group.valueSum (before ++ [group]) ≤ values.length)
    (accepted : Packer.putGroup order values packer group = .ok next) :
    next.Behind (before ++ [group]) := by
  have sound : ∀ slot ∈ group.slots, slot.Sound := fun _ member => Group.sound_of_mem_slots member
  have available : packer.index + group.valueCount ≤ values.length := by
    simpa [behind.index_eq] using enough
  have taken := next?_eq_some_iff.mpr ⟨available, rfl⟩
  have full := (length_of_next? taken).trans group.length_slots.symm
  rw [putGroup_eq_fill order available] at accepted
  constructor
  · rw [index_of_fill accepted, behind.index_eq, Group.length_slots]
    simp
  · rw [length_of_fill sound full accepted, behind.length_eq, Slot.widthSum, Group.sum_slots]
    simp

theorem foldlM (behind : packer.Behind before)
    (enough : Group.valueSum (before ++ groups) ≤ values.length)
    (walked : groups.foldlM (Packer.putGroup order values) packer = .ok next) :
    next.Behind (before ++ groups) := by
  -- The groups behind the packer grow with each step, while the bound on all of them stays.
  induction groups generalizing before packer with
  | nil =>
      cases walked
      rwa [List.append_nil]
  | cons group later laterIH =>
      rw [List.append_cons] at enough ⊢
      rw [List.foldlM_cons] at walked
      cases moved : Packer.putGroup order values packer group with
      | error error =>
          rw [moved] at walked
          cases walked
      | ok middle =>
          rw [moved] at walked
          have first : Group.valueSum (before ++ [group]) ≤ values.length := by
            rw [Group.valueSum_append] at enough
            omega
          exact laterIH (behind.putGroup first moved) enough walked

end Behind

end Packer

namespace Layout

variable {layout : Layout} {values : List Value}

theorem pack_of_length (full : values.length = layout.valueCount) :
    layout.pack values =
      (layout.groups.foldlM (Packer.putGroup layout.order values) .start).map Packer.output := by
  unfold pack
  rw [if_neg (not_not_intro full)]
  simp only [bind, Except.bind]
  cases layout.groups.foldlM (Packer.putGroup layout.order values) .start <;> rfl

theorem pack_ne_arity (exact : layout.Exact) (full : values.length = layout.valueCount)
    (expected actual : Nat) : layout.pack values ≠ .error (.arity expected actual) := by
  intro rejected
  rcases (pack_eq_error_iff exact).mp rejected with ⟨misfit, _⟩ | ⟨_, index, cause, first, same⟩
  · exact misfit full
  · obtain ⟨slot, value, _, _, refuses⟩ := first.refused
    cases refuses <;> cases same

/-- Wherever the walk over the groups stands, its index and the length of its output are sums over
the groups behind it, and the values of the next group are there. -/
theorem pack_in_range {source : String} (compiled : compile source = .ok layout)
    (full : values.length = layout.valueCount) :
    (∀ (before later : List Group) (group : Group) (packer : Packer),
      layout.groups = before ++ group :: later →
      before.foldlM (Packer.putGroup layout.order values) .start = .ok packer →
        packer.index = (before.map Group.valueCount).sum ∧
        packer.output.length = (before.map Group.length).sum ∧
        packer.index < values.length ∧
        (group.field ≠ .bytes →
          packer.index + group.count ≤ values.length ∧
          packer.index + group.count < Size.limit) ∧
        ∃ window, packer.next? values group.valueCount = some window ∧
          Packer.putGroup layout.order values packer group =
            packer.putAll layout.order group.slot window ∧
          ∀ (front rest : List Value) (value : Value) (inner : Packer),
            window = front ++ value :: rest →
            packer.putAll layout.order group.slot front = .ok inner →
              inner.index = packer.index + front.length ∧ values[inner.index]? = some value) ∧
    layout.pack values =
      (layout.groups.foldlM (Packer.putGroup layout.order values) .start).map Packer.output ∧
    (∀ packer, layout.groups.foldlM (Packer.putGroup layout.order values) .start = .ok packer →
      packer.output.length = layout.size ∧ packer.index = values.length) ∧
    ∀ expected actual, layout.pack values ≠ .error (.arity expected actual) := by
  have exact := exact_of_compile compiled
  have total : Group.valueSum layout.groups = values.length :=
    exact.valueCount_eq.symm.trans full.symm
  refine ⟨?_, pack_of_length full, ?_, pack_ne_arity exact full⟩
  · intro before later group packer split walked
    have enough : Group.valueSum before + group.valueCount ≤ values.length := by
      rw [← total, split, Group.valueSum_append, Group.valueSum_cons]
      omega
    have behind : packer.Behind before :=
      Packer.behind_start.foldlM (Nat.le_trans (Nat.le_add_right _ _) enough) walked
    rw [← behind.index_eq] at enough
    have taken := Packer.next?_eq_some_iff.mpr ⟨enough, rfl⟩
    refine ⟨behind.index_eq, behind.length_eq, ?_, ?_, _, taken,
      Packer.putGroup_of_next? layout.order taken, ?_⟩
    · exact Nat.lt_of_lt_of_le (Nat.lt_add_of_pos_right group.valueCount_pos) enough
    · intro scalar
      rw [group.valueCount_eq, if_neg scalar] at enough
      have bounded := Nat.lt_of_le_of_lt exact.valueCount_le_size (size_lt_of_compile compiled)
      exact ⟨enough, Nat.lt_of_le_of_lt enough (full ▸ bounded)⟩
    · intro front rest value inner window accepted
      rw [window] at taken
      exact ⟨Packer.index_of_putAll accepted, Packer.getElem?_index_of_putAll taken accepted⟩
  · intro packer walked
    have behind : packer.Behind layout.groups :=
      Packer.behind_start.foldlM (Nat.le_of_eq total) walked
    have size : layout.size = Group.lengthSum layout.groups :=
      exact.size.trans (Group.sum_flatMap_slots layout.groups)
    exact ⟨behind.length_eq.trans size.symm, behind.index_eq.trans total⟩

/-- The second of three numbers does not fit, and the index in front of it is its place. -/
theorem pack_in_range_specimen :
    ∃ layout, compile ">2s3h" = .ok layout ∧
      [Value.bytes [97, 98], .int16 1, .uint8 7, .int16 3].length = layout.valueCount ∧
      ∃ packer inner : Packer,
        [Group.mk 2 .bytes (by decide)].foldlM
          (Packer.putGroup layout.order [.bytes [97, 98], .int16 1, .uint8 7, .int16 3]) .start =
            .ok packer ∧
        packer.index = 1 ∧ packer.output.length = 2 ∧ packer.index + 3 ≤ 4 ∧
        packer.putAll layout.order ⟨.short, 2⟩ [.int16 1] = .ok inner ∧ inner.index = 2 ∧
        layout.pack [.bytes [97, 98], .int16 1, .uint8 7, .int16 3] =
          .error (.typeMismatch 2 'h' "short" .int16 .uint8) := by
  have compiled : compile ">2s3h" = .ok
      ⟨">2s3h", ⟨.big, [⟨2, .bytes, by decide⟩, ⟨3, .short, by decide⟩]⟩, 8, 4⟩ := rfl
  have full : [Value.bytes [97, 98], .int16 1, .uint8 7, .int16 3].length = 4 := rfl
  obtain ⟨reached, walk, _, _⟩ := pack_in_range compiled full
  obtain ⟨index, length, _, scalar, window, taken, _, inside⟩ :=
    reached [⟨2, .bytes, by decide⟩] [] ⟨3, .short, by decide⟩ ⟨1, [97, 98]⟩ rfl rfl
  cases taken
  obtain ⟨place, _⟩ := inside [.int16 1] [.int16 3] (.uint8 7) ⟨2, [97, 98, 0, 1]⟩ rfl rfl
  exact ⟨_, compiled, full, _, _, rfl, index, length, (scalar (by decide)).1, rfl, place, walk⟩

end Layout

end BinaryRecord
