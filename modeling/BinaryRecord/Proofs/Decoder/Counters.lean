import BinaryRecord.Proofs.Decoder.Progress
import BinaryRecord.Proofs.Layout.Compilation

/-!
# The counters of a decoder

A decoder counts groups, values of the current group, bytes and values. After any number of steps
these are sums over the groups that are left behind. So the rest of the buffer starts inside it, no
counter leaves the range of sizes, and the items that are left are bounded by the values that are
left. Main statement: `Layout.decoder_counters`.
-/

set_option autoImplicit false

-- Sums of natural numbers are the core library's, whatever else is in scope.
attribute [local instance (high)] Zero.ofOfNat0

namespace BinaryRecord

theorem Group.valueSum_take_drop_le (groups : List Group) (index count : Nat) :
    valueSum ((groups.drop index).take count) ≤ valueSum groups := by
  have front := valueSum_take_add_drop groups index
  have back := valueSum_take_add_drop (groups.drop index) count
  omega

namespace Decoder

/-- Everything that a step can be: the item, and the decoder after it. -/
inductive Steps (decoder : Decoder) : Option (Except UnpackError Value) → Decoder → Prop where
  | stops : decoder.failed = true ∨ decoder.groups[decoder.group]? = none →
      Steps decoder none decoder
  | gives {group value} : decoder.failed = false →
      decoder.groups[decoder.group]? = some group →
      group.slot.decode decoder.order decoder.rest = .ok value →
      Steps decoder (some (.ok value)) (decoder.advance group group.slot.width)
  | fails {group cause} : decoder.failed = false →
      decoder.groups[decoder.group]? = some group →
      group.slot.decode decoder.order decoder.rest = .error cause →
      Steps decoder (some (.error (.ofField decoder.index cause))) { decoder with failed := true }

theorem steps_next (decoder : Decoder) : decoder.Steps decoder.next.1 decoder.next.2 := by
  unfold next
  cases active : decoder.failed with
  | true => exact .stops (.inl active)
  | false =>
      cases current : decoder.groups[decoder.group]? with
      | none => exact .stops (.inr current)
      | some group =>
          simp only [Bool.false_eq_true, if_false, read_eq]
          cases decoded : group.slot.decode decoder.order decoder.rest with
          | ok value => exact .gives active current decoded
          | error cause => exact .fails active current decoded

theorem Valid.fail {decoder : Decoder} (valid : decoder.Valid) :
    Valid { decoder with failed := true } :=
  ⟨valid.inside, valid.atEnd⟩

theorem failed_advance (decoder : Decoder) (group : Group) (width : Nat) :
    (decoder.advance group width).failed = decoder.failed := by
  unfold advance
  split <;> rfl

theorem Steps.failed_iff {decoder after : Decoder} {item : Option (Except UnpackError Value)}
    (step : decoder.Steps item after) :
    after.failed = true ↔ decoder.failed = true ∨ ∃ error, item = some (.error error) := by
  cases step with
  | stops => simp
  | gives => simp [failed_advance]
  | fails => simp

/-- A decoder has failed exactly if it has given an error. -/
theorem failed_after_iff {decoder : Decoder} (active : decoder.failed = false) (steps : Nat) :
    (decoder.after steps).failed = true ↔
      ∃ earlier < steps, ∃ error, decoder.item earlier = some (.error error) := by
  induction steps with
  | zero => simp [after, active]
  | succ steps stepsIH =>
      rw [after, (steps_next _).failed_iff, stepsIH, Nat.exists_lt_succ_right]
      rfl

theorem width_of_read {decoder : Decoder} {group : Group} {value : Value} {width : Nat}
    (taken : decoder.read group = .ok (value, width)) : width = group.slot.width := by
  rw [read_eq] at taken
  cases decoded : group.slot.decode decoder.order decoder.rest with
  | error error =>
      rw [decoded] at taken
      cases taken
  | ok value =>
      rw [decoded] at taken
      cases taken
      rfl

/-- The number of bytes of each value of the current group. -/
def unitWidth (decoder : Decoder) : Nat :=
  match decoder.groups[decoder.group]? with
  | some group => group.slot.width
  | none => 0

/-- The counters are those of the groups behind the decoder and of the values of the current group
that were given. -/
structure Sums (decoder : Decoder) : Prop where
  group_le : decoder.group ≤ decoder.groups.length
  index_eq : decoder.index = Group.valueSum (decoder.groups.take decoder.group) + decoder.unit
  offset_eq : decoder.offset =
    Group.lengthSum (decoder.groups.take decoder.group) + decoder.unit * decoder.unitWidth

theorem Sums.advance {decoder : Decoder} {group : Group} (sums : decoder.Sums)
    (valid : decoder.Valid) (current : decoder.groups[decoder.group]? = some group) :
    (decoder.advance group group.slot.width).Sums := by
  have index := sums.index_eq
  have offset := sums.offset_eq
  have inside := valid.inside group current
  have width : decoder.unitWidth = group.slot.width := by simp [unitWidth, current]
  rw [width] at offset
  unfold Decoder.advance
  by_cases more : decoder.unit + 1 < group.valueCount
  · simp only [more, if_true]
    refine ⟨sums.group_le, ?_, ?_⟩
    · simp only
      omega
    · simp only [unitWidth, current, Nat.succ_mul]
      omega
  · -- The last value of its group, which is the only one of a byte string.
    have last : decoder.unit + 1 = group.valueCount := by omega
    have whole := group.valueCount_mul_width
    rw [← last, Nat.succ_mul] at whole
    obtain ⟨within, _⟩ := List.getElem?_eq_some_iff.mp current
    simp only [more, if_false]
    refine ⟨within, ?_, ?_⟩
    · simp only [Group.valueSum_take_succ current]
      omega
    · simp only [Group.lengthSum_take_succ current, Nat.zero_mul]
      omega

theorem Valid.unit_lt {decoder : Decoder} {group : Group} (valid : decoder.Valid)
    (current : decoder.groups[decoder.group]? = some group) :
    decoder.unit < group.count ∧ (group.field = .bytes → decoder.unit = 0) := by
  have inside := valid.inside group current
  have positive := group.count_pos
  rw [group.valueCount_eq] at inside
  split at inside
  next string => exact ⟨by omega, fun _ => by omega⟩
  next scalar => exact ⟨inside, fun string => absurd string scalar⟩

/-- Inside a byte string no value was given, so its width plays no part. -/
theorem Valid.unit_mul_width {decoder : Decoder} {group : Group} (valid : decoder.Valid)
    (current : decoder.groups[decoder.group]? = some group) :
    decoder.unit * decoder.unitWidth = decoder.unit * group.field.width := by
  simp only [unitWidth, current]
  by_cases string : group.field = .bytes
  · simp [(valid.unit_lt current).2 string]
  · exact congrArg (decoder.unit * ·) (group.sound_slot.scalar_width string)

theorem sound_of_mem_slots {decoder : Decoder} {slot : Slot} (member : slot ∈ decoder.slots) :
    slot.Sound := by
  obtain ⟨_, _, held⟩ := List.mem_flatMap.mp (List.mem_of_mem_drop member)
  exact Group.sound_of_mem_slots held

theorem itemBound_eq (decoder : Decoder) :
    decoder.itemBound = if decoder.failed then 0 else decoder.slots.length := by
  simp only [itemBound, slots, List.length_drop, Group.length_flatMap_slots]
  rfl

theorem length_items_le {decoder : Decoder} (valid : decoder.Valid) :
    decoder.items.length ≤ decoder.itemBound := by
  rw [itemBound_eq]
  cases active : decoder.failed with
  | true => simp [items_of_failed active]
  | false =>
      rw [items_eq_decodeAll valid active]
      exact Slot.length_decodeAll_le _ _ _ _

/-- A decoder with enough bytes for all values that are left gives all of them. -/
theorem length_items_of_le {decoder : Decoder} (valid : decoder.Valid)
    (active : decoder.failed = false)
    (enough : Slot.widthSum decoder.slots ≤ decoder.rest.length) :
    decoder.items.length = decoder.itemBound := by
  have given := Slot.decodeAll_of_le decoder.order decoder.index
    (fun _ member => sound_of_mem_slots member) enough
  rw [itemBound_eq, items_eq_decodeAll valid active, given]
  simp [active]

/-- A decoder of a layout over a buffer, after any steps. What it has taken and what is left make up
the record. -/
structure Along (layout : Layout) (buffer : Bytes) (decoder : Decoder) : Prop where
  groups_eq : decoder.groups = layout.groups
  buffer_eq : decoder.buffer = buffer
  valid : decoder.Valid
  sums : decoder.Sums
  offset_le : decoder.offset ≤ buffer.length
  index_add : decoder.index + decoder.slots.length = layout.slots.length
  offset_add : decoder.offset + Slot.widthSum decoder.slots = Slot.widthSum layout.slots

namespace Along

variable {layout : Layout} {buffer : Bytes} {decoder after : Decoder}

theorem length_rest (along : Along layout buffer decoder) :
    decoder.rest.length = buffer.length - decoder.offset := by
  rw [rest, along.buffer_eq, List.length_drop]

theorem steps {item : Option (Except UnpackError Value)} (along : Along layout buffer decoder)
    (step : decoder.Steps item after) : Along layout buffer after := by
  cases step with
  | stops => exact along
  | fails =>
      exact ⟨along.groups_eq, along.buffer_eq, along.valid.fail,
        ⟨along.sums.group_le, along.sums.index_eq, along.sums.offset_eq⟩, along.offset_le,
        along.index_add, along.offset_add⟩
  | @gives group value active current decoded =>
      have passes := passes_advance along.valid current
      have full := Slot.width_le_of_decode group.sound_slot decoded
      have bounded := along.offset_le
      have values := along.index_add
      have bytes := along.offset_add
      rw [along.length_rest] at full
      rw [passes.slots] at values bytes
      refine ⟨passes.groups.trans along.groups_eq, passes.buffer.trans along.buffer_eq, passes.valid,
        along.sums.advance along.valid current, ?_, ?_, ?_⟩
      · rw [passes.offset]
        omega
      · rw [passes.index, ← values, List.length_cons]
        omega
      · rw [passes.offset, ← bytes, Slot.widthSum_cons]
        omega

variable {group : Group}

/-- The value that is next is one of the record, and so is its group. -/
theorem next_le (along : Along layout buffer decoder)
    (found : layout.groups[decoder.group]? = some group) :
    decoder.index + 1 ≤ layout.slots.length ∧
      decoder.offset + group.slot.width ≤ Slot.widthSum layout.slots ∧
      decoder.group + 1 ≤ layout.groups.length := by
  have current : decoder.groups[decoder.group]? = some group := along.groups_eq ▸ found
  have remaining := (passes_advance along.valid current).slots
  have values := along.index_add
  have bytes := along.offset_add
  obtain ⟨within, _⟩ := List.getElem?_eq_some_iff.mp found
  simp only [remaining, List.length_cons, Slot.widthSum_cons] at values bytes
  omega

/-- No counter of a decoder leaves the range of sizes when the next value is taken. -/
theorem counters_lt_limit (along : Along layout buffer decoder) (exact : layout.Exact)
    (bounded : layout.size < Size.limit) (found : layout.groups[decoder.group]? = some group) :
    (∀ value width, decoder.read group = .ok (value, width) →
      decoder.offset + width < Size.limit) ∧
      decoder.unit + 1 < Size.limit ∧ decoder.group + 1 < Size.limit ∧
      decoder.index + 1 < Size.limit := by
  obtain ⟨index, finish, next⟩ := along.next_le found
  have behind := along.sums.index_eq
  have groups := Group.length_le_valueSum layout.groups
  have few := exact.valueCount_le_size
  have values := exact.valueCount
  have sums := exact.valueCount_eq
  refine ⟨?_, by omega, by omega, by omega⟩
  intro value width taken
  obtain rfl := width_of_read taken
  exact Nat.lt_of_le_of_lt (Nat.le_trans finish (Nat.le_of_eq exact.size.symm)) bounded

theorem counters_in_group (along : Along layout buffer decoder)
    (found : layout.groups[decoder.group]? = some group) :
    decoder.unit < group.count ∧ (group.field = .bytes → decoder.unit = 0) ∧
      decoder.offset = Group.lengthSum (layout.groups.take decoder.group) +
        decoder.unit * group.field.width := by
  have current : decoder.groups[decoder.group]? = some group := along.groups_eq ▸ found
  obtain ⟨inside, single⟩ := along.valid.unit_lt current
  have offset := along.sums.offset_eq
  rw [along.groups_eq, along.valid.unit_mul_width current] at offset
  exact ⟨inside, single, offset⟩

theorem counters_at_end (along : Along layout buffer decoder)
    (last : decoder.group = layout.groups.length) :
    decoder.unit = 0 ∧ decoder.offset = Group.lengthSum (layout.groups.take decoder.group) := by
  have passed : decoder.groups[decoder.group]? = none := by simp [along.groups_eq, last]
  have unit := along.valid.atEnd passed
  have offset := along.sums.offset_eq
  rw [along.groups_eq, unit, Nat.zero_mul] at offset
  exact ⟨unit, offset⟩

/-- At most as many items are left as there are values that were not given. -/
theorem itemBound_eq (along : Along layout buffer decoder) (exact : layout.Exact) :
    decoder.itemBound = if decoder.failed then 0 else layout.valueCount - decoder.index := by
  rw [Decoder.itemBound_eq, exact.valueCount, ← along.index_add, Nat.add_sub_cancel_left]

theorem index_le (along : Along layout buffer decoder) (exact : layout.Exact) :
    decoder.index ≤ layout.valueCount := by
  have values := along.index_add
  have total := exact.valueCount
  omega

theorem length_items (along : Along layout buffer decoder) (exact : layout.Exact)
    (active : decoder.failed = false) (long : layout.size ≤ buffer.length) :
    decoder.items.length = decoder.itemBound := by
  apply length_items_of_le along.valid active
  have bytes := along.offset_add
  have whole : layout.size = Slot.widthSum layout.slots := exact.size
  rw [along.length_rest]
  omega

end Along

end Decoder

namespace Layout

variable {layout : Layout} {buffer : Bytes}

theorem along_decoder (layout : Layout) (buffer : Bytes) :
    Decoder.Along layout buffer (layout.decoder buffer) where
  groups_eq := rfl
  buffer_eq := rfl
  valid := layout.valid_decoder buffer
  sums := ⟨Nat.zero_le _, rfl, by simp [Layout.decoder]⟩
  offset_le := Nat.zero_le _
  index_add := Nat.zero_add _
  offset_add := Nat.zero_add _

theorem along_after (layout : Layout) (buffer : Bytes) (steps : Nat) :
    Decoder.Along layout buffer ((layout.decoder buffer).after steps) := by
  induction steps with
  | zero => exact layout.along_decoder buffer
  | succ steps stepsIH => exact stepsIH.steps (Decoder.steps_next _)

theorem failed_after_eq_false {steps : Nat}
    (clean : ∀ earlier < steps, ∀ error,
      (layout.decoder buffer).item earlier ≠ some (.error error)) :
    ((layout.decoder buffer).after steps).failed = false := by
  have started : (layout.decoder buffer).failed = false := rfl
  apply Bool.eq_false_iff.mpr
  intro stopped
  obtain ⟨earlier, before, error, given⟩ := (Decoder.failed_after_iff started steps).mp stopped
  exact clean earlier before error given

/-- Wherever a decoder stands, its counters are sums over the groups behind it, in the range of
sizes, and its items are bounded by the values that are left. -/
theorem decoder_counters {source : String} (compiled : compile source = .ok layout)
    (buffer : Bytes) (steps : Nat) {decoder : Decoder}
    (reached : (layout.decoder buffer).after steps = decoder) :
    decoder.group ≤ layout.groups.length ∧
    (decoder.group = layout.groups.length →
      decoder.unit = 0 ∧
      decoder.offset = ((layout.groups.take decoder.group).map Group.length).sum) ∧
    (∀ group, layout.groups[decoder.group]? = some group →
      decoder.unit < group.count ∧ (group.field = .bytes → decoder.unit = 0) ∧
      decoder.offset = ((layout.groups.take decoder.group).map Group.length).sum +
        decoder.unit * group.field.width ∧
      (∀ value width, decoder.read group = .ok (value, width) →
        decoder.offset + width < Size.limit) ∧
      decoder.unit + 1 < Size.limit ∧ decoder.group + 1 < Size.limit ∧
      decoder.index + 1 < Size.limit) ∧
    decoder.index =
      ((layout.groups.take decoder.group).map Group.valueCount).sum + decoder.unit ∧
    decoder.index ≤ layout.valueCount ∧ decoder.offset ≤ buffer.length ∧
    (∀ count, (((layout.groups.drop decoder.group).take count).map Group.valueCount).sum <
      Size.limit) ∧
    ((∃ earlier < steps, ∃ error, (layout.decoder buffer).item earlier = some (.error error)) →
      decoder.itemBounds = (0, some 0)) ∧
    ((∀ earlier < steps, ∀ error, (layout.decoder buffer).item earlier ≠ some (.error error)) →
      decoder.itemBounds = (0, some (layout.valueCount - decoder.index)) ∧
      (layout.size ≤ buffer.length →
        decoder.items.length = layout.valueCount - decoder.index)) ∧
    ∀ most, decoder.itemBounds.2 = some most → decoder.items.length ≤ most := by
  subst reached
  have exact := exact_of_compile compiled
  have bounded := size_lt_of_compile compiled
  have along := layout.along_after buffer steps
  have most := along.itemBound_eq exact
  refine ⟨along.groups_eq ▸ along.sums.group_le, along.counters_at_end, ?_,
    along.groups_eq ▸ along.sums.index_eq, along.index_le exact, along.offset_le, ?_, ?_, ?_, ?_⟩
  · intro group found
    obtain ⟨inside, single, offset⟩ := along.counters_in_group found
    exact ⟨inside, single, offset, along.counters_lt_limit exact bounded found⟩
  · intro count
    calc ((((layout.groups.drop _).take count).map Group.valueCount).sum : Nat)
        ≤ Group.valueSum layout.groups := Group.valueSum_take_drop_le layout.groups _ count
      _ = layout.valueCount := exact.valueCount_eq.symm
      _ ≤ layout.size := exact.valueCount_le_size
      _ < Size.limit := bounded
  · intro given
    have started : (layout.decoder buffer).failed = false := rfl
    have failed := (Decoder.failed_after_iff started steps).mpr given
    simp only [Decoder.itemBounds, most, if_pos failed]
  · intro clean
    have active := failed_after_eq_false clean
    simp only [active, Bool.false_eq_true, if_false] at most
    refine ⟨congrArg (fun bound => (0, some bound)) most, ?_⟩
    intro long
    exact (along.length_items exact active long).trans most
  · intro bound same
    cases same
    exact Decoder.length_items_le along.valid

/-- A buffer that ends inside the last number, seen in front of that number and after the error, and
a buffer that holds the whole record. -/
theorem decoder_counters_specimen :
    ∃ layout, compile ">2s3h" = .ok layout ∧
      ((layout.decoder [97, 98, 0, 1, 0, 2, 0]).after 3).offset =
        ((layout.groups.take 1).map Group.length).sum + 2 * Field.short.width ∧
      ((layout.decoder [97, 98, 0, 1, 0, 2, 0]).after 4).itemBounds = (0, some 0) ∧
      ((layout.decoder [97, 98, 0, 1, 0, 2, 0, 3]).after 1).items.length = 3 := by
  have compiled : compile ">2s3h" = .ok
      ⟨">2s3h", ⟨.big, [⟨2, .bytes, by decide⟩, ⟨3, .short, by decide⟩]⟩, 8, 4⟩ := rfl
  refine ⟨_, compiled, ?_, ?_, ?_⟩
  · obtain ⟨_, _, atGroup, _⟩ := decoder_counters compiled [97, 98, 0, 1, 0, 2, 0] 3 rfl
    obtain ⟨_, _, offset, _⟩ := atGroup ⟨3, .short, by decide⟩ rfl
    exact offset
  · obtain ⟨_, _, _, _, _, _, _, failed, _⟩ :=
      decoder_counters compiled [97, 98, 0, 1, 0, 2, 0] 4 rfl
    exact failed ⟨3, by decide, .truncated 3 2 1, rfl⟩
  · obtain ⟨_, _, _, _, _, _, _, _, active, _⟩ :=
      decoder_counters compiled [97, 98, 0, 1, 0, 2, 0, 3] 1 rfl
    refine (active ?_).2 (by decide)
    intro earlier before error given
    obtain rfl : earlier = 0 := by omega
    cases given

end Layout

end BinaryRecord
