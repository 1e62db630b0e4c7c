import BinaryRecord.Proofs.Slot.Sequence

/-!
# Values that fit their slots

A value fits a slot when it is of the slot's kind and, if it is a byte string, fills the slot. The
values of a record have an encoding exactly when all of them fit. Otherwise the first one that does
not fit decides the error.
-/

set_option autoImplicit false

namespace BinaryRecord.Slot

structure Fits (slot : Slot) (value : Value) : Prop where
  kind_eq : value.kind = slot.field.kind
  fills : ∀ content, value = .bytes content → slot.width ≤ content.length

/-- What keeps a value from its slot. -/
inductive Refuses (slot : Slot) : Value → FieldError → Prop where
  | kind {value} : value.kind ≠ slot.field.kind →
      Refuses slot value (.typeMismatch slot.field slot.field.kind value.kind)
  | short {content} : slot.field = .bytes → content.length < slot.width →
      Refuses slot (.bytes content) (.stringLength slot.width content.length)

variable {slot : Slot} {value : Value}

theorem exists_encode_iff_fits (order : ByteOrder) :
    (∃ bytes, slot.encode order value = .ok bytes) ↔ slot.Fits value := by
  constructor
  · intro encodes
    obtain ⟨bytes, encoded⟩ := encodes
    rcases encode_eq_ok_iff.mp encoded with ⟨string, content, rfl, long, _⟩ | ⟨scalar, kinds, _⟩
    · refine ⟨(Field.kind_eq_bytes_iff.mpr string).symm, ?_⟩
      rintro _ ⟨⟩
      exact long
    · refine ⟨kinds, ?_⟩
      rintro content rfl
      exact absurd (Field.kind_eq_bytes_iff.mp kinds.symm) scalar
  · intro fits
    by_cases string : slot.field = .bytes
    · have kinds := fits.kind_eq.trans (Field.kind_eq_bytes_iff.mpr string)
      cases value with
      | bytes content =>
          exact ⟨_, encode_eq_ok_iff.mpr (.inl ⟨string, content, rfl, fits.fills content rfl, rfl⟩)⟩
      | _ => cases kinds
    · exact ⟨_, encode_eq_ok_iff.mpr (.inr ⟨string, fits.kind_eq, rfl⟩)⟩

theorem encode_of_refuses (order : ByteOrder) {cause : FieldError}
    (refuses : slot.Refuses value cause) : slot.encode order value = .error cause := by
  unfold encode
  cases refuses with
  | short string short =>
      simp [Field.isBytes, string, Packer.encodeString, Value.bytes?, encodeBytes, short]
  | kind mismatch =>
      by_cases string : slot.field = .bytes
      · rw [string] at mismatch ⊢
        cases value with
        | bytes content => exact absurd rfl mismatch
        | _ => rfl
      · simp [Field.isBytes, string, Field.encode_of_kind_ne mismatch]

theorem exists_refuses_iff : (∃ cause, slot.Refuses value cause) ↔ ¬ slot.Fits value := by
  constructor
  · intro refused fits
    obtain ⟨cause, refuses⟩ := refused
    cases refuses with
    | kind mismatch => exact mismatch fits.kind_eq
    | short _ short => exact Nat.not_lt.mpr (fits.fills _ rfl) short
  · intro misfit
    by_cases kinds : value.kind = slot.field.kind
    · cases value with
      | bytes content =>
          have string : slot.field = .bytes := Field.kind_eq_bytes_iff.mp kinds.symm
          refine ⟨_, .short string (Nat.lt_of_not_le fun long => misfit ⟨kinds, ?_⟩)⟩
          rintro _ ⟨⟩
          exact long
      | _ => exact absurd ⟨kinds, nofun⟩ misfit
    · exact ⟨_, .kind kinds⟩

/-- Every value fits its slot, as far as there are both. -/
def AllFit (slots : List Slot) (values : List Value) : Prop :=
  ∀ (position : Nat) (slot : Slot) (value : Value),
    slots[position]? = some slot → values[position]? = some value → slot.Fits value

theorem allFit_cons_iff {slots : List Slot} {values : List Value} :
    AllFit (slot :: slots) (value :: values) ↔ slot.Fits value ∧ AllFit slots values := by
  constructor
  · intro fit
    exact ⟨fit 0 slot value rfl rfl, fun position => fit (position + 1)⟩
  · intro fit position other content slotFound valueFound
    obtain ⟨head, tail⟩ := fit
    cases position with
    | zero =>
        cases slotFound
        cases valueFound
        exact head
    | succ position => exact tail position other content slotFound valueFound

/-- The value at a position is the first that does not fit. -/
structure FirstMisfit (slots : List Slot) (values : List Value) (position : Nat)
    (cause : FieldError) : Prop where
  refused : ∃ slot value, slots[position]? = some slot ∧ values[position]? = some value ∧
    slot.Refuses value cause
  before : AllFit (slots.take position) values

theorem firstMisfit_cons_iff {slots : List Slot} {values : List Value} {position : Nat}
    {cause : FieldError} :
    FirstMisfit (slot :: slots) (value :: values) position cause ↔
      (position = 0 ∧ slot.Refuses value cause) ∨
        ∃ following, position = following + 1 ∧ slot.Fits value ∧
          FirstMisfit slots values following cause := by
  constructor
  · intro first
    obtain ⟨⟨other, content, slotFound, valueFound, refuses⟩, before⟩ := first
    cases position with
    | zero =>
        cases slotFound
        cases valueFound
        exact .inl ⟨rfl, refuses⟩
    | succ position =>
        obtain ⟨head, tail⟩ := allFit_cons_iff.mp before
        exact .inr ⟨position, rfl, head, ⟨other, content, slotFound, valueFound, refuses⟩, tail⟩
  · intro first
    rcases first with ⟨rfl, refuses⟩ | ⟨following, rfl, head, refused, tail⟩
    · refine ⟨⟨slot, value, rfl, rfl, refuses⟩, ?_⟩
      intro _ _ _ slotFound
      simp at slotFound
    · exact ⟨refused, allFit_cons_iff.mpr ⟨head, tail⟩⟩

theorem exists_encodeAll_iff_allFit (order : ByteOrder) (start : Nat) {slots : List Slot}
    {values : List Value} :
    (∃ bytes, encodeAll order start slots values = .ok bytes) ↔ AllFit slots values := by
  induction slots generalizing start values with
  | nil => exact iff_of_true ⟨[], rfl⟩ (fun _ _ _ found => by simp at found)
  | cons slot later laterIH =>
      cases values with
      | nil => exact iff_of_true ⟨[], rfl⟩ (fun _ _ _ _ found => by simp at found)
      | cons value others =>
          rw [allFit_cons_iff, ← exists_encode_iff_fits order, ← laterIH (start + 1)]
          constructor
          · intro encodes
            obtain ⟨bytes, encoded⟩ := encodes
            obtain ⟨head, tail, headEncoded, tailEncoded, _⟩ := encodeAll_cons_eq_ok_iff.mp encoded
            exact ⟨⟨head, headEncoded⟩, ⟨tail, tailEncoded⟩⟩
          · intro encodes
            obtain ⟨⟨head, headEncoded⟩, ⟨tail, tailEncoded⟩⟩ := encodes
            exact ⟨_, encodeAll_cons_eq_ok_iff.mpr ⟨head, tail, headEncoded, tailEncoded, rfl⟩⟩

theorem encodeAll_of_firstMisfit (order : ByteOrder) (start : Nat) {position : Nat}
    {slots : List Slot} {values : List Value} {cause : FieldError}
    (first : FirstMisfit slots values position cause) :
    encodeAll order start slots values = .error (.ofField (start + position) cause) := by
  induction slots generalizing start values position with
  | nil =>
      obtain ⟨slot, value, found, _⟩ := first.refused
      simp at found
  | cons slot later laterIH =>
      cases values with
      | nil =>
          obtain ⟨slot, value, _, found, _⟩ := first.refused
          simp at found
      | cons value others =>
          rcases firstMisfit_cons_iff.mp first with ⟨rfl, refuses⟩ | ⟨following, rfl, fits, rest⟩
          · rw [encodeAll, encode_of_refuses order refuses]
            rfl
          · obtain ⟨head, headEncoded⟩ := (exists_encode_iff_fits order).mpr fits
            have shifted : start + 1 + following = start + (following + 1) := by omega
            rw [encodeAll, headEncoded, laterIH (start + 1) rest, shifted]
            rfl

theorem exists_firstMisfit {slots : List Slot} {values : List Value}
    (misfit : ¬ AllFit slots values) :
    ∃ position cause, FirstMisfit slots values position cause := by
  induction slots generalizing values with
  | nil => exact absurd (fun _ _ _ found => by simp at found) misfit
  | cons slot later laterIH =>
      cases values with
      | nil => exact absurd (fun _ _ _ _ found => by simp at found) misfit
      | cons value others =>
          by_cases fits : slot.Fits value
          · have rest : ¬ AllFit later others := fun tail =>
              misfit (allFit_cons_iff.mpr ⟨fits, tail⟩)
            obtain ⟨position, cause, first⟩ := laterIH rest
            exact ⟨position + 1, cause,
              firstMisfit_cons_iff.mpr (.inr ⟨position, rfl, fits, first⟩)⟩
          · obtain ⟨cause, refuses⟩ := exists_refuses_iff.mpr fits
            exact ⟨0, cause, firstMisfit_cons_iff.mpr (.inl ⟨rfl, refuses⟩)⟩

theorem encodeAll_eq_error_iff {order : ByteOrder} {start : Nat} {slots : List Slot}
    {values : List Value} {error : PackError} :
    encodeAll order start slots values = .error error ↔
      ∃ position cause, FirstMisfit slots values position cause ∧
        error = .ofField (start + position) cause := by
  constructor
  · intro rejected
    have misfit : ¬ AllFit slots values := by
      intro fit
      obtain ⟨bytes, encoded⟩ := (exists_encodeAll_iff_allFit order start).mpr fit
      cases encoded.symm.trans rejected
    obtain ⟨position, cause, first⟩ := exists_firstMisfit misfit
    exact ⟨position, cause, first,
      Except.error.inj (rejected.symm.trans (encodeAll_of_firstMisfit order start first))⟩
  · intro misfit
    obtain ⟨position, cause, first, rfl⟩ := misfit
    exact encodeAll_of_firstMisfit order start first

/-- The first misfit and its error, in terms of the slot and the value there. -/
theorem exists_firstMisfit_iff {slots : List Slot} {values : List Value} {error : PackError} :
    (∃ index cause, FirstMisfit slots values index cause ∧ error = .ofField index cause) ↔
      ∃ (index : Nat) (slot : Slot) (value : Value),
        slots[index]? = some slot ∧ values[index]? = some value ∧
        AllFit (slots.take index) values ∧
        ((value.kind ≠ slot.field.kind ∧
          error = .typeMismatch index slot.field.tag slot.field.name slot.field.kind value.kind) ∨
        ∃ content, value = .bytes content ∧ slot.field = .bytes ∧ content.length < slot.width ∧
          error = .stringLength index slot.width content.length) := by
  constructor
  · intro misfit
    obtain ⟨index, cause, ⟨⟨slot, value, slotFound, valueFound, refuses⟩, before⟩, rfl⟩ := misfit
    refine ⟨index, slot, value, slotFound, valueFound, before, ?_⟩
    cases refuses with
    | kind mismatch => exact .inl ⟨mismatch, rfl⟩
    | short string short => exact .inr ⟨_, rfl, string, short, rfl⟩
  · intro misfit
    obtain ⟨index, slot, value, slotFound, valueFound, before, why⟩ := misfit
    rcases why with ⟨mismatch, rfl⟩ | ⟨content, rfl, string, short, rfl⟩
    · exact ⟨index, _, ⟨⟨slot, value, slotFound, valueFound, .kind mismatch⟩, before⟩, rfl⟩
    · exact ⟨index, _, ⟨⟨slot, _, slotFound, valueFound, .short string short⟩, before⟩, rfl⟩

end BinaryRecord.Slot
