import BinaryRecord.Proofs.Bytes.Overwrite
import BinaryRecord.Proofs.Packing.Spans

/-!
# Records placed on a target

Records that are packed into one target, each at its own offset. A placement that fails changes
nothing. After all of them every byte is that of the last placement over it, and a byte that no
placement covers is that of the target. Main statement: `Placement.placeAll_last_wins`.
-/

set_option autoImplicit false

namespace BinaryRecord

namespace Layout

variable {layout : Layout} {offset : Nat} {values : List Value}

theorem packInto_of_limit_le (large : Size.limit ≤ offset + layout.size) (target : Bytes) :
    layout.packInto offset values target =
      .error (.offsetRange offset layout.size) target := by
  simp only [packInto, large, if_true]
  rfl

theorem packInto_of_pack_ok {packed : Bytes} (small : offset + layout.size < Size.limit)
    (accepted : layout.pack values = .ok packed) (target : Bytes) :
    layout.packInto offset values target =
      .ok packed.length (Bytes.overwrite offset packed target) := by
  simp only [packInto, Nat.not_le.mpr small, if_false, accepted]
  rfl

theorem packInto_of_pack_error {error : PackError} (small : offset + layout.size < Size.limit)
    (rejected : layout.pack values = .error error) (target : Bytes) :
    layout.packInto offset values target = .error error target := by
  simp only [packInto, Nat.not_le.mpr small, if_false, rejected]
  rfl

theorem packInto_eq_ok_iff {target after : Bytes} {written : Nat} :
    layout.packInto offset values target = .ok written after ↔
      offset + layout.size < Size.limit ∧ ∃ packed, layout.pack values = .ok packed ∧
        written = packed.length ∧ after = Bytes.overwrite offset packed target := by
  rcases Nat.lt_or_ge (offset + layout.size) Size.limit with small | large
  · cases packs : layout.pack values with
    | error error => simp [packInto_of_pack_error small packs]
    | ok packed => simp [packInto_of_pack_ok small packs, small, eq_comm]
  · simp [packInto_of_limit_le large, Nat.not_lt.mpr large]

end Layout

/-- A record that is to be packed into a target at an offset. -/
structure Placement where
  layout : Layout
  offset : Nat
  values : List Value
  compiled : ∃ source, Layout.compile source = .ok layout

namespace Placement

def place (placement : Placement) : EStateM PackError Bytes Nat :=
  placement.layout.packInto placement.offset placement.values

/-- Carries placements out in turn, the failing ones too, and answers what each of them does. -/
def placeAll : List Placement → Bytes → List (Except PackError Nat) × Bytes
  | [], target => ([], target)
  | placement :: later, target =>
      match placement.place target with
      | .ok written next => (.ok written :: (placeAll later next).1, (placeAll later next).2)
      | .error error next => (.error error :: (placeAll later next).1, (placeAll later next).2)

def finish (placement : Placement) : Nat :=
  placement.offset + placement.layout.size

/-- The bytes that are to be written, or why there are none. No target has a part in them. -/
def patch (placement : Placement) : Except PackError Bytes :=
  if Size.limit ≤ placement.finish then
    .error (.offsetRange placement.offset placement.layout.size)
  else placement.layout.pack placement.values

/-- Whether the placement succeeds and writes the byte at a position. -/
def Covers (placement : Placement) (position : Nat) : Prop :=
  (∃ packed, placement.patch = .ok packed) ∧
    placement.offset ≤ position ∧ position < placement.finish

/-- The target after the placement. -/
def onto (placement : Placement) (target : Bytes) : Bytes :=
  match placement.patch with
  | .ok packed => Bytes.overwrite placement.offset packed target
  | .error _ => target

variable {placement : Placement} {packed : Bytes} {error : PackError}

theorem layout_exact (placement : Placement) : placement.layout.Exact := by
  obtain ⟨source, compiled⟩ := placement.compiled
  exact Layout.exact_of_compile compiled

theorem patch_eq_ok_iff :
    placement.patch = .ok packed ↔
      placement.finish < Size.limit ∧ placement.layout.pack placement.values = .ok packed := by
  unfold patch
  split
  next large => simp [Nat.not_lt.mpr large]
  next small => simp [Nat.lt_of_not_le small]

theorem patch_eq_error_iff :
    placement.patch = .error error ↔
      (Size.limit ≤ placement.finish ∧
        error = .offsetRange placement.offset placement.layout.size) ∨
      (placement.finish < Size.limit ∧ placement.layout.pack placement.values = .error error) := by
  unfold patch
  split
  next large => simp [large, Nat.not_lt.mpr large, eq_comm]
  next small => simp [small, Nat.lt_of_not_le small]

theorem length_of_patch (patched : placement.patch = .ok packed) :
    packed.length = placement.layout.size :=
  Layout.length_of_pack placement.layout_exact (patch_eq_ok_iff.mp patched).2

theorem place_of_ok (patched : placement.patch = .ok packed) (target : Bytes) :
    placement.place target = .ok placement.layout.size (placement.onto target) := by
  obtain ⟨small, accepted⟩ := patch_eq_ok_iff.mp patched
  rw [place, Layout.packInto_of_pack_ok small accepted, length_of_patch patched, onto, patched]

theorem place_of_error (failed : placement.patch = .error error) (target : Bytes) :
    placement.place target = .error error target := by
  rcases patch_eq_error_iff.mp failed with ⟨large, rfl⟩ | ⟨small, rejected⟩
  · exact Layout.packInto_of_limit_le large target
  · exact Layout.packInto_of_pack_error small rejected target

theorem onto_of_ok (patched : placement.patch = .ok packed) (target : Bytes) :
    placement.onto target = Bytes.overwrite placement.offset packed target := by
  rw [onto, patched]

theorem onto_of_error (failed : placement.patch = .error error) (target : Bytes) :
    placement.onto target = target := by
  rw [onto, failed]

/-- Where the placement ends, if it succeeds. -/
def finish? (placement : Placement) : Option Nat :=
  match placement.patch with
  | .ok _ => some placement.finish
  | .error _ => none

theorem length_onto (placement : Placement) (target : Bytes) :
    (placement.onto target).length = max target.length (placement.finish?.getD 0) := by
  cases patched : placement.patch with
  | ok packed =>
      rw [onto_of_ok patched, Bytes.length_overwrite, length_of_patch patched, finish?, patched]
      rfl
  | error error =>
      rw [onto_of_error patched, finish?, patched]
      exact (Nat.max_zero target.length).symm

variable {position : Nat}

theorem cell_onto_of_covers (covers : placement.Covers position)
    (patched : placement.patch = .ok packed) (target : Bytes) :
    (placement.onto target).cell position = packed.cell (position - placement.offset) := by
  obtain ⟨_, lower, upper⟩ := covers
  rw [finish, ← length_of_patch patched] at upper
  rw [onto_of_ok patched, Bytes.cell_overwrite_of_inside target lower upper]

theorem cell_onto_of_not_covers (free : ¬ placement.Covers position) (target : Bytes) :
    (placement.onto target).cell position = target.cell position := by
  cases patched : placement.patch with
  | error error => rw [onto_of_error patched]
  | ok packed =>
      rw [onto_of_ok patched]
      apply Bytes.cell_overwrite_of_outside
      rw [length_of_patch patched]
      rcases Nat.lt_or_ge position placement.offset with before | lower
      · exact .inl before
      · exact .inr (Nat.le_of_not_lt fun upper => free ⟨⟨packed, patched⟩, lower, upper⟩)

/-- A byte that a placement covers does not depend on the target. -/
theorem cell_onto_congr (covers : placement.Covers position) (target other : Bytes) :
    (placement.onto target).cell position = (placement.onto other).cell position := by
  obtain ⟨packed, patched⟩ := covers.1
  rw [cell_onto_of_covers covers patched, cell_onto_of_covers covers patched]

/-- Placements that write no byte in common. -/
def Apart (first second : Placement) : Prop :=
  ∀ position, first.Covers position → ¬ second.Covers position

theorem Apart.symm {first second : Placement} (apart : first.Apart second) :
    second.Apart first :=
  fun position covers other => apart position other covers

theorem onto_comm {first second : Placement} (apart : first.Apart second) (target : Bytes) :
    second.onto (first.onto target) = first.onto (second.onto target) := by
  apply Bytes.ext_cell
  · simp only [length_onto]
    omega
  · intro position
    -- The one that covers a byte writes it whatever stood there, so each case forgets the other.
    by_cases covers : first.Covers position
    · rw [cell_onto_of_not_covers (apart position covers)]
      exact cell_onto_congr covers target (second.onto target)
    · rw [cell_onto_of_not_covers covers]
      by_cases other : second.Covers position
      · exact cell_onto_congr other (first.onto target) target
      · rw [cell_onto_of_not_covers other, cell_onto_of_not_covers other,
          cell_onto_of_not_covers covers]

variable {placements : List Placement}

def ontoAll (placements : List Placement) (target : Bytes) : Bytes :=
  placements.foldl (fun target placement => placement.onto target) target

theorem placeAll_eq (placements : List Placement) (target : Bytes) :
    placeAll placements target =
      (placements.map fun placement => placement.patch.map fun _ => placement.layout.size,
        ontoAll placements target) := by
  induction placements generalizing target with
  | nil => rfl
  | cons placement later laterIH =>
      cases patched : placement.patch with
      | ok packed =>
          simp only [placeAll, place_of_ok patched, laterIH, List.map_cons, patched]
          rfl
      | error error =>
          simp only [placeAll, place_of_error patched, laterIH, List.map_cons, patched, ontoAll,
            List.foldl_cons, onto_of_error patched]
          rfl

theorem length_ontoAll (placements : List Placement) (target : Bytes) :
    (ontoAll placements target).length =
      (placements.filterMap finish?).foldl max target.length := by
  induction placements generalizing target with
  | nil => rfl
  | cons placement later laterIH =>
      have length := placement.length_onto target
      cases ends : placement.finish? with
      | none =>
          rw [ends, Option.getD_none, Nat.max_zero] at length
          rw [ontoAll, List.foldl_cons, ← ontoAll, laterIH, length, List.filterMap_cons, ends]
      | some finish =>
          rw [ends, Option.getD_some] at length
          rw [ontoAll, List.foldl_cons, ← ontoAll, laterIH, length, List.filterMap_cons, ends,
            List.foldl_cons]

theorem cell_ontoAll_of_not_covers
    (free : ∀ placement ∈ placements, ¬ placement.Covers position) (target : Bytes) :
    (ontoAll placements target).cell position = target.cell position := by
  induction placements generalizing target with
  | nil => rfl
  | cons placement later laterIH =>
      obtain ⟨headFree, laterFree⟩ := List.forall_mem_cons.mp free
      rw [ontoAll, List.foldl_cons, ← ontoAll, laterIH laterFree,
        cell_onto_of_not_covers headFree]

theorem cell_ontoAll_of_covers (before : List Placement) {later : List Placement}
    (patched : placement.patch = .ok packed) (covers : placement.Covers position)
    (free : ∀ other ∈ later, ¬ other.Covers position) (target : Bytes) :
    (ontoAll (before ++ placement :: later) target).cell position =
      packed.cell (position - placement.offset) := by
  rw [ontoAll, List.foldl_append, List.foldl_cons, ← ontoAll, ← ontoAll,
    cell_ontoAll_of_not_covers free, cell_onto_of_covers covers patched]

theorem length_le_ontoAll (placements : List Placement) (target : Bytes) :
    target.length ≤ (ontoAll placements target).length := by
  induction placements generalizing target with
  | nil => exact Nat.le_refl target.length
  | cons placement later laterIH =>
      have head : target.length ≤ (placement.onto target).length := by
        rw [length_onto]
        exact Nat.le_max_left _ _
      exact Nat.le_trans head (laterIH (placement.onto target))

theorem finish_le_length_ontoAll (before later : List Placement)
    (patched : placement.patch = .ok packed) (target : Bytes) :
    placement.finish ≤ (ontoAll (before ++ placement :: later) target).length := by
  have reached : placement.finish ≤ (placement.onto (ontoAll before target)).length := by
    rw [length_onto, finish?, patched]
    exact Nat.le_max_right _ _
  rw [ontoAll, List.foldl_append, List.foldl_cons, ← ontoAll, ← ontoAll]
  exact Nat.le_trans reached (length_le_ontoAll later _)

theorem ontoAll_perm {others : List Placement} (perm : placements.Perm others)
    (apart : ∀ first ∈ placements, ∀ second ∈ placements, first ≠ second → first.Apart second)
    (target : Bytes) : ontoAll placements target = ontoAll others target := by
  apply perm.foldl_eq'
  intro first firstMember second secondMember between
  by_cases same : first = second
  · rw [same]
  · exact onto_comm (apart first firstMember second secondMember same) between

theorem place_eq_offsetRange_iff (placement : Placement) (target : Bytes) :
    (∃ offset size after, placement.place target = .error (.offsetRange offset size) after) ↔
      Size.limit ≤ placement.finish := by
  constructor
  · intro ranged
    obtain ⟨offset, size, after, refused⟩ := ranged
    cases patched : placement.patch with
    | ok packed => cases (place_of_ok patched target).symm.trans refused
    | error error =>
        cases (place_of_error patched target).symm.trans refused
        rcases patch_eq_error_iff.mp patched with ⟨large, _⟩ | ⟨_, rejected⟩
        · exact large
        · nomatch Layout.ofValues_of_pack_error placement.layout_exact rejected
  · intro large
    exact ⟨_, _, _, Layout.packInto_of_limit_le large target⟩

theorem eq_of_place_error {target after : Bytes}
    (failed : placement.place target = .error error after) : after = target := by
  cases patched : placement.patch with
  | ok packed => cases (place_of_ok patched target).symm.trans failed
  | error error =>
      cases (place_of_error patched target).symm.trans failed
      rfl

/-- A placement over any target either fails and leaves it alone or answers the size of its record.
After any placements the target reaches as far as it did or as the farthest of those that succeed,
and each byte is that of the last of them that covers it. -/
theorem placeAll_last_wins (placements : List Placement) (target : Bytes) :
    (∀ (placement : Placement) (before : Bytes),
      ((∃ offset size after, placement.place before = .error (.offsetRange offset size) after) ↔
        Size.limit ≤ placement.offset + placement.layout.size) ∧
      (Size.limit ≤ placement.offset + placement.layout.size →
        placement.place before =
          .error (.offsetRange placement.offset placement.layout.size) before) ∧
      (placement.offset + placement.layout.size < Size.limit →
        (∀ error, placement.layout.pack placement.values = .error error →
          placement.place before = .error error before) ∧
        ∀ packed, placement.layout.pack placement.values = .ok packed →
          placement.place before = .ok placement.layout.size (placement.onto before)) ∧
      ∀ error after, placement.place before = .error error after → after = before) ∧
    (placeAll placements target).1 =
      placements.map (fun placement =>
        placement.patch.map fun _ => placement.layout.size) ∧
    (placeAll placements target).2.length =
      (placements.filterMap finish?).foldl max target.length ∧
    (∀ (before later : List Placement) (placement : Placement) (packed : Bytes)
        (position : Nat),
      placements = before ++ placement :: later → placement.patch = .ok packed →
      placement.offset ≤ position → position < placement.offset + placement.layout.size →
      (∀ other ∈ later, ¬ other.Covers position) →
      (placeAll placements target).2[position]? = packed[position - placement.offset]?) ∧
    (∀ position, (∀ placement ∈ placements, ¬ placement.Covers position) →
      position < (placeAll placements target).2.length →
      (placeAll placements target).2[position]? = some (target[position]?.getD 0)) ∧
    ∀ others : List Placement, placements.Perm others →
      (∀ first ∈ placements, ∀ second ∈ placements, first ≠ second → first.Apart second) →
      (placeAll placements target).2 = (placeAll others target).2 := by
  rw [placeAll_eq]
  refine ⟨?_, rfl, length_ontoAll placements target, ?_, ?_, ?_⟩
  · intro placement before
    refine ⟨placement.place_eq_offsetRange_iff before,
      fun large => Layout.packInto_of_limit_le large before, ?_, fun _ _ => eq_of_place_error⟩
    intro small
    constructor
    · intro error rejected
      exact Layout.packInto_of_pack_error small rejected before
    · intro packed accepted
      exact place_of_ok (patch_eq_ok_iff.mpr ⟨small, accepted⟩) before
  · intro before later placement packed position split patched lower upper free
    subst split
    have covers : placement.Covers position := ⟨⟨packed, patched⟩, lower, upper⟩
    have inside := Nat.lt_of_lt_of_le upper (finish_le_length_ontoAll before later patched target)
    have insidePatch : position - placement.offset < packed.length := by
      rw [length_of_patch patched]
      omega
    rw [Bytes.getElem?_eq_cell inside, Bytes.getElem?_eq_cell insidePatch,
      cell_ontoAll_of_covers before patched covers free target]
  · intro position free inside
    rw [Bytes.getElem?_eq_cell inside, cell_ontoAll_of_not_covers free]
    rfl
  · intro others perm apart
    rw [placeAll_eq]
    exact ontoAll_perm perm apart target

/-- A record over the end of the target, one without values, and one across a part of the first. -/
example :
    (placeAll
      [⟨Layout.specimen, 2, [.bytes [97, 98], .float16 0x3C00, .bool true],
          ⟨_, Layout.compile_specimen⟩⟩,
        ⟨Layout.specimen, 0, [], ⟨_, Layout.compile_specimen⟩⟩,
        ⟨Layout.specimen, 4, [.bytes [99, 100], .float16 0, .bool false],
          ⟨_, Layout.compile_specimen⟩⟩] [7]) =
      ([.ok 5, .error (.arity 3 0), .ok 5], [7, 0, 97, 98, 99, 100, 0, 0, 0]) := by
  rfl

end Placement

end BinaryRecord
