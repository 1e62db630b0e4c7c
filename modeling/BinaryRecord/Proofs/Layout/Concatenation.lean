import BinaryRecord.Proofs.Format.Concatenation
import BinaryRecord.Proofs.Layout.Compilation

/-!
# Layouts in a row

The groups of a text stand behind those of the text in front of it, so sizes and numbers of values
add up, and a text that is repeated has the layout of its records in a row. Main statement:
`Layout.compile_append`.
-/

set_option autoImplicit false

-- Sums of natural numbers are the core library's, whatever else is in scope.
attribute [local instance (high)] Zero.ofOfNat0

namespace BinaryRecord

namespace Layout

variable {front back : String} {format : Format} {head tail whole : Layout}

theorem totals_append (free : Format.MarkerFree back.toList) (compiled : compile front = .ok head)
    (otherCompiled : compile back = .ok tail) :
    ((∃ whole, compile (front ++ back) = .ok whole) ↔ head.size + tail.size < Size.limit) ∧
      ∀ whole, compile (front ++ back) = .ok whole →
        whole.size = head.size + tail.size ∧
        whole.valueCount = head.valueCount + tail.valueCount := by
  obtain ⟨format, parsed, _, rfl⟩ := compile_eq_ok_iff.mp compiled
  obtain ⟨other, otherParsed, _, rfl⟩ := compile_eq_ok_iff.mp otherCompiled
  have joined := Format.parse_append_of_ok parsed free otherParsed
  constructor
  · rw [exists_compile_iff joined, Group.lengthSum_append]
  · intro whole wholeCompiled
    obtain ⟨_, rfl⟩ := format_of_compile joined wholeCompiled
    exact ⟨Group.lengthSum_append _ _, Group.valueSum_append _ _⟩

/-- A layout whose records are those of `head` with those of `tail` behind them. -/
structure Joins (head tail whole : Layout) : Prop where
  head_exact : head.Exact
  tail_exact : tail.Exact
  whole_exact : whole.Exact
  head_order : head.order = whole.order
  tail_order : tail.order = whole.order
  groups : whole.groups = head.groups ++ tail.groups

namespace Joins

theorem slots (joins : Joins head tail whole) : whole.slots = head.slots ++ tail.slots := by
  simp only [Layout.slots, joins.groups, List.flatMap_append]

theorem size (joins : Joins head tail whole) : whole.size = head.size + tail.size := by
  rw [joins.whole_exact.size, joins.head_exact.size, joins.tail_exact.size, joins.slots,
    List.map_append, List.sum_append]

theorem valueCount (joins : Joins head tail whole) :
    whole.valueCount = head.valueCount + tail.valueCount := by
  rw [joins.whole_exact.valueCount, joins.head_exact.valueCount, joins.tail_exact.valueCount,
    joins.slots, List.length_append]

end Joins

/-- The text behind another one has no marker of its own: its order is that of the text in front,
which is the order of every marker that could stand before it there. -/
theorem joins_of_compile {marker : String} (compiled : compile front = .ok head)
    (marked : head.order.Marked marker.toList) (otherCompiled : compile (marker ++ back) = .ok tail)
    (wholeCompiled : compile (front ++ back) = .ok whole) : Joins head tail whole := by
  have headExact := exact_of_compile compiled
  have tailExact := exact_of_compile otherCompiled
  have wholeExact := exact_of_compile wholeCompiled
  obtain ⟨format, parsed, _, rfl⟩ := compile_eq_ok_iff.mp compiled
  obtain ⟨joined, joinedParsed, _, rfl⟩ := compile_eq_ok_iff.mp wholeCompiled
  obtain ⟨other, otherParsed, _, rfl⟩ := compile_eq_ok_iff.mp otherCompiled
  rw [Format.parse_append parsed] at joinedParsed
  obtain ⟨groups, scanned, rfl⟩ := map_eq_ok_iff.mp joinedParsed
  obtain ⟨order, accepted⟩ := Format.scanGroups_of_parse_marked marked
    (Format.markerFree_of_scan scanned) otherParsed
  have again := Format.scan_of_scan front.length (Format.scanGroups_eq_ok_iff.mp accepted).1
  have same : groups = other.groups := Except.ok.inj (scanned.symm.trans again)
  exact ⟨headExact, tailExact, wholeExact, rfl, order, congrArg (format.groups ++ ·) same⟩

/-- Behind a format a text is read as it is alone. Its groups follow those of the format, its errors
move by the length of the format, and only blanks add nothing. A marker is misplaced there. -/
theorem compile_append (parsed : Format.parse front = .ok format) (back : String) :
    (Format.MarkerFree back.toList →
      (∀ other, Format.parse back = .ok other →
        Format.parse (front ++ back) = .ok ⟨format.order, format.groups ++ other.groups⟩) ∧
      (∀ head tail, compile front = .ok head → compile back = .ok tail →
        ((∃ whole, compile (front ++ back) = .ok whole) ↔ head.size + tail.size < Size.limit) ∧
        ∀ whole, compile (front ++ back) = .ok whole →
          whole.size = head.size + tail.size ∧
          whole.valueCount = head.valueCount + tail.valueCount) ∧
      ∀ error, Format.parse back = .error error → error ≠ .empty →
        Format.parse (front ++ back) = .error (error.shift front.length)) ∧
    (∀ (c : Char) (order : ByteOrder) (rest : List Char), back.toList = c :: rest →
      ByteOrder.ofMarker? c = some order →
        Format.parse (front ++ back) = .error (.misplacedOrder c front.length)) ∧
    ((∀ c ∈ back.toList, Text.isBlank c = true) →
      Format.parse (front ++ back) = Format.parse front) := by
  refine ⟨fun free => ⟨?_, ?_, ?_⟩, ?_, ?_⟩
  · intro other otherParsed
    exact Format.parse_append_of_ok parsed free otherParsed
  · intro head tail
    exact totals_append free
  · intro error
    exact Format.parse_append_of_error parsed free
  · intro c order rest
    exact Format.parse_append_of_marker parsed
  · intro blank
    rw [Format.parse_append_of_blank parsed blank, parsed]

/-- One text in front of groups, of a marker, of a letter that is no tag, and of blanks. -/
theorem compile_append_specimen :
    Format.parse ">2s" = .ok ⟨.big, [⟨2, .bytes, by decide⟩]⟩ ∧
      Format.parse (">2s" ++ "e?") = .ok specimen.format ∧
      (∃ whole, compile (">2s" ++ "e?") = .ok whole ∧ whole.size = 2 + 3 ∧
        whole.valueCount = 1 + 2) ∧
      Format.parse (">2s" ++ "<e") = .error (.misplacedOrder '<' 3) ∧
      Format.parse (">2s" ++ "e 7k") = .error (.badChar 'k' 6) ∧
      Format.parse (">2s" ++ " \t") = .ok ⟨.big, [⟨2, .bytes, by decide⟩]⟩ := by
  have parsed : Format.parse ">2s" = .ok ⟨.big, [⟨2, .bytes, by decide⟩]⟩ := rfl
  have compiled : compile ">2s" = .ok ⟨">2s", ⟨.big, [⟨2, .bytes, by decide⟩]⟩, 2, 1⟩ := rfl
  have otherCompiled : compile "e?" =
      .ok ⟨"e?", ⟨.little, [.single .half, .single .bool]⟩, 3, 2⟩ := rfl
  refine ⟨parsed, ?_, ?_, ?_, ?_, ?_⟩
  · exact ((compile_append parsed "e?").1 (by decide)).1 ⟨.little, [.single .half, .single .bool]⟩ rfl
  · obtain ⟨succeeds, totals⟩ :=
      ((compile_append parsed "e?").1 (by decide)).2.1 _ _ compiled otherCompiled
    obtain ⟨whole, wholeCompiled⟩ := succeeds.mpr (by decide)
    exact ⟨whole, wholeCompiled, totals whole wholeCompiled⟩
  · exact (compile_append parsed "<e").2.1 '<' .little ['e'] rfl rfl
  · exact ((compile_append parsed "e 7k").1 (by decide)).2.2 (.badChar 'k' 3) rfl nofun
  · refine (compile_append parsed " \t").2.2 fun c member => ?_
    obtain rfl | rfl : c = ' ' ∨ c = '\t' := by simpa using member
    · rfl
    · rfl

end Layout

end BinaryRecord
