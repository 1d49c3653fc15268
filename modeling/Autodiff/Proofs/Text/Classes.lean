import Autodiff.Text.Blank
import Autodiff.Text.Digit
import Autodiff.Text.Word

/-!
# Classes of characters

White space, decimal digits and word characters are tables of ranges. That no white space is a
digit or a word character is a fact about the tables: no range of one touches a range of the
other.

* `Ranges.Apart` compares two tables, `Ranges.Apart.not_contains` says what follows for a code
  point;
* `isDigit_of_isBlank` and `isWord_of_isBlank` are the two conclusions for white space.
-/

namespace Autodiff.Text

namespace Ranges

theorem exists_of_contains {ranges : Ranges} {n : Nat} (hContains : ranges.contains n = true) :
    ∃ range ∈ ranges, range.1 ≤ n ∧ n ≤ range.2 := by
  induction ranges with
  | nil => cases hContains
  | cons range rest ih =>
    obtain ⟨lo, hi⟩ := range
    by_cases hHi : n ≤ hi
    · rw [contains, if_pos hHi, decide_eq_true_eq] at hContains
      exact ⟨(lo, hi), List.mem_cons_self, hContains, hHi⟩
    · rw [contains, if_neg hHi] at hContains
      obtain ⟨range, hMem, hRange⟩ := ih hContains
      exact ⟨range, List.mem_cons_of_mem _ hMem, hRange⟩

/-- Every range of the one table lies before or behind every range of the other. -/
def Apart (ranges others : Ranges) : Prop :=
  ∀ range ∈ ranges, ∀ other ∈ others, range.2 < other.1 ∨ other.2 < range.1

instance (ranges others : Ranges) : Decidable (ranges.Apart others) :=
  inferInstanceAs (Decidable (∀ range ∈ ranges, ∀ other ∈ others,
    range.2 < other.1 ∨ other.2 < range.1))

theorem Apart.not_contains {ranges others : Ranges} (hApart : ranges.Apart others) {n : Nat}
    (hContains : ranges.contains n = true) : others.contains n = false := by
  refine Bool.eq_false_iff.2 fun hOther => ?_
  obtain ⟨range, hRange, hLo, hHi⟩ := exists_of_contains hContains
  obtain ⟨other, hMem, hLo', hHi'⟩ := exists_of_contains hOther
  rcases hApart range hRange other hMem with hBefore | hBehind <;> omega

end Ranges

theorem apart_blank_digit : blankRanges.Apart digitRanges := by decide +kernel

theorem apart_blank_alphanumeric : blankRanges.Apart alphanumericRanges := by decide +kernel

theorem isDigit_of_isBlank {c : Char} (hBlank : isBlank c = true) : isDigit c = false :=
  apart_blank_digit.not_contains hBlank

theorem isWord_of_isBlank {c : Char} (hBlank : isBlank c = true) : isWord c = false := by
  have hLine : c ≠ '_' := by
    rintro rfl
    exact absurd hBlank (by decide)
  rw [isWord, apart_blank_alphanumeric.not_contains hBlank, Bool.or_false, beq_eq_false_iff_ne]
  exact hLine

end Autodiff.Text
