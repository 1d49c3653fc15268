/-!
# Sets of characters as ranges

A set of characters is a list of ranges of code points, both ends included, in
ascending order.

* `Ranges.contains_iff` says that in an ascending list the search finds a code point
  exactly if some range holds it.
-/

namespace Autodiff.Text

/-- Ranges of code points, from first to last. -/
abbrev Ranges := List (Nat × Nat)

namespace Ranges

/-- The ranges follow each other without touching the one before. -/
def Ascending : Ranges → Prop
  | [] => True
  | [(lo, hi)] => lo ≤ hi
  | (lo, hi) :: (lo', hi') :: rest =>
    lo ≤ hi ∧ hi < lo' ∧ Ascending ((lo', hi') :: rest)

/-- The first range that ends at the code point or after it decides. -/
def contains : Ranges → Nat → Bool
  | [], _ => false
  | (lo, hi) :: rest, n => if n ≤ hi then decide (lo ≤ n) else contains rest n

/-- The start of the range that holds the code point. -/
def start? : Ranges → Nat → Option Nat
  | [], _ => none
  | (lo, hi) :: rest, n => if n ≤ hi then (if lo ≤ n then some lo else none) else start? rest n

theorem start?_isSome (ranges : Ranges) (n : Nat) :
    (ranges.start? n).isSome = ranges.contains n := by
  induction ranges with
  | nil => rfl
  | cons range rest ih =>
    obtain ⟨lo, hi⟩ := range
    by_cases hHi : n ≤ hi
    · by_cases hLo : lo ≤ n <;> simp [start?, contains, hHi, hLo]
    · simpa [start?, contains, hHi] using ih

theorem Ascending.tail {range : Nat × Nat} {rest : Ranges} (h : Ascending (range :: rest)) :
    Ascending rest := by
  cases rest with
  | nil => trivial
  | cons => exact h.2.2

theorem Ascending.lt_of_mem {range : Nat × Nat} {rest : Ranges}
    (h : Ascending (range :: rest)) : ∀ later ∈ rest, range.2 < later.1 := by
  induction rest generalizing range with
  | nil => intro later hLater; cases hLater
  | cons next rest ih =>
    intro later hLater
    rcases List.mem_cons.1 hLater with rfl | hRest
    · exact h.2.1
    · have hNext : next.1 ≤ next.2 := by
        cases rest with
        | nil => exact h.2.2
        | cons => exact h.2.2.1
      have := ih h.2.2 later hRest
      have := h.2.1
      omega

/-- In an ascending list a code point is found exactly if some range holds it. -/
theorem contains_iff {ranges : Ranges} (hAscending : ranges.Ascending) (n : Nat) :
    ranges.contains n = true ↔ ∃ range ∈ ranges, range.1 ≤ n ∧ n ≤ range.2 := by
  induction ranges with
  | nil => simp [contains]
  | cons range rest ih =>
    have hLater := hAscending.lt_of_mem
    obtain ⟨lo, hi⟩ := range
    by_cases hHi : n ≤ hi
    · simp only [contains, if_pos hHi, decide_eq_true_eq, List.mem_cons, exists_eq_or_imp]
      refine ⟨fun hLo => Or.inl ⟨hLo, hHi⟩, ?_⟩
      rintro (h | ⟨later, hMem, hRange⟩)
      · exact h.1
      · have := hLater later hMem
        simp only at this
        omega
    · simp only [contains, if_neg hHi, List.mem_cons, exists_eq_or_imp]
      rw [ih hAscending.tail]
      refine ⟨Or.inr, ?_⟩
      rintro (h | h)
      · exact absurd h.2 hHi
      · exact h

end Ranges

end Autodiff.Text
