/-!
# Rounding quotients

`halfEven n d` is the natural number nearest to `n / d`; halfway between two of them it
is the even one.

* `halfEven_mul_left` says that an exact quotient is not changed;
* `div_le_halfEven` says that the result is not below the quotient rounded down.
-/

namespace Autodiff

/-- The natural number nearest to a quotient, the even one of two equally near. -/
def halfEven (n d : Nat) : Nat :=
  let below := n / d
  let rest := n % d
  if 2 * rest < d then below
  else if d < 2 * rest then below + 1
  else below + below % 2

theorem div_le_halfEven (n d : Nat) : n / d ≤ halfEven n d := by
  unfold halfEven
  simp only
  split
  · exact Nat.le_refl _
  · split
    · exact Nat.le_succ _
    · exact Nat.le_add_right _ _

theorem halfEven_mul_left (k : Nat) {d : Nat} (hPos : 0 < d) : halfEven (d * k) d = k := by
  simp [halfEven, Nat.mul_div_cancel_left k hPos, hPos]

end Autodiff
