import Mathlib.Tactic.FieldSimp
import Mathlib.Tactic.Ring
import Mathlib.Topology.Algebra.Order.Field

/-!
# Slopes in a field

The derivative of a function on a topological field, without a norm and without limits of
quotients. `HasSlope f g a` says that near `a` the function leaves its value at `a` with a
slope that is continuous at `a` and has the value `g` there. In this form the rules of
differentiation are identities between slopes.

* `HasSlope.add`, `HasSlope.mul`, `HasSlope.div` and `HasSlope.comp` are the rules for
  sums, products, quotients and compositions, `hasSlope_zpow` the one for integer powers;
* `HasSlope.linear_approximation` says that `g` is the derivative in the sense of bounds
  in an ordered field: the error of the linear approximation is at most any given multiple of the distance,
  close enough to `a`.
-/

namespace Autodiff

open Filter Topology

variable {K : Type} [Field K] [TopologicalSpace K]

/-- Near `a` the function differs from its value at `a` by a slope times the distance, and
the slope tends to its value `g` at `a`. -/
def HasSlope (f : K → K) (g a : K) : Prop :=
  ∃ slope : K → K, ContinuousAt slope a ∧ slope a = g ∧
    ∀ᶠ t in 𝓝 a, f t = f a + slope t * (t - a)

theorem hasSlope_const (c a : K) : HasSlope (fun _ => c) 0 a :=
  ⟨fun _ => 0, continuousAt_const, rfl, Eventually.of_forall fun t => by ring⟩

theorem hasSlope_id (a : K) : HasSlope (fun t => t) 1 a :=
  ⟨fun _ => 1, continuousAt_const, rfl, Eventually.of_forall fun t => by ring⟩

namespace HasSlope

variable {f h : K → K} {g k a : K}

/-- Only the values near the point count. -/
theorem congr (hf : HasSlope f g a) (hEq : ∀ᶠ t in 𝓝 a, h t = f t) : HasSlope h g a := by
  obtain ⟨slope, hSlope, hAt, hf⟩ := hf
  refine ⟨slope, hSlope, hAt, ?_⟩
  filter_upwards [hf, hEq] with t ht hEqt
  rw [hEqt, ht, hEq.self_of_nhds]

variable [IsTopologicalDivisionRing K]

theorem continuousAt (hf : HasSlope f g a) : ContinuousAt f a := by
  obtain ⟨slope, hSlope, -, hEq⟩ := hf
  have hLinear : ContinuousAt (fun t => f a + slope t * (t - a)) a :=
    continuousAt_const.add (hSlope.mul (continuousAt_id.sub continuousAt_const))
  exact hLinear.congr (hEq.mono fun t ht => ht.symm)

theorem eventually_ne [T1Space K] (hf : HasSlope f g a) (hNe : f a ≠ 0) : ∀ᶠ t in 𝓝 a, f t ≠ 0 :=
  hf.continuousAt.eventually_ne hNe

theorem add (hf : HasSlope f g a) (hh : HasSlope h k a) :
    HasSlope (fun t => f t + h t) (g + k) a := by
  obtain ⟨sf, hSf, rfl, hf⟩ := hf
  obtain ⟨sh, hSh, rfl, hh⟩ := hh
  refine ⟨fun t => sf t + sh t, hSf.add hSh, rfl, ?_⟩
  filter_upwards [hf, hh] with t hft hht
  rw [hft, hht]
  ring

theorem sub (hf : HasSlope f g a) (hh : HasSlope h k a) :
    HasSlope (fun t => f t - h t) (g - k) a := by
  obtain ⟨sf, hSf, rfl, hf⟩ := hf
  obtain ⟨sh, hSh, rfl, hh⟩ := hh
  refine ⟨fun t => sf t - sh t, hSf.sub hSh, rfl, ?_⟩
  filter_upwards [hf, hh] with t hft hht
  rw [hft, hht]
  ring

theorem neg (hf : HasSlope f g a) : HasSlope (fun t => -f t) (-g) a := by
  obtain ⟨sf, hSf, rfl, hf⟩ := hf
  refine ⟨fun t => -sf t, hSf.neg, rfl, ?_⟩
  filter_upwards [hf] with t hft
  rw [hft]
  ring

theorem mul (hf : HasSlope f g a) (hh : HasSlope h k a) :
    HasSlope (fun t => f t * h t) (g * h a + f a * k) a := by
  have hContinuous := hh.continuousAt
  obtain ⟨sf, hSf, rfl, hf⟩ := hf
  obtain ⟨sh, hSh, rfl, hh⟩ := hh
  refine ⟨fun t => sf t * h t + f a * sh t,
    (hSf.mul hContinuous).add (continuousAt_const.mul hSh), rfl, ?_⟩
  filter_upwards [hf, hh] with t hft hht
  rw [hft, hht]
  ring

theorem inv [T1Space K] (hh : HasSlope h k a) (hNe : h a ≠ 0) :
    HasSlope (fun t => (h t)⁻¹) (-k / (h a * h a)) a := by
  have hContinuous := hh.continuousAt
  have hAway := hh.eventually_ne hNe
  obtain ⟨sh, hSh, rfl, hh⟩ := hh
  refine ⟨fun t => -sh t / (h t * h a),
    hSh.neg.div (hContinuous.mul continuousAt_const) (mul_ne_zero hNe hNe), rfl, ?_⟩
  filter_upwards [hh, hAway] with t hht hNet
  have hDifference : sh t * (t - a) = h t - h a := by rw [hht]; ring
  have hSlope : -sh t / (h t * h a) * (t - a) = -(h t - h a) / (h t * h a) := by
    rw [← hDifference]
    ring
  rw [hSlope]
  field_simp
  ring

theorem div [T1Space K] (hf : HasSlope f g a) (hh : HasSlope h k a) (hNe : h a ≠ 0) :
    HasSlope (fun t => f t / h t) (g / h a - f a * k / (h a * h a)) a := by
  have hProduct := hf.mul (hh.inv hNe)
  have hSlope : g / h a - f a * k / (h a * h a) = g * (h a)⁻¹ + f a * (-k / (h a * h a)) := by
    ring
  rw [hSlope]
  exact hProduct.congr (Eventually.of_forall fun t => div_eq_mul_inv (f t) (h t))

theorem comp {outer : K → K} {c : K} (hOuter : HasSlope outer c (f a)) (hf : HasSlope f g a) :
    HasSlope (fun t => outer (f t)) (c * g) a := by
  have hContinuous := hf.continuousAt
  obtain ⟨so, hSo, rfl, hOuter⟩ := hOuter
  obtain ⟨sf, hSf, rfl, hf⟩ := hf
  refine ⟨fun t => so (f t) * sf t, (hSo.comp hContinuous).mul hSf, rfl, ?_⟩
  filter_upwards [hContinuous.eventually hOuter, hf] with t hOutert hft
  rw [hOutert, hft]
  ring

end HasSlope

/-! ## Powers -/

variable [IsTopologicalDivisionRing K]

theorem hasSlope_pow (n : ℕ) (a : K) : HasSlope (fun t => t ^ n) (n * a ^ (n - 1)) a := by
  induction n with
  | zero => simpa using hasSlope_const 1 a
  | succ m ih =>
    have hSlope : ((m + 1 : ℕ) : K) * a ^ (m + 1 - 1) = m * a ^ (m - 1) * a + a ^ m * 1 := by
      cases m with
      | zero => simp
      | succ l =>
        push_cast
        ring
    rw [hSlope]
    exact (ih.mul (hasSlope_id a)).congr (Eventually.of_forall fun t => pow_succ t m)

/-- An integer power, except for one below the first at zero. -/
theorem hasSlope_zpow [T1Space K] (n : ℤ) (a : K) (hDefined : a ≠ 0 ∨ 1 ≤ n) :
    HasSlope (fun t => t ^ n) (n * a ^ (n - 1)) a := by
  cases n with
  | ofNat m =>
    have hPower := hasSlope_pow m a
    have hSlope : ((Int.ofNat m : ℤ) : K) * a ^ ((Int.ofNat m : ℤ) - 1) = m * a ^ (m - 1) := by
      cases m with
      | zero => simp
      | succ l => simp [← zpow_natCast]
    rw [hSlope]
    exact hPower.congr (Eventually.of_forall fun t => zpow_natCast t m)
  | negSucc m =>
    have hNe : a ≠ 0 := by
      rcases hDefined with hNe | hPos
      · exact hNe
      · exact absurd hPos (by omega)
    have hInverse := (hasSlope_pow (m + 1) a).inv (pow_ne_zero (m + 1) hNe)
    have hSlope : ((Int.negSucc m : ℤ) : K) * a ^ (Int.negSucc m - 1) =
        -((m + 1 : ℕ) * a ^ (m + 1 - 1)) / (a ^ (m + 1) * a ^ (m + 1)) := by
      have hExponent : Int.negSucc m - 1 = -((m + 2 : ℕ) : ℤ) := by omega
      rw [hExponent, zpow_neg, zpow_natCast, Int.cast_negSucc, Nat.add_sub_cancel]
      field_simp
      ring
    rw [hSlope]
    exact hInverse.congr (Eventually.of_forall fun t => zpow_negSucc t m)

/-! ## Bounds -/

/-- Close to `a` the error of the linear approximation is at most any given multiple of
the distance. -/
theorem HasSlope.linear_approximation {K : Type} [Field K] [LinearOrder K]
    [IsStrictOrderedRing K] [TopologicalSpace K] [OrderTopology K] {f : K → K} {g a : K}
    (hf : HasSlope f g a) {ε : K} (hε : 0 < ε) : ∀ᶠ t in 𝓝 a, |f t - f a - g * (t - a)| ≤ ε * |t - a| := by
  obtain ⟨slope, hSlope, rfl, hEq⟩ := hf
  have hClose : ∀ᶠ t in 𝓝 a, |slope t - slope a| < ε :=
    LinearOrderedAddCommGroup.tendsto_nhds.1 hSlope ε hε
  filter_upwards [hEq, hClose] with t ht hCloset
  have hError : f t - f a - slope a * (t - a) = (slope t - slope a) * (t - a) := by
    rw [ht]
    ring
  rw [hError, abs_mul]
  exact mul_le_mul_of_nonneg_right hCloset.le (abs_nonneg _)

end Autodiff
