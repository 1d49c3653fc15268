import Autodiff.Text.Numeral
import Mathlib.Data.List.Basic
import Mathlib.Tactic.Ring

/-!
# Digits and the numbers they write

* `digitCount_le_iff` says how many digits a number has, and `pow_digitCount_le` and
  `lt_pow_digitCount` place the number between two powers of ten;
* `ofDigits_append` says what a run of digits writes that consists of two runs, and
  `ofDigits_digits` that the digits of a number write the number;
* `exists_digits_div_pow` splits off the last digits of a number.
-/

namespace Autodiff.Text

/-! ## Counting digits -/

theorem digitCount_pos (n : Nat) : 0 < digitCount n := Nat.length_toDigits_pos

theorem digitCount_le_iff {n k : Nat} (hPos : 0 < k) : digitCount n ≤ k ↔ n < 10 ^ k :=
  Nat.length_toDigits_le_iff (by decide) hPos

theorem lt_pow_digitCount (n : Nat) : n < 10 ^ digitCount n :=
  (digitCount_le_iff (digitCount_pos n)).1 (Nat.le_refl _)

theorem pow_digitCount_le {n : Nat} (hPos : 0 < n) : 10 ^ (digitCount n - 1) ≤ n := by
  rcases Nat.eq_zero_or_pos (digitCount n - 1) with hOne | hMore
  · rw [hOne]
    exact hPos
  · refine Nat.le_of_not_lt fun hLt => ?_
    have hLe := (digitCount_le_iff hMore).2 hLt
    omega

/-! ## Digits of the ASCII range -/

theorem toNat_of_isDigit {c : Char} (hDigit : c.isDigit = true) :
    0x30 ≤ c.toNat ∧ c.toNat ≤ 0x39 :=
  Char.isDigit_iff_toNat.1 hDigit

theorem isDigit_of_ascii {c : Char} (hDigit : c.isDigit = true) : isDigit c = true := by
  obtain ⟨hLo, hHi⟩ := toNat_of_isDigit hDigit
  rw [isDigit, digitRanges, Ranges.contains, if_pos hHi, decide_eq_true hLo]

theorem digitValue?_of_ascii {c : Char} (hDigit : c.isDigit = true) :
    digitValue? c = some (c.toNat - '0'.toNat) := by
  obtain ⟨hLo, hHi⟩ := toNat_of_isDigit hDigit
  rw [digitValue?, digitRanges, Ranges.start?, if_pos hHi, if_pos hLo, Option.map_some,
    Nat.mod_eq_of_lt (by omega)]
  rfl

theorem isDigit_of_mem_digits {n : Nat} {c : Char} (hMem : c ∈ digits n) : c.isDigit = true :=
  Nat.isDigit_of_mem_toDigits (by decide) (by decide) hMem

theorem isDigit_of_mem_zeros {count : Nat} {c : Char} (hMem : c ∈ zeros count) :
    c.isDigit = true := by
  rw [List.eq_of_mem_replicate hMem]
  rfl

/-! ## The number written -/

theorem foldl_digits (value : Char → Nat) (chars : List Char) (start : Nat) :
    chars.foldl (fun n c => 10 * n + value c) start =
      10 ^ chars.length * start + chars.foldl (fun n c => 10 * n + value c) 0 := by
  induction chars generalizing start with
  | nil => simp
  | cons c chars ih =>
    rw [List.foldl_cons, List.foldl_cons, ih, ih (10 * 0 + value c), List.length_cons]
    ring

theorem ofDigits_append (front back : List Char) :
    ofDigits (front ++ back) = 10 ^ back.length * ofDigits front + ofDigits back := by
  unfold ofDigits
  rw [List.foldl_append]
  exact foldl_digits _ back _

theorem ofDigits_zeros (count : Nat) : ofDigits (zeros count) = 0 := by
  induction count with
  | zero => rfl
  | succ count ih =>
    have hCons : zeros (count + 1) = ['0'] ++ zeros count := rfl
    rw [hCons, ofDigits_append, ih]
    simp [ofDigits, digitValue?_of_ascii]

theorem ofDigits_eq_ofDigitChars {chars : List Char} (hDigits : ∀ c ∈ chars, c.isDigit = true) :
    ofDigits chars = Nat.ofDigitChars 10 chars 0 := by
  unfold ofDigits
  rw [Nat.ofDigitChars_eq_foldl]
  refine List.foldl_ext _ _ _ fun n c hMem => ?_
  rw [digitValue?_of_ascii (hDigits c hMem), Option.getD_some]

/-- Filled up with zeros to more than a number of places, the digits of a number are those of a
quotient and as many more as there are places. -/
theorem exists_digits_div_pow (n places : Nat) :
    ∃ last, zeros (places + 1 - digitCount n) ++ digits n = digits (n / 10 ^ places) ++ last ∧
      last.length = places := by
  induction places generalizing n with
  | zero =>
    have hNone : 0 + 1 - digitCount n = 0 := by
      have := digitCount_pos n
      omega
    refine ⟨[], ?_, rfl⟩
    rw [hNone, pow_zero, Nat.div_one, List.append_nil]
    rfl
  | succ places ih =>
    obtain ⟨last, hLast, hLength⟩ := ih (n / 10)
    -- the last digit stands behind those of the tenth part
    have hStep : zeros (places + 1 + 1 - digitCount n) ++ digits n =
        zeros (places + 1 - digitCount (n / 10)) ++ digits (n / 10) ++
          [Nat.digitChar (n % 10)] := by
      by_cases hSmall : n < 10
      · have hDigit : digits n = [Nat.digitChar (n % 10)] := by
          rw [Nat.mod_eq_of_lt hSmall]
          exact Nat.toDigits_of_lt_base hSmall
        have hZero : digits (n / 10) = ['0'] := by
          rw [Nat.div_eq_of_lt hSmall]
          rfl
        rw [digitCount, digitCount, hDigit, hZero]
        exact congrArg (· ++ _) List.replicate_succ'
      · have hDigits : digits n = digits (n / 10) ++ [Nat.digitChar (n % 10)] :=
          Nat.toDigits_of_base_le (by decide) (by omega)
        rw [digitCount, hDigits, List.length_append, List.length_singleton, Nat.add_sub_add_right,
          ← List.append_assoc]
        rfl
    refine ⟨last ++ [Nat.digitChar (n % 10)], ?_, by rw [List.length_append, hLength]; rfl⟩
    rw [hStep, hLast, List.append_assoc, Nat.div_div_eq_div_mul, Nat.pow_succ']

/-- The digits of a number write the number. -/
theorem ofDigits_digits (n : Nat) : ofDigits (digits n) = n := by
  rw [ofDigits_eq_ofDigitChars fun c hMem => isDigit_of_mem_digits hMem]
  exact Nat.ofDigitChars_ten_toDigits

theorem natText_inj {m n : Nat} : natText m = natText n ↔ m = n := by
  refine ⟨fun hText => ?_, congrArg natText⟩
  have hDigits : digits m = digits n := String.ofList_injective hText
  rw [← ofDigits_digits m, hDigits, ofDigits_digits]

end Autodiff.Text
