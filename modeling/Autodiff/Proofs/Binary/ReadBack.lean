import Autodiff.Proofs.Binary.Shortest
import Autodiff.Proofs.Syntax.Numbers

/-!
# Binary numbers read back

The text of a finite number without a minus sign is a numeral whose exact value lies in the
rounding interval of the number. So it is one token of the expression language, and reading it
gives the number back. The other way round, a text that begins with a digit or a point is read
as a number without a minus sign.

* `Binary.exists_written_layOut` says that digits laid out either way are a numeral with the value
  of the digits;
* `Binary.parse?_of_denotes` says that a number of a text is read by its exact value;
* `Binary.exists_written_text` says that the text of a number is a numeral;
* `Binary.isNumeral_text` and `Binary.parse?_text` are the two conclusions for the text of a
  number;
* `Binary.unsigned_of_parse?` says which numbers such texts are read as.
-/

namespace Autodiff.Binary

open Text Text.Numeral

variable {f : Format}

/-! ## Layouts -/

section

variable (c : Nat) (e : Int)

theorem digits_append {front back : List Char} (hFront : ∀ d ∈ front, d.isDigit = true)
    (hBack : ∀ d ∈ back, d.isDigit = true) : ∀ d ∈ front ++ back, d.isDigit = true :=
  fun d hMem => (List.mem_append.1 hMem).elim (hFront d) (hBack d)

theorem isDigit_of_mem_zero : ∀ d ∈ ['0'], d.isDigit = true := List.forall_mem_singleton.2 rfl

/-- Digits behind the point, after zeros. -/
theorem exists_written_below (hWhole : e + (digits c).length ≤ 0) :
    ∃ w : Written, w.chars = positional (digits c) (e + (digits c).length) ∧
      w.coefficient = c ∧ w.exponent = e := by
  have hNe : digits c ≠ [] := Nat.toDigits_ne_nil
  refine ⟨⟨['0'], zeros (-(e + (digits c).length)).toNat ++ digits c, none, by simp,
    isDigit_of_mem_zero, digits_append (fun _ => isDigit_of_mem_zeros)
      (fun _ => isDigit_of_mem_digits), by simp⟩, ?_, ?_⟩
  · rw [positional, if_pos hWhole]
    simp [Written.chars, Written.fractionChars, Written.powerChars, hNe]
  · have hZero : ofDigits ['0'] = 0 := ofDigits_zeros 1
    constructor
    · rw [Written.coefficient, ofDigits_append, ofDigits_append, ofDigits_zeros, ofDigits_digits,
        hZero, Nat.mul_zero, Nat.mul_zero, Nat.zero_add, Nat.zero_add]
    · simp only [Written.exponent, Written.writtenPower, List.length_append, zeros,
        List.length_replicate]
      omega

/-- Digits before the point, with zeros after them. -/
theorem exists_written_whole (hNonneg : 0 ≤ e) :
    ∃ w : Written,
      w.chars = positional (digits c) (e + (digits c).length) ∧
      (w.coefficient * 10 ^ w.exponent : ℚ) = c * 10 ^ e := by
  have hNe : digits c ≠ [] := Nat.toDigits_ne_nil
  have hWhole : ¬ e + (digits c).length ≤ 0 := by
    have := List.length_pos_iff.2 hNe
    omega
  have hTake : (digits c).take (e + (digits c).length).toNat = digits c :=
    List.take_of_length_le (by omega)
  have hDrop : (digits c).drop (e + (digits c).length).toNat = [] :=
    List.drop_of_length_le (by omega)
  have hZeros : (e + (digits c).length).toNat - (digits c).length = e.toNat := by omega
  refine ⟨⟨digits c ++ zeros e.toNat, ['0'], none, by simp [hNe],
    digits_append (fun _ => isDigit_of_mem_digits) (fun _ => isDigit_of_mem_zeros),
    isDigit_of_mem_zero, by simp⟩, ?_, ?_⟩
  · rw [positional, if_neg hWhole]
    simp [Written.chars, Written.fractionChars, Written.powerChars, hTake, hDrop, hZeros]
  · have hZero : ofDigits ['0'] = 0 := ofDigits_zeros 1
    have hCoefficient :
        ofDigits (digits c ++ zeros e.toNat ++ ['0']) = c * 10 ^ e.toNat * 10 := by
      rw [ofDigits_append, ofDigits_append, ofDigits_zeros, ofDigits_digits, hZero, zeros,
        List.length_replicate, List.length_singleton]
      ring
    have hPower : (10 : ℚ) ^ e.toNat = 10 ^ e := by
      rw [← zpow_natCast, Int.toNat_of_nonneg hNonneg]
    have hExponent : (0 : Int) - (['0'] : List Char).length = -1 := rfl
    simp only [Written.coefficient, Written.exponent, Written.writtenPower, hCoefficient,
      hExponent, Nat.cast_mul, Nat.cast_pow, Nat.cast_ofNat, hPower]
    rw [zpow_neg_one, mul_assoc, mul_inv_cancel₀ (by decide), mul_one]

/-- Digits with a point among them. -/
theorem exists_written_split (hNegative : e < 0) (hWhole : 0 < e + (digits c).length) :
    ∃ w : Written, w.chars = positional (digits c) (e + (digits c).length) ∧
      w.coefficient = c ∧ w.exponent = e := by
  have hDigits : ∀ d ∈ digits c, d.isDigit = true := fun _ => isDigit_of_mem_digits
  have hNe : digits c ≠ [] := Nat.toDigits_ne_nil
  have hDrop : (digits c).drop (e + (digits c).length).toNat ≠ [] :=
    fun hNil => absurd (List.drop_eq_nil_iff.1 hNil) (by omega)
  have hZeros : (e + (digits c).length).toNat - (digits c).length = 0 := by omega
  refine ⟨⟨(digits c).take (e + (digits c).length).toNat,
    (digits c).drop (e + (digits c).length).toNat, none, ?_,
    fun d hMem => hDigits d (List.mem_of_mem_take hMem),
    fun d hMem => hDigits d (List.mem_of_mem_drop hMem), by simp⟩, ?_, ?_⟩
  · exact fun hNil => absurd (List.take_eq_nil_iff.1 hNil) (by simp [hNe]; omega)
  · rw [positional, if_neg (not_le.2 hWhole)]
    simp [Written.chars, Written.fractionChars, Written.powerChars, hDrop, hZeros, zeros]
  · constructor
    · rw [Written.coefficient, List.take_append_drop, ofDigits_digits]
    · simp only [Written.exponent, Written.writtenPower, List.length_drop]
      omega

/-- Digits with digits behind the point keep their coefficient and their exponent. -/
theorem exists_written_fraction (hNegative : e < 0) :
    ∃ w : Written, w.chars = positional (digits c) (e + (digits c).length) ∧
      w.coefficient = c ∧ w.exponent = e := by
  rcases le_or_gt (e + (digits c).length) 0 with hWhole | hWhole
  · exact exists_written_below c e hWhole
  · exact exists_written_split c e hNegative hWhole

theorem exists_written_positional :
    ∃ w : Written,
      w.chars = positional (digits c) (e + (digits c).length) ∧
      (w.coefficient * 10 ^ w.exponent : ℚ) = c * 10 ^ e := by
  rcases le_or_gt 0 e with hNonneg | hNegative
  · exact exists_written_whole c e hNonneg
  · obtain ⟨w, hChars, hCoefficient, hExponent⟩ := exists_written_fraction c e hNegative
    exact ⟨w, hChars, by rw [hCoefficient, hExponent]⟩

/-- Digits with a point after the first of them, if there are more, and a power of ten. -/
theorem exists_written_scientific (layout : Layout) :
    ∃ w : Written,
      w.chars = scientific layout (digits c) (e + (digits c).length - 1) ∧
      (w.coefficient * 10 ^ w.exponent : ℚ) = c * 10 ^ e := by
  obtain ⟨first, rest, hCons⟩ : ∃ first rest, digits c = first :: rest :=
    List.exists_cons_of_ne_nil Nat.toDigits_ne_nil
  have hDigits : ∀ d ∈ first :: rest, d.isDigit = true :=
    hCons ▸ fun _ => isDigit_of_mem_digits
  set leading := e + (digits c).length - 1 with hLeading
  have hPower : digits leading.natAbs ≠ [] := Nat.toDigits_ne_nil
  refine ⟨⟨[first], rest, some (decide (leading < 0),
    zeros (layout.exponentWidth - (digits leading.natAbs).length) ++ digits leading.natAbs),
    by simp, ?_, fun d hMem => hDigits d (List.mem_cons_of_mem first hMem), ?_⟩, ?_, ?_⟩
  · intro d hMem
    obtain rfl := List.mem_singleton.1 hMem
    exact hDigits d List.mem_cons_self
  · intro part hPart
    obtain rfl := Option.mem_some_iff.1 hPart
    exact ⟨by simp [hPower],
      digits_append (fun _ => isDigit_of_mem_zeros) (fun _ => isDigit_of_mem_digits)⟩
  · have hText : scientific layout (digits c) leading = scientific layout (first :: rest) leading :=
      congrArg (fun run => scientific layout run leading) hCons
    rw [hText]
    cases rest <;>
      simp [Written.chars, Written.fractionChars, Written.powerChars, scientific]
  · have hCoefficient : ofDigits ([first] ++ rest) = c := by
      rw [List.singleton_append, ← hCons, ofDigits_digits]
    have hWritten : (if decide (leading < 0) = true then
        -((ofDigits (zeros (layout.exponentWidth - (digits leading.natAbs).length) ++
          digits leading.natAbs) : Nat) : Int)
        else (ofDigits (zeros (layout.exponentWidth - (digits leading.natAbs).length) ++
          digits leading.natAbs) : Nat)) = leading := by
      rw [ofDigits_append, ofDigits_zeros, ofDigits_digits, Nat.mul_zero, Nat.zero_add]
      by_cases hNegative : leading < 0
      · rw [decide_eq_true hNegative, if_pos rfl]
        omega
      · rw [decide_eq_false hNegative, if_neg Bool.false_ne_true]
        omega
    have hLength : leading - rest.length = e := by
      rw [hLeading, hCons, List.length_cons]
      push_cast
      ring
    simp only [Written.coefficient, Written.exponent, Written.writtenPower, hCoefficient, hWritten,
      hLength]

/-- Digits laid out either way are a numeral with the value of the digits. -/
theorem exists_written_layOut (layout : Layout) (value : Ratio) :
    ∃ w : Written,
      w.chars = layOut layout value (digits c) (e + (digits c).length - 1) ∧
      (w.coefficient * 10 ^ w.exponent : ℚ) = c * 10 ^ e := by
  unfold layOut
  split
  · rw [sub_add_cancel]
    exact exists_written_positional c e
  · exact exists_written_scientific c e layout

end

/-! ## Reading a numeral -/

/-- A text without low lines is not changed. -/
theorem joinDigits?_eq {previous : Option Char} (hPrevious : previous ≠ some '_')
    {chars : List Char} (hChars : '_' ∉ chars) : joinDigits? previous chars = some chars := by
  induction chars generalizing previous with
  | nil => rw [joinDigits?, if_neg hPrevious]
  | cons c rest ih =>
    rw [List.mem_cons, not_or] at hChars
    have hNe : c ≠ '_' := fun h => hChars.1 h.symm
    have hRest : joinDigits? (some c) rest = some rest :=
      ih (fun h => hNe (Option.some.inj h)) hChars.2
    rw [joinDigits?]
    simp [hNe, hPrevious, hRest]

/-- A number of the expression language is read by its exact value. -/
theorem parse?_of_denotes (f : Format) {word : List Char} {numeral : Numeral}
    (h : Syntax.Denotes word numeral) :
    parse? f (String.ofList word) =
      some (ofDecimal f false numeral.coefficient numeral.exponent) := by
  have hTrim : trim isPadding word = word := trim_eq_self fun c hMem => by
    rw [isPadding, Syntax.Lexeme.isBlank_of_mem_number h.mem_number c hMem, Bool.false_and]
  have hJoined : joinDigits? none word = some word :=
    joinDigits?_eq (by decide) (Syntax.Lexeme.lowLine_notMem_of_mem_number h.mem_number)
  simp only [parse?, String.toList_ofList, hTrim, hJoined, Option.bind_eq_bind, Option.bind_some,
    Syntax.Lexeme.splitSign_of_mem_number h.mem_number, parseUnsigned?, h.parse]

/-! ## The text of a number -/

/-- A finite number without a minus sign is written as a numeral. It has the value of the shortest
digits that read back, except that zero has no such digits. -/
theorem exists_written_text {m : Nat} {q : Int} (hCanonical : f.Canonical m q) :
    ∃ w : Written, (finite false m q hCanonical).text = String.ofList w.chars ∧
      if m = 0 then w.coefficient = 0
      else (w.coefficient * 10 ^ w.exponent : ℚ) =
        (shortest f m q).1 * 10 ^ (shortest f m q).2 := by
  rw [text, chars]
  split
  · exact ⟨⟨['0'], ['0'], none, by simp, isDigit_of_mem_zero, isDigit_of_mem_zero, by simp⟩,
      rfl, rfl⟩
  · obtain ⟨w, hChars, hValue⟩ := exists_written_layOut (shortest f m q).1 (shortest f m q).2
      defaultLayout (Ratio.ofBinary m q)
    exact ⟨w, congrArg String.ofList hChars.symm, hValue⟩

/-- The text of a finite number without a minus sign is one number of the expression language. -/
theorem isNumeral_text {m : Nat} {q : Int} (hCanonical : f.Canonical m q) :
    Syntax.IsNumeral (finite false m q hCanonical).text := by
  obtain ⟨w, hText, -⟩ := exists_written_text hCanonical
  rw [hText]
  exact w.denotes.isNumeral

theorem text_negative {m : Nat} {q : Int} (hCanonical : f.Canonical m q) :
    (finite true m q hCanonical).text = "-" ++ (finite false m q hCanonical).text := by
  have hChars :
      (finite true m q hCanonical).chars = ['-'] ++ (finite false m q hCanonical).chars := by
    simp only [chars]
    split <;> rfl
  rw [text, hChars, String.ofList_append]
  rfl

/-- The text of a finite number without a minus sign is read as the number. -/
theorem parse?_text (hUnits : f.HasUnits) (hTold : f.Told) {m : Nat} {q : Int}
    (hCanonical : f.Canonical m q) :
    parse? f (finite false m q hCanonical).text = some (finite false m q hCanonical) := by
  obtain ⟨w, hText, hValue⟩ := exists_written_text hCanonical
  rw [hText, parse?_of_denotes f w.denotes]
  refine congrArg some ?_
  split at hValue
  · next hZero =>
    obtain rfl := hZero
    obtain hNormal | rfl := hCanonical.2.2.2
    · exact absurd hNormal (not_le.2 (Nat.pow_pos (by decide)))
    · rw [ofDecimal, if_pos hValue, zero, pack, dif_pos hCanonical]
  · next hNe =>
    have hPos : 0 < m := Nat.pos_of_ne_zero hNe
    have hContains := contains_shortest (q := q) hTold hPos hCanonical.1
    exact ofDecimal_eq_of_contains hUnits false hPos hCanonical (hValue ▸ hContains)

/-! ## Texts without a minus sign -/

/-- A finite number or infinity without a minus sign. -/
def Unsigned : Binary f → Prop
  | nan => False
  | infinite negative => negative = false
  | finite negative _ _ _ => negative = false

theorem unsigned_pack (m : Nat) (q : Int) : (pack f false m q).Unsigned := by
  unfold pack
  split <;> rfl

theorem unsigned_ofQuotient (num den : Nat) (e : Int) :
    (ofQuotient f false num den e).Unsigned := by
  unfold ofQuotient
  split
  · exact unsigned_pack 0 f.minExp
  · dsimp only
    split <;> exact unsigned_pack _ _

theorem unsigned_ofDecimal (c : Nat) (e : Int) : (ofDecimal f false c e).Unsigned := by
  unfold ofDecimal
  split
  · exact unsigned_pack 0 f.minExp
  · dsimp only
    split
    · rfl
    · split
      · exact unsigned_pack 0 f.minExp
      · exact unsigned_ofQuotient _ _ 0

theorem exists_trim_eq_cons {drop : Char → Bool} {c : Char} (hKept : drop c = false)
    (rest : List Char) : ∃ more, trim drop (c :: rest) = c :: more := by
  have hFront : (c :: rest).dropWhile drop = c :: rest :=
    List.dropWhile_cons_of_neg (by simp [hKept])
  have hBack : (rest.reverse ++ [c]).dropWhile drop = rest.reverse.dropWhile drop ++ [c] := by
    rw [List.dropWhile_append]
    split
    · next hNil => simp [List.isEmpty_iff.1 hNil, hKept]
    · rfl
  exact ⟨(rest.reverse.dropWhile drop).reverse, by
    rw [trim, hFront, List.reverse_cons, hBack, List.reverse_append]; rfl⟩

theorem toLower_ne_n {c : Char} (hFirst : isDigit c = true ∨ c = '.') : c.toLower ≠ 'n' := by
  rcases hFirst with hDigit | rfl
  · intro hLower
    have hLetter : 0x39 < c.toNat ∧ c.toNat < 0x660 := by
      unfold Char.toLower at hLower
      split at hLower
      · next hUpper =>
        obtain ⟨hLo, hHi⟩ := hUpper
        have hLo' : 65 ≤ c.toNat := hLo
        have hHi' : c.toNat ≤ 90 := hHi
        omega
      · subst hLower
        decide
    rw [Syntax.isDigit_eq_false hLetter.1 hLetter.2] at hDigit
    cases hDigit
  · decide

/-- A text that begins with a digit or a point is read as a number without a minus sign. -/
theorem unsigned_of_parse? {source : String} {c : Char} {rest : List Char}
    (hText : source.toList = c :: rest) (hFirst : isDigit c = true ∨ c = '.')
    (hBlank : isBlank c = false) {x : Binary f} (hRead : parse? f source = some x) :
    x.Unsigned := by
  have hNe (d : Char) (hDigit : isDigit d = false) (hPoint : d ≠ '.') : c ≠ d := by
    rintro rfl
    rcases hFirst with hTrue | hEq
    · exact absurd (hTrue.symm.trans hDigit) (by decide)
    · exact hPoint hEq
  have hKept : isPadding c = false := by rw [isPadding, hBlank, Bool.false_and]
  obtain ⟨more, hTrim⟩ := exists_trim_eq_cons hKept rest
  simp only [parse?, hText, hTrim, Option.bind_eq_bind, Option.bind_eq_some_iff] at hRead
  obtain ⟨joined, hJoined, hRead⟩ := hRead
  obtain ⟨run, -, rfl⟩ : ∃ run, joinDigits? (some c) more = some run ∧ c :: run = joined := by
    simpa [joinDigits?, hNe '_' (by decide) (by decide)] using hJoined
  have hSign : splitSign (c :: run) = (false, c :: run) :=
    splitSign_cons (hNe '-' (by decide) (by decide)) (hNe '+' (by decide) (by decide)) run
  rw [hSign] at hRead
  simp only [parseUnsigned?] at hRead
  split at hRead
  · cases hRead
    exact unsigned_ofDecimal _ _
  · split at hRead
    · cases hRead
      rfl
    · split at hRead
      · next hWord =>
        have hHead : (lowerCase (c :: run)).head? = some 'n' := by
          have := congrArg String.toList hWord
          rw [String.toList_ofList] at this
          rw [this]
          rfl
        exact absurd (Option.some.inj hHead) (toLower_ne_n hFirst)
      · cases hRead

end Autodiff.Binary
