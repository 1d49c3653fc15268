import Autodiff.Proofs.Outcome
import Autodiff.Syntax.Lexer
import Mathlib.Data.List.TakeWhile

/-!
# Scanning

The first token of a text is found by looking no further than one character past its end.
So a text can be cut wherever the character after the cut can belong to no token before it,
and then its tokens are those of the two parts.

* `Boundary` names these characters, `Stops` the texts that begin with one;
* `numberLength_append`, `nameLength_append` and `symbol?_append` say that the lengths of
  words do not depend on what follows, `Token.first?_append` that the first token does not;
* `tokenizeFrom_append` is the law for whole texts, and `tokenizeFrom_add` moves the position at
  which a text begins;
* `Lexes` are the texts in tokens, with one lemma for each way to build them.
-/

namespace Autodiff.Syntax

open Text

/-- No token goes on with the character. -/
structure Boundary (c : Char) : Prop where
  not_word : isWord c = false
  not_digit : isDigit c = false
  ne_point : c ≠ '.'
  ne_plus : c ≠ '+'
  ne_minus : c ≠ '-'
  ne_times : c ≠ '*'

/-- No token before the text goes on with it. -/
def Stops (rest : List Char) : Prop := ∀ c ∈ rest.head?, Boundary c

theorem Boundary.stops {c : Char} (h : Boundary c) (rest : List Char) : Stops (c :: rest) := by
  intro d hd
  cases hd
  exact h

instance (c : Char) : Decidable (Boundary c) :=
  decidable_of_iff (isWord c = false ∧ isDigit c = false ∧ c ≠ '.' ∧ c ≠ '+' ∧ c ≠ '-' ∧ c ≠ '*')
    ⟨fun ⟨hWord, hDigit, hPoint, hPlus, hMinus, hTimes⟩ =>
        ⟨hWord, hDigit, hPoint, hPlus, hMinus, hTimes⟩,
      fun h => ⟨h.not_word, h.not_digit, h.ne_point, h.ne_plus, h.ne_minus, h.ne_times⟩⟩

theorem boundary_space : Boundary ' ' := by decide

theorem boundary_opening : Boundary '(' := by decide

theorem boundary_closing : Boundary ')' := by decide

section

variable {rest : List Char}

/-! ## Lengths of words -/

theorem takeWhile_append_of_head {p : Char → Bool} (hRest : ∀ c ∈ rest.head?, p c = false)
    (chars : List Char) : (chars ++ rest).takeWhile p = chars.takeWhile p := by
  induction chars with
  | nil =>
    cases rest with
    | nil => rfl
    | cons c rest => simp [hRest c rfl]
  | cons c chars ih => simp only [List.cons_append, List.takeWhile_cons, ih]

theorem digitsLength_append (hRest : Stops rest) (chars : List Char) :
    digitsLength (chars ++ rest) = digitsLength chars := by
  unfold digitsLength
  rw [takeWhile_append_of_head fun c hc => (hRest c hc).not_digit]

theorem digitsLength_le (chars : List Char) : digitsLength chars ≤ chars.length :=
  (List.takeWhile_prefix isDigit).length_le

theorem mantissaLength_append (hRest : Stops rest) (chars : List Char) :
    mantissaLength (chars ++ rest) = mantissaLength chars := by
  unfold mantissaLength
  simp only [digitsLength_append hRest, List.drop_append_of_le_length (digitsLength_le chars)]
  cases hTail : chars.drop (digitsLength chars) with
  | nil =>
    cases rest with
    | nil => rfl
    | cons c rest =>
      have hPoint : c ≠ '.' := (hRest c rfl).ne_point
      simp [hPoint]
  | cons c tail =>
    by_cases hPoint : c = '.'
    · subst hPoint
      simp [digitsLength_append hRest]
    · simp [hPoint]

theorem exponentLength_append (hRest : Stops rest) (chars : List Char) :
    exponentLength (chars ++ rest) = exponentLength chars := by
  cases chars with
  | nil =>
    cases rest with
    | nil => rfl
    | cons c rest =>
      have hMark : ¬ (c = 'e' ∨ c = 'E') := by
        have hWord := (hRest c rfl).not_word
        rintro (rfl | rfl) <;> revert hWord <;> decide
      simp [exponentLength, hMark]
  | cons mark tail =>
    by_cases hMark : mark = 'e' ∨ mark = 'E'
    · simp only [List.cons_append, exponentLength, hMark, if_true]
      cases tail with
      | nil =>
        cases rest with
        | nil => rfl
        | cons c rest =>
          have hPlus : c ≠ '+' := (hRest c rfl).ne_plus
          have hMinus : c ≠ '-' := (hRest c rfl).ne_minus
          have hDigits : digitsLength (c :: rest) = 0 := digitsLength_append hRest []
          have hEmpty : digitsLength [] = 0 := rfl
          simp [hPlus, hMinus, hDigits, hEmpty]
      | cons c tail =>
        by_cases hPlus : c = '+'
        · subst hPlus
          simp [digitsLength_append hRest]
        · by_cases hMinus : c = '-'
          · subst hMinus
            simp [digitsLength_append hRest]
          · have hDigits : digitsLength (c :: (tail ++ rest)) = digitsLength (c :: tail) :=
              digitsLength_append hRest (c :: tail)
            simp [hPlus, hMinus, hDigits]
    · simp [exponentLength, hMark]

theorem mantissaLength_le (chars : List Char) : mantissaLength chars ≤ chars.length := by
  have hWhole := digitsLength_le chars
  simp only [mantissaLength]
  split
  · next tail hTail =>
    have hLength := congrArg List.length hTail
    have hFraction := digitsLength_le tail
    simp only [List.length_drop, List.length_cons] at hLength
    split <;> omega
  · exact hWhole

theorem numberLength_append (hRest : Stops rest) (chars : List Char) :
    numberLength (chars ++ rest) = numberLength chars := by
  unfold numberLength
  simp only [mantissaLength_append hRest, List.drop_append_of_le_length (mantissaLength_le chars),
    exponentLength_append hRest]

theorem exponentLength_le (chars : List Char) : exponentLength chars ≤ chars.length := by
  cases chars with
  | nil => exact Nat.le_refl 0
  | cons mark tail =>
    simp only [exponentLength, List.length_cons]
    have hUnsigned := digitsLength_le (tail.drop 0)
    have hSigned := digitsLength_le (tail.drop 1)
    simp only [List.length_drop] at hUnsigned hSigned
    split
    · split <;> split <;> omega
    · exact Nat.zero_le _

theorem numberLength_le (chars : List Char) : numberLength chars ≤ chars.length := by
  have hMantissa := mantissaLength_le chars
  have hExponent := exponentLength_le (chars.drop (mantissaLength chars))
  rw [List.length_drop] at hExponent
  simp only [numberLength]
  split <;> omega

theorem nameLength_append (hRest : Stops rest) {chars : List Char} (hChars : chars ≠ []) :
    nameLength (chars ++ rest) = nameLength chars := by
  cases chars with
  | nil => exact absurd rfl hChars
  | cons c tail =>
    simp only [List.cons_append, nameLength,
      takeWhile_append_of_head fun c hc => (hRest c hc).not_word]

theorem nameLength_le (chars : List Char) : nameLength chars ≤ chars.length := by
  cases chars with
  | nil => exact Nat.le_refl 0
  | cons c tail =>
    have hTail := (List.takeWhile_prefix isWord (l := tail)).length_le
    simp only [nameLength, List.length_cons]
    split <;> omega

/-- A symbol is told by its first character, but for the two stars of a power. -/
theorem symbol?_cons {c : Char} (hTimes : c ≠ '*') (chars : List Char) :
    symbol? (c :: chars) = symbol? [c] := by
  unfold symbol?
  split <;> simp_all

theorem symbol?_times {c : Char} (hTimes : c ≠ '*') (chars : List Char) :
    symbol? ('*' :: c :: chars) = some (.times, 1) := by
  simp [symbol?, hTimes]

theorem symbol?_append (hRest : Stops rest) {chars : List Char} (hChars : chars ≠ []) :
    symbol? (chars ++ rest) = symbol? chars := by
  obtain ⟨c, tail, rfl⟩ := List.exists_cons_of_ne_nil hChars
  by_cases hTimes : c = '*'
  · subst hTimes
    cases tail with
    | nil =>
      cases rest with
      | nil => rfl
      | cons d rest => exact symbol?_times (hRest d rfl).ne_times rest
    | cons d tail =>
      by_cases hPower : d = '*'
      · subst hPower
        rfl
      · simp only [List.cons_append, symbol?_times hPower]
  · rw [List.cons_append, symbol?_cons hTimes, symbol?_cons hTimes tail]

theorem symbol?_length_le {chars : List Char} {sign : Symbol} {length : Nat}
    (hSymbol : symbol? chars = some (sign, length)) : length ≤ chars.length := by
  unfold symbol? at hSymbol
  split at hSymbol <;> simp at hSymbol <;> simp only [List.length_cons] <;> omega

/-! ## The first token -/

theorem Token.first?_append (hRest : Stops rest) {chars : List Char} (hChars : chars ≠ []) :
    Token.first? (chars ++ rest) = Token.first? chars := by
  simp only [Token.first?, numberLength_append hRest, nameLength_append hRest hChars,
    symbol?_append hRest hChars, List.take_append_of_le_length (numberLength_le chars),
    List.take_append_of_le_length (nameLength_le chars)]

theorem Token.first?_length_le {chars : List Char} {token : Token} {length : Nat}
    (hFirst : Token.first? chars = some (token, length)) : length ≤ chars.length := by
  have hNumber := numberLength_le chars
  have hName := nameLength_le chars
  simp only [Token.first?] at hFirst
  split at hFirst
  · cases hFirst
    exact hNumber
  · split at hFirst
    · cases hFirst
      exact hName
    · obtain ⟨⟨sign, length'⟩, hSymbol, hEq⟩ := Option.map_eq_some_iff.1 hFirst
      cases hEq
      exact symbol?_length_le hSymbol

/-! ## Whole texts -/

theorem tokenizeFrom_nil (position : Nat) : tokenizeFrom position [] = .ok [] := by
  rw [tokenizeFrom]

theorem tokenizeFrom_blank {c : Char} (hBlank : isBlank c = true) (position : Nat)
    (chars : List Char) :
    tokenizeFrom position (c :: chars) = tokenizeFrom (position + 1) chars := by
  rw [tokenizeFrom, if_pos hBlank]

theorem tokenizeFrom_none {c : Char} {chars : List Char} (hBlank : isBlank c = false)
    (hFirst : Token.first? (c :: chars) = none) (position : Nat) :
    tokenizeFrom position (c :: chars) = .error ⟨c, position⟩ := by
  rw [tokenizeFrom, if_neg (by simp [hBlank])]
  split
  · rfl
  · next hSome => simp [hFirst] at hSome

theorem tokenizeFrom_some {c : Char} {chars : List Char} {token : Token} {length : Nat}
    (hBlank : isBlank c = false) (hFirst : Token.first? (c :: chars) = some (token, length))
    (position : Nat) :
    tokenizeFrom position (c :: chars) = (do
      let later ← tokenizeFrom (position + length) ((c :: chars).drop length)
      return token :: later) := by
  rw [tokenizeFrom, if_neg (by simp [hBlank])]
  split
  · next hNone => simp [hFirst] at hNone
  · next token' length' hSome =>
    obtain ⟨rfl, rfl⟩ := Prod.mk.inj (Option.some.inj (hFirst.symm.trans hSome))
    cases tokenizeFrom (position + length) ((c :: chars).drop length) <;> rfl

/-- The tokens of a text that is cut before a boundary are those of its two parts, and the
first error is the error. -/
theorem tokenizeFrom_append (hRest : Stops rest) (position : Nat) (chars : List Char) :
    tokenizeFrom position (chars ++ rest) = (do
      let front ← tokenizeFrom position chars
      let back ← tokenizeFrom (position + chars.length) rest
      return front ++ back) := by
  -- every step takes a blank or a whole word off the front, so the induction is on the length
  induction hLength : chars.length using Nat.strongRecOn generalizing position chars with
  | ind n ih =>
    subst hLength
    cases chars with
    | nil =>
      rw [tokenizeFrom_nil, ok_bind]
      simp
    | cons c tail =>
      have hFirstAppend := Token.first?_append hRest (List.cons_ne_nil c tail)
      cases hBlank : isBlank c with
      | true =>
        rw [List.cons_append, tokenizeFrom_blank hBlank, tokenizeFrom_blank hBlank,
          ih tail.length (Nat.lt_succ_self _) _ _ rfl, List.length_cons, Nat.add_assoc,
          Nat.add_comm 1]
      | false =>
        cases hFirst : Token.first? (c :: tail) with
        | none =>
          rw [hFirst, List.cons_append] at hFirstAppend
          rw [List.cons_append, tokenizeFrom_none hBlank hFirst,
            tokenizeFrom_none hBlank hFirstAppend, error_bind]
        | some found =>
          obtain ⟨token, length⟩ := found
          rw [hFirst, List.cons_append] at hFirstAppend
          have hPos := Token.first?_length_pos hFirst
          have hLe := Token.first?_length_le hFirst
          have hDrop : ((c :: tail).drop length).length < (c :: tail).length := by
            rw [List.length_drop]
            omega
          rw [List.cons_append, tokenizeFrom_some hBlank hFirst,
            tokenizeFrom_some hBlank hFirstAppend, ← List.cons_append,
            List.drop_append_of_le_length hLe, ih _ hDrop _ _ rfl]
          have hPosition : position + length + ((c :: tail).drop length).length =
              position + (c :: tail).length := by
            rw [List.length_drop]
            omega
          rw [hPosition]
          simp only [bind_assoc, pure_bind, List.cons_append]

/-- The same error with more characters before it. -/
def LexError.after (count : Nat) (e : LexError) : LexError := ⟨e.char, count + e.position⟩

/-- The tokens of a text do not depend on where it begins, and the position of an error moves
with it. -/
theorem tokenizeFrom_add (count position : Nat) (chars : List Char) :
    tokenizeFrom (count + position) chars =
      (tokenizeFrom position chars).mapError (LexError.after count) := by
  fun_induction tokenizeFrom position chars with
  | case1 position =>
    rw [tokenizeFrom_nil]
    rfl
  | case2 position c chars hBlank ih => rw [tokenizeFrom_blank hBlank, Nat.add_assoc, ih]
  | case3 position c chars hBlank hFirst =>
    rw [tokenizeFrom_none (by simpa using hBlank) hFirst]
    rfl
  | case4 position c chars hBlank token length hFirst e hLater ih =>
    rw [tokenizeFrom_some (by simpa using hBlank) hFirst, Nat.add_assoc, ih, hLater]
    rfl
  | case5 position c chars hBlank token length hFirst later hLater ih =>
    rw [tokenizeFrom_some (by simpa using hBlank) hFirst, Nat.add_assoc, ih, hLater]
    rfl

theorem tokenizeFrom_ok_position {position : Nat} {chars : List Char} {tokens : List Token}
    (hTokens : tokenizeFrom position chars = .ok tokens) (position' : Nat) :
    tokenizeFrom position' chars = .ok tokens := by
  have hStart (count : Nat) : tokenizeFrom count chars =
      (tokenizeFrom 0 chars).mapError (LexError.after count) := tokenizeFrom_add count 0 chars
  rw [hStart] at hTokens ⊢
  cases hOutcome : tokenizeFrom 0 chars with
  | error e =>
    rw [hOutcome] at hTokens
    cases hTokens
  | ok found =>
    rw [hOutcome] at hTokens
    exact hTokens

end

/-! ## Texts in tokens -/

/-- The tokens of a text, wherever the text begins. -/
def Lexes (chars : List Char) (tokens : List Token) : Prop :=
  ∀ position, tokenizeFrom position chars = .ok tokens

theorem lexes_iff (source : String) (tokens : List Token) :
    Lexes source.toList tokens ↔ tokenize source = .ok tokens :=
  ⟨fun h => h 0, fun h => tokenizeFrom_ok_position h⟩

namespace Lexes

theorem nil : Lexes [] [] := tokenizeFrom_nil

theorem append {front back : List Char} {tokens later : List Token} (hFront : Lexes front tokens)
    (hBack : Lexes back later) (hStops : Stops back) : Lexes (front ++ back) (tokens ++ later) := by
  intro position
  rw [tokenizeFrom_append hStops, hFront, ok_bind, hBack, ok_bind]
  rfl

theorem blank {c : Char} {chars : List Char} {tokens : List Token} (hBlank : isBlank c = true)
    (h : Lexes chars tokens) : Lexes (c :: chars) tokens := by
  intro position
  rw [tokenizeFrom_blank hBlank, h]

theorem cons {c : Char} {chars : List Char} {token : Token} {tokens : List Token}
    (hBlank : isBlank c = false) (hFirst : Token.first? (c :: chars) = some (token, 1))
    (h : Lexes chars tokens) : Lexes (c :: chars) (token :: tokens) := by
  intro position
  rw [tokenizeFrom_some hBlank hFirst, List.drop_succ_cons, List.drop_zero, h]
  rfl

/-- A text that is one token. -/
theorem single {c : Char} {chars : List Char} {token : Token} (hBlank : isBlank c = false)
    (hFirst : Token.first? (c :: chars) = some (token, (c :: chars).length)) :
    Lexes (c :: chars) [token] := by
  intro position
  rw [tokenizeFrom_some hBlank hFirst, List.drop_length, tokenizeFrom_nil]
  rfl

end Lexes

/-! ## Symbols -/

theorem numberLength_eq_zero {c : Char} (hDigit : isDigit c = false) (hPoint : c ≠ '.')
    (chars : List Char) : numberLength (c :: chars) = 0 := by
  have hWhole : digitsLength (c :: chars) = 0 := by simp [digitsLength, hDigit]
  have hMantissa : mantissaLength (c :: chars) = 0 := by
    simp [mantissaLength, hWhole, hPoint]
  simp [numberLength, hMantissa]

theorem first?_symbol {c : Char} {sign : Symbol} {chars : List Char}
    (hDigit : isDigit c = false) (hPoint : c ≠ '.') (hName : isNameStart c = false)
    (hSymbol : symbol? (c :: chars) = some (sign, 1)) :
    Token.first? (c :: chars) = some (.symbol sign, 1) := by
  simp [Token.first?, numberLength_eq_zero hDigit hPoint, nameLength, hName, hSymbol]

/-- A symbol other than a star is a token whatever follows. -/
theorem Lexes.symbol {chars : List Char} {tokens : List Token} (h : Lexes chars tokens)
    (sign : Symbol) (hTimes : sign ≠ .times) :
    Lexes (sign.text.toList ++ chars) (.symbol sign :: tokens) := by
  cases sign with
  | times => exact absurd rfl hTimes
  | _ =>
    exact h.cons (by decide) (first?_symbol (by decide) (by decide) (by decide)
      (symbol?_cons (by decide) chars))

theorem Lexes.star : Lexes ['*'] [.symbol .times] := .single (by decide) rfl

/-! ## Names -/

/-- A text that matches the pattern of names. -/
def IsName (word : String) : Prop :=
  ∃ c rest, word.toList = c :: rest ∧ isNameStart c = true ∧ ∀ d ∈ rest, isWord d = true

theorem isName_log : IsName "log" := ⟨'l', ['o', 'g'], rfl, rfl, List.all_eq_true.1 rfl⟩

theorem isNameStart_toNat {c : Char} (hStart : isNameStart c = true) :
    0x41 ≤ c.toNat ∧ c.toNat ≤ 0x7a := by
  simp only [isNameStart, Bool.or_eq_true, beq_iff_eq, Bool.and_eq_true, decide_eq_true_eq,
    Char.le_def, UInt32.le_iff_toNat_le] at hStart
  rcases hStart with (rfl | ⟨hLo, hHi⟩) | ⟨hLo, hHi⟩
  · decide
  · change 97 ≤ c.toNat at hLo
    change c.toNat ≤ 122 at hHi
    omega
  · change 65 ≤ c.toNat at hLo
    change c.toNat ≤ 90 at hHi
    omega

/-- Between the ASCII digits and the next ones there are no digits. -/
theorem isDigit_eq_false {c : Char} (hLo : 0x39 < c.toNat) (hHi : c.toNat < 0x660) :
    isDigit c = false := by
  rw [isDigit, digitRanges, Ranges.contains, if_neg (by omega), Ranges.contains,
    if_pos (by omega), decide_eq_false (by omega)]

/-- The visible ASCII characters are not blank. -/
theorem isBlank_eq_false {c : Char} (hLo : 0x20 < c.toNat) (hHi : c.toNat < 0x85) :
    isBlank c = false := by
  rw [isBlank, blankRanges, Ranges.contains, if_neg (by omega), Ranges.contains,
    if_neg (by omega), Ranges.contains, if_pos (by omega), decide_eq_false (by omega)]

end Autodiff.Syntax
