import Autodiff.Proofs.Syntax.Lexeme
import Autodiff.Proofs.Syntax.Scanning

/-!
# The longest match

The scanner measures a number, a name and an operator greedily, part by part, without ever going
back. What it measures is nevertheless the longest word of the language at the front of the text:
a number that stops short of the longest mantissa has no power of ten, since a digit or a point
follows there. The three languages begin with different characters, so that the longest word of
all is the one that is measured.

* `Longest` says what the length of a longest word has to be;
* `longest_numberLength`, `longest_nameLength` and `longest_symbolLength` say that the lengths of
  the scanner are so, `longest_lexeme` that their sum is the length of the longest word of all;
* `Token.first?_eq_some_iff` and `Token.first?_eq_none_iff` say which token comes first.
-/

namespace Autodiff.Syntax

open Text Lexeme

/-! ## The longest word at the front of a text -/

/-- The longest word of a language at the front of a text has the length; 0 stands for none. -/
structure Longest (pattern : Language Char) (chars : List Char) (length : Nat) : Prop where
  mem : 0 < length → chars.take length ∈ pattern
  le_length : length ≤ chars.length
  max : ∀ word ∈ pattern, word <+: chars → word.length ≤ length

section

variable {pattern : Language Char} {chars word : List Char} {length : Nat}

theorem Longest.unique {other : Nat} (h : Longest pattern chars length)
    (h' : Longest pattern chars other) : length = other := by
  have hLe {n m : Nat} (hn : Longest pattern chars n) (hm : Longest pattern chars m) : n ≤ m := by
    rcases Nat.eq_zero_or_pos n with rfl | hPos
    · exact Nat.zero_le m
    · have := hm.max _ (hn.mem hPos) (List.take_prefix n chars)
      rwa [List.length_take_of_le hn.le_length] at this
  exact Nat.le_antisymm (hLe h h') (hLe h' h)

/-- In a word of a language the longest word is the whole. -/
theorem longest_self (hWord : word ∈ pattern) :
    Longest pattern word word.length :=
  ⟨fun _ => by rwa [List.take_length], Nat.le_refl _, fun _ _ hFront => hFront.length_le⟩

end

section

variable (chars : List Char)

theorem take_digitsLength : chars.take (digitsLength chars) = chars.takeWhile isDigit :=
  (List.prefix_iff_eq_take.1 (List.takeWhile_prefix isDigit)).symm

theorem isDigit_of_mem_takeWhile : ∀ c ∈ chars.takeWhile isDigit, isDigit c = true :=
  fun _ hMem => List.mem_takeWhile_imp hMem

theorem length_le_digitsLength {run : List Char} (hRun : ∀ c ∈ run, isDigit c = true)
    (rest : List Char) : run.length ≤ digitsLength (run ++ rest) := by
  rw [digitsLength, List.takeWhile_append_of_pos hRun, List.length_append]
  exact Nat.le_add_right _ _

theorem digitsLength_append_point {whole : List Char} (hWhole : ∀ c ∈ whole, isDigit c = true)
    (rest : List Char) : digitsLength (whole ++ '.' :: rest) = whole.length := by
  have hPoint : isDigit '.' = false := by decide
  rw [digitsLength, List.takeWhile_append_of_pos hWhole]
  simp [hPoint]

theorem longest_mantissaLength : Longest mantissa chars (mantissaLength chars) where
  mem := by
    have hWhole := take_digitsLength chars
    intro hPos
    simp only [mantissaLength] at hPos ⊢
    split at hPos
    · next rest hRest =>
      -- a point follows the digits
      have hTake : chars.take (digitsLength chars + 1 + digitsLength rest) =
          chars.takeWhile isDigit ++ '.' :: rest.takeWhile isDigit := by
        rw [Nat.add_assoc, List.take_add, hWhole, hRest, Nat.add_comm 1, List.take_succ_cons,
          take_digitsLength]
      split at hPos
      · exact absurd hPos (lt_irrefl 0)
      · next hSome =>
        rw [if_neg hSome, hTake, mem_mantissa]
        rcases eq_or_ne (chars.takeWhile isDigit) [] with hNil | hNe
        · refine .inr ⟨rest.takeWhile isDigit, mem_run.2 ⟨fun hNone => hSome ?_,
            isDigit_of_mem_takeWhile rest⟩, by rw [hNil, List.nil_append]⟩
          exact ⟨congrArg List.length hNil, congrArg List.length hNone⟩
        · exact .inl ⟨_, mem_run.2 ⟨hNe, isDigit_of_mem_takeWhile chars⟩,
            .inr ⟨_, isDigit_of_mem_takeWhile rest, rfl⟩⟩
    · rw [hWhole, mem_mantissa]
      exact .inl ⟨_, mem_run.2 ⟨List.length_pos_iff.1 hPos, isDigit_of_mem_takeWhile chars⟩,
        .inl rfl⟩
  le_length := mantissaLength_le chars
  max := by
    rintro word hWord ⟨rest, rfl⟩
    rcases mem_mantissa.1 hWord with ⟨whole, hWhole, rfl | ⟨fraction, hFraction, rfl⟩⟩ |
      ⟨fraction, hFraction, rfl⟩
    · have hLe := length_le_digitsLength (mem_run.1 hWhole).2 rest
      simp only [mantissaLength]
      split
      · split <;> omega
      · exact hLe
    · obtain ⟨hNe, hWhole⟩ := mem_run.1 hWhole
      have hPos := List.length_pos_iff.2 hNe
      have hLe := length_le_digitsLength hFraction rest
      simp only [mantissaLength, List.append_assoc, List.cons_append,
        digitsLength_append_point hWhole, List.drop_left, List.length_append, List.length_cons]
      rw [if_neg (by omega)]
      omega
    · obtain ⟨hNe, hDigits⟩ := mem_run.1 hFraction
      have hPos := List.length_pos_iff.2 hNe
      have hLe := length_le_digitsLength hDigits rest
      have hNone : ∀ c ∈ ([] : List Char), isDigit c = true := by simp
      have hWhole : digitsLength ('.' :: (fraction ++ rest)) = 0 :=
        digitsLength_append_point hNone _
      simp only [mantissaLength, List.cons_append, hWhole, List.drop_zero, List.length_cons]
      rw [if_neg (by omega)]
      omega

theorem isSign_of_isDigit {c : Char} (hDigit : isDigit c = true) : isSign c = false := by
  refine Bool.eq_false_iff.2 fun hSign => ?_
  rcases isSign_iff.1 hSign with rfl | rfl <;> exact absurd hDigit (by decide)

/-- A text begins with a sign or not. -/
theorem exists_sign : ∃ sign rest, chars = sign ++ rest ∧ sign ∈ 1 + oneOf isSign ∧
    (sign = [] → ∀ c ∈ rest.head?, isSign c = false) := by
  cases chars with
  | nil => exact ⟨[], [], rfl, .inl rfl, by simp⟩
  | cons c rest =>
    cases hSign : isSign c with
    | true => exact ⟨[c], rest, rfl, .inr ⟨c, hSign, rfl⟩, by simp⟩
    | false => exact ⟨[], c :: rest, rfl, .inl rfl, by simpa using hSign⟩

/-- The length of a power of ten in terms of its sign and what stands behind it. -/
theorem exponentLength_sign {mark : Char} (hMark : isMark mark = true) {sign rest : List Char}
    (hSign : sign ∈ 1 + oneOf isSign) (hRest : sign = [] → ∀ c ∈ rest.head?, isSign c = false) :
    exponentLength (mark :: (sign ++ rest)) =
      if digitsLength rest = 0 then 0 else 1 + sign.length + digitsLength rest := by
  have hLetter := isMark_iff.1 hMark
  rcases mem_option.1 hSign with rfl | ⟨c, hClass, rfl⟩
  · cases rest with
    | nil => simp [exponentLength, hLetter]
    | cons c rest =>
      have hNeither : c ≠ '+' ∧ c ≠ '-' := by simpa [isSign] using hRest rfl
      simp [exponentLength, hLetter, hNeither.1, hNeither.2]
  · rcases isSign_iff.1 hClass with rfl | rfl <;> simp [exponentLength, hLetter]

theorem exponentLength_eq_zero {mark : Char} (hMark : isMark mark = false) (rest : List Char) :
    exponentLength (mark :: rest) = 0 := by
  have hLetter : ¬ (mark = 'e' ∨ mark = 'E') :=
    fun hEq => absurd (isMark_iff.2 hEq) (by simp [hMark])
  simp [exponentLength, hLetter]

theorem longest_exponentLength : Longest power chars (exponentLength chars) where
  mem := by
    intro hPos
    cases chars with
    | nil => exact absurd hPos (lt_irrefl 0)
    | cons mark rest =>
      cases hMark : isMark mark with
      | false =>
        rw [exponentLength_eq_zero hMark] at hPos
        exact absurd hPos (lt_irrefl 0)
      | true =>
        obtain ⟨sign, rest, rfl, hSign, hRest⟩ := exists_sign rest
        rw [exponentLength_sign hMark hSign hRest] at hPos ⊢
        split at hPos
        · exact absurd hPos (lt_irrefl 0)
        · next hDigits =>
          refine mem_power.2 ⟨mark, sign, rest.takeWhile isDigit, hMark, hSign,
            mem_run.2 ⟨fun hNil => hDigits (congrArg List.length hNil),
              isDigit_of_mem_takeWhile rest⟩, ?_⟩
          rw [if_neg hDigits, Nat.add_assoc, Nat.add_comm 1, List.take_succ_cons,
            List.take_length_add_append, take_digitsLength]
  le_length := exponentLength_le chars
  max := by
    rintro word hWord ⟨rest, rfl⟩
    obtain ⟨mark, sign, digits, hMark, hSign, hDigits, rfl⟩ := mem_power.1 hWord
    obtain ⟨hNe, hDigits⟩ := mem_run.1 hDigits
    have hLe := length_le_digitsLength hDigits rest
    have hPos := List.length_pos_iff.2 hNe
    have hRest : sign = [] → ∀ c ∈ (digits ++ rest).head?, isSign c = false := by
      intro _ c hHead
      obtain ⟨d, digits, rfl⟩ := List.exists_cons_of_ne_nil hNe
      cases hHead
      exact isSign_of_isDigit (hDigits c List.mem_cons_self)
    rw [List.cons_append, List.append_assoc, exponentLength_sign hMark hSign hRest,
      if_neg (by omega), List.length_cons, List.length_append]
    omega

/-- A mantissa that could go on is followed by a digit or a point, and not by a power of ten. -/
theorem not_mem_power_of_short {front back rest : List Char}
    (hShort : front.length < mantissaLength (front ++ (back ++ rest))) : back ∉ power := by
  intro hBack
  obtain ⟨mark, sign, digits, hMark, -, -, rfl⟩ := mem_power.1 hBack
  set chars := front ++ (mark :: (sign ++ digits) ++ rest) with hChars
  have hMantissa := longest_mantissaLength chars
  have hPrefix : front ++ [mark] <+: chars.take (mantissaLength chars) := by
    refine List.prefix_of_prefix_length_le ⟨sign ++ digits ++ rest, by simp [hChars]⟩
      (List.take_prefix _ _) ?_
    rw [List.length_take_of_le hMantissa.le_length, List.length_append, List.length_singleton]
    exact hShort
  have hMem : mark ∈ chars.take (mantissaLength chars) := hPrefix.subset (by simp)
  have hWord := hMantissa.mem (Nat.zero_lt_of_lt hShort)
  rcases digit_or_point_of_mem_mantissa hWord mark hMem with hDigit | rfl
  · rcases isMark_iff.1 hMark with rfl | rfl <;> exact absurd hDigit (by decide)
  · exact absurd hMark (by decide)

theorem longest_numberLength : Longest number chars (numberLength chars) where
  mem := by
    have hMantissa := longest_mantissaLength chars
    have hPower := longest_exponentLength (chars.drop (mantissaLength chars))
    intro hPos
    simp only [numberLength] at hPos ⊢
    split at hPos
    · exact absurd hPos (lt_irrefl 0)
    · next hNe =>
      rw [if_neg hNe, List.take_add, number, Language.mem_mul]
      refine ⟨_, hMantissa.mem (Nat.pos_of_ne_zero hNe), _, mem_option.2 ?_, rfl⟩
      rcases Nat.eq_zero_or_pos (exponentLength (chars.drop (mantissaLength chars))) with
        hZero | hPos
      · exact .inl (by rw [hZero, List.take_zero])
      · exact .inr (hPower.mem hPos)
  le_length := numberLength_le chars
  max := by
    have hMantissa := longest_mantissaLength chars
    have hPower := longest_exponentLength (chars.drop (mantissaLength chars))
    rintro word hWord ⟨rest, rfl⟩
    obtain ⟨front, hFront, back, hBack, rfl⟩ := Language.mem_mul.1 hWord
    rw [List.append_assoc] at hMantissa hPower ⊢
    have hLe := hMantissa.max front hFront (List.prefix_append front _)
    have hPos := List.length_pos_iff.2 (ne_nil_of_mem_mantissa hFront)
    simp only [numberLength]
    rw [if_neg (by omega), List.length_append]
    rcases mem_option.1 hBack with rfl | hBack
    · exact Nat.add_le_add hLe (Nat.zero_le _)
    · have hEq : front.length = mantissaLength (front ++ (back ++ rest)) :=
        Nat.le_antisymm hLe (Nat.le_of_not_lt fun hShort => not_mem_power_of_short hShort hBack)
      rw [← hEq, List.drop_left] at hPower ⊢
      exact Nat.add_le_add_left (hPower.max back hBack (List.prefix_append back rest)) _

theorem longest_nameLength : Longest name chars (nameLength chars) where
  mem := by
    intro hPos
    cases chars with
    | nil => exact absurd hPos (lt_irrefl 0)
    | cons c rest =>
      cases hStart : isNameStart c with
      | false => simp [nameLength, hStart] at hPos
      | true =>
        refine mem_name.2 ⟨c, rest.takeWhile isWord, ?_, hStart,
          fun d hMem => List.mem_takeWhile_imp hMem⟩
        rw [nameLength, if_pos hStart, Nat.add_comm, List.take_succ_cons]
        exact congrArg (c :: ·) (List.prefix_iff_eq_take.1 (List.takeWhile_prefix isWord)).symm
  le_length := nameLength_le chars
  max := by
    rintro word hWord ⟨rest, rfl⟩
    obtain ⟨c, tail, rfl, hStart, hTail⟩ := mem_name.1 hWord
    rw [List.cons_append, nameLength, if_pos hStart, List.takeWhile_append_of_pos hTail,
      List.length_append, List.length_cons]
    omega

theorem symbol?_word {sign : Symbol} {length : Nat}
    (hSymbol : symbol? chars = some (sign, length)) :
    chars.take length ∈ operator ∧ sign.text = written (chars.take length) := by
  unfold symbol? at hSymbol
  split at hSymbol
  case h_9 => cases hSymbol
  all_goals
    cases hSymbol
    exact ⟨mem_operator.2 (by simp [isOperator]), rfl⟩

theorem exists_symbol? (hPos : 0 < symbolLength chars) :
    ∃ sign, symbol? chars = some (sign, symbolLength chars) := by
  cases hSymbol : symbol? chars with
  | none => simp [symbolLength, hSymbol] at hPos
  | some found => exact ⟨found.1, by simp [symbolLength, hSymbol]⟩

theorem longest_symbolLength : Longest operator chars (symbolLength chars) where
  mem := by
    intro hPos
    obtain ⟨sign, hSymbol⟩ := exists_symbol? chars hPos
    exact (symbol?_word chars hSymbol).1
  le_length := by
    rcases Nat.eq_zero_or_pos (symbolLength chars) with hZero | hPos
    · exact hZero ▸ Nat.zero_le _
    · obtain ⟨sign, hSymbol⟩ := exists_symbol? chars hPos
      exact symbol?_length_le hSymbol
  max := by
    rintro word hWord ⟨rest, rfl⟩
    rcases mem_operator.1 hWord with rfl | ⟨c, hClass, rfl⟩
    · exact le_of_eq rfl
    · rw [symbolLength, List.singleton_append, List.length_singleton]
      by_cases hTimes : c = '*'
      · subst hTimes
        cases rest with
        | nil => exact le_of_eq rfl
        | cons d rest =>
          by_cases hPower : d = '*'
          · subst hPower
            exact Nat.le_succ 1
          · simp [symbol?_times hPower]
      · rw [symbol?_cons hTimes]
        rcases isOperator_iff.1 hClass with rfl | rfl | rfl | rfl | rfl | rfl | rfl
        case inr.inr.inl => exact absurd rfl hTimes
        all_goals exact le_of_eq rfl

/-! ## One language at a time -/

variable {chars}

theorem Longest.add {pattern other : Language Char} {length length' : Nat}
    (h : Longest pattern chars length) (h' : Longest other chars length')
    (hOnly : length = 0 ∨ length' = 0) : Longest (pattern + other) chars (length + length') where
  mem := by
    intro hPos
    rw [Language.mem_add]
    rcases hOnly with rfl | rfl
    · rw [Nat.zero_add] at hPos ⊢
      exact .inr (h'.mem hPos)
    · exact .inl (h.mem hPos)
  le_length := by
    have := h.le_length
    have := h'.le_length
    omega
  max := by
    rintro word (hWord | hWord) hFront
    · exact Nat.le_add_right_of_le (h.max word hWord hFront)
    · exact Nat.le_add_left_of_le (h'.max word hWord hFront)

variable (chars)

theorem numberLength_or_nameLength : numberLength chars = 0 ∨ nameLength chars = 0 := by
  cases chars with
  | nil => exact .inr rfl
  | cons c rest =>
    cases hStart : isNameStart c with
    | false => exact .inr (by simp [nameLength, hStart])
    | true =>
      obtain ⟨hLo, hHi⟩ := isNameStart_toNat hStart
      refine .inl (numberLength_eq_zero (isDigit_eq_false (by omega) (by omega)) ?_ rest)
      rintro rfl
      exact absurd hLo (by decide)

theorem word_or_symbolLength :
    numberLength chars + nameLength chars = 0 ∨ symbolLength chars = 0 := by
  rcases Nat.eq_zero_or_pos (symbolLength chars) with hZero | hPos
  · exact .inr hZero
  · obtain ⟨rest, hRest⟩ := List.take_prefix (symbolLength chars) chars
    obtain ⟨c, tail, rfl, hClass⟩ : ∃ c tail, chars = c :: tail ∧ isOperator c = true := by
      rcases mem_operator.1 ((longest_symbolLength chars).mem hPos) with hPower | ⟨c, hClass, hOne⟩
      · exact ⟨'*', '*' :: rest, by rw [← hRest, hPower]; rfl, rfl⟩
      · exact ⟨c, rest, by rw [← hRest, hOne]; rfl, hClass⟩
    obtain ⟨hDigit, hPoint, hStart⟩ := begins_of_isOperator hClass
    exact .inl (by simp [numberLength_eq_zero hDigit hPoint, nameLength, hStart])

end

/-! ## The first token -/

section

variable {chars word : List Char} {token : Token} {length : Nat}

/-- Two stars are neither a number nor a name. -/
theorem written_of_mem (hWord : word ∈ Lexeme.number ∨ word ∈ Lexeme.name) :
    Lexeme.written word = String.ofList word := by
  refine if_neg ?_
  rintro rfl
  rcases hWord with hNumber | hName
  · exact absurd ((longest_numberLength _).max _ hNumber (List.prefix_refl _)) (by decide)
  · exact absurd ((longest_nameLength _).max _ hName (List.prefix_refl _)) (by decide)

/-- At most one of the three lengths is positive, and it is that of the longest word. -/
theorem longest_lexeme (chars : List Char) :
    Longest lexeme chars (numberLength chars + nameLength chars + symbolLength chars) :=
  ((longest_numberLength chars).add (longest_nameLength chars)
    (numberLength_or_nameLength chars)).add (longest_symbolLength chars)
    (word_or_symbolLength chars)

/-- The first token is spelled by the longest word. -/
theorem Token.spells_of_first? (hFirst : Token.first? chars = some (token, length)) :
    token.Spells (chars.take length) ∧
      length = numberLength chars + nameLength chars + symbolLength chars := by
  have hName := numberLength_or_nameLength chars
  have hSymbol := word_or_symbolLength chars
  simp only [Token.first?] at hFirst
  split at hFirst
  · next hPos =>
    cases hFirst
    have hWord := (longest_numberLength chars).mem hPos
    exact ⟨⟨hWord, (written_of_mem (.inl hWord)).symm⟩, by omega⟩
  · split at hFirst
    · next hPos =>
      cases hFirst
      have hWord := (longest_nameLength chars).mem hPos
      exact ⟨⟨hWord, (written_of_mem (.inr hWord)).symm⟩, by omega⟩
    · obtain ⟨⟨sign, length'⟩, hFound, hToken⟩ := Option.map_eq_some_iff.1 hFirst
      obtain ⟨rfl, rfl⟩ := Prod.mk.inj hToken
      have hLength : symbolLength chars = length' := by simp [symbolLength, hFound]
      exact ⟨symbol?_word chars hFound, by omega⟩

/-- A word alone is one token. -/
theorem Token.Spells.first? (h : token.Spells word) :
    Token.first? word = some (token, word.length) := by
  have hPos := List.length_pos_iff.2 (ne_nil_of_mem_lexeme h.mem_lexeme)
  have hName := numberLength_or_nameLength word
  have hSymbol := word_or_symbolLength word
  obtain ⟨hWord, hText⟩ := h
  cases token with
  | number numeral =>
    have hLength := (longest_numberLength word).unique (longest_self hWord)
    have hNumeral : numeral = String.ofList word := hText.trans (written_of_mem (.inl hWord))
    simp [Token.first?, hLength, hPos, hNumeral]
  | name name =>
    have hLength := (longest_nameLength word).unique (longest_self hWord)
    have hNumber : numberLength word = 0 := by omega
    have hName : name = String.ofList word := hText.trans (written_of_mem (.inr hWord))
    simp [Token.first?, hLength, hNumber, hPos, hName]
  | symbol sign =>
    have hLength := (longest_symbolLength word).unique (longest_self hWord)
    obtain ⟨sign', hFound⟩ := exists_symbol? word (hLength ▸ hPos)
    rw [hLength] at hFound
    have hSign := (symbol?_word word hFound).2
    rw [List.take_length] at hSign
    obtain rfl : sign' = sign := Symbol.text_injective (hSign.trans hText.symm)
    have hNumber : numberLength word = 0 := by omega
    have hName : nameLength word = 0 := by omega
    simp [Token.first?, hNumber, hName, hFound]

/-- A word spells one token. -/
theorem Token.Spells.unique {other : Token} (h : token.Spells word) (h' : other.Spells word) :
    token = other :=
  congrArg Prod.fst (Option.some.inj (h.first?.symm.trans h'.first?))

theorem length_eq_zero_of_first? (hFirst : Token.first? chars = none) :
    numberLength chars + nameLength chars + symbolLength chars = 0 := by
  simp only [Token.first?] at hFirst
  split at hFirst
  · cases hFirst
  · split at hFirst
    · cases hFirst
    · have hSymbol : symbolLength chars = 0 := by
        rw [symbolLength, Option.map_eq_none_iff.1 hFirst]
        rfl
      omega

/-- The first token is spelled by the longest word at the front of the text. -/
theorem Token.first?_eq_some_iff :
    Token.first? chars = some (token, length) ↔
      token.Spells (chars.take length) ∧ Longest lexeme chars length := by
  have hLongest := longest_lexeme chars
  constructor
  · intro hFirst
    obtain ⟨hSpells, rfl⟩ := Token.spells_of_first? hFirst
    exact ⟨hSpells, hLongest⟩
  · rintro ⟨hSpells, hLength⟩
    cases hFirst : Token.first? chars with
    | none =>
      rw [length_eq_zero_of_first? hFirst] at hLongest
      obtain rfl := hLength.unique hLongest
      exact absurd rfl (ne_nil_of_mem_lexeme hSpells.mem_lexeme)
    | some found =>
      obtain ⟨token', length'⟩ := found
      obtain ⟨hSpells', rfl⟩ := Token.spells_of_first? hFirst
      obtain rfl := hLength.unique hLongest
      rw [hSpells.unique hSpells']

/-- There is no first token exactly if no word is at the front of the text. -/
theorem Token.first?_eq_none_iff :
    Token.first? chars = none ↔ ∀ word ∈ lexeme, ¬ word <+: chars := by
  constructor
  · intro hFirst word hWord hFront
    have hLongest := longest_lexeme chars
    rw [length_eq_zero_of_first? hFirst] at hLongest
    have hLength := Nat.le_zero.1 (hLongest.max word hWord hFront)
    exact ne_nil_of_mem_lexeme hWord (List.length_eq_zero_iff.1 hLength)
  · intro hNone
    cases hFirst : Token.first? chars with
    | none => rfl
    | some found =>
      have hSpells := (Token.spells_of_first? hFirst).1
      exact absurd (List.take_prefix _ _) (hNone _ hSpells.mem_lexeme)

end

end Autodiff.Syntax
