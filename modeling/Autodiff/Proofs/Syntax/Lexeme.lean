import Autodiff.Proofs.Text.Digits
import Autodiff.Syntax.Token
import Mathlib.Computability.Language

/-!
# Lexemes

The words of the expression language are three languages, built from classes of characters by
choice, succession and repetition:

    number   := (digit+ point? digit* | point digit+) (mark sign? digit+)?
    name     := letter word*
    operator := '**' | one of - + * / ^ ( )

* `Lexeme.number`, `Lexeme.name` and `Lexeme.operator` are the languages, and `Lexeme.mem_mantissa`,
  `Lexeme.mem_power`, `Lexeme.mem_name` and `Lexeme.mem_operator` say what their words look like;
* `lexeme` holds the words of all three, and `Token.Spells` says which token a word stands for.
-/

namespace Autodiff.Syntax

open Text Computability

/-! ## The languages -/

namespace Lexeme

/-- The words of one character of a class. -/
def oneOf (p : Char → Bool) : Language Char := {word | ∃ c, p c = true ∧ word = [c]}

/-- The words of one or more characters of a class. -/
def run (p : Char → Bool) : Language Char := oneOf p * (oneOf p)∗

def isPoint (c : Char) : Bool := c == '.'

def isMark (c : Char) : Bool := c == 'e' || c == 'E'

def isSign (c : Char) : Bool := c == '+' || c == '-'

def isOperator (c : Char) : Bool := ['-', '+', '*', '/', '^', '(', ')'].contains c

def mantissa : Language Char :=
  run isDigit * (1 + oneOf isPoint) * (oneOf isDigit)∗ + oneOf isPoint * run isDigit

def power : Language Char := oneOf isMark * (1 + oneOf isSign) * run isDigit

def number : Language Char := mantissa * (1 + power)

def name : Language Char := oneOf isNameStart * (oneOf isWord)∗

def operator : Language Char := {['*', '*']} + oneOf isOperator

/-- What a token shows of a word: a power has one text, however it was written. -/
def written (word : List Char) : String :=
  if word = ['*', '*'] then "^" else String.ofList word

section

variable {p : Char → Bool} {word : List Char}

theorem mem_oneOf : word ∈ oneOf p ↔ ∃ c, p c = true ∧ word = [c] := Iff.rfl

theorem mem_oneOf_kstar : word ∈ (oneOf p)∗ ↔ ∀ c ∈ word, p c = true := by
  rw [Language.mem_kstar]
  constructor
  · rintro ⟨parts, rfl, hParts⟩ c hMem
    obtain ⟨part, hPart, hMem⟩ := List.mem_flatten.1 hMem
    obtain ⟨d, hClass, rfl⟩ := mem_oneOf.1 (hParts part hPart)
    obtain rfl := List.mem_singleton.1 hMem
    exact hClass
  · intro hClass
    refine ⟨word.map fun c => [c], by simp [← List.flatMap_def], ?_⟩
    intro part hPart
    obtain ⟨c, hMem, rfl⟩ := List.mem_map.1 hPart
    exact ⟨c, hClass c hMem, rfl⟩

theorem mem_run : word ∈ run p ↔ word ≠ [] ∧ ∀ c ∈ word, p c = true := by
  rw [run, Language.mem_mul]
  constructor
  · rintro ⟨_, ⟨c, hClass, rfl⟩, rest, hRest, rfl⟩
    refine ⟨by simp, fun d hMem => ?_⟩
    rcases List.mem_cons.1 hMem with rfl | hMem
    · exact hClass
    · exact mem_oneOf_kstar.1 hRest d hMem
  · rintro ⟨hNe, hClass⟩
    obtain ⟨c, rest, rfl⟩ := List.exists_cons_of_ne_nil hNe
    exact ⟨[c], ⟨c, hClass c List.mem_cons_self, rfl⟩, rest,
      mem_oneOf_kstar.2 fun d hMem => hClass d (List.mem_cons_of_mem c hMem), rfl⟩

theorem mem_option {pattern : Language Char} : word ∈ 1 + pattern ↔ word = [] ∨ word ∈ pattern := by
  rw [Language.mem_add, Language.mem_one]

/-- A mantissa is a run of digits, with a point and further digits behind it or not, or a point
with a run of digits behind it. -/
theorem mem_mantissa :
    word ∈ mantissa ↔
      (∃ whole ∈ run isDigit, word = whole ∨
        ∃ fraction, (∀ c ∈ fraction, isDigit c = true) ∧ word = whole ++ '.' :: fraction) ∨
      ∃ fraction ∈ run isDigit, word = '.' :: fraction := by
  rw [mantissa, Language.mem_add]
  refine or_congr ?_ ?_
  · simp only [Language.mem_mul, mem_option, mem_oneOf_kstar]
    constructor
    · rintro ⟨_, ⟨whole, hWhole, point, rfl | ⟨c, hPoint, rfl⟩, rfl⟩, fraction, hFraction, rfl⟩
      · have hRun := mem_run.1 hWhole
        refine ⟨whole ++ fraction, mem_run.2 ⟨by simp [hRun.1], ?_⟩, .inl (by simp)⟩
        exact fun c hMem => (List.mem_append.1 hMem).elim (hRun.2 c) (hFraction c)
      · obtain rfl := beq_iff_eq.1 hPoint
        exact ⟨whole, hWhole, .inr ⟨fraction, hFraction, by simp⟩⟩
    · rintro ⟨whole, hWhole, rfl | ⟨fraction, hFraction, rfl⟩⟩
      · exact ⟨word, ⟨word, hWhole, [], .inl rfl, by simp⟩, [], by simp, by simp⟩
      · exact ⟨whole ++ ['.'], ⟨whole, hWhole, ['.'], .inr ⟨'.', rfl, rfl⟩, rfl⟩, fraction,
          hFraction, by simp⟩
  · rw [Language.mem_mul]
    constructor
    · rintro ⟨_, ⟨c, hPoint, rfl⟩, fraction, hFraction, rfl⟩
      obtain rfl := beq_iff_eq.1 hPoint
      exact ⟨fraction, hFraction, rfl⟩
    · rintro ⟨fraction, hFraction, rfl⟩
      exact ⟨['.'], ⟨'.', rfl, rfl⟩, fraction, hFraction, rfl⟩

theorem mem_power :
    word ∈ power ↔ ∃ mark sign digits, isMark mark = true ∧ sign ∈ 1 + oneOf isSign ∧
      digits ∈ run isDigit ∧ word = mark :: (sign ++ digits) := by
  simp only [power, Language.mem_mul]
  constructor
  · rintro ⟨_, ⟨_, ⟨mark, hMark, rfl⟩, sign, hSign, rfl⟩, digits, hDigits, rfl⟩
    exact ⟨mark, sign, digits, hMark, hSign, hDigits, rfl⟩
  · rintro ⟨mark, sign, digits, hMark, hSign, hDigits, rfl⟩
    exact ⟨mark :: sign, ⟨[mark], ⟨mark, hMark, rfl⟩, sign, hSign, rfl⟩, digits, hDigits, rfl⟩

theorem mem_name : word ∈ name ↔
    ∃ c rest, word = c :: rest ∧ isNameStart c = true ∧ ∀ d ∈ rest, isWord d = true := by
  rw [name, Language.mem_mul]
  constructor
  · rintro ⟨_, ⟨c, hStart, rfl⟩, rest, hRest, rfl⟩
    exact ⟨c, rest, rfl, hStart, mem_oneOf_kstar.1 hRest⟩
  · rintro ⟨c, rest, rfl, hStart, hRest⟩
    exact ⟨[c], ⟨c, hStart, rfl⟩, rest, mem_oneOf_kstar.2 hRest, rfl⟩

theorem mem_operator :
    word ∈ operator ↔ word = ['*', '*'] ∨ ∃ c, isOperator c = true ∧ word = [c] :=
  Iff.rfl

theorem isMark_iff {c : Char} : isMark c = true ↔ c = 'e' ∨ c = 'E' := by simp [isMark]

theorem isSign_iff {c : Char} : isSign c = true ↔ c = '+' ∨ c = '-' := by simp [isSign]

theorem isOperator_iff {c : Char} : isOperator c = true ↔
    c = '-' ∨ c = '+' ∨ c = '*' ∨ c = '/' ∨ c = '^' ∨ c = '(' ∨ c = ')' := by
  simp [isOperator]

/-- An operator begins neither a number nor a name. -/
theorem begins_of_isOperator {c : Char} (hClass : isOperator c = true) :
    isDigit c = false ∧ c ≠ '.' ∧ isNameStart c = false := by
  rcases isOperator_iff.1 hClass with rfl | rfl | rfl | rfl | rfl | rfl | rfl <;> decide

theorem ne_nil_of_mem_mantissa (hWord : word ∈ mantissa) : word ≠ [] := by
  rcases mem_mantissa.1 hWord with ⟨whole, hWhole, rfl | ⟨fraction, -, rfl⟩⟩ | ⟨fraction, -, rfl⟩
  · exact (mem_run.1 hWhole).1
  · simp
  · simp

theorem digit_or_point_of_mem_mantissa (hWord : word ∈ mantissa) :
    ∀ c ∈ word, isDigit c = true ∨ c = '.' := by
  intro c hMem
  rcases mem_mantissa.1 hWord with ⟨whole, hWhole, rfl | ⟨fraction, hFraction, rfl⟩⟩ |
    ⟨fraction, hFraction, rfl⟩
  · exact .inl ((mem_run.1 hWhole).2 c hMem)
  · rcases List.mem_append.1 hMem with hMem | hMem
    · exact .inl ((mem_run.1 hWhole).2 c hMem)
    · rcases List.mem_cons.1 hMem with rfl | hMem
      · exact .inr rfl
      · exact .inl (hFraction c hMem)
  · rcases List.mem_cons.1 hMem with rfl | hMem
    · exact .inr rfl
    · exact .inl ((mem_run.1 hFraction).2 c hMem)

theorem begins_of_mem_number (hWord : word ∈ number) :
    ∃ c rest, word = c :: rest ∧ (isDigit c = true ∨ c = '.') := by
  obtain ⟨front, hFront, back, -, rfl⟩ := Language.mem_mul.1 hWord
  obtain ⟨c, rest, rfl⟩ := List.exists_cons_of_ne_nil (ne_nil_of_mem_mantissa hFront)
  exact ⟨c, rest ++ back, rfl, digit_or_point_of_mem_mantissa hFront c List.mem_cons_self⟩

/-- The digits of a number are a number of the expression language. -/
theorem digits_mem_number (n : Nat) : digits n ∈ number := by
  have hRun : digits n ∈ run isDigit :=
    mem_run.2 ⟨Nat.toDigits_ne_nil, fun c hMem => isDigit_of_ascii (isDigit_of_mem_digits hMem)⟩
  have hMantissa := mem_mantissa.2 (.inl ⟨digits n, hRun, .inl rfl⟩)
  exact Language.mem_mul.2 ⟨_, hMantissa, [], mem_option.2 (.inl rfl), List.append_nil _⟩

end

end Lexeme

/-! ## Words and tokens -/

/-- The language of the words of a kind. -/
def Token.pattern : Token → Language Char
  | number _ => Lexeme.number
  | name _ => Lexeme.name
  | symbol _ => Lexeme.operator

/-- A word of the expression language. -/
def lexeme : Language Char := Lexeme.number + Lexeme.name + Lexeme.operator

/-- The token has the kind of the word, and its text is the word, but for the two stars of a
power. -/
def Token.Spells (token : Token) (word : List Char) : Prop :=
  word ∈ token.pattern ∧ token.text = Lexeme.written word

section

variable {word : List Char} {token : Token}

theorem mem_lexeme : word ∈ lexeme ↔
    word ∈ Lexeme.number ∨ word ∈ Lexeme.name ∨ word ∈ Lexeme.operator := by
  rw [lexeme, Language.mem_add, Language.mem_add, or_assoc]

theorem Token.Spells.mem_lexeme (h : token.Spells word) : word ∈ lexeme := by
  refine Syntax.mem_lexeme.2 ?_
  cases token with
  | number => exact .inl h.1
  | name => exact .inr (.inl h.1)
  | symbol => exact .inr (.inr h.1)

theorem ne_nil_of_mem_lexeme (hWord : word ∈ lexeme) : word ≠ [] := by
  rintro rfl
  rcases mem_lexeme.1 hWord with hNumber | hName | hOperator
  · obtain ⟨c, rest, hCons, -⟩ := Lexeme.begins_of_mem_number hNumber
    cases hCons
  · obtain ⟨c, rest, hCons, -⟩ := Lexeme.mem_name.1 hName
    cases hCons
  · rcases Lexeme.mem_operator.1 hOperator with hCons | ⟨c, -, hCons⟩ <;> cases hCons

theorem Symbol.text_injective {sign other : Symbol} (h : sign.text = other.text) :
    sign = other := by
  cases sign <;> cases other <;> first | rfl | exact absurd h (by decide)

end

end Autodiff.Syntax
