import Autodiff.Text.Digit
import Autodiff.Text.Word

/-!
# Tokens

The words of the expression language: numbers, names and symbols. Each kind is described
by the length of the longest word of that kind at the front of a text, where 0 says that
there is none.

* `numberLength`, `nameLength` and `symbolLength` are these lengths; a number, a name
  and a symbol begin with different characters, so at most one of them is positive;
* `Token.text_symbol` gives the text of a symbol; a power has the text `^`, however it
  was written.
-/

namespace Autodiff.Syntax

open Text

inductive Symbol where
  | plus
  | minus
  | times
  | divide
  | power
  | opening
  | closing
  deriving DecidableEq

def Symbol.text : Symbol → String
  | plus => "+"
  | minus => "-"
  | times => "*"
  | divide => "/"
  | power => "^"
  | opening => "("
  | closing => ")"

/-- A word of the expression language. -/
inductive Token where
  /-- An unsigned number as it is written. -/
  | number (numeral : String)
  | name (word : String)
  | symbol (sign : Symbol)
  deriving DecidableEq

namespace Token

def text : Token → String
  | number numeral => numeral
  | name word => word
  | symbol sign => sign.text

/-- The name of the kind of a token. -/
def kindName : Token → String
  | number _ => "number"
  | name _ => "name"
  | symbol _ => "op"

@[simp] theorem text_symbol (sign : Symbol) : (symbol sign).text = sign.text := rfl

end Token

/-! ## Numbers -/

/-- The number of digits at the front of a text. -/
def digitsLength (chars : List Char) : Nat := (chars.takeWhile isDigit).length

/-- The length of a mantissa: digits with an optional point behind, between or, if a
digit follows it, before them. -/
def mantissaLength (chars : List Char) : Nat :=
  let whole := digitsLength chars
  match chars.drop whole with
  | '.' :: rest =>
    let fraction := digitsLength rest
    if whole = 0 ∧ fraction = 0 then 0 else whole + 1 + fraction
  | _ => whole

/-- The length of a power of ten: the letter, an optional sign, and digits. -/
def exponentLength : List Char → Nat
  | mark :: rest =>
    if mark = 'e' ∨ mark = 'E' then
      let signLength := match rest with
        | '+' :: _ | '-' :: _ => 1
        | _ => 0
      let run := digitsLength (rest.drop signLength)
      if run = 0 then 0 else 1 + signLength + run
    else 0
  | [] => 0

/-- The length of a number: a mantissa with an optional power of ten. -/
def numberLength (chars : List Char) : Nat :=
  let mantissa := mantissaLength chars
  if mantissa = 0 then 0 else mantissa + exponentLength (chars.drop mantissa)

/-! ## Names and symbols -/

/-- The length of a name: an ASCII letter or a low line, and then word characters. -/
def nameLength : List Char → Nat
  | c :: rest => if isNameStart c then 1 + (rest.takeWhile isWord).length else 0
  | [] => 0

/-- The symbol at the front of a text with its length. -/
def symbol? : List Char → Option (Symbol × Nat)
  | '*' :: '*' :: _ => some (.power, 2)
  | '*' :: _ => some (.times, 1)
  | '+' :: _ => some (.plus, 1)
  | '-' :: _ => some (.minus, 1)
  | '/' :: _ => some (.divide, 1)
  | '^' :: _ => some (.power, 1)
  | '(' :: _ => some (.opening, 1)
  | ')' :: _ => some (.closing, 1)
  | _ => none

def symbolLength (chars : List Char) : Nat := ((symbol? chars).map Prod.snd).getD 0

theorem symbol?_length_pos {chars : List Char} {sign : Symbol} {length : Nat}
    (hSymbol : symbol? chars = some (sign, length)) : 0 < length := by
  unfold symbol? at hSymbol
  split at hSymbol <;> simp at hSymbol <;> omega

/-! ## The first token -/

/-- The token at the front of a text with the length of its word. -/
def Token.first? (chars : List Char) : Option (Token × Nat) :=
  let number := numberLength chars
  if 0 < number then some (.number (String.ofList (chars.take number)), number)
  else
    let name := nameLength chars
    if 0 < name then some (.name (String.ofList (chars.take name)), name)
    else (symbol? chars).map fun (sign, length) => (.symbol sign, length)

theorem Token.first?_length_pos {chars : List Char} {token : Token} {length : Nat}
    (hFirst : Token.first? chars = some (token, length)) : 0 < length := by
  simp only [Token.first?] at hFirst
  split at hFirst
  · next h =>
    simp only [Option.some.injEq, Prod.mk.injEq] at hFirst
    omega
  · split at hFirst
    · next h =>
      simp only [Option.some.injEq, Prod.mk.injEq] at hFirst
      omega
    · obtain ⟨⟨sign, length'⟩, hSymbol, hEq⟩ := Option.map_eq_some_iff.1 hFirst
      simp only [Prod.mk.injEq] at hEq
      have := symbol?_length_pos hSymbol
      omega

end Autodiff.Syntax
