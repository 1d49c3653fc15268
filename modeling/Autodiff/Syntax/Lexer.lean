import Autodiff.Syntax.Token
import Autodiff.Text.Blank
import Autodiff.Text.Numeral
import Autodiff.Text.Quoted

/-!
# From text to tokens

A text is read from left to right: white space is skipped, and otherwise the longest
word at the front is the next token. A character that begins no word is an error, with
its position counted in characters.

* `tokenizeFrom_length` bounds the number of tokens by the length of the text.
-/

namespace Autodiff.Syntax

open Text

structure LexError where
  char : Char
  /-- The number of characters before it. -/
  position : Nat
  deriving DecidableEq

def LexError.message (e : LexError) : String :=
  "Unexpected character " ++ Quoted.encode (String.singleton e.char) ++ " at position " ++
    natText e.position

/-- The tokens of a text whose first character has the given position. -/
def tokenizeFrom (position : Nat) (chars : List Char) : Except LexError (List Token) :=
  match chars with
  | [] => .ok []
  | c :: rest =>
    if isBlank c then tokenizeFrom (position + 1) rest
    else
      match _hFirst : Token.first? (c :: rest) with
      | none => .error ⟨c, position⟩
      | some (token, length) =>
        match tokenizeFrom (position + length) ((c :: rest).drop length) with
        | .error e => .error e
        | .ok tokens => .ok (token :: tokens)
termination_by chars.length
decreasing_by
  · simp
  · have := Token.first?_length_pos _hFirst
    simp only [List.length_drop, List.length_cons]
    omega

def tokenize (source : String) : Except LexError (List Token) := tokenizeFrom 0 source.toList

/-- A text has at most as many tokens as characters. -/
theorem tokenizeFrom_length {position : Nat} {chars : List Char} {tokens : List Token}
    (hTokens : tokenizeFrom position chars = .ok tokens) : tokens.length ≤ chars.length := by
  fun_induction tokenizeFrom position chars generalizing tokens with
  | case1 =>
    cases hTokens
    exact Nat.le_refl _
  | case2 position c rest hBlank ih =>
    have := ih hTokens
    simp only [List.length_cons]
    omega
  | case3 => cases hTokens
  | case4 => cases hTokens
  | case5 position c rest hBlank token length hFirst later hLater ih =>
    cases hTokens
    have hPos := Token.first?_length_pos hFirst
    have := ih hLater
    simp only [List.length_drop, List.length_cons] at this ⊢
    omega

end Autodiff.Syntax
