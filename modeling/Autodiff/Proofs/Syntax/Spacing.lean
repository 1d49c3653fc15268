import Autodiff.Proofs.Syntax.Segmentation

/-!
# White space between tokens

No token goes on with white space, and none begins with it. So white space between two texts
separates their tokens, whatever the texts are: the tokens are those of the parts, and the first
error is the error. In particular tokens can be written with single spaces between them and are
found again.

* `Boundary.of_isBlank` says that white space is a boundary, `Token.Spells.lexes` that a word alone
  is one token;
* `Token.Lexical` are the tokens that a text can have, `lexes_joined` says that they are found again
  when they are written with spaces between them;
* `tokenize_append_blank` joins these facts.
-/

namespace Autodiff.Syntax

open Text

/-- No token goes on with white space. -/
theorem Boundary.of_isBlank {c : Char} (hBlank : isBlank c = true) : Boundary c where
  not_word := isWord_of_isBlank hBlank
  not_digit := isDigit_of_isBlank hBlank
  ne_point := by rintro rfl; exact absurd hBlank (by decide)
  ne_plus := by rintro rfl; exact absurd hBlank (by decide)
  ne_minus := by rintro rfl; exact absurd hBlank (by decide)
  ne_times := by rintro rfl; exact absurd hBlank (by decide)

/-! ## Words alone -/

/-- A word alone is one token. -/
theorem Token.Spells.lexes {token : Token} {word : List Char} (h : token.Spells word) :
    Lexes word [token] := by
  have hFirst := h.first?
  have hWord := h.mem_lexeme
  obtain ⟨c, rest, rfl⟩ := List.exists_cons_of_ne_nil (ne_nil_of_mem_lexeme hWord)
  exact .single (isBlank_of_mem_lexeme hWord) hFirst

theorem IsName.lexes {word : String} (hName : IsName word) : Lexes word.toList [.name word] := by
  have hWord : word.toList ∈ Lexeme.name := Lexeme.mem_name.2 hName
  have hText : word = Lexeme.written word.toList := by
    rw [written_of_mem (.inr hWord), String.ofList_toList]
  exact Token.Spells.lexes ⟨hWord, hText⟩

/-! ## Tokens with spaces between them -/

/-- The text of the token is a word for it. -/
def Token.Lexical (token : Token) : Prop := token.Spells token.text.toList

/-- The texts of the tokens with single spaces between them. -/
def joined (tokens : List Token) : String := " ".intercalate (tokens.map Token.text)

theorem Token.lexical_symbol (sign : Symbol) : (Token.symbol sign).Lexical := by
  refine ⟨Lexeme.mem_operator.2 (.inr ?_), ?_⟩
  · cases sign <;> exact ⟨_, rfl, rfl⟩
  · cases sign <;> rfl

theorem Token.Spells.lexical {token : Token} {word : List Char} (h : token.Spells word) :
    token.Lexical := by
  cases token with
  | number numeral =>
    have hText : numeral = String.ofList word := h.2.trans (written_of_mem (.inl h.1))
    rw [Token.Lexical, Token.text, hText, String.toList_ofList, ← hText]
    exact h
  | name name =>
    have hText : name = String.ofList word := h.2.trans (written_of_mem (.inr h.1))
    rw [Token.Lexical, Token.text, hText, String.toList_ofList, ← hText]
    exact h
  | symbol sign => exact lexical_symbol sign

theorem Segments.lexical {rest text : List Char} {tokens : List Token}
    (h : Segments rest text tokens) : ∀ token ∈ tokens, token.Lexical := by
  induction h with
  | gap => simp
  | word _ hSpells _ _ ih => exact List.forall_mem_cons.2 ⟨hSpells.lexical, ih⟩

theorem lexical_of_tokenize {source : String} {tokens : List Token}
    (hTokens : tokenize source = .ok tokens) : ∀ token ∈ tokens, token.Lexical :=
  (segments_of_tokenize hTokens).lexical

theorem lexes_joined {tokens : List Token} (hTokens : ∀ token ∈ tokens, token.Lexical) :
    Lexes (joined tokens).toList tokens := by
  induction tokens with
  | nil => exact .nil
  | cons token tokens ih =>
    obtain ⟨hToken, hTokens⟩ := List.forall_mem_cons.1 hTokens
    cases tokens with
    | nil => simpa [joined] using Token.Spells.lexes hToken
    | cons next tokens =>
      have hLater := (ih hTokens).blank isBlank_space
      have hWhole := (Token.Spells.lexes hToken).append hLater (boundary_space.stops _)
      simpa [joined, String.toList_intercalate, List.intercalate_cons_cons] using hWhole

/-! ## White space as a separator -/

/-- The scanner on two texts with white space between them. The tokens of the second text, or its
error, are those that it has by itself, moved to their place. -/
theorem tokenize_spaced {blanks : String} (hNe : blanks ≠ "")
    (hBlank : ∀ c ∈ blanks.toList, isBlank c = true) (front back : String) :
    tokenize (front ++ blanks ++ back) = (do
      let tokens ← tokenize front
      let later ← (tokenize back).mapError (LexError.after (front.length + blanks.length))
      return tokens ++ later) := by
  obtain ⟨c, gap, hBlanks⟩ := List.exists_cons_of_ne_nil (mt String.toList_eq_nil_iff.1 hNe)
  have hStops : Stops (blanks.toList ++ back.toList) := by
    rw [hBlanks]
    exact (Boundary.of_isBlank (hBlank c (hBlanks ▸ List.mem_cons_self))).stops _
  have hBack := tokenizeFrom_add (front.length + blanks.length) 0 back.toList
  simp only [tokenize, String.toList_append, List.append_assoc]
  rw [tokenizeFrom_append hStops, tokenizeFrom_gap hBlank, ← hBack, String.length_toList,
    String.length_toList, Nat.zero_add, Nat.add_zero]

/-- White space separates tokens: a text that goes on behind white space has the tokens of both
parts, and the first error is the error. Tokens that are written with single spaces between them
are found again. -/
theorem tokenize_append_blank :
    (∀ front blanks back : String, blanks ≠ "" → (∀ c ∈ blanks.toList, isBlank c = true) →
      tokenize (front ++ blanks ++ back) =
        match tokenize front, tokenize back with
        | .error e, _ => .error e
        | .ok _, .error e => .error ⟨e.char, front.length + blanks.length + e.position⟩
        | .ok tokens, .ok later => .ok (tokens ++ later)) ∧
    ∀ source tokens, tokenize source = .ok tokens → tokenize (joined tokens) = .ok tokens := by
  refine ⟨fun front blanks back hNe hBlank => ?_, fun source tokens hTokens => ?_⟩
  · rw [tokenize_spaced hNe hBlank]
    cases tokenize front with
    | error e => rfl
    | ok tokens => cases tokenize back <;> rfl
  · exact (lexes_iff _ _).1 (lexes_joined (lexical_of_tokenize hTokens))

/-- A power of ten that is cut off before its digits, with an error behind it, and stars that are
read as one sign and come back as another. -/
theorem tokenize_append_blank_cut :
    tokenize ("1e" ++ "\t " ++ "+5?") = .error ⟨'?', 6⟩ ∧
    tokenize (joined [.name "x", .symbol .power, .symbol .times]) =
      .ok [.name "x", .symbol .power, .symbol .times] := by
  refine ⟨?_, tokenize_append_blank.2 "x***" _ (by cbv)⟩
  have hFront : tokenize "1e" = .ok [.number "1", .name "e"] := by cbv
  have hBack : tokenize "+5?" = .error ⟨'?', 2⟩ := by cbv
  have hBlank : ∀ c ∈ "\t ".toList, isBlank c = true := List.all_eq_true.1 rfl
  rw [tokenize_append_blank.1 "1e" "\t " "+5?" (by decide) hBlank, hFront, hBack]
  rfl

end Autodiff.Syntax
