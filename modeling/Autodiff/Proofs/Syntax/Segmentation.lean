import Autodiff.Proofs.Syntax.LongestMatch
import Autodiff.Proofs.Text.Classes
import Autodiff.Proofs.Text.Digits
import Autodiff.Proofs.Text.Quoted

/-!
# Segmentation

The tokens of a text are those of its segmentation into white space and words, where each word is
the longest at its place. There is at most one such segmentation, and a text without one has a
front that is segmented and then a character that is neither white space nor the beginning of a
word. Longest is meant with respect to all of the remaining text, so that a front is segmented
with what follows it in view.

* `Segments` is the relation between a text, what follows it, and its tokens;
* `Segments.tokenizeFrom` says that the scanner finds these tokens and goes on behind the text;
* `exists_segments` segments a text up to its end or up to a character that begins no word;
* `tokenize_iff_segments` describes both outcomes of the scanner;
* `message_of_tokenize` says that the message of an error names the character and its position, and
  `LexError.message_injective` that it names no other.
-/

namespace Autodiff.Syntax

open Text

/-- The text consists of the words of the tokens with white space before, between and behind them,
if the rest follows. Each word is the longest one at its place. -/
inductive Segments (rest : List Char) : List Char → List Token → Prop where
  | gap {gap : List Char} (hGap : ∀ c ∈ gap, isBlank c = true) : Segments rest gap []
  | word {gap word text : List Char} {token : Token} {tokens : List Token}
      (hGap : ∀ c ∈ gap, isBlank c = true) (hSpells : token.Spells word)
      (hLongest : ∀ other ∈ lexeme, other <+: word ++ (text ++ rest) → other.length ≤ word.length)
      (hText : Segments rest text tokens) : Segments rest (gap ++ (word ++ text)) (token :: tokens)

/-- The text is at a character that is no white space and begins no word. -/
def Stuck (c : Char) (rest : List Char) : Prop :=
  isBlank c = false ∧ ∀ word ∈ lexeme, ¬ word <+: c :: rest

section

variable {gap text rest : List Char} {tokens : List Token}

/-! ## The scanner on a segmented text -/

theorem tokenizeFrom_gap (hGap : ∀ c ∈ gap, isBlank c = true) (position : Nat)
    (rest : List Char) :
    tokenizeFrom position (gap ++ rest) = tokenizeFrom (position + gap.length) rest := by
  induction gap generalizing position with
  | nil => rfl
  | cons c gap ih =>
    obtain ⟨hBlank, hGap⟩ := List.forall_mem_cons.1 hGap
    rw [List.cons_append, tokenizeFrom_blank hBlank, ih hGap, List.length_cons, Nat.add_assoc,
      Nat.add_comm 1]

/-- A word begins with a digit, a point, a letter or an operator, none of which is white space. -/
theorem isBlank_of_mem_lexeme {c : Char} {word : List Char} (hWord : c :: word ∈ lexeme) :
    isBlank c = false := by
  refine Bool.eq_false_iff.2 fun hBlank => ?_
  rcases mem_lexeme.1 hWord with hNumber | hName | hOperator
  · obtain ⟨d, rest, hText, hFirst⟩ := Lexeme.begins_of_mem_number hNumber
    obtain ⟨rfl, -⟩ := List.cons.inj hText
    rcases hFirst with hDigit | rfl
    · exact absurd hDigit (by simp [isDigit_of_isBlank hBlank])
    · exact absurd hBlank (by decide)
  · obtain ⟨d, rest, hText, hStart, -⟩ := Lexeme.mem_name.1 hName
    obtain ⟨rfl, -⟩ := List.cons.inj hText
    obtain ⟨hLo, hHi⟩ := isNameStart_toNat hStart
    exact absurd hBlank (by simp [isBlank_eq_false (by omega : 0x20 < c.toNat) (by omega)])
  · rcases Lexeme.mem_operator.1 hOperator with hText | ⟨d, hClass, hText⟩
    · obtain ⟨rfl, -⟩ := List.cons.inj hText
      exact absurd hBlank (by decide)
    · obtain ⟨rfl, -⟩ := List.cons.inj hText
      rcases Lexeme.isOperator_iff.1 hClass with rfl | rfl | rfl | rfl | rfl | rfl | rfl <;>
        exact absurd hBlank (by decide)

theorem tokenizeFrom_word {word : List Char} {token : Token} (hSpells : token.Spells word)
    (hLongest : ∀ other ∈ lexeme, other <+: word ++ rest → other.length ≤ word.length)
    (position : Nat) :
    tokenizeFrom position (word ++ rest) = (do
      let later ← tokenizeFrom (position + word.length) rest
      return token :: later) := by
  have hFirst : Token.first? (word ++ rest) = some (token, word.length) := by
    refine Token.first?_eq_some_iff.2 ⟨by rwa [List.take_left], ?_, by simp, hLongest⟩
    rw [List.take_left]
    exact fun _ => hSpells.mem_lexeme
  have hWord := hSpells.mem_lexeme
  obtain ⟨c, tail, rfl⟩ := List.exists_cons_of_ne_nil (ne_nil_of_mem_lexeme hWord)
  have hDrop : (c :: (tail ++ rest)).drop (c :: tail).length = rest := List.drop_left
  rw [List.cons_append] at hFirst ⊢
  rw [tokenizeFrom_some (isBlank_of_mem_lexeme hWord) hFirst, hDrop]

/-- The scanner finds the tokens of a segmented text and goes on behind it. -/
theorem Segments.tokenizeFrom (h : Segments rest text tokens) (position : Nat) :
    tokenizeFrom position (text ++ rest) = (do
      let later ← Syntax.tokenizeFrom (position + text.length) rest
      return tokens ++ later) := by
  induction h generalizing position with
  | gap hGap =>
    rw [tokenizeFrom_gap hGap]
    simp
  | @word gap word text token tokens hGap hSpells hLongest hText ih =>
    rw [List.append_assoc, List.append_assoc, tokenizeFrom_gap hGap,
      tokenizeFrom_word hSpells hLongest, ih]
    simp only [bind_assoc, pure_bind, List.cons_append, List.length_append, Nat.add_assoc]

/-! ## Segmenting a text -/

theorem Segments.blank_cons {c : Char} (hBlank : isBlank c = true)
    (h : Segments rest text tokens) : Segments rest (c :: text) tokens := by
  cases h with
  | gap hGap => exact .gap (List.forall_mem_cons.2 ⟨hBlank, hGap⟩)
  | word hGap hSpells hLongest hText =>
    rw [← List.cons_append]
    exact .word (List.forall_mem_cons.2 ⟨hBlank, hGap⟩) hSpells hLongest hText

/-- What follows a segmented text may be dropped: a word that is the longest in a text is the
longest in a front of it. -/
theorem Segments.drop_rest (h : Segments rest text tokens) : Segments [] text tokens := by
  induction h with
  | gap hGap => exact .gap hGap
  | @word gap word text token tokens hGap hSpells hLongest hText ih =>
    refine .word hGap hSpells (fun other hOther hFront => hLongest other hOther ?_) ih
    rw [List.append_nil] at hFront
    rw [← List.append_assoc]
    exact hFront.trans (List.prefix_append _ rest)

/-- A text is segmented up to its end, or up to a character that begins no word. -/
theorem exists_segments (chars : List Char) :
    ∃ text rest tokens, chars = text ++ rest ∧ Segments rest text tokens ∧
      (rest = [] ∨ ∃ c later, rest = c :: later ∧ Stuck c later) := by
  -- every step takes a blank or a whole word off the front, so the induction is on the length
  induction hLength : chars.length using Nat.strongRecOn generalizing chars with
  | ind n ih =>
    subst hLength
    cases chars with
    | nil => exact ⟨[], [], [], rfl, .gap (by simp), .inl rfl⟩
    | cons c tail =>
      cases hBlank : isBlank c with
      | true =>
        obtain ⟨text, rest, tokens, rfl, hSegments, hRest⟩ := ih _ (Nat.lt_succ_self _) tail rfl
        exact ⟨c :: text, rest, tokens, rfl, hSegments.blank_cons hBlank, hRest⟩
      | false =>
        cases hFirst : Token.first? (c :: tail) with
        | none =>
          exact ⟨[], c :: tail, [], rfl, .gap (by simp),
            .inr ⟨c, tail, rfl, hBlank, Token.first?_eq_none_iff.1 hFirst⟩⟩
        | some found =>
          obtain ⟨token, length⟩ := found
          obtain ⟨hSpells, hLongest⟩ := Token.first?_eq_some_iff.1 hFirst
          have hPos := Token.first?_length_pos hFirst
          have hLe := hLongest.le_length
          obtain ⟨text, rest, tokens, hDrop, hSegments, hRest⟩ :=
            ih _ (by rw [List.length_drop]; omega) ((c :: tail).drop length) rfl
          have hChars : c :: tail = (c :: tail).take length ++ (text ++ rest) := by
            rw [← hDrop, List.take_append_drop]
          refine ⟨(c :: tail).take length ++ text, rest, token :: tokens, ?_, ?_, hRest⟩
          · rw [List.append_assoc, ← hChars]
          · have hGap : ∀ c ∈ ([] : List Char), isBlank c = true := by simp
            refine Segments.word hGap hSpells (fun other hOther hFront => ?_) hSegments
            rw [← hChars] at hFront
            rw [List.length_take_of_le hLe]
            exact hLongest.max other hOther hFront

/-! ## The outcomes of the scanner -/

theorem tokenizeFrom_of_segments (h : Segments [] text tokens) (position : Nat) :
    tokenizeFrom position text = .ok tokens := by
  have hTokens := h.tokenizeFrom position
  rw [tokenizeFrom_nil, List.append_nil, ok_bind, List.append_nil] at hTokens
  exact hTokens

theorem tokenizeFrom_of_stuck {c : Char} (h : Segments (c :: rest) text tokens)
    (hStuck : Stuck c rest) (position : Nat) :
    tokenizeFrom position (text ++ c :: rest) = .error ⟨c, position + text.length⟩ := by
  rw [h.tokenizeFrom, tokenizeFrom_none hStuck.1 (Token.first?_eq_none_iff.2 hStuck.2), error_bind]

end

theorem segments_of_tokenize {source : String} {tokens : List Token}
    (hTokens : tokenize source = .ok tokens) : Segments [] source.toList tokens := by
  obtain ⟨text, rest, found, hText, hSegments, hRest⟩ := exists_segments source.toList
  rw [tokenize, hText] at hTokens
  rcases hRest with rfl | ⟨c, later, rfl, hStuck⟩
  · rw [List.append_nil] at hTokens hText
    obtain rfl := Except.ok.inj ((tokenizeFrom_of_segments hSegments 0).symm.trans hTokens)
    rwa [hText]
  · cases (tokenizeFrom_of_stuck hSegments hStuck 0).symm.trans hTokens

theorem stuck_of_tokenize {source : String} {e : LexError} (hError : tokenize source = .error e) :
    ∃ text rest tokens, source.toList = text ++ e.char :: rest ∧ text.length = e.position ∧
      Segments (e.char :: rest) text tokens ∧ Stuck e.char rest := by
  obtain ⟨text, rest, found, hText, hSegments, hRest⟩ := exists_segments source.toList
  rw [tokenize, hText] at hError
  rcases hRest with rfl | ⟨c, later, rfl, hStuck⟩
  · rw [List.append_nil] at hError
    cases (tokenizeFrom_of_segments hSegments 0).symm.trans hError
  · obtain rfl := Except.error.inj ((tokenizeFrom_of_stuck hSegments hStuck 0).symm.trans hError)
    exact ⟨text, later, found, hText, (Nat.zero_add _).symm, hSegments, hStuck⟩

/-- The scanner yields the tokens of the segmentation of a text. Without a segmentation it names
a character with its position, such that the text before is segmented, the words being the longest
ones in the whole text, and the character is neither white space nor the beginning of a word. -/
theorem tokenize_iff_segments (source : String) :
    (∀ tokens, tokenize source = .ok tokens ↔ Segments [] source.toList tokens) ∧
    (∀ c position, tokenize source = .error ⟨c, position⟩ ↔
      ∃ text rest tokens, source.toList = text ++ c :: rest ∧ text.length = position ∧
        Segments (c :: rest) text tokens ∧ Segments [] text tokens ∧ Stuck c rest) ∧
    ((∃ tokens, Segments [] source.toList tokens) ∨
      ∃ c position, tokenize source = .error ⟨c, position⟩) := by
  refine ⟨fun tokens => ⟨segments_of_tokenize, fun h => tokenizeFrom_of_segments h 0⟩,
    fun c position => ⟨fun hError => ?_, ?_⟩, ?_⟩
  · obtain ⟨text, rest, tokens, hText, hLength, hSegments, hStuck⟩ := stuck_of_tokenize hError
    exact ⟨text, rest, tokens, hText, hLength, hSegments, hSegments.drop_rest, hStuck⟩
  · rintro ⟨text, rest, tokens, hText, rfl, hSegments, -, hStuck⟩
    rw [tokenize, hText, tokenizeFrom_of_stuck hSegments hStuck, Nat.zero_add]
  · cases hTokens : tokenize source with
    | ok tokens => exact .inl ⟨tokens, segments_of_tokenize hTokens⟩
    | error e => exact .inr ⟨e.char, e.position, rfl⟩

/-- A point belongs to the number before it, and letters and signs to a power of ten only with
digits behind them. -/
example : tokenize "1..5 1e+x" = .ok [.number "1.", .number ".5", .number "1", .name "e",
    .symbol .plus, .name "x"] := by cbv

/-- Two stars are taken together, from the left. -/
example : tokenize "x***" = .ok [.name "x", .symbol .power, .symbol .times] := by cbv

/-! ## The message of an error -/

/-- What stands behind the last space of a text is cut off in one way. -/
theorem append_natText_inj {front other : String} {m n : Nat}
    (hSame : front ++ " " ++ natText m = other ++ " " ++ natText n) : front = other ∧ m = n := by
  have hSpace (k : Nat) : ∀ c ∈ (natText k).toList.reverse, (c != ' ') = true := by
    intro c hMem
    rw [natText, String.toList_ofList] at hMem
    have hDigit := isDigit_of_mem_digits (List.mem_reverse.1 hMem)
    refine bne_iff_ne.2 ?_
    rintro rfl
    cases hDigit
  have hTake (before : String) (k : Nat) :
      (before ++ " " ++ natText k).toList.reverse.takeWhile (· != ' ') =
        (natText k).toList.reverse := by
    rw [String.toList_append, String.toList_append, List.reverse_append, List.reverse_append,
      List.takeWhile_append_of_pos (hSpace k)]
    exact List.append_nil _
  have hText : natText m = natText n := by
    have hTaken := hTake front m
    rw [hSame, hTake] at hTaken
    exact String.toList_injective (List.reverse_injective hTaken).symm
  rw [hText] at hSame
  exact ⟨String.append_left_inj _ |>.1 (String.append_left_inj _ |>.1 hSame), natText_inj.1 hText⟩

/-- Errors with the same message are the same. -/
theorem LexError.message_injective : Function.Injective LexError.message := by
  rintro ⟨c, m⟩ ⟨d, n⟩ hMessage
  have hText (c : Char) (m : Nat) : LexError.message ⟨c, m⟩ =
      "Unexpected character " ++ Quoted.encode (String.singleton c) ++ " at position" ++ " " ++
        natText m := by
    have hPlace : " at position " = " at position" ++ " " := by rfl
    unfold LexError.message
    rw [hPlace, ← String.append_assoc]
  rw [hText, hText] at hMessage
  obtain ⟨hFront, rfl⟩ := append_natText_inj hMessage
  have hQuoted := String.append_left_inj _ |>.1 hFront
  have hChar := Quoted.encode_injective (String.append_right_inj _ |>.1 hQuoted)
  have hSingle : [c] = [d] := by simpa using congrArg String.toList hChar
  rw [(List.cons.inj hSingle).1]

/-- The message of an error of the scanner names a character and a position. The character stands
at the position, and no other error has the message. -/
theorem message_of_tokenize {source : String} {e : LexError} (hError : tokenize source = .error e) :
    source.toList[e.position]? = some e.char ∧
      e.message = "Unexpected character " ++ Quoted.encode (String.singleton e.char) ++
        " at position " ++ natText e.position ∧
      ∀ other : LexError, other.message = e.message → other = e := by
  obtain ⟨text, rest, tokens, hText, hLength, -⟩ := stuck_of_tokenize hError
  refine ⟨?_, rfl, fun other hMessage => LexError.message_injective hMessage⟩
  rw [hText, ← hLength, List.getElem?_append_right (Nat.le_refl _), Nat.sub_self]
  rfl

end Autodiff.Syntax
