import Autodiff.Text.Quoted
import Mathlib.Algebra.Group.Nat.Defs
import Mathlib.Data.List.Basic

/-!
# Quoted text read back

A character between quotes is written by itself or by an escape, and what is written tells where it
ends. So the characters are read back one by one, and quoted text determines the text.

* `Quoted.readChar?` reads a character, and `readChar?_encodeChar` says that it finds the one that
  was written, whatever follows;
* `Quoted.encode_injective` is the conclusion for texts.
-/

namespace Autodiff.Text.Quoted

/-! ## Hexadecimal digits -/

def hexValue (c : Char) : Nat :=
  if c.isDigit then c.toNat - '0'.toNat else c.toNat - 'a'.toNat + 10

/-- The number written by a run of hexadecimal digits. -/
def ofHex (chars : List Char) : Nat := chars.foldl (fun n c => 16 * n + hexValue c) 0

theorem hexValue_digitChar {n : Nat} (hLt : n < 16) : hexValue (Nat.digitChar n) = n := by
  revert n
  decide

theorem ofHex_concat (chars : List Char) (c : Char) :
    ofHex (chars ++ [c]) = 16 * ofHex chars + hexValue c := by
  rw [ofHex, List.foldl_append]
  rfl

theorem ofHex_toDigits (n : Nat) : ofHex (Nat.toDigits 16 n) = n := by
  induction n using Nat.strongRecOn with
  | ind n ih =>
    by_cases hSmall : n < 16
    · rw [Nat.toDigits_of_lt_base hSmall, ofHex, List.foldl_cons, List.foldl_nil,
        hexValue_digitChar hSmall, Nat.mul_zero, Nat.zero_add]
    · rw [Nat.toDigits_of_base_le (by decide) (by omega), ofHex_concat, ih (n / 16) (by omega),
        hexValue_digitChar (Nat.mod_lt n (by decide))]
      omega

/-- Zeros in front change nothing. -/
theorem ofHex_hexadecimal (width n : Nat) : ofHex (hexadecimal width n) = n := by
  have hZeros (count : Nat) (digits : List Char) :
      ofHex (List.replicate count '0' ++ digits) = ofHex digits := by
    induction count with
    | zero => rfl
    | succ count ih => exact ih
  rw [hexadecimal, hZeros, ofHex_toDigits]

theorem length_hexadecimal {width n : Nat} (hWidth : 0 < width) (hFits : n < 16 ^ width) :
    (hexadecimal width n).length = width := by
  have hLength := (Nat.length_toDigits_le_iff (by decide) hWidth).2 hFits
  rw [hexadecimal, List.length_append, List.length_replicate]
  omega

/-! ## Characters -/

/-- Read a code point with the given number of digits. -/
def readCode (width : Nat) (chars : List Char) : Char × List Char :=
  (Char.ofNat (ofHex (chars.take width)), chars.drop width)

/-- Read what stands for a character: the character and the text behind it. -/
def readChar? : List Char → Option (Char × List Char)
  | '\\' :: 'n' :: rest => some ('\n', rest)
  | '\\' :: 'r' :: rest => some ('\r', rest)
  | '\\' :: 't' :: rest => some ('\t', rest)
  | '\\' :: 'x' :: rest => some (readCode 2 rest)
  | '\\' :: 'u' :: rest => some (readCode 4 rest)
  | '\\' :: 'U' :: rest => some (readCode 8 rest)
  | '\\' :: c :: rest => some (c, rest)
  | c :: rest => some (c, rest)
  | [] => none

theorem readCode_hexadecimal {width : Nat} {c : Char} (hWidth : 0 < width)
    (hFits : c.toNat < 16 ^ width) (rest : List Char) :
    readCode width (hexadecimal width c.toNat ++ rest) = (c, rest) := by
  have hLength := length_hexadecimal hWidth hFits
  rw [readCode, List.take_left' hLength, List.drop_left' hLength, ofHex_hexadecimal,
    Char.ofNat_toNat]

theorem readChar?_escapeCode (c : Char) (rest : List Char) :
    readChar? (escapeCode c.toNat ++ rest) = some (c, rest) := by
  have hRange : c.toNat < 16 ^ 8 := c.val.toNat_lt
  unfold escapeCode
  split
  · next hFits => exact congrArg some (readCode_hexadecimal (by decide) hFits rest)
  · split
    · next hFits => exact congrArg some (readCode_hexadecimal (by decide) hFits rest)
    · exact congrArg some (readCode_hexadecimal (by decide) hRange rest)

/-- A character is read back from what stands for it between quotes. -/
theorem readChar?_encodeChar {quote : Char} (hQuote : quote = '\'' ∨ quote = '"') (c : Char)
    (rest : List Char) : readChar? (encodeChar quote c ++ rest) = some (c, rest) := by
  unfold encodeChar
  split
  · next hMark =>
    rcases hMark with rfl | rfl
    · rcases hQuote with rfl | rfl <;> rfl
    · rfl
  · next hMark =>
    split
    · next hBreak => subst hBreak; rfl
    · split
      · next hReturn => subst hReturn; rfl
      · split
        · next hTab => subst hTab; rfl
        · split
          · rw [List.singleton_append, readChar?]
            all_goals simp_all
          · exact readChar?_escapeCode c rest

theorem encodeChar_append_inj {quote : Char} (hQuote : quote = '\'' ∨ quote = '"') {c d : Char}
    {rest later : List Char} (hSame : encodeChar quote c ++ rest = encodeChar quote d ++ later) :
    c = d ∧ rest = later := by
  have hRead := readChar?_encodeChar hQuote c rest
  rw [hSame, readChar?_encodeChar hQuote d later] at hRead
  obtain ⟨hChar, hRest⟩ := Prod.mk.inj (Option.some.inj hRead)
  exact ⟨hChar.symm, hRest.symm⟩

theorem encodeChar_append_ne_nil {quote : Char} (hQuote : quote = '\'' ∨ quote = '"') (c : Char)
    (rest : List Char) : encodeChar quote c ++ rest ≠ [] := by
  intro hNil
  have hRead := readChar?_encodeChar hQuote c rest
  rw [hNil] at hRead
  cases hRead

/-! ## Texts -/

theorem body_cons (quote c : Char) (chars : List Char) :
    body quote (c :: chars) = encodeChar quote c ++ body quote chars :=
  List.flatMap_cons

theorem body_injective {quote : Char} (hQuote : quote = '\'' ∨ quote = '"') :
    Function.Injective (body quote) := by
  intro chars others hBody
  induction chars generalizing others with
  | nil =>
    cases others with
    | nil => rfl
    | cons d others =>
      rw [body_cons] at hBody
      exact absurd hBody.symm (encodeChar_append_ne_nil hQuote d _)
  | cons c chars ih =>
    cases others with
    | nil =>
      rw [body_cons] at hBody
      exact absurd hBody (encodeChar_append_ne_nil hQuote c _)
    | cons d others =>
      rw [body_cons, body_cons] at hBody
      obtain ⟨rfl, hRest⟩ := encodeChar_append_inj hQuote hBody
      rw [ih hRest]

theorem quoteOf_cases (chars : List Char) : quoteOf chars = '\'' ∨ quoteOf chars = '"' := by
  unfold quoteOf
  split
  · exact .inr rfl
  · exact .inl rfl

/-- Texts that are quoted alike are the same. -/
theorem encode_injective : Function.Injective encode := by
  intro source other hEncode
  have hChars := String.ofList_injective hEncode
  obtain ⟨hQuote, hRest⟩ := List.cons.inj hChars
  rw [hQuote] at hRest
  have hBody := List.append_cancel_right hRest
  exact String.toList_injective (body_injective (quoteOf_cases _) hBody)

end Autodiff.Text.Quoted
