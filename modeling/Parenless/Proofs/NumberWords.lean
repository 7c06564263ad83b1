import Parenless.Proofs.Failures
import Mathlib
/-!
Words that read as numbers.

A word is read as a number literal when its first character is digit-like
(`Text.isDigitLike`): an ASCII digit, or a digit of another script, a superscript or a
similar form. Only a run of ASCII digits whose decimal value fits in 64 bits makes a
number; any other word that starts digit-like is an invalid number literal, blamed on
the whole word, and a word that does not start digit-like is a name or the arrow.

The value is checked by a decimal reader that refuses numerals of more than
`digitLimit` digits before it reads them, so a run of more ASCII digits stops reading
with that failure, whatever its value, leading zeros included.

Main statement (`digit_words_read`): what the reader does at a word, in every case.
-/

namespace Parenless

namespace Lexer

theorem word_of_digitLike {c : Char} (cs : List Char) (pos : Nat)
    (hd : Text.isDigitLike c = true) :
    word (c :: cs) pos =
      if isNumeral (c :: cs) = false then .error (.error (.invalidNumber ⟨pos, pos + (cs.length + 1)⟩))
      else if digitLimit < cs.length + 1 then .error (.tooManyDigits (cs.length + 1))
      else if maxNumber < numeralValue (c :: cs) then
        .error (.error (.invalidNumber ⟨pos, pos + (cs.length + 1)⟩))
      else .ok ⟨.number (numeralValue (c :: cs)), ⟨pos, pos + (cs.length + 1)⟩⟩ := by
  have hq : c ≠ '"' := by rintro rfl; exact absurd hd (by decide)
  have hm : c ≠ '-' := by rintro rfl; exact absurd hd (by decide)
  have hb : c ≠ '\\' := by rintro rfl; exact absurd hd (by decide)
  simp [word, hq, hm, hb, hd]

theorem word_of_not_digitLike {c : Char} (cs : List Char) (pos : Nat)
    (hq : c ≠ '"') (hb : c ≠ '\\') (hd : Text.isDigitLike c = false) :
    word (c :: cs) pos =
      .ok ⟨if c :: cs = ['-', '>'] then .arrow else .name (String.ofList (c :: cs)),
        ⟨pos, pos + (cs.length + 1)⟩⟩ := by
  by_cases ha : c :: cs = ['-', '>']
  · simp only [word, hq, ha, if_true, if_false, List.length_cons]
    simp only [List.cons.injEq] at ha
    simp [ha.2]
  · simp [word, hq, ha, hb, hd]

theorem scanFrom_at_word {c : Char} {cs rest : List Char} (pos : Nat)
    (hw : ∀ d ∈ c :: cs, Text.isBlank d = false) (hr : EndsWord rest) (hh : c ≠ '#')
    (hq : c ≠ '"') :
    scanFrom pos (c :: cs ++ rest) =
      match word (c :: cs) pos with
      | .error e => .error e
      | .ok tok => (tok :: ·) <$> scanFrom (pos + (cs.length + 1)) rest := by
  cases hword : word (c :: cs) pos with
  | error e =>
    rw [List.cons_append, scanFrom_word pos _ (hw c (by simp)) hh (fun h => absurd h hq),
      ← List.cons_append, takeWhile_word hw hr]
    simp only [hword]
  | ok tok => exact scanFrom_of_word hw hr hh hq hword

/-! ### Main statement -/

/-- How a word is read at a token start. When it starts digit-like it is a number exactly
when it is a run of ASCII digits whose decimal value is at most 2^64 - 1, and an invalid
number literal spanning the word otherwise; a run of more ASCII digits than the decimal
reader takes stops reading instead. When it does not start digit-like it is never a
number. -/
theorem digit_words_read (pos : Nat) {c : Char} {cs rest : List Char}
    (hw : ∀ d ∈ c :: cs, Text.isBlank d = false) (hc : c ≠ '"' ∧ c ≠ '#' ∧ c ≠ '\\')
    (hr : EndsWord rest) :
    (Text.isDigitLike c = true →
      scanFrom pos (c :: cs ++ rest) =
        if (c :: cs).all Char.isDigit = true ∧ digitLimit < cs.length + 1 then
          .error (.tooManyDigits (cs.length + 1))
        else if (c :: cs).all Char.isDigit = true ∧
            Nat.ofDigits 10 ((c :: cs).reverse.map fun d => d.toNat - '0'.toNat) ≤ maxNumber then
          (⟨.number (Nat.ofDigits 10 ((c :: cs).reverse.map fun d => d.toNat - '0'.toNat)),
            ⟨pos, pos + (cs.length + 1)⟩⟩ :: ·) <$> scanFrom (pos + (cs.length + 1)) rest
        else .error (.error (.invalidNumber ⟨pos, pos + (cs.length + 1)⟩))) ∧
    (Text.isDigitLike c = false →
      scanFrom pos (c :: cs ++ rest) =
        (⟨if c :: cs = ['-', '>'] then .arrow else .name (String.ofList (c :: cs)),
          ⟨pos, pos + (cs.length + 1)⟩⟩ :: ·) <$> scanFrom (pos + (cs.length + 1)) rest) := by
  obtain ⟨hq, hh, hb⟩ := hc
  rw [scanFrom_at_word pos hw hr hh hq]
  refine ⟨fun hd => ?_, fun hd => by rw [word_of_not_digitLike cs pos hq hb hd]⟩
  rw [word_of_digitLike cs pos hd, ← numeralValue_eq_ofDigits]
  unfold isNumeral
  -- the reader checks the digits, then their count, then the value
  by_cases hall : (c :: cs).all Char.isDigit = true
  · by_cases hlim : digitLimit < cs.length + 1
    · simp [hall, hlim]
    · by_cases hmax : maxNumber < numeralValue (c :: cs)
      · simp [hall, hlim, hmax]
      · simp [hall, hlim, hmax, Nat.le_of_not_lt hmax]
  · simp [hall]

/-- The word `07` before a blank is the number seven, spanning both digits, and the word
after the blank is read on. -/
theorem digit_words_read_zero_seven :
    (∀ d ∈ ['0', '7'], Text.isBlank d = false) ∧ ('0' ≠ '"' ∧ '0' ≠ '#' ∧ '0' ≠ '\\') ∧
      EndsWord [' ', 'x'] ∧ Text.isDigitLike '0' = true ∧
      scanFrom 5 (['0', '7'] ++ [' ', 'x']) = .ok [⟨.number 7, ⟨5, 7⟩⟩, ⟨.name "x", ⟨8, 9⟩⟩] := by
  have hw : ∀ d ∈ ['0', '7'], Text.isBlank d = false := by
    intro d hd
    simp only [List.mem_cons, List.not_mem_nil, or_false] at hd
    rcases hd with rfl | rfl <;> exact isBlank_of_isDigit rfl
  have hc : '0' ≠ '"' ∧ '0' ≠ '#' ∧ '0' ≠ '\\' := by decide
  have hd : Text.isDigitLike '0' = true := Text.isDigitLike_of_isDigit rfl
  refine ⟨hw, hc, endsWord_space _, hd, ?_⟩
  rw [(digit_words_read 5 hw hc (endsWord_space _)).1 hd]
  cbv

/-- A numeral of one digit seven after 4300 zeros has the value seven, but the reader
refuses it for its 4301 digits instead of reading the number seven. -/
theorem zero_padded_seven_refused :
    Token.scan (String.ofList (List.replicate 4300 '0' ++ ['7'])) = .error (.tooManyDigits 4301) := by
  have hlen : (List.replicate 4300 '0' ++ ['7']).length = 4301 := by
    rw [List.length_append, List.length_replicate, List.length_singleton]
  have hread := scanFrom_overlong (w := List.replicate 4300 '0' ++ ['7']) 0
    (List.append_ne_nil_of_right_ne_nil _ (List.cons_ne_nil _ _))
    (fun d hd => by
      rcases List.mem_append.mp hd with hd | hd
      · rw [List.eq_of_mem_replicate hd]; rfl
      · rw [List.mem_singleton.mp hd]; rfl)
    (by rw [hlen]; decide) endsWord_nil
  rw [List.append_nil, hlen] at hread
  rw [Token.scan, String.toList_ofList, hread]

end Lexer

end Parenless
