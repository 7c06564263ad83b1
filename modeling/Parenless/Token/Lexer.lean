import Parenless.Text.Digit
import Parenless.Error
/-!
Reading source text into tokens.

The source is a sequence of words separated by blanks (`Text.isBlank`):

* a `#` where a token could begin starts a comment, which runs up to the next line
  feed;
* a double quote starts a text literal when a closing quote follows: inside it a
  backslash takes the next character with it, and the first quote not so taken
  closes the literal; its value decodes `\n`, `\t`, `\"` and `\\`, and any other
  escape is an error at the backslash;
* any other word is the maximal run of non-blank characters: `->` is the arrow, a
  backslash and a name declare that name, a word starting with a digit-like
  character must be a numeral of at most 2^64 - 1, and the rest are names.

A text literal may be followed directly by the next word. Reading stops at the
first error, left to right. Offsets count characters.
-/

namespace Parenless

namespace Lexer

/-- The most digits a decimal numeral may have before the reader refuses it. -/
def digitLimit : Nat := 4300

/-- The character an escape letter stands for inside a text literal. -/
def escape? : Char → Option Char
  | 'n' => some '\n'
  | 't' => some '\t'
  | '"' => some '"'
  | '\\' => some '\\'
  | _ => none

/-- Splits the characters after an opening quote into the literal's body and what
follows its closing quote; `none` when no quote closes it. A backslash always takes
the next character into the body. -/
def quoted : List Char → Option (List Char × List Char)
  | [] => none
  | c :: more =>
    if c = '"' then some ([], more)
    else if c = '\\' then
      match more with
      | [] => none
      | d :: more' => (quoted more').map fun r => ('\\' :: d :: r.1, r.2)
    else (quoted more).map fun r => (c :: r.1, r.2)

/-- A closed literal is its body, the closing quote and what follows. -/
theorem eq_of_quoted {cs body after : List Char} (h : quoted cs = some (body, after)) :
    cs = body ++ '"' :: after := by
  fun_induction quoted cs generalizing body after with
  | case1 => simp at h
  | case2 more => simp_all
  | case3 => simp_all
  | case4 d more _ ih =>
    simp only [Option.map_eq_some_iff] at h
    obtain ⟨r, hr, he⟩ := h
    cases he
    simp [ih hr]
  | case5 c more _ _ ih =>
    simp only [Option.map_eq_some_iff] at h
    obtain ⟨r, hr, he⟩ := h
    cases he
    simp [ih hr]

/-- What follows a closed literal is shorter than the characters after its opening
quote. -/
theorem length_lt_of_quoted {cs body after : List Char} (h : quoted cs = some (body, after)) :
    after.length < cs.length := by
  rw [eq_of_quoted h]
  simp
  omega

/-- Decodes a literal's body whose first character sits at offset `start`. -/
def unescape (start : Nat) : List Char → Except Error (List Char)
  | '\\' :: e :: more =>
      match escape? e with
      | some d => (d :: ·) <$> unescape (start + 2) more
      | none => .error (.unknownEscape e ⟨start, start + 2⟩)
  | c :: more => (c :: ·) <$> unescape (start + 1) more
  | [] => .ok []

/-- Whether a word is a run of ASCII digits. -/
def isNumeral (w : List Char) : Bool := w.all Char.isDigit

/-- The value of a run of ASCII digits. -/
def numeralValue (w : List Char) : Nat :=
  w.foldl (fun n c => 10 * n + (c.toNat - '0'.toNat)) 0

/-- The token for a word starting at offset `start`, or why it is none. -/
def word (w : List Char) (start : Nat) : Except Failure Token :=
  let span : Span := ⟨start, start + w.length⟩
  match w with
  | [] => .ok ⟨.name "", span⟩
  | c :: rest =>
    if c = '"' then .error (.error (.unterminatedText span))
    else if w = ['-', '>'] then .ok ⟨.arrow, span⟩
    else if c = '\\' then
      if rest.isEmpty then .error (.error (.missingDeclName span))
      else .ok ⟨.decl (String.ofList rest), ⟨start + 1, span.stop⟩⟩
    else if Text.isDigitLike c then
      if !isNumeral w then .error (.error (.invalidNumber span))
      else if digitLimit < w.length then .error (.tooManyDigits w.length)
      else if maxNumber < numeralValue w then .error (.error (.invalidNumber span))
      else .ok ⟨.number (numeralValue w), span⟩
    else .ok ⟨.name (String.ofList w), span⟩

/-- A word is non-empty when it starts at a non-blank character. -/
theorem length_takeWhile_pos {c : Char} (rest : List Char) (h : Text.isBlank c = false) :
    0 < ((c :: rest).takeWhile fun d => !Text.isBlank d).length := by
  simp [h]

/-- Reads the tokens of `cs`, whose first character sits at offset `pos`. -/
def scanFrom (pos : Nat) (cs : List Char) : Except Failure (List Token) :=
  match cs with
  | [] => .ok []
  | c :: rest =>
    if hb : Text.isBlank c then scanFrom (pos + 1) rest
    else if c = '#' then
      let body := rest.takeWhile (· ≠ '\n')
      scanFrom (pos + 1 + body.length) (rest.drop body.length)
    else
      match _hq : (if c = '"' then quoted rest else none) with
      | some (body, after) =>
        match unescape (pos + 1) body with
        | .error e => .error (.error e)
        | .ok value => do
          let toks ← scanFrom (pos + body.length + 2) after
          pure (⟨.text (String.ofList value), ⟨pos, pos + body.length + 2⟩⟩ :: toks)
      | none =>
        let w := (c :: rest).takeWhile fun d => !Text.isBlank d
        match word w pos with
        | .error e => .error e
        | .ok tok => do
          let toks ← scanFrom (pos + w.length) ((c :: rest).drop w.length)
          pure (tok :: toks)
termination_by cs.length
decreasing_by
  · simp only [List.length_cons]
    omega
  · simp only [List.length_drop, List.length_cons]
    omega
  · split at _hq
    · have := length_lt_of_quoted _hq
      simp only [List.length_cons]
      omega
    · exact absurd _hq (by simp)
  · have := length_takeWhile_pos rest (by simpa using hb)
    simp only [List.length_drop, List.length_cons]
    omega

/-! ### Reading step by step -/

theorem scanFrom_nil (pos : Nat) : scanFrom pos [] = .ok [] := by
  rw [scanFrom]

/-- A blank is skipped. -/
theorem scanFrom_blank (pos : Nat) {c : Char} (rest : List Char) (h : Text.isBlank c = true) :
    scanFrom pos (c :: rest) = scanFrom (pos + 1) rest := by
  rw [scanFrom]
  simp [h]

/-- A comment is skipped up to the next line feed. -/
theorem scanFrom_comment (pos : Nat) (rest : List Char) :
    scanFrom pos ('#' :: rest) =
      scanFrom (pos + 1 + (rest.takeWhile (· ≠ '\n')).length)
        (rest.drop (rest.takeWhile (· ≠ '\n')).length) := by
  rw [scanFrom]
  simp [show Text.isBlank '#' = false by decide]

/-- A closed text literal is decoded, and reading goes on after its closing quote. -/
theorem scanFrom_text (pos : Nat) {rest body after : List Char}
    (h : quoted rest = some (body, after)) :
    scanFrom pos ('"' :: rest) =
      match unescape (pos + 1) body with
      | .error e => .error (.error e)
      | .ok value =>
        (⟨.text (String.ofList value), ⟨pos, pos + body.length + 2⟩⟩ :: ·) <$>
          scanFrom (pos + body.length + 2) after := by
  rw [scanFrom]
  simp only [show Text.isBlank '"' = false by decide, Bool.false_eq_true, dite_false,
    show ('"' : Char) ≠ '#' by decide, if_false]
  split
  · rename_i body' after' hq
    rw [h] at hq
    cases hq
    rfl
  · rename_i hq
    simp [h] at hq

/-- Any other character starts a word, which runs up to the next blank. -/
theorem scanFrom_word (pos : Nat) {c : Char} (rest : List Char) (hb : Text.isBlank c = false)
    (hc : c ≠ '#') (hq : c = '"' → quoted rest = none) :
    scanFrom pos (c :: rest) =
      match word ((c :: rest).takeWhile fun d => !Text.isBlank d) pos with
      | .error e => .error e
      | .ok tok => (tok :: ·) <$>
        scanFrom (pos + ((c :: rest).takeWhile fun d => !Text.isBlank d).length)
          ((c :: rest).drop ((c :: rest).takeWhile fun d => !Text.isBlank d).length) := by
  rw [scanFrom]
  simp only [hb, Bool.false_eq_true, dite_false, hc, if_false]
  split
  · -- a literal that closes is no word
    rename_i body after hq'
    by_cases h : c = '"'
    · rw [if_pos h, hq h] at hq'
      cases hq'
    · rw [if_neg h] at hq'
      cases hq'
  · rfl

end Lexer

namespace Token

/-- The tokens of a source text, or the first reason it cannot be read. -/
def scan (source : String) : Except Failure (List Token) :=
  Lexer.scanFrom 0 source.toList

end Token

end Parenless
