import Parenless.Proofs.Layout
import Parenless.Proofs.Printing
/-!
What reading can stop with.

Reading a source stops at its first malformed word or literal with one of the four
errors of reading (`Error.IsLexical`): a numeral that is not all ASCII digits or lies out
of range, a quote that no quote closes, an escape letter that is none, and a backslash
with no name after it. Each blames a non-empty span of the source. The only other way
reading stops is a numeral of more digits than the decimal reader accepts: its range is
checked by reading its value, and that reader refuses it first
(`Lexer.scanFrom_overlong`).

The text pattern reads a literal's body as characters other than a quote or a
backslash, and backslashes each with the character after it, whatever that is
(`Lexer.QuotedBody`). So the quote that closes a literal is the first one that no
backslash takes (`Lexer.quoted_eq_some_iff`), and every escape of the body has its
letter inside the body. Decoding a body fails only at such an escape and blames its two
characters (`Lexer.unescape_error`).

`Lexer.Outcome` says what reading the characters from an offset on may end with, in
offsets of the whole source. Each step of the reader keeps it, so it holds of every
reading (`Lexer.outcome_scanFrom`, by induction along the reader's own recursion). The
main statement is `Token.scan_stops_only_at_lexical_errors`.
-/

namespace Parenless

theorem map_eq_error {ε α β : Type} {g : α → β} {x : Except ε α} {e : ε} :
    g <$> x = .error e ↔ x = .error e := by
  cases x <;> simp [Functor.map, Except.map]

/-- The errors reading reports: a malformed numeral, a text literal that no quote closes,
an unknown escape, and a backslash with no name after it. -/
def Error.IsLexical : Error → Prop
  | .invalidNumber _ | .unterminatedText _ | .unknownEscape _ _ | .missingDeclName _ => True
  | _ => False

namespace Lexer

/-! ### Text literals -/

/-- The body of a text literal as the text pattern reads it: characters other than a
quote or a backslash, and a backslash together with the character after it, whatever
that is. Every backslash that starts an escape has its letter before the closing
quote. -/
inductive QuotedBody : List Char → Prop
  | nil : QuotedBody []
  | plain {c : Char} {body : List Char} : c ≠ '"' → c ≠ '\\' → QuotedBody body →
      QuotedBody (c :: body)
  | escape (e : Char) {body : List Char} : QuotedBody body → QuotedBody ('\\' :: e :: body)

theorem quotedBody_of_quoted {cs body after : List Char} (h : quoted cs = some (body, after)) :
    QuotedBody body := by
  fun_induction quoted cs generalizing body after with
  | case1 => simp at h
  | case2 more =>
    cases h
    exact .nil
  | case3 => simp at h
  | case4 d more _ ih =>
    obtain ⟨r, hr, he⟩ := Option.map_eq_some_iff.1 h
    cases he
    exact .escape d (ih hr)
  | case5 c more h1 h2 ih =>
    obtain ⟨r, hr, he⟩ := Option.map_eq_some_iff.1 h
    cases he
    exact .plain h1 h2 (ih hr)

theorem quoted_of_quotedBody {body : List Char} (h : QuotedBody body) (after : List Char) :
    quoted (body ++ '"' :: after) = some (body, after) := by
  induction h with
  | nil => simp [quoted.eq_def]
  | plain h1 h2 _ ih => rw [quoted.eq_def]; simp [h1, h2, ih]
  | escape _ _ ih => rw [quoted.eq_def]; simp [ih]

/-- A literal closes exactly at the first quote that no backslash takes. -/
theorem quoted_eq_some_iff {cs body after : List Char} :
    quoted cs = some (body, after) ↔ QuotedBody body ∧ cs = body ++ '"' :: after :=
  ⟨fun h => ⟨quotedBody_of_quoted h, eq_of_quoted h⟩,
    fun ⟨hb, hcs⟩ => hcs ▸ quoted_of_quotedBody hb after⟩

/-- Decoding a body fails only at a backslash whose letter, the character after it in
the body, is no escape letter; the error blames the two. -/
theorem unescape_error {start : Nat} {body : List Char} {e : Error}
    (h : unescape start body = .error e) :
    ∃ i c, body[i]? = some '\\' ∧ body[i + 1]? = some c ∧ escape? c = none ∧
      e = .unknownEscape c ⟨start + i, start + i + 2⟩ := by
  fun_induction unescape start body with
  | case1 start x more d _ ih =>
    obtain ⟨i, c, hi, hc, hesc, rfl⟩ := ih (map_eq_error.mp h)
    exact ⟨i + 2, c, hi, hc, hesc, by simp only [Nat.add_assoc, Nat.add_comm 2 i]⟩
  | case2 start x more hx =>
    cases h
    exact ⟨0, x, rfl, rfl, hx, rfl⟩
  | case3 start c more _ ih =>
    obtain ⟨i, c', hi, hc, hesc, rfl⟩ := ih (map_eq_error.mp h)
    exact ⟨i + 1, c', hi, hc, hesc, by simp only [Nat.add_assoc, Nat.add_comm 1 i]⟩
  | case4 => cases h

/-! ### What reading may end with -/

/-- What reading `cs`, whose first character sits at offset `pos`, may end with: tokens;
an error of reading that blames a non-empty span of `cs`; or a numeral of more digits
than the decimal reader accepts, whose digits stand together in `cs`. -/
def Outcome (pos : Nat) (cs : List Char) : Except Failure (List Token) → Prop
  | .ok _ => True
  | .error (.error e) => e.IsLexical ∧
      ∃ sp, e.span? = some sp ∧ pos ≤ sp.start ∧ sp.start < sp.stop ∧ sp.stop ≤ pos + cs.length
  | .error (.tooManyDigits n) => digitLimit < n ∧
      ∃ w, w <:+: cs ∧ w.length = n ∧ ∀ c ∈ w, c.isDigit = true
  | .error _ => False

theorem Outcome.widen {pos pos' : Nat} {cs cs' : List Char} {r : Except Failure (List Token)}
    (hin : cs' <:+: cs) (hpos : pos ≤ pos') (hend : pos' + cs'.length ≤ pos + cs.length)
    (h : Outcome pos' cs' r) : Outcome pos cs r := by
  rcases r with (e | _ | n | _ | _) | toks
  · obtain ⟨hlex, sp, hsp, h1, h2, h3⟩ := h
    exact ⟨hlex, sp, hsp, by omega, h2, by omega⟩
  · exact h.elim
  · obtain ⟨hn, w, hw, hlen, hd⟩ := h
    exact ⟨hn, w, hw.trans hin, hlen, hd⟩
  · exact h.elim
  · exact h.elim
  · trivial

theorem Outcome.cons {pos : Nat} {cs : List Char} {x : Except Failure (List Token)}
    (tok : Token) (h : Outcome pos cs x) :
    Outcome pos cs (do let toks ← x; pure (tok :: toks)) := by
  cases x with
  | error f => exact h
  | ok toks => trivial

theorem word_error {w : List Char} {pos : Nat} {f : Failure} (h : word w pos = .error f) :
    (∃ e, f = .error e ∧ e.IsLexical ∧ e.span? = some ⟨pos, pos + w.length⟩) ∨
      (f = .tooManyDigits w.length ∧ digitLimit < w.length ∧ isNumeral w = true) := by
  unfold word at h
  split at h
  · cases h
  · split_ifs at h with hq harrow hbs hempty hdigit hnum hlong <;> cases h
    · exact .inl ⟨_, rfl, trivial, rfl⟩
    · exact .inl ⟨_, rfl, trivial, rfl⟩
    · exact .inl ⟨_, rfl, trivial, rfl⟩
    · exact .inr ⟨rfl, hlong, by simpa using hnum⟩
    · exact .inl ⟨_, rfl, trivial, rfl⟩

theorem outcome_word_error {w : List Char} {pos : Nat} {f : Failure} (hne : w ≠ [])
    (h : word w pos = .error f) : Outcome pos w (.error f) := by
  have hlen : 0 < w.length := List.length_pos_of_ne_nil hne
  rcases word_error h with ⟨e, rfl, hlex, hsp⟩ | ⟨rfl, hlong, hnum⟩
  · exact ⟨hlex, _, hsp, le_refl pos, by dsimp only; omega, le_refl _⟩
  · exact ⟨hlong, w, List.infix_refl w, rfl, by simpa [isNumeral] using hnum⟩

theorem outcome_unescape_error {pos : Nat} {body after : List Char} {e : Error}
    (h : unescape (pos + 1) body = .error e) :
    Outcome pos ('"' :: (body ++ '"' :: after)) (.error (.error e)) := by
  obtain ⟨i, c, -, hc, -, rfl⟩ := unescape_error h
  -- the escape's letter lies in the body, so the span ends before the closing quote
  have hi : i + 1 < body.length := (List.getElem?_eq_some_iff.mp hc).1
  refine ⟨trivial, _, rfl, by dsimp only; omega, by dsimp only; omega, ?_⟩
  simp only [List.length_cons, List.length_append]
  omega

example : Token.scan "\"a\\qb\"" = .error (.error (.unknownEscape 'q' ⟨2, 4⟩)) := by cbv

theorem quoted_of_dite {d : Char} {more body after : List Char}
    (h : (if _ : d = '"' then quoted more else none) = some (body, after)) :
    d = '"' ∧ quoted more = some (body, after) := by
  split at h
  · exact ⟨‹_›, h⟩
  · cases h

/-- Every reading ends with one of its outcomes. The induction follows the reader: each
step skips a blank or a comment, reads a literal, or reads a word, and the outcome of
what is left is widened to the characters before the step. -/
theorem outcome_scanFrom (pos : Nat) (cs : List Char) : Outcome pos cs (scanFrom pos cs) := by
  fun_induction scanFrom pos cs with
  | case1 => trivial
  | case2 pos d more _ ih =>
    exact ih.widen (List.suffix_cons d more).isInfix (by omega) (by simp only [List.length_cons]; omega)
  | case3 pos more body _ ih =>
    have hk : body.length ≤ more.length := (List.takeWhile_prefix _).length_le
    refine ih.widen ((List.drop_suffix _ more).trans (List.suffix_cons '#' more)).isInfix
      (by omega) ?_
    simp only [List.length_drop, List.length_cons]
    omega
  | case4 pos d more _ _ body after hq e he =>
    obtain ⟨rfl, hq⟩ := quoted_of_dite hq
    rw [eq_of_quoted hq]
    exact outcome_unescape_error he
  | case5 pos d more _ _ body after hq value _ ih =>
    obtain ⟨rfl, hq⟩ := quoted_of_dite hq
    rw [eq_of_quoted hq]
    refine (ih.widen ⟨'"' :: body ++ ['"'], [], by simp⟩ (by omega) ?_).cons _
    simp only [List.length_cons, List.length_append]
    omega
  | case6 pos d more hb _ _ w e he =>
    have hpos : 0 < w.length := length_takeWhile_pos more (by simpa using hb)
    have hw : w.length ≤ (d :: more).length := (List.takeWhile_prefix _).length_le
    refine (outcome_word_error (List.ne_nil_of_length_pos hpos) he).widen
      (List.takeWhile_prefix _).isInfix (le_refl pos) (Nat.add_le_add_left hw pos)
  | case7 pos d more hb _ _ w tok _ ih =>
    have hpos : 0 < w.length := length_takeWhile_pos more (by simpa using hb)
    have hw : w.length ≤ (d :: more).length := (List.takeWhile_prefix _).length_le
    refine (ih.widen (List.drop_suffix _ _).isInfix (by omega) ?_).cons _
    simp only [List.length_drop]
    omega

/-! ### Over-long numerals -/

/-- A numeral of more digits than the decimal reader accepts, at the front of what is
left and followed by the end or a blank, stops reading with its digit count. -/
theorem scanFrom_overlong {w rest : List Char} (pos : Nat) (hne : w ≠ [])
    (hd : ∀ c ∈ w, c.isDigit = true) (hlong : digitLimit < w.length) (hr : EndsWord rest) :
    scanFrom pos (w ++ rest) = .error (.tooManyDigits w.length) := by
  obtain ⟨c, cs, rfl⟩ := List.exists_cons_of_ne_nil hne
  have hc := hd c List.mem_cons_self
  have hc' : c ≠ '#' ∧ c ≠ '"' ∧ c ≠ '-' ∧ c ≠ '\\' := by
    refine ⟨?_, ?_, ?_, ?_⟩ <;> (rintro rfl; simp at hc)
  have hnum : isNumeral (c :: cs) = true := by simpa [isNumeral] using hd
  rw [List.length_cons] at hlong ⊢
  rw [List.cons_append, scanFrom_word pos _ (isBlank_of_isDigit hc) hc'.1 (fun h => absurd h hc'.2.1),
    ← List.cons_append, takeWhile_word (fun d hd' => isBlank_of_isDigit (hd d hd')) hr]
  simp [word, hc'.2.1, hc'.2.2.1, hc'.2.2.2, Text.isDigitLike_of_isDigit hc, hnum, hlong]

theorem scan_replicate_digit {d : Char} (hd : d.isDigit = true) {k : Nat} (hk : digitLimit < k) :
    Token.scan (String.ofList (List.replicate k d)) = .error (.tooManyDigits k) := by
  have hread := scanFrom_overlong (w := List.replicate k d) 0
    (List.ne_nil_of_length_pos (by rw [List.length_replicate]; omega))
    (fun c hc => by rw [List.eq_of_mem_replicate hc]; exact hd)
    (by rw [List.length_replicate]; exact hk) endsWord_nil
  rw [List.append_nil, List.length_replicate] at hread
  rw [Token.scan, String.toList_ofList, hread]

end Lexer

namespace Token

/-! ### Main statement -/

/-- Reading a source gives its tokens, or stops with one of the four errors of reading
blaming a non-empty span of the source, or stops at a numeral of more digits than the
decimal reader accepts, which stand together in the source. A literal closes exactly at
the first quote that no backslash takes, so every escape of its body has its letter
inside the body. -/
theorem scan_stops_only_at_lexical_errors (source : String) :
    ((∃ toks, Token.scan source = .ok toks) ∨
      (∃ e sp, Token.scan source = .error (.error e) ∧ e.IsLexical ∧ e.span? = some sp ∧
        sp.start < sp.stop ∧ sp.stop ≤ source.length) ∨
      (∃ w, Token.scan source = .error (.tooManyDigits w.length) ∧ Lexer.digitLimit < w.length ∧
        w <:+: source.toList ∧ ∀ c ∈ w, c.isDigit = true)) ∧
    ∀ cs body after, Lexer.quoted cs = some (body, after) ↔
      Lexer.QuotedBody body ∧ cs = body ++ '"' :: after := by
  refine ⟨?_, fun _ _ _ => Lexer.quoted_eq_some_iff⟩
  have h : Lexer.Outcome 0 source.toList (Token.scan source) := Lexer.outcome_scanFrom 0 source.toList
  rcases hscan : Token.scan source with (e | _ | n | _ | _) | toks <;> rw [hscan] at h
  · obtain ⟨hlex, sp, hsp, -, h2, h3⟩ := h
    rw [Nat.zero_add, String.length_toList] at h3
    exact .inr (.inl ⟨e, sp, rfl, hlex, hsp, h2, h3⟩)
  · exact h.elim
  · obtain ⟨hn, w, hw, rfl, hd⟩ := h
    exact .inr (.inr ⟨w, rfl, hn, hw, hd⟩)
  · exact h.elim
  · exact h.elim
  · exact .inl ⟨toks, rfl⟩

/-- A numeral of 4301 digits stops reading with the decimal reader's refusal, which is
none of the errors of reading. -/
theorem long_numeral_stops_reading :
    Token.scan (String.ofList (List.replicate 4301 '1')) = .error (.tooManyDigits 4301) :=
  Lexer.scan_replicate_digit (by decide) (by decide)

end Token

end Parenless
