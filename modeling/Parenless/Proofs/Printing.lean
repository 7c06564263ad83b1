import Parenless.Proofs.Literals
import Mathlib.Data.List.Forall2
/-!
Printing tokens and reading them back.

A lexeme is printed as it is written in source text: a name as itself, a declared name
after a backslash, the arrow as `->`, a number in decimal, and a text between double
quotes with a body that stands for it, so with every backslash and quote escaped and
each line feed or tab either raw or escaped (`Lexeme.PrintsAs`). Not every lexeme has a
printed form that reads back as itself: a name must be a non-empty run of non-blank
characters that is not the arrow and does not start like a declaration head, a text, a
comment or a number; a declared name must be a non-empty run of non-blank characters;
and a number must fit in 64 bits (`Lexeme.Printable`).

Main statement (`printed_tokens_read_back`): reading the printed forms of printable
lexemes, joined by single spaces, gives back those lexemes in order, each with the span
of its printed form (less the backslash of a declaration head). The proof reads one
printed form at a time (`scanFrom_printed`), and the space after it is a blank.
-/

namespace Parenless

namespace Lexeme

/-- A lexeme whose printed form reads back as itself. -/
def Printable : Lexeme → Prop
  | .name s =>
    match s.toList with
    | [] => False
    | c :: _ => (∀ d ∈ s.toList, Text.isBlank d = false) ∧ s.toList ≠ ['-', '>'] ∧
        c ≠ '\\' ∧ c ≠ '"' ∧ c ≠ '#' ∧ Text.isDigitLike c = false
  | .decl s => s.toList ≠ [] ∧ ∀ d ∈ s.toList, Text.isBlank d = false
  | .number v => v ≤ maxNumber
  | .text _ => True
  | .arrow => True

/-- How a lexeme is printed. A text may be printed in several ways, with its line
feeds and tabs raw or escaped. -/
inductive PrintsAs : Lexeme → List Char → Prop
  | name (s : String) : PrintsAs (.name s) s.toList
  | decl (s : String) : PrintsAs (.decl s) ('\\' :: s.toList)
  | arrow : PrintsAs .arrow ['-', '>']
  | number (v : Nat) : PrintsAs (.number v) (Nat.repr v).toList
  | text {s : String} {body : List Char} : Lexer.Unescapes body s.toList →
      PrintsAs (.text s) ('"' :: body ++ ['"'])

/-- The span of a lexeme printed as `w` from offset `pos`: the printed form, less the
backslash of a declaration head. -/
def spanAt (l : Lexeme) (pos : Nat) (w : List Char) : Span :=
  match l with
  | .decl _ => ⟨pos + 1, pos + w.length⟩
  | _ => ⟨pos, pos + w.length⟩

end Lexeme

namespace Lexer

/-- The tokens of printed forms laid out from offset `pos`, one space between each and
the next. -/
def laidOut : Nat → List Lexeme → List (List Char) → List Token
  | pos, l :: ls, w :: ws => ⟨l, l.spanAt pos w⟩ :: laidOut (pos + w.length + 1) ls ws
  | _, _, _ => []

theorem lexemes_laidOut : ∀ {ls : List Lexeme} {ws : List (List Char)} (pos : Nat),
    List.Forall₂ Lexeme.PrintsAs ls ws → (laidOut pos ls ws).map Token.lexeme = ls
  | [], [], _, .nil => rfl
  | _ :: _, _ :: _, pos, .cons _ h => by simp [laidOut, lexemes_laidOut _ h]

/-- What may follow a printed form: nothing, or a blank. -/
def EndsWord (rest : List Char) : Prop := ∀ c ∈ rest.head?, Text.isBlank c = true

theorem endsWord_nil : EndsWord [] := by simp [EndsWord]

theorem endsWord_space (rest : List Char) : EndsWord (' ' :: rest) := by
  intro c hc
  cases hc
  decide

theorem takeWhile_word {w rest : List Char} (hw : ∀ d ∈ w, Text.isBlank d = false)
    (hr : EndsWord rest) : (w ++ rest).takeWhile (fun d => !Text.isBlank d) = w := by
  rw [List.takeWhile_append_of_pos (by simpa using hw)]
  cases rest with
  | nil => simp
  | cons c more => simp [hr c rfl]

theorem scanFrom_of_word {c : Char} {cs rest : List Char} {pos : Nat} {tok : Token}
    (hw : ∀ d ∈ c :: cs, Text.isBlank d = false) (hr : EndsWord rest) (hc : c ≠ '#')
    (hq : c ≠ '"') (hword : word (c :: cs) pos = .ok tok) :
    scanFrom pos (c :: cs ++ rest) = (tok :: ·) <$> scanFrom (pos + (cs.length + 1)) rest := by
  have htake := takeWhile_word hw hr
  rw [List.cons_append, scanFrom_word pos _ (hw c (by simp)) hc (fun h => absurd h hq),
    ← List.cons_append, htake, hword]
  simp

theorem isBlank_of_isDigit {c : Char} (h : c.isDigit = true) : Text.isBlank c = false := by
  have hrange : ∀ k < 10, Text.inRanges Text.blankRanges (48 + k) = false := by decide
  simp only [Char.isDigit, Bool.and_eq_true, decide_eq_true_eq] at h
  have h1 : 48 ≤ c.toNat := h.1
  have h2 : c.toNat ≤ 57 := h.2
  have := hrange (c.toNat - 48) (by omega)
  rw [show 48 + (c.toNat - 48) = c.toNat by omega] at this
  exact this

/-- The printed form of a printable lexeme, followed by the end or a blank, reads as
that lexeme with the span of its printed form; reading goes on after it. One case per
kind of lexeme. -/
theorem scanFrom_printed {l : Lexeme} {w rest : List Char} (hp : l.Printable)
    (hw : l.PrintsAs w) (hr : EndsWord rest) (pos : Nat) :
    scanFrom pos (w ++ rest) = (⟨l, l.spanAt pos w⟩ :: ·) <$> scanFrom (pos + w.length) rest := by
  cases hw with
  | name s =>
    simp only [Lexeme.Printable] at hp
    split at hp
    · exact hp.elim
    rename_i c cs hs
    obtain ⟨hblank, harrow, hback, hquote, hhash, hdigit⟩ := hp
    rw [hs] at hblank ⊢
    refine scanFrom_of_word hblank hr hhash hquote ?_
    simp [word, hquote, hback, hdigit, ← hs, harrow, Lexeme.spanAt]
  | decl s =>
    obtain ⟨hne, hblank⟩ := hp
    have hw : ∀ d ∈ '\\' :: s.toList, Text.isBlank d = false := by
      intro d hd
      rcases List.mem_cons.1 hd with rfl | hd
      · decide
      · exact hblank d hd
    refine scanFrom_of_word hw hr (by decide) (by decide) ?_
    simp [word, hne, Lexeme.spanAt]
  | arrow =>
    have hw : ∀ d ∈ ['-', '>'], Text.isBlank d = false := by
      intro d hd
      simp only [List.mem_cons, List.not_mem_nil, or_false] at hd
      rcases hd with rfl | rfl <;> decide
    exact scanFrom_of_word hw hr (by decide) (by decide) (by simp [word, Lexeme.spanAt])
  | number v =>
    simp only [Nat.toList_repr] at hr ⊢
    obtain ⟨c, cs, hcs⟩ : ∃ c cs, Nat.toDigits 10 v = c :: cs :=
      List.exists_cons_of_ne_nil Nat.toDigits_ne_nil
    have hdig : ∀ d ∈ Nat.toDigits 10 v, d.isDigit = true :=
      fun d hd => Nat.isDigit_of_mem_toDigits (by decide) (by decide) hd
    have hc := hdig c (by simp [hcs])
    have hlen := length_toDigits_le hp
    have hnum := isNumeral_toDigits v
    have hval := numeralValue_toDigits v
    rw [hcs] at hdig hlen hnum hval ⊢
    have hc' : c ≠ '#' ∧ c ≠ '"' ∧ c ≠ '-' ∧ c ≠ '\\' := by
      refine ⟨?_, ?_, ?_, ?_⟩ <;> (rintro rfl; simp at hc)
    refine scanFrom_of_word (fun d hd => isBlank_of_isDigit (hdig d hd)) hr hc'.1 hc'.2.1 ?_
    have hlimit : ¬ digitLimit < cs.length + 1 := by simp only [List.length_cons] at hlen; unfold digitLimit; omega
    simp [word, hc'.2.1, hc'.2.2.1, hc'.2.2.2, Text.isDigitLike_of_isDigit hc, hnum, hlimit, hval,
      Nat.not_lt.2 hp, Lexeme.spanAt]
  | @text s body hu =>
    have hform : '"' :: body ++ ['"'] ++ rest = '"' :: (body ++ '"' :: rest) := by simp
    rw [hform, scanFrom_text pos (quoted_of_unescapes hu rest), unescape_of_unescapes hu]
    have hlen : ('"' :: body ++ ['"']).length = body.length + 2 := by simp
    simp only [hlen, String.ofList_toList, Lexeme.spanAt, Nat.add_assoc]

/-! ### Main statement -/

theorem scanFrom_intercalate (ls : List Lexeme) (ws : List (List Char)) (pos : Nat)
    (hp : ∀ l ∈ ls, l.Printable) (hw : List.Forall₂ Lexeme.PrintsAs ls ws) :
    scanFrom pos ([' '].intercalate ws) = .ok (laidOut pos ls ws) := by
  induction hw generalizing pos with
  | nil => exact scanFrom_nil pos
  | @cons l w ls ws hl hrest ih =>
    cases hrest with
    | nil =>
      have h := scanFrom_printed (hp l (by simp)) hl endsWord_nil pos
      rw [List.append_nil] at h
      rw [List.intercalate_singleton, h, scanFrom_nil]
      rfl
    | @cons l' w' ls' ws' hl' hrest' =>
      rw [List.intercalate_cons_cons, List.append_assoc, List.singleton_append,
        scanFrom_printed (hp l (by simp)) hl (endsWord_space _) pos,
        scanFrom_blank _ _ (show Text.isBlank ' ' = true by decide),
        ih (pos + w.length + 1) (fun x hx => hp x (List.mem_cons_of_mem l hx))]
      rfl

/-- Reading the printed forms of printable lexemes, joined by single spaces, gives back
the lexemes in order, each with the span of its printed form (less the backslash of a
declaration head). -/
theorem printed_tokens_read_back (ls : List Lexeme) (ws : List (List Char))
    (hp : ∀ l ∈ ls, l.Printable) (hw : List.Forall₂ Lexeme.PrintsAs ls ws) :
    Token.scan (String.ofList ([' '].intercalate ws)) = .ok (laidOut 0 ls ws) ∧
      (laidOut 0 ls ws).map Token.lexeme = ls := by
  refine ⟨?_, lexemes_laidOut 0 hw⟩
  unfold Token.scan
  rw [String.toList_ofList]
  exact scanFrom_intercalate ls ws 0 hp hw

/-- A declaration head, a name, the arrow, the largest number and a text holding a
quote (escaped) and a line feed (raw) are printable, and their printed forms read
back. -/
theorem printed_tokens_read_back_sample :
    (∀ l ∈ [Lexeme.decl "f", .name "x", .arrow, .number 18446744073709551615, .text "a\"\n"],
      l.Printable) ∧
    List.Forall₂ Lexeme.PrintsAs
      [Lexeme.decl "f", .name "x", .arrow, .number 18446744073709551615, .text "a\"\n"]
      ["\\f".toList, "x".toList, ['-', '>'], (Nat.repr 18446744073709551615).toList,
        ['"', 'a', '\\', '"', '\n', '"']] ∧
    Token.scan (String.ofList ([' '].intercalate ["\\f".toList, "x".toList, ['-', '>'],
        (Nat.repr 18446744073709551615).toList, ['"', 'a', '\\', '"', '\n', '"']])) =
      .ok (laidOut 0 [Lexeme.decl "f", .name "x", .arrow, .number 18446744073709551615,
        .text "a\"\n"] ["\\f".toList, "x".toList, ['-', '>'],
        (Nat.repr 18446744073709551615).toList, ['"', 'a', '\\', '"', '\n', '"']]) := by
  have hp : ∀ l ∈ [Lexeme.decl "f", .name "x", .arrow, .number 18446744073709551615,
      .text "a\"\n"], l.Printable := by
    simp [Lexeme.Printable, maxNumber]
    decide
  have hw : List.Forall₂ Lexeme.PrintsAs
      [Lexeme.decl "f", .name "x", .arrow, .number 18446744073709551615, .text "a\"\n"]
      ["\\f".toList, "x".toList, ['-', '>'], (Nat.repr 18446744073709551615).toList,
        ['"', 'a', '\\', '"', '\n', '"']] :=
    .cons (.decl "f") (.cons (.name "x") (.cons .arrow (.cons (.number _) (.cons
      (@Lexeme.PrintsAs.text "a\"\n" ['a', '\\', '"', '\n']
        (.plain (by decide) (by decide) (.escaped (by decide)
          (.plain (by decide) (by decide) .nil)))) .nil))))
  exact ⟨hp, hw, (printed_tokens_read_back _ _ hp hw).1⟩

end Lexer

end Parenless
