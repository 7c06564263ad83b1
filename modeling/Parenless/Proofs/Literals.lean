import Parenless.Token.Lexer
import Mathlib.Data.Nat.Digits.Defs
/-!
Literals as they are written.

A text literal is written between double quotes, and its body stands for a text:
every character other than a quote or a backslash stands for itself, and a backslash
followed by `n`, `t`, a quote or a backslash stands for a line feed, a tab, a quote or a
backslash (`Unescapes`). That relation is where reading and writing meet: the body of a
literal that reads without error stands for the literal's value
(`unescapes_of_quoted`), and a body that stands for some text is closed by the quote
after it and reads back as that text (`quoted_of_unescapes`, `unescape_of_unescapes`).

A numeral is a run of ASCII digits, and its value is the number the digits spell in
base ten (`numeralValue_eq_ofDigits`). The decimal writing of a number is a numeral of
that value, with at most twenty digits below 2^64 (`numeralValue_toDigits`,
`length_toDigits_le`).
-/

namespace Parenless

namespace Lexer

/-! ### Escapes -/

/-- The escape letters and the characters they stand for. -/
def escapes : List (Char × Char) := [('n', '\n'), ('t', '\t'), ('"', '"'), ('\\', '\\')]

/-- `body`, written between the quotes of a text literal, stands for `s`. -/
inductive Unescapes : List Char → List Char → Prop
  | nil : Unescapes [] []
  | plain {c : Char} {body s : List Char} : c ≠ '"' → c ≠ '\\' → Unescapes body s →
      Unescapes (c :: body) (c :: s)
  | escaped {e d : Char} {body s : List Char} : (e, d) ∈ escapes → Unescapes body s →
      Unescapes ('\\' :: e :: body) (d :: s)

theorem escape?_eq_some_iff {e d : Char} : escape? e = some d ↔ (e, d) ∈ escapes := by
  unfold escape?
  split <;> simp_all [escapes, eq_comm]

theorem unescape_plain {c : Char} (h : c ≠ '\\') (start : Nat) (rest : List Char) :
    unescape start (c :: rest) = (c :: ·) <$> unescape (start + 1) rest := by
  cases rest with
  | nil => simp [unescape]
  | cons e more => simp [unescape, h]

/-- The body of a literal that closes and decodes stands for what it decodes to. The
induction follows the search for the closing quote, which takes a backslash and the
character after it together. -/
theorem unescapes_of_quoted {cs body after : List Char} (hq : quoted cs = some (body, after))
    {start : Nat} {value : List Char} (hu : unescape start body = .ok value) :
    Unescapes body value := by
  fun_induction quoted cs generalizing body after start value with
  | case1 => simp at hq
  | case2 more =>
    simp only [Option.some.injEq, Prod.mk.injEq] at hq
    obtain ⟨rfl, rfl⟩ := hq
    simp only [unescape, Except.ok.injEq] at hu
    subst hu
    exact .nil
  | case3 => simp at hq
  | case4 d more _ ih =>
    obtain ⟨r, hr, he⟩ := Option.map_eq_some_iff.1 hq
    cases he
    cases hd : escape? d with
    | none => simp [unescape, hd] at hu
    | some x =>
      rcases hrest : unescape (start + 2) r.1 with err | v
      · simp [unescape, hd, hrest] at hu
      · simp only [unescape, hd, hrest] at hu
        cases hu
        exact .escaped (escape?_eq_some_iff.1 hd) (ih hr hrest)
  | case5 c more h1 h2 ih =>
    obtain ⟨r, hr, he⟩ := Option.map_eq_some_iff.1 hq
    cases he
    rw [unescape_plain h2] at hu
    rcases hrest : unescape (start + 1) r.1 with err | v
    · rw [hrest] at hu
      cases hu
    · rw [hrest] at hu
      cases hu
      exact .plain h1 h2 (ih hr hrest)

/-- A body that stands for a text is closed by the quote right after it. -/
theorem quoted_of_unescapes {body s : List Char} (h : Unescapes body s) (after : List Char) :
    quoted (body ++ '"' :: after) = some (body, after) := by
  induction h with
  | nil => simp [quoted.eq_def]
  | plain h1 h2 _ ih => rw [quoted.eq_def]; simp [h1, h2, ih]
  | escaped _ _ ih => rw [quoted.eq_def]; simp [ih]

/-- A body that stands for a text decodes to that text. -/
theorem unescape_of_unescapes {body s : List Char} (h : Unescapes body s) :
    ∀ start, unescape start body = .ok s := by
  induction h with
  | nil => intro start; simp [unescape]
  | @plain c body s h1 h2 _ ih =>
    intro start
    rw [unescape_plain h2, ih (start + 1)]
    rfl
  | escaped he _ ih =>
    intro start
    simp [unescape, escape?_eq_some_iff.2 he, ih (start + 2)]

/-! ### Numerals -/

theorem foldl_digits (w : List Char) (acc : Nat) :
    w.foldl (fun n c => 10 * n + (c.toNat - '0'.toNat)) acc =
      acc * 10 ^ w.length + Nat.ofDigits 10 (w.reverse.map fun c => c.toNat - '0'.toNat) := by
  induction w generalizing acc with
  | nil => simp
  | cons c w ih =>
    rw [List.foldl_cons, ih]
    simp [Nat.ofDigits_append, pow_succ]
    ring

/-- A numeral's value is the number its digits spell in base ten. -/
theorem numeralValue_eq_ofDigits (w : List Char) :
    numeralValue w = Nat.ofDigits 10 (w.reverse.map fun c => c.toNat - '0'.toNat) := by
  unfold numeralValue
  rw [foldl_digits]
  simp

/-- The decimal digits of a number spell that number. The induction is on the number,
whose writing is the writing of its tenth and then its last digit. -/
theorem numeralValue_toDigits (v : Nat) : numeralValue (Nat.toDigits 10 v) = v := by
  induction v using Nat.strong_induction_on with
  | _ v ih =>
    have hdigit : ∀ k < 10, (Nat.digitChar k).toNat - '0'.toNat = k := by decide
    rw [Nat.toDigits_eq_if (by decide)]
    split
    · rename_i hlt
      have hv := hdigit v hlt
      simp only [numeralValue, List.foldl_cons, List.foldl_nil]
      omega
    · rename_i hge
      have hlast := hdigit (v % 10) (Nat.mod_lt v (by decide))
      simp only [numeralValue, List.foldl_append, List.foldl_cons, List.foldl_nil] at ih ⊢
      rw [ih (v / 10) (by omega)]
      omega

theorem isNumeral_toDigits (v : Nat) : isNumeral (Nat.toDigits 10 v) = true := by
  simp only [isNumeral, List.all_eq_true]
  exact fun c hc => Nat.isDigit_of_mem_toDigits (by decide) (by decide) hc

/-- A number up to 2^64 - 1 has at most twenty decimal digits. -/
theorem length_toDigits_le {v : Nat} (h : v ≤ maxNumber) : (Nat.toDigits 10 v).length ≤ 20 :=
  (Nat.length_toDigits_le_iff (by decide) (by decide)).2 (by unfold maxNumber at h; omega)

end Lexer

end Parenless
