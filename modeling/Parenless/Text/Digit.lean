import Parenless.Text.Blank
/-!
Digit-like characters.

A word that begins with a digit-like character is read as a number literal. The
digit-like characters are the Unicode decimal digits of every script (general
category Nd) together with the characters whose numeric type is Digit: the
superscript and subscript digits, circled and parenthesised digits, and similar
forms, as Unicode 14 assigns them. Only ASCII digits make a valid literal; the
others make the word an invalid literal instead of a name, which is why the whole
class is needed.
-/

namespace Parenless.Text

/-- The digit-like code points as closed ranges, in increasing order. -/
def digitRanges : List (Nat × Nat) :=
  [(48, 57), (178, 179), (185, 185), (1632, 1641), (1776, 1785), (1984, 1993),
   (2406, 2415), (2534, 2543), (2662, 2671), (2790, 2799), (2918, 2927), (3046, 3055),
   (3174, 3183), (3302, 3311), (3430, 3439), (3558, 3567), (3664, 3673), (3792, 3801),
   (3872, 3881), (4160, 4169), (4240, 4249), (4969, 4977), (6112, 6121), (6160, 6169),
   (6470, 6479), (6608, 6618), (6784, 6793), (6800, 6809), (6992, 7001), (7088, 7097),
   (7232, 7241), (7248, 7257), (8304, 8304), (8308, 8313), (8320, 8329), (9312, 9320),
   (9332, 9340), (9352, 9360), (9450, 9450), (9461, 9469), (9471, 9471), (10102, 10110),
   (10112, 10120), (10122, 10130), (42528, 42537), (43216, 43225), (43264, 43273),
   (43472, 43481), (43504, 43513), (43600, 43609), (44016, 44025), (65296, 65305),
   (66720, 66729), (68160, 68163), (68912, 68921), (69216, 69224), (69714, 69722),
   (69734, 69743), (69872, 69881), (69942, 69951), (70096, 70105), (70384, 70393),
   (70736, 70745), (70864, 70873), (71248, 71257), (71360, 71369), (71472, 71481),
   (71904, 71913), (72016, 72025), (72784, 72793), (73040, 73049), (73120, 73129),
   (92768, 92777), (92864, 92873), (93008, 93017), (120782, 120831), (123200, 123209),
   (123632, 123641), (125264, 125273), (127232, 127242), (130032, 130041)]

/-- A digit-like character starts a number literal; see the module comment. -/
def isDigitLike (c : Char) : Bool :=
  inRanges digitRanges c.toNat

/-- The decimal digits (general category Nd) as closed ranges, in increasing order:
the digit-like characters without the superscripts, subscripts and other forms. -/
def decimalRanges : List (Nat × Nat) :=
  [(48, 57), (1632, 1641), (1776, 1785), (1984, 1993), (2406, 2415), (2534, 2543),
   (2662, 2671), (2790, 2799), (2918, 2927), (3046, 3055), (3174, 3183), (3302, 3311),
   (3430, 3439), (3558, 3567), (3664, 3673), (3792, 3801), (3872, 3881), (4160, 4169),
   (4240, 4249), (6112, 6121), (6160, 6169), (6470, 6479), (6608, 6617), (6784, 6793),
   (6800, 6809), (6992, 7001), (7088, 7097), (7232, 7241), (7248, 7257), (42528, 42537),
   (43216, 43225), (43264, 43273), (43472, 43481), (43504, 43513), (43600, 43609),
   (44016, 44025), (65296, 65305), (66720, 66729), (68912, 68921), (69734, 69743),
   (69872, 69881), (69942, 69951), (70096, 70105), (70384, 70393), (70736, 70745),
   (70864, 70873), (71248, 71257), (71360, 71369), (71472, 71481), (71904, 71913),
   (72016, 72025), (72784, 72793), (73040, 73049), (73120, 73129), (92768, 92777),
   (92864, 92873), (93008, 93017), (120782, 120831), (123200, 123209), (123632, 123641),
   (125264, 125273), (130032, 130041)]

/-- A decimal digit of any script: what a pattern's digit class matches. -/
def isDecimal (c : Char) : Bool :=
  inRanges decimalRanges c.toNat

/-- The value of a decimal digit of any script. Each script's digits run from zero to
nine in consecutive code points, so the value is the distance from the start of its
range, modulo ten. -/
def decimalValue? (c : Char) : Option Nat :=
  (decimalRanges.find? fun r => decide (r.1 ≤ c.toNat) && decide (c.toNat ≤ r.2)).map
    fun r => (c.toNat - r.1) % 10

/-- Every ASCII digit is digit-like. -/
theorem isDigitLike_of_isDigit {c : Char} (h : c.isDigit = true) : isDigitLike c = true := by
  simp only [Char.isDigit, Bool.and_eq_true, decide_eq_true_eq] at h
  simp only [isDigitLike, inRanges, digitRanges, List.any_cons, Bool.or_eq_true,
    Bool.and_eq_true, decide_eq_true_eq]
  left
  exact ⟨h.1, h.2⟩

example : (digitRanges.map fun r => r.2 + 1 - r.1).sum = 788 := by decide

example : (decimalRanges.map fun r => r.2 + 1 - r.1).sum = 660 := by decide

/-- Every decimal range lies inside a digit-like range. -/
example : decimalRanges.all (fun r => digitRanges.any fun d => d.1 ≤ r.1 && r.2 ≤ d.2) = true := by
  decide

example : isDigitLike '²' = true ∧ isDigitLike '٣' = true ∧
    isDigitLike '１' = true ∧ isDigitLike 'x' = false := by decide

end Parenless.Text
