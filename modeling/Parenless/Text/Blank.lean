/-!
Blank characters.

A blank is a character that separates words in source text: the ASCII controls
tab to carriage return and the four information separators, the space, and the
Unicode spaces and line separators (next line, no-break space, ogham space,
the spaces from en quad to hair space, line and paragraph separator, narrow
no-break space, medium mathematical space and ideographic space). That is 29 code
points. Core's `Char.isWhitespace` knows only four of them, so the set is kept
here as a table of code-point ranges.
-/

namespace Parenless.Text

/-- The blank code points as closed ranges, in increasing order. -/
def blankRanges : List (Nat × Nat) :=
  [(0x09, 0x0D), (0x1C, 0x20), (0x85, 0x85), (0xA0, 0xA0), (0x1680, 0x1680),
   (0x2000, 0x200A), (0x2028, 0x2029), (0x202F, 0x202F), (0x205F, 0x205F),
   (0x3000, 0x3000)]

/-- Whether a code point lies in one of a list of closed ranges. -/
def inRanges (rs : List (Nat × Nat)) (n : Nat) : Bool :=
  rs.any fun r => decide (r.1 ≤ n) && decide (n ≤ r.2)

/-- A blank separates words; see the module comment for the set. -/
def isBlank (c : Char) : Bool :=
  inRanges blankRanges c.toNat

/-- The characters without blanks at either end. -/
def trimBlanks (cs : List Char) : List Char :=
  ((cs.dropWhile isBlank).reverse.dropWhile isBlank).reverse

/-- A text without blanks at either end. -/
def trim (s : String) : String := String.ofList (trimBlanks s.toList)

/-- The first blank-separated word of a text, if it has one. -/
def firstWord (s : String) : Option String :=
  match (s.toList.dropWhile isBlank).takeWhile (fun c => !isBlank c) with
  | [] => none
  | w => some (String.ofList w)

/-- Every character core calls whitespace is blank. -/
theorem isBlank_of_isWhitespace {c : Char} (h : c.isWhitespace = true) : isBlank c = true := by
  simp only [Char.isWhitespace, Bool.or_eq_true, decide_eq_true_eq] at h
  rcases h with ((h | h) | h) | h <;> subst h <;> rfl

example : (blankRanges.map fun r => r.2 + 1 - r.1).sum = 29 := by decide

example : isBlank '\x0b' = true ∧ isBlank ' ' = true ∧ isBlank '​' = false := by decide

end Parenless.Text
