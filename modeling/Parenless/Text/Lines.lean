import Parenless.Text.Blank
/-!
Lines of a text, the way editors count them.

A line ends at a line feed, a carriage return, a carriage return and line feed
together, a vertical tab, a form feed, a file, group or record separator, a next-line
character, or a line or paragraph separator. Each line keeps its ending; a text that
ends with a line break has no empty line after it.
-/

namespace Parenless.Text

/-- Whether a character ends a line. -/
def isLineBreak (c : Char) : Bool :=
  c == '\n' || c == '\r' || c == '\x0b' || c == '\x0c' || c == '\x1c' || c == '\x1d' ||
    c == '\x1e' || c == '\x85' || c == '\u2028' || c == '\u2029'

/-- Splits characters into lines, each with its ending; `cur` is the line so far,
reversed. -/
def linesFrom (cur : List Char) : List Char → List (List Char)
  | [] => if cur.isEmpty then [] else [cur.reverse]
  | '\r' :: '\n' :: rest => ('\n' :: '\r' :: cur).reverse :: linesFrom [] rest
  | c :: rest =>
    if isLineBreak c then (c :: cur).reverse :: linesFrom [] rest
    else linesFrom (c :: cur) rest

/-- The lines of a text, each with its ending. -/
def linesKeepingEnds (s : String) : List String :=
  (linesFrom [] s.toList).map String.ofList

example : linesKeepingEnds "a\r\nb\rc\n" = ["a\r\n", "b\r", "c\n"] := by decide
example : linesKeepingEnds "" = [] ∧ linesKeepingEnds "x" = ["x"] := by decide

end Parenless.Text
