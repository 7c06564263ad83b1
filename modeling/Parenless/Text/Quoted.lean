import Parenless.Text.Printable
/-!
Quoted texts.

Complaints show a text the way a reader can type it back. The text stands between
single quotes, or between double quotes when it holds a single quote and no double
quote. Inside, the backslash and the chosen quote are preceded by a backslash; a tab,
a line feed and a carriage return are written `\t`, `\n` and `\r`; any other
character that does not print is written by its code point in lowercase hexadecimal,
as `\x` and two digits below 256, `\u` and four digits below 65536, and `\U` and
eight digits above. Every other character stands for itself.
-/

namespace Parenless.Text

/-- The single quote. -/
def apostrophe : Char := Char.ofNat 39

/-- A numeral in lowercase hexadecimal, padded with zeros to `width` digits. -/
def hexDigits (width n : Nat) : String :=
  let ds := Nat.toDigits 16 n
  String.ofList (List.replicate (width - ds.length) '0' ++ ds)

/-- How a character is written inside a text quoted with `q`. -/
def escapeIn (q c : Char) : String :=
  if c == q || c == '\\' then String.ofList ['\\', c]
  else if c == '\t' then "\\t"
  else if c == '\n' then "\\n"
  else if c == '\r' then "\\r"
  else if isPrintable c then c.toString
  else if c.toNat < 256 then "\\x" ++ hexDigits 2 c.toNat
  else if c.toNat < 65536 then "\\u" ++ hexDigits 4 c.toNat
  else "\\U" ++ hexDigits 8 c.toNat

/-- The quote a text is shown between: the double quote when the text holds a
single quote and no double quote, else the single quote. -/
def quoteFor (cs : List Char) : Char :=
  if cs.contains apostrophe && !cs.contains '"' then '"' else apostrophe

/-- A text as complaints show it; see the module comment. -/
def quoted (s : String) : String :=
  let cs := s.toList
  let q := quoteFor cs
  q.toString ++ String.join (cs.map (escapeIn q)) ++ q.toString

/-- A character that prints, and is neither the quote nor the backslash, stands for
itself. -/
theorem escapeIn_of_isPrintable {q c : Char} (hq : c ≠ q) (hb : c ≠ '\\')
    (hp : isPrintable c = true) : escapeIn q c = c.toString := by
  have ht : c ≠ '\t' := by rintro rfl; exact absurd hp (by decide)
  have hn : c ≠ '\n' := by rintro rfl; exact absurd hp (by decide)
  have hr : c ≠ '\r' := by rintro rfl; exact absurd hp (by decide)
  simp [escapeIn, hq, hb, ht, hn, hr, hp]

end Parenless.Text
