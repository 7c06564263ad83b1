import Parenless.Session
/-!
Diagnostics.

A diagnostic shows an error to a person: a first line `error: MESSAGE` (or
`internal error: MESSAGE` for a broken invariant), and, when the error blames a span
of a known source, three more lines: where it is (`--> ORIGIN:LINE:COLUMN`, 1-based),
the source line with its number in a gutter, and a run of carets under the blamed
characters. The carets start at the span's column and stop at the end of that line,
but there is always at least one.

Lines are split at line feeds only, so a carriage return stays in the quoted line.
Offsets outside the source are moved to its nearest end.
-/

namespace Parenless

/-- The 0-based line and column of the character at offset `o` of `cs`: how many line
feeds come before it, and how many characters since the last of them. -/
def position (cs : List Char) (o : Nat) : Nat × Nat :=
  let before := cs.take o
  (before.count '\n', (before.reverse.takeWhile (· ≠ '\n')).length)

/-- The 0-based line and column of an offset, moved into `[0, length]` first. -/
def lineColumn (source : String) (offset : Int) : Nat × Nat :=
  let cs := source.toList
  position cs (max 0 (min offset cs.length)).toNat

/-- The lines of a source, split at line feeds only: a line feed at the very end leaves
an empty last line, and an empty source is one empty line. -/
def sourceLines (cs : List Char) : List (List Char) := cs.splitOn '\n'

/-- An error ready to be shown: its text, whether it is internal, the span it blames
and the source and source name it was found in. -/
structure Diagnostic where
  message : String
  internal : Bool := false
  span : Option (Int × Int) := none
  source : Option String := none
  origin : Option String := none
  deriving Inhabited

namespace Diagnostic

/-- The first line of a diagnostic. -/
def headline (d : Diagnostic) : String :=
  (if d.internal then "internal error: " else "error: ") ++ d.message

/-- The name the source is shown under: its origin, or `<input>` when it has none or an
empty one. -/
def originName (d : Diagnostic) : String :=
  match d.origin with
  | some o => if o.isEmpty then inputOrigin else o
  | none => inputOrigin

/-- The lines of a diagnostic joined by line feeds; `none` for a span that ends
before it starts, which has no length. -/
def render? (d : Diagnostic) : Option String :=
  match d.span, d.source with
  | some (start, stop), some src =>
    if stop < start then none
    else
      let (line, col) := lineColumn src start
      let text := ((sourceLines src.toList)[line]?).getD []
      let width := max 1 (min (stop - start).toNat (text.length - col))
      let number := Nat.repr (line + 1)
      let pad := String.ofList (List.replicate number.length ' ')
      some ("\n".intercalate [d.headline,
        pad ++ "--> " ++ d.originName ++ ":" ++ Nat.repr (line + 1) ++ ":" ++ Nat.repr (col + 1),
        number ++ " | " ++ String.ofList text,
        pad ++ " | " ++ String.ofList (List.replicate col ' ') ++
          String.ofList (List.replicate width '^')])
  | _, _ => some d.headline

end Diagnostic

namespace Report

/-- The diagnostic for a failure of the language; a failure outside it is shown by
its caller. -/
def diagnostic? (r : Report) : Option Diagnostic :=
  match r.failure with
  | .error e =>
    some { message := e.message, internal := e.errorClass == .internal,
           span := e.span?.map fun s => ((s.start : Int), (s.stop : Int)),
           source := r.source, origin := r.origin }
  | _ => none

/-- The text shown for a failure: its diagnostic, or a line naming a failure outside
the language. -/
def text (r : Report) : String :=
  match r.failure, r.diagnostic? with
  | .error _, some d => (d.render?).getD ""
  | .tooManyDigits n, _ => "error: a numeral of " ++ Nat.repr n ++ " digits is too long to read"
  | .nulInName, _ => "error: a file name cannot hold a NUL character"
  | .limitTooLarge n, _ => "error: the recursion limit " ++ Nat.repr n ++ " is too large"
  | _, _ => "error: maximum recursion depth exceeded"

end Report

end Parenless
