import Parenless.Diagnostic
/-!
Document indexes for an editor.

An index of a document lists its declaration heads and its diagnostics, without
running anything.

The heads come from a scan of the tokens that works even when the document does not
parse: a declaration head followed by names and then the arrow is a head. Heads are
kept by name, in the order names first appear, with the values of the last head of
each name. Positions are 0-based (line, column) pairs, and a head's position is that
of its name, after the backslash.

The diagnostics: the first error of reading or parsing the document against a fresh
table (an error without a span points at the end of the text); or, when there is
none, a note that there is no `main` when no head declares `main` without
parameters.
-/

namespace Parenless

/-- A declaration head found in a document. -/
structure Header where
  name : String
  params : List String
  line : Nat
  col : Nat
  deriving Repr, DecidableEq, Inhabited

namespace Header

/-- The number of parameters. -/
def arity (h : Header) : Nat := h.params.length

/-- The head as written: `\name p1 p2 ->`. -/
def signature (h : Header) : String :=
  " ".intercalate (("\\" ++ h.name) :: h.params ++ ["->"])

end Header

/-- How serious a diagnostic is. -/
inductive Severity where
  | error
  | information
  deriving Repr, DecidableEq, Inhabited

namespace Severity

/-- The word for a severity. -/
def name : Severity → String
  | .error => "error"
  | .information => "information"

/-- The number editors use for a severity. -/
def code : Severity → Nat
  | .error => 1
  | .information => 3

end Severity

/-- A diagnostic of a document: its text, where it starts and ends, its severity. -/
structure Note where
  message : String
  start : Nat × Nat
  stop : Nat × Nat
  severity : Severity := .error
  deriving Repr, DecidableEq, Inhabited

namespace Note

/-- The range an editor shows: a range of no width is widened by one character. -/
def range (n : Note) : (Nat × Nat) × (Nat × Nat) :=
  if n.start = n.stop then (n.start, (n.stop.1, n.stop.2 + 1)) else (n.start, n.stop)

end Note

/-- What is known of a document without running it. -/
structure Index where
  headers : List Header := []
  notes : List Note := []
  deriving Repr, Inhabited

namespace Index

/-- Records a head: in the place of an earlier head of its name, else at the end. -/
def record (hs : List Header) (h : Header) : List Header :=
  if hs.any (·.name == h.name) then hs.map fun g => if g.name == h.name then h else g
  else hs ++ [h]

/-- Scans tokens for declaration heads, adding them to `hs`; `cs` is the text. -/
def scanHeads (cs : List Char) (hs : List Header) : List Token → List Header
  | [] => hs
  | tok :: rest =>
    match tok.lexeme with
    | .decl name =>
      let (ps, after) := Parse.params rest
      match after with
      | t :: _ =>
        match t.lexeme with
        | .arrow =>
          let (line, col) := position cs tok.span.start
          scanHeads cs (record hs ⟨name, ps, line, col⟩) rest
        | _ => scanHeads cs hs rest
      | [] => scanHeads cs hs rest
    | _ => scanHeads cs hs rest

/-- The position of an offset, and the end of the text for no offset. -/
def place (text : String) : Option Nat → Nat × Nat
  | some o => lineColumn text o
  | none => lineColumn text text.length

/-- The note for an error of the language. -/
def noteOf (text : String) (e : Error) : Note :=
  match e.span? with
  | some s => ⟨e.message, place text (some s.start), place text (some s.stop), .error⟩
  | none => ⟨e.message, place text none, place text none, .error⟩

/-- Indexes a document, reading each declaration body with `room` frames; a failure
outside the language's errors escapes. -/
def build (room : Nat) (text : String) : Except Failure Index :=
  match Token.scan text with
  | .error (.error e) => .ok { notes := [noteOf text e] }
  | .error f => .error f
  | .ok ts =>
    let heads := scanHeads text.toList [] ts
    match (Parse.decls room Table.initial ts).result with
    | .error (.error e) => .ok { headers := heads, notes := [noteOf text e] }
    | .error .tooDeep =>
      let p := place text none
      .ok { headers := heads, notes := [⟨"maximum recursion depth exceeded", p, p, .error⟩] }
    | .error f => .error f
    | .ok _ =>
      match heads.find? (·.name == "main") with
      | some m =>
        if m.arity == 0 then .ok { headers := heads }
        else
          .ok { headers := heads,
                notes := [⟨"no main function found", (m.line, m.col), (m.line, m.col), .information⟩] }
      | none =>
        .ok { headers := heads,
              notes := [⟨"no main function found", (0, 0), (0, 0), .information⟩] }

/-- The head of a name, if the document declares it. -/
def header? (idx : Index) (name : String) : Option Header :=
  idx.headers.find? (·.name == name)

end Index

/-- The one-line description of every builtin, in table order:
`name arg1 arg2  (kind, arity n)`. -/
def builtinSignatures : List (String × String) :=
  Table.initial.entries.map fun e =>
    let args := (List.range e.2.arity).map fun i => " arg" ++ Nat.repr (i + 1)
    (e.1, e.1 ++ String.join args ++ "  (" ++ e.2.kindName ++ ", arity " ++
      Nat.repr e.2.arity ++ ")")

/-- What hovering over a word shows: the head that declares it (a leading backslash
is ignored), with its arity and 1-based position, or a builtin's description. -/
def describe (word : String) (idx : Index) : Option String :=
  let w := if word.startsWith "\\" then String.ofList (word.toList.drop 1) else word
  match idx.header? w with
  | some h =>
    some (h.signature ++ "  (arity " ++ Nat.repr h.arity ++ ", defined at " ++
      Nat.repr (h.line + 1) ++ ":" ++ Nat.repr (h.col + 1) ++ ")")
  | none => (builtinSignatures.find? (·.1 == w)).map Prod.snd

end Parenless
