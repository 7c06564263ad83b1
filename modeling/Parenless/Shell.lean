import Parenless.Diagnostic
/-!
The interactive shell.

The shell prints a prompt `> `, reads a line, and acts on it, until a command stops it
or the input runs out (then it prints an empty line). Each line is trimmed first. A
line starting with a colon is a command:

* `:load FILE` loads the declarations of a file and says how many there were;
* `:functions` lists every function with its arity and kind, sorted by name;
* `:help` (or `:?`) prints a short introduction;
* `:quit` and `:exit` stop the shell, and `:EOF` stops it like the end of input.

The command word is the run of ASCII letters, digits and underscores after the
colon; anything else is an unknown command. Every other non-empty line is a
declaration or an expression for the session, whose value is printed. Errors are
printed as diagnostics and the shell goes on; the table keeps only what succeeded.

What `print` writes and what the shell writes go to one stream, in order.
Notices go to a second stream: the warnings, and the detail too when the session is
verbose.
-/

namespace Parenless

/-- A shell command. -/
inductive Command where
  | load (arg : String)
  | functions
  | help
  | quit
  | endOfInput
  /-- Anything else; the word is what the complaint quotes. -/
  | unknown (word : String)
  deriving Repr, DecidableEq, Inhabited

/-- What one line of input asks for. -/
inductive Entry where
  | blank
  | command (c : Command)
  | source (text : String)
  deriving Repr, DecidableEq, Inhabited

namespace Entry

/-- Whether a character may be part of a command word. -/
def isWordChar (c : Char) : Bool :=
  (c.toNat < 128) && (c.isAlphanum || c == '_')

/-- The command a colon line asks for; `body` is the text after the colon. -/
def commandOf (body : String) : Command :=
  let rest := Text.trim body
  let complain (text : String) : Command := .unknown ((Text.firstWord text).getD text)
  match rest.toList with
  | [] => complain ":"
  | '!' :: _ => complain (":" ++ rest)
  | cs =>
    let cs := match cs with
      | '?' :: more => "help ".toList ++ more
      | _ => cs
    let word := String.ofList (cs.takeWhile isWordChar)
    let arg := Text.trim (String.ofList (cs.dropWhile isWordChar))
    match word with
    | "load" => .load arg
    | "functions" => .functions
    | "help" => .help
    | "quit" | "exit" => .quit
    | "EOF" => .endOfInput
    | _ => complain (":" ++ String.ofList cs)

/-- Reads one line of input. -/
def ofLine (line : String) : Entry :=
  let t := Text.trim line
  match t.toList with
  | [] => .blank
  | ':' :: more => .command (commandOf (String.ofList more))
  | _ => .source t

end Entry

namespace Shell

/-- The prompt printed before each line is read. -/
def prompt : String := "> "

/-- The greeting printed when the shell starts, unless another is given. -/
def greeting : String := "Polish notation interpreter\nType ':help' for more information."

/-- The text `:help` prints. -/
def helpText : String :=
  "Declarations look like '\\name param ... -> body'; anything else is an\n" ++
  "expression evaluated against the functions defined so far. Calls have no\n" ++
  "parentheses: each function consumes exactly as many arguments as it declares,\n" ++
  "so '+ * 2 3 4' is (2 * 3) + 4.\n\n" ++
  "Commands:\n" ++
  "  :load FILE    load declarations from FILE\n" ++
  "  :functions    list functions and their arities\n" ++
  "  :quit         leave the interpreter"

/-- The lines an input text holds: split at line feeds, each without trailing
carriage returns and line feeds; an empty piece after the last line feed is the end. -/
def lines (input : String) : List String :=
  let pieces := input.splitOn "\n"
  let pieces := if pieces.getLast? == some "" then pieces.dropLast else pieces
  pieces.map fun p => String.ofList (p.toList.reverse.dropWhile (· == '\r')).reverse

/-- What a shell run wrote: its output stream and its notice stream. -/
structure Transcript where
  out : String := ""
  err : String := ""
  deriving Inhabited


/-- Whether a failure escapes the shell: only a failure outside the language's
reports does. -/
def escapes : Failure → Bool
  | .error _ | .tooDeep => false
  | _ => true

/-- Acts on one entry: the session after it, what it wrote to each stream, and
whether the shell stops; or the failure that escapes. -/
def step (s : Session) : Entry → Except Failure (Session × Transcript × Bool)
  | .blank => .ok (s, {}, false)
  | .command .help => .ok (s, { out := helpText ++ "\n" }, false)
  | .command .quit => .ok (s, {}, true)
  | .command .endOfInput => .ok (s, { out := "\n" }, true)
  | .command (.unknown w) => .ok (s, { out := "unknown command '" ++ w ++ "'\n" }, false)
  | .command .functions =>
    let text := String.join (s.table.listing.map fun e =>
      e.1 ++ "/" ++ Nat.repr e.2.1 ++ "  (" ++ e.2.2 ++ ")\n")
    .ok (s, { out := text }, false)
  | .command (.load arg) =>
    if arg.isEmpty then .ok (s, { out := "usage: :load FILE\n" }, false)
    else
      let o := s.loadFile arg
      let err := Notice.text s.verbose o.notices
      match o.result with
      | .ok names =>
        .ok (o.session, { out := "loaded " ++ Nat.repr names.length ++
          " declaration(s) from " ++ arg ++ "\n", err := err }, false)
      | .error r =>
        if escapes r.failure then .error r.failure
        else .ok (o.session, { out := r.text ++ "\n", err := err }, false)
  | .source text =>
    let o := s.eval text
    let err := Notice.text s.verbose o.notices
    match o.result with
    | .ok (some v) => .ok (o.session, { out := o.out ++ v.render ++ "\n", err := err }, false)
    | .ok none => .ok (o.session, { out := o.out, err := err }, false)
    | .error r =>
      if escapes r.failure then .error r.failure
      else .ok (o.session, { out := o.out ++ r.text ++ "\n", err := err }, false)

/-- Runs the shell over input lines, after what it has written so far. -/
def loop (s : Session) (acc : Transcript) : List String → Except Failure (Session × Transcript)
  | [] => .ok (s, { acc with out := acc.out ++ prompt ++ "\n" })
  | line :: rest =>
    match step s (Entry.ofLine line) with
    | .error f => .error f
    | .ok (s', t, stop) =>
      let acc' : Transcript := { out := acc.out ++ prompt ++ t.out, err := acc.err ++ t.err }
      if stop then .ok (s', acc') else loop s' acc' rest

/-- Runs the shell on an input text, greeting first when the greeting is not
empty; gives the session at the end and what was written. -/
def run (s : Session) (greet : String) (input : String) : Except Failure (Session × Transcript) :=
  let start : Transcript := { out := if greet.isEmpty then "" else greet ++ "\n" }
  loop s start (lines input)

end Shell

end Parenless
