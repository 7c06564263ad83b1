import Parenless.Shell
import Parenless.Text.Quoted
/-!
The command line.

The program takes an optional FILE and the options `-i` (`--interactive`), `-e EXPR`
(`--eval EXPR`), `-v` (`--verbose`), `-h` (`--help`) and `--version`. It loads FILE
if given; then it evaluates EXPR and prints its value, or, with a file and without
`-i`, runs `main` and prints its value. An error is printed as a diagnostic on the
error stream and ends the run with status 1. Afterwards the shell starts when `-i`
is given, or when there is neither a file nor an expression. `-v` writes the detail
notices too; `-h` and `--version` print their text and stop at once.

Reading the arguments goes in two passes. The first sees each argument alone: the
first `--` makes every later argument a value; an exact spelling is an option; a
word with an `=` whose part before it is a spelling is that option with a value
attached; a long option may be named by any beginning of its spelling (an `=` cuts
off the value), and a short one by its first two characters (the rest is attached);
a beginning shared by several long options is an error; failing all of that, a word
that reads as a negative number or holds a space is a value, and any other word
starting with a dash is an unknown option. The second pass reads the words in
order. An option that takes no value may carry more short options packed after it;
`-e` takes its attached text or the next value. The first value fills the place of
the file, with a `--` before or after it dropped. Unknown options and any other
values are complaints, listed in the order they came.
-/

namespace Parenless

/-- What the command line asks for. -/
structure Invocation where
  file : Option String := none
  interactive : Bool := false
  eval : Option String := none
  verbose : Bool := false
  deriving Repr, Inhabited

/-- How a run of the program ends: its status and what it wrote to its two streams. -/
structure Exit where
  code : Nat
  out : String := ""
  err : String := ""
  deriving Repr, Inhabited

namespace CommandLine

/-- The version line. -/
def versionText : String := "polish 0.1.0\n"

/-- The usage line. -/
def usage : String := "usage: polish [-h] [-i] [-e EXPR] [-v] [--version] [file]"

/-- The help text: the usage, what the program is, its arguments, and examples. -/
def helpText : String :=
  "\n".intercalate [usage, "",
    "Prefix-notation interpreter where each function's arity drives the parse.", "",
    "positional arguments:",
    "  file                  source file to load (runs main unless -e or -i is",
    "                        given)", "",
    "options:",
    "  -h, --help            show this help message and exit",
    "  -i, --interactive     start the shell after loading",
    "  -e EXPR, --eval EXPR  evaluate EXPR after loading and print it",
    "  -v, --verbose         enable debug logging",
    "  --version             show program's version number and exit", "",
    "Examples:",
    "  polish fac.pn                 # load fac.pn and print the value of main",
    "  polish fac.pn -e \"fac 5\"      # load fac.pn and evaluate one expression",
    "  polish -i fac.pn              # load fac.pn, then start the shell",
    "  polish                        # start the shell",
    "        ", ""]

/-- A usage error: the usage, the complaint, status 2. -/
def usageError (msg : String) : Exit :=
  ⟨2, "", usage ++ "\npolish: error: " ++ msg ++ "\n"⟩

/-- The options of the command line. -/
inductive Flag where
  | help
  | interactive
  | eval
  | verbose
  | version
  deriving Repr, DecidableEq, Inhabited

namespace Flag

/-- The options in the order they are declared, which is the order an ambiguous
beginning lists them in. -/
def all : List Flag := [.help, .interactive, .eval, .verbose, .version]

/-- The spellings of an option, the short one first. -/
def spellings : Flag → List String
  | .help => ["-h", "--help"]
  | .interactive => ["-i", "--interactive"]
  | .eval => ["-e", "--eval"]
  | .verbose => ["-v", "--verbose"]
  | .version => ["--version"]

/-- How a complaint names an option: its spellings, joined by a slash. -/
def title (f : Flag) : String := "/".intercalate f.spellings

/-- Whether an option takes a value. -/
def takesValue : Flag → Bool
  | .eval => true
  | _ => false

end Flag

/-- Every spelling with its option, in the order they are declared. -/
def spellings : List (String × Flag) :=
  Flag.all.flatMap fun f => f.spellings.map fun s => (s, f)

/-- The option a word spells exactly. -/
def flag? (w : String) : Option Flag :=
  (spellings.find? (·.1 == w)).map Prod.snd

/-- A word cut at its first `=`: what stands before it and what after. -/
def cutAtEquals (w : String) : Option (String × String) :=
  match w.splitOn "=" with
  | n :: v :: more => some (n, "=".intercalate (v :: more))
  | _ => none

/-- Whether an argument reads as a negative number: a dash, then decimal digits, or
digits, a point and at least one digit; one line feed may end it. -/
def isNegativeNumber (w : String) : Bool :=
  let cs := w.toList
  let body := if cs.getLast? == some '\n' then cs.dropLast else cs
  match body with
  | '-' :: rest =>
    let whole := rest.takeWhile Text.isDecimal
    match rest.dropWhile Text.isDecimal with
    | [] => !whole.isEmpty
    | '.' :: frac => !frac.isEmpty && frac.all Text.isDecimal
    | _ => false
  | _ => false

/-- One argument, as the reader sees it before reading any. -/
inductive Word where
  /-- A value: the file, an option's value, or an argument nothing takes. -/
  | value (text : String)
  /-- The first `--`: every argument after it is a value. -/
  | stop
  /-- An option, as spelled, with the value attached to it in the same argument. -/
  | option (f : Flag) (spelled : String) (attached : Option String)
  /-- An argument that looks like an option but is none. -/
  | unknown (text : String)
  deriving Repr, Inhabited

/-- The options an argument may stand for when it spells none exactly, each with
the spelling it is read as and the value it carries: a long option by a beginning of
its spelling, up to an `=` that starts the value; a short one by the first two
characters, the rest being the value. -/
def candidates (w : String) : List (Flag × String × Option String) :=
  match w.toList with
  | '-' :: '-' :: _ =>
    let (pre, attached) := match cutAtEquals w with
      | some (n, v) => (n, some v)
      | none => (w, none)
    (spellings.filter fun s => pre.isPrefixOf s.1).map fun s => (s.2, s.1, attached)
  | '-' :: c :: more =>
    let short := String.ofList ['-', c]
    (spellings.filter fun s => s.1 == short).map fun s => (s.2, s.1, some (String.ofList more))
  | _ => []

/-- How the reader sees an argument before reading any; an argument that begins
several long options at once is a usage error. -/
def classify (w : String) : Except Exit Word :=
  if !w.startsWith "-" then .ok (.value w)
  else
    match flag? w with
    | some f => .ok (.option f w none)
    | none =>
      if w.length == 1 then .ok (.value w)
      else
        match (cutAtEquals w).bind fun (n, v) => (flag? n).map fun f => (f, n, v) with
        | some (f, n, v) => .ok (.option f n (some v))
        | none =>
          match candidates w with
          | [(f, s, a)] => .ok (.option f s a)
          | [] => .ok (if isNegativeNumber w || w.contains ' ' then .value w else .unknown w)
          | cs => .error (usageError ("ambiguous option: " ++ w ++ " could match " ++
              ", ".intercalate (cs.map fun c => c.2.1)))

/-- How the reader sees every argument: after the first `--`, every argument is a
value. -/
def classifyAll : List String → Except Exit (List Word)
  | [] => .ok []
  | "--" :: rest => .ok (.stop :: rest.map .value)
  | w :: rest => do
    let x ← classify w
    let xs ← classifyAll rest
    pure (x :: xs)

/-- The complaint about a value attached to an option that takes none. -/
def ignored (f : Flag) (v : String) : Exit :=
  usageError ("argument " ++ f.title ++ ": ignored explicit argument " ++ Text.quoted v)

/-- The complaint about an option that lacks its value. -/
def missingValue (f : Flag) : Exit :=
  usageError ("argument " ++ f.title ++ ": expected one argument")

/-- What reading an option gives: the options to take, in order, and whether the
next argument was used up as a value. -/
abbrev Taking := List (Flag × Option String) × Bool

/-- Reads the letters packed after a short option `f` that takes no value: each is
another short option, and one that takes a value takes the letters after it, or
the next argument when none are left. -/
def packed (f : Flag) (next : Option Word) : List Char → Except Exit Taking
  | [] => .ok ([(f, none)], false)
  | c :: more =>
    match flag? (String.ofList ['-', c]) with
    | none => .error (ignored f (String.ofList (c :: more)))
    | some g =>
      if g.takesValue then
        match more, next with
        | [], some (.value v) => .ok ([(f, none), (g, some v)], true)
        | [], _ => .error (missingValue g)
        | _, _ => .ok ([(f, none), (g, some (String.ofList more))], false)
      else
        match packed g next more with
        | .ok (ts, used) => .ok ((f, none) :: ts, used)
        | .error e => .error e

/-- Reads an option, given the argument after it: its attached value, the next
argument as its value, or the short options packed after it. -/
def readOption (f : Flag) (spelled : String) (attached : Option String) (next : Option Word) :
    Except Exit Taking :=
  match attached with
  | some v =>
    if f.takesValue then .ok ([(f, some v)], false)
    else if !spelled.startsWith "--" && !v.isEmpty then packed f next v.toList
    else .error (ignored f v)
  | none =>
    if f.takesValue then
      match next with
      | some (.value v) => .ok ([(f, some v)], true)
      | _ => .error (missingValue f)
    else .ok ([(f, none)], false)

/-- Takes an option: it changes the invocation or, for help and the version, ends
the run at once. -/
def take (inv : Invocation) : Flag × Option String → Except Exit Invocation
  | (.help, _) => .error ⟨0, helpText, ""⟩
  | (.version, _) => .error ⟨0, versionText, ""⟩
  | (.interactive, _) => .ok { inv with interactive := true }
  | (.verbose, _) => .ok { inv with verbose := true }
  | (.eval, v) => .ok { inv with eval := v }

/-- What reading the words found so far: the invocation, whether the place of the
file is filled, and the arguments nothing took, in order. -/
structure Reading where
  inv : Invocation := {}
  placed : Bool := false
  extras : List String := []
  deriving Inhabited

/-- Reads the words in order: options as they come, the first value into the place
of the file (dropping a `--` before or after it), and every other value and unknown
option aside. -/
def readWords (r : Reading) : List Word → Except Exit Reading
  | [] => .ok r
  | .option f s a :: rest =>
    match readOption f s a rest.head? with
    | .error e => .error e
    | .ok (taken, used) =>
      match taken.foldlM take r.inv with
      | .error e => .error e
      | .ok inv => readWords { r with inv := inv } (if used then rest.drop 1 else rest)
  | .unknown w :: rest => readWords { r with extras := r.extras ++ [w] } rest
  | .stop :: .value v :: more =>
    if r.placed then readWords { r with extras := r.extras ++ ["--"] } (.value v :: more)
    else readWords { r with placed := true, inv := { r.inv with file := some v } } more
  | .stop :: rest =>
    if r.placed then readWords { r with extras := r.extras ++ ["--"] } rest
    else readWords { r with placed := true } rest
  | .value v :: .stop :: more =>
    if r.placed then readWords { r with extras := r.extras ++ [v] } (.stop :: more)
    else readWords { r with placed := true, inv := { r.inv with file := some v } } more
  | .value v :: rest =>
    if r.placed then readWords { r with extras := r.extras ++ [v] } rest
    else readWords { r with placed := true, inv := { r.inv with file := some v } } rest
termination_by ws => ws.length
decreasing_by
  all_goals first
    | (simp only [List.length_cons]; omega)
    | (split <;> simp only [List.length_drop, List.length_cons] <;> omega)

/-- Reads a command line: what it asks for, or how the program ends at once (help,
the version, or a usage error). -/
def invocation (argv : List String) : Except Exit Invocation := do
  let words ← classifyAll argv
  let r ← readWords {} words
  if r.extras.isEmpty then pure r.inv
  else .error (usageError ("unrecognized arguments: " ++ " ".intercalate r.extras))

/-- What the first part of a run leaves: the session, both streams, and the report of
the error that ended it, if one did. -/
structure Progress where
  session : Session
  out : String := ""
  err : String := ""
  failed : Option Report := none
  deriving Inhabited

/-- Loads the file and evaluates the expression or `main`, as the invocation asks. -/
def prepare (s : Session) (inv : Invocation) : Progress :=
  let s := { s with verbose := inv.verbose }
  let loaded : Progress :=
    match inv.file with
    | none => { session := s }
    | some f =>
      let o := s.loadFile f
      { session := o.session, err := Notice.text s.verbose o.notices,
        failed := match o.result with
          | .ok _ => none
          | .error r => some r }
  if loaded.failed.isSome then loaded
  else
    match inv.eval with
    | some src =>
      let o := loaded.session.eval src
      let shown := match o.result with
        | .ok (some v) => v.render ++ "\n"
        | _ => ""
      { session := o.session, out := o.out ++ shown,
        err := loaded.err ++ Notice.text s.verbose o.notices,
        failed := match o.result with
          | .ok _ => none
          | .error r => some r }
    | none =>
      if inv.file.isSome && !inv.interactive then
        let o := loaded.session.runMain
        { session := o.session,
          out := o.out ++ (match o.result with
            | .ok v => v.render ++ "\n"
            | .error _ => ""),
          err := loaded.err ++ Notice.text s.verbose o.notices,
          failed := match o.result with
            | .ok _ => none
            | .error r => some r }
      else loaded

/-- Whether the shell starts after the first part of a run: with `-i`, or with
neither a file nor an expression. -/
def startsShell (inv : Invocation) : Bool :=
  inv.interactive || (inv.file.isNone && inv.eval.isNone)

/-- The session the shell works on after the first part of a run: its requests are
made three calls deeper, under the shell's loop, its dispatch and its handler. -/
def shellSession (s : Session) : Session := s.deeper 3

/-- Runs the program for an invocation, with `input` as its standard input; a
failure outside the language's reports escapes. -/
def run (s : Session) (inv : Invocation) (input : String) : Except Failure Exit :=
  let p := prepare s inv
  match p.failed with
  | some r =>
    if Shell.escapes r.failure then .error r.failure
    else .ok ⟨1, p.out, p.err ++ r.text ++ "\n"⟩
  | none =>
    if startsShell inv then
      match Shell.run (shellSession p.session) Shell.greeting input with
      | .ok (_, t) => .ok ⟨0, p.out ++ t.out, p.err ++ t.err⟩
      | .error f => .error f
    else .ok ⟨0, p.out, p.err⟩

/-- A blank around a number setting: an ASCII blank other than the four separator
controls, or a blank beyond ASCII. -/
def isSettingBlank (c : Char) : Bool :=
  Text.isBlank c && !(28 ≤ c.toNat && c.toNat ≤ 31)

/-- An integer setting as written: blanks around it, an optional sign, then decimal
digits of any script with single underscores between them, at most as many digits
as a numeral may have (`Lexer.digitLimit`). -/
def readInteger (raw : String) : Option Int :=
  let cs := ((raw.toList.dropWhile isSettingBlank).reverse.dropWhile isSettingBlank).reverse
  let (neg, body) := match cs with
    | '-' :: rest => (true, rest)
    | '+' :: rest => (false, rest)
    | rest => (false, rest)
  let groups := (String.ofList body).splitOn "_"
  if groups.any (·.isEmpty) then none
  else
    match (groups.flatMap String.toList).mapM Text.decimalValue? with
    | none => none
    | some ds =>
      if Lexer.digitLimit < ds.length then none
      else
        let n : Int := ds.foldl (fun (acc : Int) (d : Nat) => 10 * acc + d) 0
        some (if neg then -n else n)

/-- The recursion limit a setting names: its integer value, at least 100; the usual
ten thousand when it is missing, empty or not an integer. -/
def budget (setting : Option String) : Nat :=
  match setting with
  | none => 10000
  | some raw =>
    match readInteger raw with
    | some v => max v.toNat 100
    | none => 10000

/-- The largest recursion limit a platform integer holds. -/
def largestLimit : Nat := 2147483647

/-- Where the program runs: the depth of its own frame on the stack, and how many
frames at the top of the stack the host keeps for itself. -/
structure Host where
  depth : Nat
  reserve : Nat := 0
  deriving Repr, Inhabited

/-- The session a run starts with: its requests are made two calls under the
program's frame, and the stack ends at the limit less what the host keeps. -/
def session (host : Host) (files : FileTree) (searchPath : Option String) (limit : Nat) :
    Session :=
  { files := files, roots := FileTree.roots searchPath,
    stack := ⟨host.depth + 2, limit - host.reserve⟩ }

/-- Runs the program on an argument list, with the files, search path setting,
recursion setting and standard input it sees. A recursion limit too large for a
platform integer is a failure once the arguments are read. -/
def execute (host : Host) (files : FileTree) (searchPath recursion : Option String)
    (argv : List String) (input : String) : Except Failure Exit :=
  match invocation argv with
  | .error e => .ok e
  | .ok inv =>
    let limit := budget recursion
    if largestLimit < limit then .error (.limitTooLarge limit)
    else run (session host files searchPath limit) inv input

end CommandLine

end Parenless
