import Parenless.Token.Lexer
import Parenless.Expr.Parser
import Parenless.Eval
import Parenless.FileTree
/-!
Sessions.

A session holds one function table across many requests: loading declarations from
a source text or a file, evaluating an input line, and running `main`.

Loading is atomic: when reading or parsing a source fails, the table stays exactly
as it was; when it succeeds, each declaration replaces or appends its name in turn.
An input line that is an expression is evaluated with no arguments and never changes
the table. `main` runs when it is a user function of no arguments.

Errors found while reading or running a source carry that source and the name it
came from, for diagnostics. Every request also reports what `print` wrote and the
notices of the way: redeclarations, the declarations read, a source loaded, `main`
about to run.
-/

namespace Parenless

/-- Where work stands on the call stack: the depth of the frame it runs in, and the
deepest frame the stack allows. -/
structure Stack where
  depth : Nat
  limit : Nat
  deriving Repr, Inhabited

namespace Stack

/-- The usual stack: work at the bottom, and at most ten thousand frames. -/
def standard : Stack := ⟨0, 10000⟩

/-- The room of a call made from here: how many frames it may stack, its own
included. -/
def room (s : Stack) : Nat := s.limit - s.depth

/-- The same stack, `n` calls deeper. -/
def enter (s : Stack) (n : Nat) : Stack := ⟨s.depth + n, s.limit⟩

end Stack

/-- The name diagnostics give a source typed in directly. -/
def inputOrigin : String := "<input>"

/-- A failure, with the source it was found in and that source's name when it is an
error of the language met while reading or running that source. -/
structure Report where
  failure : Failure
  source : Option String := none
  origin : Option String := none
  deriving Inhabited

namespace Report

/-- Blames a failure on a source; only errors of the language are blamed. -/
def within (source origin : String) : Failure → Report
  | .error e => ⟨.error e, some source, some origin⟩
  | f => ⟨f, none, none⟩

end Report

/-- A live function table, the stack its requests run on (the depth of a request's
frame, and the limit), the files it can load, and whether its detail notices are
written as well as its warnings. -/
structure Session where
  table : Table := Table.initial
  stack : Stack := Stack.standard
  files : FileTree := ⟨[]⟩
  roots : List FsPath := FileTree.roots none
  verbose : Bool := false
  deriving Inhabited

/-- What a session request did: the session after it, what `print` wrote, the
notices of the way, and the answer or the failure. -/
structure Outcome (α : Type) where
  session : Session
  out : String := ""
  notices : List Notice := []
  result : Except Report α

namespace Table

/-- A fresh table with the declarations of `program` read into it, each body with
`room` frames. -/
def ofProgram (room : Nat) (program : String) : Except Failure Table := do
  let ts ← Token.scan program
  let (_, t) ← (Parse.decls room Table.initial ts).result
  pure t

end Table

namespace Session

/-- Reads the declarations of `source` into the table, all or none. -/
def load (s : Session) (source : String) (origin : String := inputOrigin) :
    Outcome (List String) :=
  match Token.scan source with
  | .error f => ⟨s, "", [], .error (Report.within source origin f)⟩
  | .ok ts =>
    let d := Parse.decls (s.stack.room - 1) s.table ts
    match d.result with
    | .ok (names, t) =>
      ⟨{ s with table := t }, "", d.notices ++ [.loaded names.length origin], .ok names⟩
    | .error f => ⟨s, "", d.notices, .error (Report.within source origin f)⟩

/-- Runs one input line: declarations are kept (all or none) and give nothing, an
expression gives its value. -/
def eval (s : Session) (source : String) : Outcome (Option Value) :=
  match Token.scan source with
  | .error f => ⟨s, "", [], .error (Report.within source inputOrigin f)⟩
  | .ok ts =>
    match Parse.line (s.stack.room - 1) s.table ts with
    | (notices, .error f) => ⟨s, "", notices, .error (Report.within source inputOrigin f)⟩
    | (notices, .ok (.empty, _)) => ⟨s, "", notices, .ok none⟩
    | (notices, .ok (.decls _, t)) => ⟨{ s with table := t }, "", notices, .ok none⟩
    | (notices, .ok (.expr e, _)) =>
      let r := e.eval s.table s.stack.room []
      match r.result with
      | .ok v => ⟨s, r.out, notices, .ok (some v)⟩
      | .error f => ⟨s, r.out, notices, .error (Report.within source inputOrigin f)⟩

/-- The body of `main`, when it is a user function of no arguments. -/
def mainBody? (t : Table) : Option Expr :=
  match t.find? "main" with
  | some ⟨0, .user body⟩ => some body
  | _ => none

/-- Runs `main`. -/
def runMain (s : Session) : Outcome Value :=
  match mainBody? s.table with
  | none => ⟨s, "", [], .error ⟨.error .noMain, none, none⟩⟩
  | some body =>
    let r := body.eval s.table s.stack.room []
    ⟨s, r.out, [.runningMain], r.result.mapError fun f => ⟨f, none, none⟩⟩

/-- The same session with its requests made `n` calls deeper. -/
def deeper (s : Session) (n : Nat) : Session := { s with stack := s.stack.enter n }

/-- Loads the declarations of the file a name resolves to; the file's text is loaded
one call deeper. A name that resolves to a path holding the NUL character cannot be
opened at all. -/
def loadFile (s : Session) (path : String) : Outcome (List String) :=
  let found := s.files.resolve s.roots path
  if found.render.contains (Char.ofNat 0) then ⟨s, "", [], .error ⟨.nulInName, none, none⟩⟩ else
  match s.files.read found with
  | .missing => ⟨s, "", [], .error ⟨.error (.cannotOpen path), none, none⟩⟩
  | .undecodable => ⟨s, "", [], .error ⟨.error (.cannotDecode path), none, none⟩⟩
  | .text src =>
    let o := (s.deeper 1).load src found.render
    { o with session := { o.session with stack := s.stack } }

/-- Loads a file, then runs `main`, both one call deeper. -/
def runFile (s : Session) (path : String) : Outcome Value :=
  let l := (s.deeper 1).loadFile path
  match l.result with
  | .error r => ⟨{ l.session with stack := s.stack }, l.out, l.notices, .error r⟩
  | .ok _ =>
    let m := l.session.runMain
    ⟨{ m.session with stack := s.stack }, l.out ++ m.out, l.notices ++ m.notices, m.result⟩

end Session

end Parenless
