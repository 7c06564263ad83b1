/-!
Notices.

Reading and loading report what they do as they go. A redeclaration of a name that
held a real function is a warning, and is always written. The rest is detail,
written only when the program is asked to be verbose. A quiet program writes a
warning as its bare message; a verbose one writes every notice after the name of the
part of the program that reports it.
-/

namespace Parenless

/-- What reading and loading report along the way. -/
inductive Notice where
  /-- A name that held a real function is declared again; `arity` is the one it had. -/
  | redeclared (name : String) (arity : Nat)
  /-- A declaration was read. -/
  | declared (name : String) (arity : Nat)
  /-- A source was loaded: how many declarations it had, and its name. -/
  | loaded (count : Nat) (origin : String)
  /-- `main` is about to run. -/
  | runningMain
  deriving Repr, DecidableEq, Inhabited

namespace Notice

/-- Whether a notice is a warning, written even by a quiet program. -/
def isWarning : Notice → Bool
  | .redeclared _ _ => true
  | _ => false

/-- The text of a notice. -/
def message : Notice → String
  | .redeclared n a => "redeclaring " ++ n ++ " (was arity " ++ Nat.repr a ++ ")"
  | .declared n a => "declared " ++ n ++ "/" ++ Nat.repr a
  | .loaded k o => "loaded " ++ Nat.repr k ++ " declarations from " ++ o
  | .runningMain => "evaluating main"

/-- The part of the program that reports a notice. -/
def reporter : Notice → String
  | .redeclared _ _ | .declared _ _ => "polish.reader.parser"
  | .loaded _ _ | .runningMain => "polish.interpreter"

/-- The line a notice is written as: by a verbose program every notice after its
reporter, by a quiet one a warning alone. -/
def line (verbose : Bool) (n : Notice) : String :=
  if verbose then n.reporter ++ ": " ++ n.message ++ "\n"
  else if n.isWarning then n.message ++ "\n"
  else ""

/-- The lines of several notices, in order. -/
def text (verbose : Bool) (ns : List Notice) : String :=
  String.join (ns.map (line verbose))

/-- A quiet program writes only warnings. -/
theorem text_quiet (ns : List Notice) :
    text false ns = String.join ((ns.filter isWarning).map fun n => n.message ++ "\n") := by
  induction ns with
  | nil => rfl
  | cons n rest ih =>
    cases n <;> simp_all [text, line, isWarning, List.filter_cons]

end Notice

end Parenless
