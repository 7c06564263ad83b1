import Parenless.Expr
import Parenless.Builtin
/-!
Function tables.

A table maps function names to functions, in the order the names were first
declared. Declaring a name again replaces its function and keeps its place. A
function has a fixed arity and a body: a builtin, a user expression over its
arguments, or a placeholder that stands for a declaration whose body is still
being parsed (so that the body may call the function itself).

Calls are resolved by name when they run, so redeclaring a function changes what
every earlier call of that name does.
-/

namespace Parenless

/-- What a function does when called. -/
inductive Body where
  | builtin (b : Builtin)
  | user (e : Expr)
  | placeholder
  deriving Repr, Inhabited

/-- A function: its arity and its body. -/
structure Fn where
  arity : Nat
  body : Body
  deriving Repr, Inhabited

namespace Fn

/-- The kind of a function as listings show it. -/
def kindName (f : Fn) : String :=
  match f.body with
  | .builtin b => if b.isLazy then "lazy builtin" else "builtin"
  | .user _ => "user"
  | .placeholder => "placeholder"

/-- Whether a function is a placeholder. -/
def isPlaceholder (f : Fn) : Bool :=
  match f.body with
  | .placeholder => true
  | _ => false

end Fn

/-- Functions by name, in order of first declaration. -/
structure Table where
  entries : List (String × Fn)
  deriving Inhabited

namespace Table

/-- The function a name has, if any. -/
def find? (t : Table) (name : String) : Option Fn :=
  (t.entries.find? fun e => e.1 == name).map Prod.snd

/-- Whether a name has a function. -/
def contains (t : Table) (name : String) : Bool :=
  t.entries.any fun e => e.1 == name

/-- Gives `name` the function `f`: in its place if it has one, else at the end. -/
def declare (t : Table) (name : String) (f : Fn) : Table :=
  if t.contains name then
    ⟨t.entries.map fun e => if e.1 == name then (name, f) else e⟩
  else
    ⟨t.entries ++ [(name, f)]⟩

/-- The number of functions. -/
def size (t : Table) : Nat := t.entries.length

/-- The table every session starts from: the builtins in their order. -/
def initial : Table :=
  ⟨Builtin.all.map fun b => (b.name, ⟨b.arity, .builtin b⟩)⟩

/-- The table as `{name/arity, ...}` in table order. -/
def describe (t : Table) : String :=
  "\x7b" ++ ", ".intercalate (t.entries.map fun e => e.1 ++ "/" ++ Nat.repr e.2.arity) ++ "\x7d"

/-- The functions sorted by name, as (name, arity, kind). -/
def listing (t : Table) : List (String × Nat × String) :=
  (t.entries.mergeSort fun a b => decide (a.1 ≤ b.1)).map fun e =>
    (e.1, e.2.arity, e.2.kindName)

end Table

end Parenless
