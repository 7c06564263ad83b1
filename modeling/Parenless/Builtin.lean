/-!
Builtin functions.

Every fresh function table starts with these, in this order: the arithmetic `+ - * /
%`, the comparisons `< > =`, the constants `true false none`, the list operations
`pair head tail fuse`, `print`, and the conditional `if`. All but `if` are eager: their
arguments are evaluated first, left to right. `if` is lazy and evaluates only the
branch its condition picks.
-/

namespace Parenless

/-- A function the language provides. -/
inductive Builtin where
  | add | sub | mul | div | mod
  | lt | gt | eq
  | true | false | none
  | pair | head | tail | fuse
  | print
  | cond
  deriving Repr, DecidableEq, Inhabited

namespace Builtin

/-- Every builtin, in the order a fresh table holds them. -/
def all : List Builtin :=
  [.add, .sub, .mul, .div, .mod, .lt, .gt, .eq, .true, .false, .none,
   .pair, .head, .tail, .fuse, .print, .cond]

/-- The name a builtin is called by. -/
def name : Builtin → String
  | .add => "+" | .sub => "-" | .mul => "*" | .div => "/" | .mod => "%"
  | .lt => "<" | .gt => ">" | .eq => "="
  | .true => "true" | .false => "false" | .none => "none"
  | .pair => "pair" | .head => "head" | .tail => "tail" | .fuse => "fuse"
  | .print => "print"
  | .cond => "if"

/-- How many arguments a builtin takes. -/
def arity : Builtin → Nat
  | .true | .false | .none => 0
  | .head | .tail | .print => 1
  | .cond => 3
  | _ => 2

/-- Whether a builtin decides itself which arguments to evaluate. -/
def isLazy : Builtin → Bool
  | .cond => Bool.true
  | _ => Bool.false

end Builtin

end Parenless
