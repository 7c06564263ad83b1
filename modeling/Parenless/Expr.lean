import Parenless.Value
/-!
Expressions.

The parser resolves every name, so an expression is an application of a named
function to exactly as many argument expressions as the function takes, a reference
to an argument of the enclosing declaration by position, or a literal value.
-/

namespace Parenless

/-- A parsed expression. -/
inductive Expr where
  /-- A call of the function named `callee`. -/
  | app (callee : String) (args : List Expr)
  /-- The argument at position `index` of the call in scope. -/
  | arg (index : Nat)
  /-- A constant. -/
  | lit (v : Value)
  deriving Repr, Inhabited

end Parenless
