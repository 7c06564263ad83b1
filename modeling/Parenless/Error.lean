import Parenless.Value
import Parenless.Token
/-!
Errors.

An `Error` is a cause: each constructor is one way reading, parsing, evaluating or
loading can go wrong, with the data its message needs. The wording lives in
`Error.message` only. Errors found in source text carry the span they blame.

A computation can also stop for a reason outside the language (`Failure`): calls
nested deeper than the stack allows, a number literal with more digits than a reader
of decimal numerals accepts, a file name holding the NUL character, or a recursion
limit larger than a platform integer holds.
-/

namespace Parenless

/-- An arithmetic operation whose result can leave the number range. -/
inductive ArithOp where
  | add
  | subtract
  | multiply
  deriving Repr, DecidableEq, Inhabited

namespace ArithOp

/-- The verb for an operation in messages. -/
def verb : ArithOp → String
  | .add => "add"
  | .subtract => "subtract"
  | .multiply => "multiply"

end ArithOp

/-- The family of an error, which decides how callers report it. -/
inductive ErrorClass where
  /-- Files that cannot be read. -/
  | general
  /-- Malformed tokens or token sequences. -/
  | malformed
  /-- A name that is neither a parameter nor a function. -/
  | unbound
  /-- A builtin given a value of the wrong kind. -/
  | mismatch
  /-- A number result out of range, or a zero divisor. -/
  | arithmetic
  /-- Empty lists and a missing entry point. -/
  | runtime
  /-- A broken invariant of the interpreter itself. -/
  | internal
  deriving Repr, DecidableEq, Inhabited

/-- Everything that can go wrong in the language. -/
inductive Error where
  | invalidNumber (span : Span)
  | unterminatedText (span : Span)
  | unknownEscape (c : Char) (span : Span)
  | missingDeclName (span : Span)
  | expectedDecl (found : TokenKind) (span : Span)
  | expectedArrowAtEnd
  | expectedArrow (found : TokenKind) (span : Span)
  | expectedExpr
  | unexpectedToken (found : TokenKind) (span : Span)
  | trailingToken (found : TokenKind) (span : Span)
  | unknownName (name : String) (span : Span)
  | wrongType (position : Nat) (expected found : Kind)
  | cannotAdd (lhs rhs : Kind)
  | overflow (op : ArithOp)
  | divisionByZero
  | remainderByZero
  | emptyHead
  | emptyTail
  | noMain
  | argumentOutOfRange (index frameSize : Nat)
  | vanished (name : String)
  | unfinished
  | cannotOpen (path : String)
  | cannotDecode (path : String)
  deriving Repr, DecidableEq, Inhabited

namespace Error

/-- The text of an error. -/
def message : Error → String
  | .invalidNumber _ => "invalid number literal"
  | .unterminatedText _ => "unterminated text literal"
  | .unknownEscape c _ => "unknown escape sequence \\" ++ c.toString
  | .missingDeclName _ => "expected declaration name after '\\'"
  | .expectedDecl k _ => "expected declaration, found " ++ k.describe
  | .expectedArrowAtEnd => "expected arrow, found <eof>"
  | .expectedArrow k _ => "expected arrow, found " ++ k.describe
  | .expectedExpr => "expected expression, found <eof>"
  | .unexpectedToken k _ => "unexpected token " ++ k.describe
  | .trailingToken k _ => "unexpected token " ++ k.describe ++ " after expression"
  | .unknownName n _ => "cannot find function or local " ++ n
  | .wrongType i e f =>
      "wrong argument type for index " ++ Nat.repr i ++ ": expected " ++ e.name ++
        ", found " ++ f.name
  | .cannotAdd a b => "cannot add " ++ a.name ++ " and " ++ b.name
  | .overflow op => "attempt to " ++ op.verb ++ " with overflow"
  | .divisionByZero => "attempt to divide by zero"
  | .remainderByZero => "attempt to calculate the remainder with a divisor of zero"
  | .emptyHead => "head of an empty list"
  | .emptyTail => "tail of an empty list"
  | .noMain => "no main function found"
  | .argumentOutOfRange i n =>
      "argument " ++ Nat.repr i ++ " out of range for a frame of " ++ Nat.repr n
  | .vanished n => "function " ++ n ++ " vanished after parsing"
  | .unfinished => "attempted to evaluate a declaration that is still being parsed"
  | .cannotOpen p => "could not open " ++ p
  | .cannotDecode p => "could not decode " ++ p ++ " as UTF-8"

/-- The span of source an error blames, if it blames one. -/
def span? : Error → Option Span
  | .invalidNumber s | .unterminatedText s | .unknownEscape _ s | .missingDeclName s
  | .expectedDecl _ s | .expectedArrow _ s | .unexpectedToken _ s | .trailingToken _ s
  | .unknownName _ s => some s
  | _ => none

/-- The family of an error. -/
def errorClass : Error → ErrorClass
  | .invalidNumber _ | .unterminatedText _ | .unknownEscape _ _ | .missingDeclName _
  | .expectedDecl _ _ | .expectedArrowAtEnd | .expectedArrow _ _ | .expectedExpr
  | .unexpectedToken _ _ | .trailingToken _ _ => .malformed
  | .unknownName _ _ => .unbound
  | .wrongType _ _ _ | .cannotAdd _ _ => .mismatch
  | .overflow _ | .divisionByZero | .remainderByZero => .arithmetic
  | .emptyHead | .emptyTail | .noMain => .runtime
  | .argumentOutOfRange _ _ | .vanished _ | .unfinished => .internal
  | .cannotOpen _ | .cannotDecode _ => .general

/-- The argument a kind error blames (1-based), and the kinds it names: the expected
and the found kind, or the two operands' kinds for an addition. A sum is blamed on
its first operand unless that is a number or a text. -/
def blame? : Error → Option (Nat × List Kind)
  | .wrongType i e f => some (i, [e, f])
  | .cannotAdd a b =>
      some (if a = .number ∨ a = .text then 2 else 1, [a, b])
  | _ => none

end Error

/-- Why a computation stopped. -/
inductive Failure where
  /-- An error of the language. -/
  | error (e : Error)
  /-- Calls nested deeper than the stack allows. -/
  | tooDeep
  /-- A numeral had more digits than a decimal reader accepts (their count). -/
  | tooManyDigits (digits : Nat)
  /-- A file name held the NUL character, which no file name can hold. -/
  | nulInName
  /-- A recursion limit larger than a platform integer holds. -/
  | limitTooLarge (limit : Nat)
  deriving Repr, DecidableEq, Inhabited

instance : Coe Error Failure := ⟨Failure.error⟩

end Parenless
