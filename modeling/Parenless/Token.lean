/-!
Tokens.

Source text is read as a list of tokens, each with the span of source it came from.
A token is a declaration head (a backslash and a name), a name, a number literal, a
text literal, or the arrow that ends a declaration's head. A span is a half-open
range of character offsets; spans only serve diagnostics.
-/

namespace Parenless

/-- A half-open range of character offsets into a source text. -/
structure Span where
  start : Nat
  stop : Nat
  deriving Repr, DecidableEq, Inhabited

namespace Span

/-- The number of characters a span covers. -/
def length (s : Span) : Nat := s.stop - s.start

end Span

/-- What a token is, without its contents. -/
inductive TokenKind where
  | decl
  | name
  | number
  | text
  | arrow
  deriving Repr, DecidableEq, Inhabited

namespace TokenKind

/-- The word for a token kind in messages. -/
def describe : TokenKind → String
  | .decl => "declaration"
  | .name => "name"
  | .number => "number"
  | .text => "text"
  | .arrow => "<arrow>"

end TokenKind

/-- A token's contents: a declared name, a name, a number, a text, or the arrow. -/
inductive Lexeme where
  | decl (name : String)
  | name (name : String)
  | number (n : Nat)
  | text (s : String)
  | arrow
  deriving Repr, DecidableEq, Inhabited

namespace Lexeme

/-- The kind of a lexeme. -/
def kind : Lexeme → TokenKind
  | .decl _ => .decl
  | .name _ => .name
  | .number _ => .number
  | .text _ => .text
  | .arrow => .arrow

end Lexeme

/-- A lexeme with the span of source it was read from. -/
structure Token where
  lexeme : Lexeme
  span : Span
  deriving Repr, DecidableEq, Inhabited

namespace Token

/-- The kind of a token. -/
def kind (t : Token) : TokenKind := t.lexeme.kind

end Token

end Parenless
