import Parenless.Text.Blank
import Parenless.Text.Digit
import Parenless.Text.Lines
import Parenless.Text.Printable
import Parenless.Text.Quoted
import Parenless.Value
import Parenless.Token
import Parenless.Error
import Parenless.Notice
import Parenless.Token.Lexer
import Parenless.Expr
import Parenless.Builtin
import Parenless.Table
import Parenless.Expr.Parser
import Parenless.Eval
import Parenless.FileTree
import Parenless.Session
import Parenless.Diagnostic
import Parenless.Shell
import Parenless.CommandLine
import Parenless.Index
import Parenless.Server
import Parenless.Main
import Parenless.Proofs.Fuse
import Parenless.Proofs.Grammar
import Parenless.Proofs.TableUpdate
import Parenless.Proofs.Declarations
import Parenless.Proofs.Atomic
import Parenless.Proofs.Scoping
import Parenless.Proofs.Strictness
import Parenless.Proofs.Literals
import Parenless.Proofs.Printing
import Parenless.Proofs.Layout
import Parenless.Proofs.Outline
import Parenless.Proofs.Arithmetic
import Parenless.Proofs.ReadingErrors
import Parenless.Proofs.Failures
import Parenless.Proofs.Documents
import Parenless.Proofs.ShellSession
import Parenless.Proofs.Hover
import Parenless.Proofs.Termination
import Parenless.Proofs.NumberWords
import Parenless.Proofs.Positions
import Parenless.Proofs.CursorWord
