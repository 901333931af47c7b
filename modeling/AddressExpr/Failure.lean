/-
# Failures and their reports

A text may fail to be a list of tokens, its tokens may fail to be an expression, and the
expression may fail to have an address. The report of a failure says which of these it
is, what is wrong, where it is, and shows the row of the text with the part at fault
underlined.

Key definitions: `Failure`, `Failure.span`, `Failure.excerpt`, `Failure.report`.
-/
import AddressExpr.Expr.Eval
import AddressExpr.Expr.OfTokens
import AddressExpr.Text.Row
import AddressExpr.Token.Lexer

namespace AddressExpr

/-- Why a text has no address. -/
inductive Failure
  | lexing (e : LexError)
  | parsing (e : SyntaxError)
  | evaluating (e : EvalError)
deriving DecidableEq, Inhabited

namespace Failure

/-- The heading of the report. -/
def title : Failure → String
  | lexing _ => "LexError"
  | parsing _ => "SyntaxError"
  | evaluating _ => "RuntimeError"

/-- What is wrong. -/
def message : Failure → String
  | lexing e => e.message
  | parsing e => e.message
  | evaluating e => e.message

/-- The part of the text at fault. -/
def span : Failure → Span
  | lexing e => e.span
  | parsing e => e.span
  | evaluating e => e.span

/-- The parts of the text that have to do with the failure, with a note on each. -/
def labels : Failure → List (Span × String)
  | lexing e => e.labels
  | parsing e => e.labels
  | evaluating e => e.labels

/-- The row of the text with the part at fault underlined. -/
def excerpt (source : String) (f : Failure) : String :=
  String.ofList (Text.excerpt source.toList f.span)

/-- The report of the failure of a text. -/
def report (source : String) (f : Failure) : String :=
  f.title ++ ": " ++ f.message ++ "\n\t" ++ f.span.start.render ++ "\n\n" ++
    f.excerpt source ++ "\n"

end Failure
end AddressExpr
