/-
# From a text to its address

A text is cut into tokens, the tokens are read as an expression, and the expression is
evaluated with a directory and a memory. The first stage that fails gives the failure
of the whole, and nothing is read from the memory unless the text is an expression.

Key definitions: `parse`, `evaluate`.
Key theorems: `evaluate_of_parse_eq_ok`, `reads_evaluate_of_parse_eq_error`.
-/
import AddressExpr.Failure

namespace AddressExpr

/-- The expression that a text is. -/
def parse (source : String) : Except Failure Expr :=
  match Lexer.tokenize source with
  | .error e => .error (.lexing e)
  | .ok tokens =>
    match Expr.ofTokens tokens with
    | .error e => .error (.parsing e)
    | .ok e => .ok e

/-- The address that a text stands for, and the addresses read for it. -/
def evaluate (dir : Directory) (mem : Memory) (source : String) : Run Failure Address :=
  match parse source with
  | .error f => ⟨.error f, []⟩
  | .ok e => (e.evalAddress dir mem).mapError .evaluating

/-- A text that is a list of tokens is the expression of that list. -/
theorem parse_of_tokenize {source : String} {ts : List Token}
    (h : Lexer.tokenize source = .ok ts) :
    parse source = (Expr.ofTokens ts).mapError .parsing := by
  rw [parse, h]
  simp only
  cases Expr.ofTokens ts with
  | ok e => rfl
  | error e => rfl

/-- A text that is an expression has the address of that expression. -/
theorem evaluate_of_parse_eq_ok {dir : Directory} {mem : Memory} {source : String} {e : Expr}
    (h : parse source = .ok e) :
    evaluate dir mem source = (e.evalAddress dir mem).mapError .evaluating := by
  rw [evaluate, h]

/-- A text that is no expression has no address, for the same reason. -/
theorem result_evaluate_of_parse_eq_error {dir : Directory} {mem : Memory} {source : String}
    {f : Failure} (h : parse source = .error f) : (evaluate dir mem source).result = .error f := by
  rw [evaluate, h]

/-- A text that is no expression reads nothing. -/
theorem reads_evaluate_of_parse_eq_error {dir : Directory} {mem : Memory} {source : String}
    {f : Failure} (h : parse source = .error f) : (evaluate dir mem source).reads = [] := by
  rw [evaluate, h]

end AddressExpr
