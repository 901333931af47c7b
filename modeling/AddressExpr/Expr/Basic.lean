/-
# Address expressions

An expression is a hexadecimal literal, a path of names joined with dots, a sign
before an operand, two operands with an operator between them, or a dereference in
square brackets. Parentheses group and leave no node. Every node knows the spans of
its own tokens, and `Expr.span` covers the node with all that is below it.

Key definitions: `Path`, `Expr`, `Expr.span`, `Expr.render`, `Expr.preorder`.
Key theorems: `Path.text_eq_of_qualifier?`.
-/
import AddressExpr.Text.Span

namespace AddressExpr

/-- A name in a path and where it stands. -/
structure Segment where
  name : String
  span : Span
deriving DecidableEq, Inhabited

/-- One name or more, joined with dots, such as `user32.MessageBoxA`. -/
structure Path where
  first : Segment
  rest : List Segment
deriving DecidableEq, Inhabited

namespace Path

/-- All names of the path, in order. -/
def segments (p : Path) : List Segment := p.first :: p.rest

/-- The last name. -/
def last (p : Path) : Segment := p.rest.getLast?.getD p.first

/-- The names joined with dots. -/
def join (names : List String) : String := ".".intercalate names

/-- The text of the path. -/
def text (p : Path) : String := join (p.segments.map (·.name))

/-- The text of the path without its last name; a single name has none. -/
def qualifier? (p : Path) : Option String :=
  if p.rest = [] then none else some (join (p.segments.dropLast.map (·.name)))

/-- From the first name to the last. -/
def span (p : Path) : Span := p.first.span.cover p.last.span

theorem qualifier?_eq_none_iff {p : Path} : p.qualifier? = none ↔ p.rest = [] := by
  simp [qualifier?]

theorem segments_eq (p : Path) : p.segments = p.segments.dropLast ++ [p.last] := by
  obtain ⟨first, rest⟩ := p
  rcases List.eq_nil_or_concat rest with rfl | ⟨front, last, rfl⟩
  · rfl
  · rw [List.concat_eq_append]
    show first :: front ++ [last] = (first :: front ++ [last]).dropLast ++ [_]
    rw [List.dropLast_concat]
    simp [Path.last]

/-- A path is its qualifier, a dot, and its last name. -/
theorem text_eq_of_qualifier? {p : Path} {q : String} (h : p.qualifier? = some q) :
    p.text = q ++ "." ++ p.last.name := by
  unfold qualifier? at h
  split at h
  · simp at h
  · next hr =>
    obtain rfl := Option.some.inj h
    rw [text, segments_eq, List.map_append, List.map_singleton, join,
      String.intercalate_append_of_ne_nil _ (by simp)]
    · simp [join]
    · cases hp : p.rest <;> simp_all [segments]

end Path

/-- The sign before an operand. -/
inductive Sign
  | plus
  | minus
deriving DecidableEq, Inhabited

/-- How the sign is written. -/
def Sign.symbol : Sign → String
  | .plus => "+"
  | .minus => "-"

/-- The operator between two operands. -/
inductive BinaryOp
  | add
  | sub
  | mul
  | div
  | pow
deriving DecidableEq, Inhabited

/-- How the operator is written. -/
def BinaryOp.symbol : BinaryOp → String
  | .add => "+"
  | .sub => "-"
  | .mul => "*"
  | .div => "/"
  | .pow => "**"

/-- An address expression. -/
inductive Expr
  | literal (text : String) (span : Span)
  | path (p : Path)
  | signed (sign : Sign) (signSpan : Span) (operand : Expr)
  | binary (op : BinaryOp) (opSpan : Span) (left right : Expr)
  | deref (openSpan : Span) (address : Expr) (closeSpan : Span)
deriving DecidableEq, Inhabited

namespace Expr

/-- The part of the text that the expression was read from, outer parentheses apart. -/
def span : Expr → Span
  | literal _ s => s
  | path p => p.span
  | signed _ s operand => s.cover operand.span
  | binary _ _ left right => left.span.cover right.span
  | deref openSpan _ closeSpan => openSpan.cover closeSpan

/-- The text shown for an expression: every operator stands before its operands, in
parentheses. -/
def render : Expr → String
  | literal text _ => text
  | path p => p.text
  | signed sign _ operand => "(" ++ sign.symbol ++ " " ++ operand.render ++ ")"
  | binary op _ left right => "(" ++ op.symbol ++ " " ++ left.render ++ " " ++ right.render ++ ")"
  | deref _ address _ => "(deref " ++ address.render ++ ")"

/-- The digits of a literal: its text without `0x`, if it starts so. -/
def literalDigits (text : String) : List Char :=
  match text.toList with
  | '0' :: 'x' :: digits => digits
  | cs => cs

/-- The nodes of the expression, a node before what is below it and left before right, each
with its depth, where the depth of the root is `depth`. -/
def preorder (depth : Nat) : Expr → List (Nat × Expr)
  | e@(literal ..) => [(depth, e)]
  | e@(path _) => [(depth, e)]
  | e@(signed _ _ operand) => (depth, e) :: operand.preorder (depth + 1)
  | e@(binary _ _ left right) =>
    (depth, e) :: (left.preorder (depth + 1) ++ right.preorder (depth + 1))
  | e@(deref _ address _) => (depth, e) :: address.preorder (depth + 1)

end Expr
end AddressExpr
