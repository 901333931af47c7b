/-
# The expression of a list of tokens

From weakest to strongest, the operators are `+` and `-`, `*` and `/`, `**`, and a sign
before an operand, which takes one operand and no operator. Operators of equal power
group to the left, `**` among them.

`Expr.climb` reads an operand and then every operator stronger than a given power,
each with a right operand that takes only what is stronger still. How deep a tree may
grow is limited: every bracket, every sign and every operator takes one level of the
`room` that is left. A bracket gives its level back where it closes; a sign and an operator
keep theirs until the operand they stand in is complete. So the tree has never more
levels than were taken, however it leans, and since every step down takes a level the
reading ends.

Words after the first end of the text are not read, and a list without an end has it
where its last token stops.

Key definitions: `Expr.climb`, `Expr.ofTokens`.
-/
import AddressExpr.Expr.Basic
import AddressExpr.Token.Basic

namespace AddressExpr

/-- Why a list of tokens is no expression. -/
inductive SyntaxProblem
  | unmatchedParenthesis (opener : Span)
  | unmatchedBracket (opener : Span)
  | expectedIdentifier
  | invalidToken
  | tooDeep
  | trailingInput
deriving DecidableEq, Inhabited

/-- A problem and the token at which it was found. -/
structure SyntaxError where
  problem : SyntaxProblem
  found : Token
deriving DecidableEq, Inhabited

/-- How many levels a tree may have below one another. -/
def maxLevels : Nat := 256

namespace SyntaxError

/-- The token at which the problem was found. -/
def span (e : SyntaxError) : Span := e.found.span

/-- What a report says about the error. -/
def message (e : SyntaxError) : String :=
  match e.problem with
  | .unmatchedParenthesis _ => "expected ')'"
  | .unmatchedBracket _ => "expected ']'"
  | .expectedIdentifier => "expected identifier"
  | .invalidToken => "invalid token"
  | .tooDeep => "expression nested too deeply"
  | .trailingInput => "unexpected trailing input"

/-- The parts of the text that a report marks, with a note on each. -/
def labels (e : SyntaxError) : List (Span × String) :=
  let found := e.found.kind.name
  match e.problem with
  | .unmatchedParenthesis opener =>
    [(opener, "opening parenthesis here"), (e.span, "found " ++ found ++ " instead")]
  | .unmatchedBracket opener =>
    [(opener, "opening bracket here"), (e.span, "found " ++ found ++ " instead")]
  | .expectedIdentifier => [(e.span, "found " ++ found ++ " after '.'")]
  | .invalidToken =>
    [(e.span, "found " ++ found ++ " instead of a hex number, identifier, '(' or '['")]
  | .tooDeep => [(e.span, "more than " ++ toString maxLevels ++ " levels deep here")]
  | .trailingInput => [(e.span, "expected end of input, found " ++ found)]

end SyntaxError

/-- The sign that a token may be before an operand. -/
def Token.Kind.sign? : Token.Kind → Option Sign
  | .plus => some .plus
  | .minus => some .minus
  | _ => none

/-- The operator that a token may be between two operands. -/
def Token.Kind.binaryOp? : Token.Kind → Option BinaryOp
  | .plus => some .add
  | .minus => some .sub
  | .times => some .mul
  | .divide => some .div
  | .power => some .pow
  | _ => none

/-- How strongly the operator holds its operands together. -/
def BinaryOp.strength : BinaryOp → Nat
  | .add => 1
  | .sub => 1
  | .mul => 2
  | .div => 2
  | .pow => 3

namespace Expr

/-- The names that follow the first one of a path, each after a dot. -/
def dottedNames (fin : Token) : List Token →
    Except SyntaxError (List Segment × List Token)
  | ⟨.dot, _⟩ :: ⟨.ident name, s⟩ :: ts => do
    let (more, rest) ← dottedNames fin ts
    .ok (⟨name, s⟩ :: more, rest)
  | ⟨.dot, _⟩ :: ts => .error ⟨.expectedIdentifier, ts.headD fin⟩
  | ts => .ok ([], ts)

/-- The token of the kind `kind`, or else `problem` at the token that stands there. -/
def expect (fin : Token) (kind : Token.Kind) (problem : SyntaxProblem) (ts : List Token) :
    Except SyntaxError (Token × List Token) :=
  if (ts.headD fin).kind = kind then .ok (ts.headD fin, ts.tail)
  else .error ⟨problem, ts.headD fin⟩

mutual

/-- A literal, a path, a group or a dereference. -/
def atom (fin : Token) (room : Nat) (ts : List Token) :
    Except SyntaxError (Expr × List Token) :=
  match ts with
  | ⟨.hex text, s⟩ :: ts => .ok (.literal text s, ts)
  | ⟨.ident name, s⟩ :: ts => do
    let (more, rest) ← dottedNames fin ts
    .ok (.path ⟨⟨name, s⟩, more⟩, rest)
  | ⟨.openParen, s⟩ :: ts =>
    match room with
    | 0 => .error ⟨.tooDeep, ⟨.openParen, s⟩⟩
    | room + 1 => do
      let (inner, rest) ← climb fin room 0 ts
      let (_, rest) ← expect fin .closeParen (.unmatchedParenthesis s) rest
      .ok (inner, rest)
  | ⟨.openBracket, s⟩ :: ts =>
    match room with
    | 0 => .error ⟨.tooDeep, ⟨.openBracket, s⟩⟩
    | room + 1 => do
      let (address, rest) ← climb fin room 0 ts
      let (close, rest) ← expect fin .closeBracket (.unmatchedBracket s) rest
      .ok (.deref s address close.span, rest)
  | ts => .error ⟨.invalidToken, ts.headD fin⟩
termination_by 2 * room

/-- An operand, which may have a sign, and the operators after it that are stronger than
`power`. -/
def climb (fin : Token) (room power : Nat) (ts : List Token) :
    Except SyntaxError (Expr × List Token) :=
  match (ts.headD fin).kind.sign? with
  | some sign =>
    match room with
    | 0 => .error ⟨.tooDeep, ts.headD fin⟩
    | room + 1 => do
      let (operand, rest) ← atom fin room ts.tail
      fold fin room power (.signed sign (ts.headD fin).span operand) rest
  | none => do
    let (operand, rest) ← atom fin room ts
    fold fin room power operand rest
termination_by 2 * room + 1

/-- The operators after `left` that are stronger than `power`, with their right operands. -/
def fold (fin : Token) (room power : Nat) (left : Expr) (ts : List Token) :
    Except SyntaxError (Expr × List Token) :=
  match (ts.headD fin).kind.binaryOp?.filter (power < ·.strength) with
  | some op =>
    match room with
    | 0 => .error ⟨.tooDeep, ts.headD fin⟩
    | room + 1 => do
      let (right, rest) ← climb fin room op.strength ts.tail
      fold fin room power (.binary op (ts.headD fin).span left right) rest
  | none => .ok (left, ts)
termination_by 2 * room

end

/-- The tokens before the first end of the text. -/
def words (ts : List Token) : List Token := ts.takeWhile fun t => !t.kind.isEof

/-- The first end of the text, or else the end where the last token stops. -/
def endOf (ts : List Token) : Token :=
  match ts.find? (·.kind.isEof) with
  | some t => t
  | none => .eofAt ((ts.getLast?.map (·.span.stop)).getD .origin)

/-- The expression that is the whole of a list of tokens. -/
def ofTokens (ts : List Token) : Except SyntaxError Expr := do
  let (e, rest) ← climb (endOf ts) maxLevels 0 (words ts)
  match rest with
  | [] => .ok e
  | t :: _ => .error ⟨.trailingInput, t⟩

end Expr
end AddressExpr
