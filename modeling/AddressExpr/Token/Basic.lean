/-
# Tokens

A token is a word of an address expression with the span it was read from: a
hexadecimal numeral, an identifier, one of the operators and brackets, the dot
between the parts of a path, or the end of the text. The end is a token too, so
that what is missing at the end can be pointed at.

Key definitions: `Token.Kind`, `Token.Kind.lexeme?`, `Token.render`.
-/
import AddressExpr.Text.Span

namespace AddressExpr

/-- What kind of word a token is. Numerals and identifiers carry their text. -/
inductive Token.Kind
  | hex (text : String)
  | plus
  | minus
  | times
  | divide
  | power
  | openParen
  | closeParen
  | openBracket
  | closeBracket
  | ident (name : String)
  | dot
  | eof
deriving DecidableEq, Inhabited

/-- A word and where it stands. -/
structure Token where
  kind : Token.Kind
  span : Span
deriving DecidableEq, Inhabited

namespace Token

/-- The name by which a message calls the kind. -/
def Kind.name : Kind → String
  | .hex _ => "Hex"
  | .plus => "Plus"
  | .minus => "Minus"
  | .times => "Mul"
  | .divide => "Div"
  | .power => "Pow"
  | .openParen => "LParen"
  | .closeParen => "RParen"
  | .openBracket => "LSquare"
  | .closeBracket => "RSquare"
  | .ident _ => "Ident"
  | .dot => "Dot"
  | .eof => "Eof"

/-- The text of the word. Only the end of the text has none. -/
def Kind.lexeme? : Kind → Option String
  | .hex text => some text
  | .plus => some "+"
  | .minus => some "-"
  | .times => some "*"
  | .divide => some "/"
  | .power => some "**"
  | .openParen => some "("
  | .closeParen => some ")"
  | .openBracket => some "["
  | .closeBracket => some "]"
  | .ident name => some name
  | .dot => some "."
  | .eof => none

/-- Whether the kind is the end of the text. -/
def Kind.isEof (k : Kind) : Bool := k == .eof

theorem Kind.lexeme?_eq_none_iff {k : Kind} : k.lexeme? = none ↔ k = .eof := by
  cases k <;> simp [Kind.lexeme?]

/-- The text of the token, as `Kind.lexeme?`. -/
def lexeme? (t : Token) : Option String := t.kind.lexeme?

/-- The token of the end of a text that ends at `p`. -/
def eofAt (p : Position) : Token := ⟨.eof, .point p⟩

/-- The text shown for a token: the name of its kind, then its own text. -/
def render (t : Token) : String :=
  match t.lexeme? with
  | some text => t.kind.name ++ ":" ++ text
  | none => t.kind.name

end Token
end AddressExpr
