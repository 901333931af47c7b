/-
# Tokens of a text

A text is cut into pieces from the front, each as long as it can be
(`Lexer.front`): a double quote, a blank, a token, or what can be no token. Between
double quotes there are only identifiers and dots, and an identifier may hold
blanks and brackets there; outside, blanks separate tokens, and an identifier may
not start with a decimal digit, which starts a numeral, nor with the minus sign.

What a piece is depends on nothing but whether it stands between quotes.
`Lexer.scan` goes through the pieces and keeps the position, and where the last
quote was opened. It stops at the first piece that is no token; if there is none, the
last token is the end of the text.

Key definitions: `Lexer.isIdentChar`, `Lexer.isQuotedIdentChar`, `Lexer.front`,
`Lexer.scan`, `Lexer.tokenize`.
Key theorems: `Lexer.text_front_append_more`, `Lexer.length_more_front_lt`.
-/
import AddressExpr.Hex
import AddressExpr.Text.Quoted
import AddressExpr.Token.Basic

namespace AddressExpr

/-- Why a text is no list of tokens. -/
inductive LexProblem
  | unexpectedCharacter (c : Char)
  | missingHexDigits
  | unterminatedQuote
deriving DecidableEq, Inhabited

/-- A problem and the part of the text that has it. -/
structure LexError where
  problem : LexProblem
  span : Span
deriving DecidableEq, Inhabited

namespace LexProblem

/-- What a report says about the problem. -/
def message : LexProblem → String
  | unexpectedCharacter c => "unexpected character " ++ Text.quoteChar c
  | missingHexDigits => "expected hex digits after '0x'"
  | unterminatedQuote => "unterminated quoted identifier"

/-- What a report writes beside the span of the problem. -/
def label : LexProblem → String
  | unexpectedCharacter _ => "character found here"
  | missingHexDigits => "hex literal here"
  | unterminatedQuote => "quote opened here is never closed"

end LexProblem

namespace LexError

/-- What a report says about the error. -/
def message (e : LexError) : String := e.problem.message

/-- The parts of the text that a report marks, with a note on each. -/
def labels (e : LexError) : List (Span × String) := [(e.span, e.problem.label)]

end LexError

namespace Lexer

/-! ### Characters -/

/-- A character of an identifier outside quotes: a letter or digit of ASCII, one of
four signs, or an ideograph of the first block of them. -/
def isIdentChar (c : Char) : Bool :=
  c.isAlphanum || c == '_' || c == '-' || c == '\x27' || c == '&' ||
    (0x4e00 ≤ c.toNat && c.toNat ≤ 0x9fa5)

/-- A character of an identifier between quotes: blanks, brackets and the equals sign
are among them. -/
def isQuotedIdentChar (c : Char) : Bool :=
  isIdentChar c || Text.isBlank c ||
    c == '(' || c == ')' || c == '[' || c == ']' || c == '='

/-- A character that separates tokens outside quotes. -/
def isSeparator (c : Char) : Bool := c == ' ' || c == '\t' || c == '\r' || c == '\n'

/-- The token that is this one character, whatever follows. -/
def symbol? (c : Char) : Option Token.Kind :=
  if c = '+' then some .plus
  else if c = '-' then some .minus
  else if c = '/' then some .divide
  else if c = '(' then some .openParen
  else if c = ')' then some .closeParen
  else if c = '[' then some .openBracket
  else if c = ']' then some .closeBracket
  else none

/-! ### The first piece of a text -/

/-- What a piece of text is. -/
inductive PieceKind
  | quote
  | blank
  | token (kind : Token.Kind)
  | fault (problem : LexProblem)
deriving DecidableEq

/-- The first piece of a text: what it is, its own text, and the text after it. -/
structure Piece where
  kind : PieceKind
  text : List Char
  more : List Char
deriving DecidableEq

/-- The token that starts with `lead` and goes on while `p` holds. -/
def run (p : Char → Bool) (kind : String → Token.Kind) (lead cs : List Char) : Piece :=
  ⟨.token (kind (String.ofList (lead ++ cs.takeWhile p))), lead ++ cs.takeWhile p, cs.dropWhile p⟩

/-- The numeral that starts with the digit `c`. After `0x` there has to be a digit. -/
def numeral (c : Char) (cs : List Char) : Piece :=
  match cs with
  | 'x' :: rest =>
    if c = '0' then
      if rest.head?.any Hex.isDigit then run Hex.isDigit .hex ['0', 'x'] rest
      else ⟨.fault .missingHexDigits, ['0', 'x'], rest⟩
    else run Hex.isDigit .hex [c] cs
  | _ => run Hex.isDigit .hex [c] cs

/-- The first piece of `c :: cs` between quotes, if `c` is neither quote nor dot. -/
def quotedFront (c : Char) (cs : List Char) : Piece :=
  if isQuotedIdentChar c then run isQuotedIdentChar .ident [c] cs
  else ⟨.fault (.unexpectedCharacter c), [c], cs⟩

/-- The first piece of `c :: cs` outside quotes, if `c` is neither quote nor dot. -/
def plainFront (c : Char) (cs : List Char) : Piece :=
  if isSeparator c then ⟨.blank, [c], cs⟩
  else if c = '*' then
    match cs with
    | '*' :: rest => ⟨.token .power, ['*', '*'], rest⟩
    | _ => ⟨.token .times, ['*'], cs⟩
  else match symbol? c with
    | some kind => ⟨.token kind, [c], cs⟩
    | none =>
      if c.isDigit then numeral c cs
      else if isIdentChar c then run isIdentChar .ident [c] cs
      else ⟨.fault (.unexpectedCharacter c), [c], cs⟩

/-- The first piece of `c :: cs`, which stands between quotes or outside. -/
def front (quoted : Bool) (c : Char) (cs : List Char) : Piece :=
  if c = '\x22' then ⟨.quote, [c], cs⟩
  else if c = '.' then ⟨.token .dot, [c], cs⟩
  else if quoted then quotedFront c cs
  else plainFront c cs

theorem text_run_append_more (p : Char → Bool) (kind : String → Token.Kind) (lead cs : List Char) :
    (run p kind lead cs).text ++ (run p kind lead cs).more = lead ++ cs := by
  simp [run]

theorem text_numeral_append_more (c : Char) (cs : List Char) :
    (numeral c cs).text ++ (numeral c cs).more = c :: cs := by
  unfold numeral
  split
  · split
    · next h => split <;> simp [h, text_run_append_more]
    · simp [text_run_append_more]
  · simp [text_run_append_more]

/-- Nothing is lost between a piece and what follows it. -/
theorem text_front_append_more (quoted : Bool) (c : Char) (cs : List Char) :
    (front quoted c cs).text ++ (front quoted c cs).more = c :: cs := by
  unfold front
  split
  · rfl
  split
  · rfl
  split
  · unfold quotedFront
    split
    · simp [text_run_append_more]
    · rfl
  · unfold plainFront
    split
    · rfl
    split
    · next h => split <;> simp [h]
    split
    · rfl
    split
    · exact text_numeral_append_more c cs
    split
    · simp [text_run_append_more]
    · rfl

/-- A piece is never empty. -/
theorem text_front_ne_nil (quoted : Bool) (c : Char) (cs : List Char) :
    (front quoted c cs).text ≠ [] := by
  unfold front quotedFront plainFront numeral
  repeat' split
  all_goals simp [run]

/-- What follows a piece is shorter than the text. -/
theorem length_more_front_lt (quoted : Bool) (c : Char) (cs : List Char) :
    (front quoted c cs).more.length < (c :: cs).length := by
  rw [← text_front_append_more quoted c cs, List.length_append]
  have := List.length_pos_iff.mpr (text_front_ne_nil quoted c cs)
  omega

/-! ### All pieces of a text -/

/-- The tokens of a text up to its end or to the first error. -/
structure Scanned where
  tokens : List Token
  failure : Option LexError
deriving DecidableEq

/-- The tokens of the text `cs`, which starts at the position `here`; `opened` is where
the quote was opened that `cs` stands in, if it stands in one. -/
def scan (opened : Option Position) (here : Position) : List Char → Scanned
  | [] =>
    match opened with
    | some start => ⟨[], some ⟨.unterminatedQuote, ⟨start, here⟩⟩⟩
    | none => ⟨[.eofAt here], none⟩
  | c :: cs =>
    let piece := front opened.isSome c cs
    let next := here.advanceBy piece.text
    match piece.kind with
    | .quote => scan (if opened.isSome then none else some here) next piece.more
    | .blank => scan opened next piece.more
    | .token kind =>
      let rest := scan opened next piece.more
      ⟨⟨kind, ⟨here, next⟩⟩ :: rest.tokens, rest.failure⟩
    | .fault problem => ⟨[], some ⟨problem, ⟨here, next⟩⟩⟩
termination_by cs => cs.length
decreasing_by all_goals exact length_more_front_lt opened.isSome c cs

/-- The tokens of a whole text up to its end or to the first error. -/
def scanAll (source : String) : Scanned := scan none .origin source.toList

/-- The tokens of a text, the end of it among them, or the first error. -/
def tokenize (source : String) : Except LexError (List Token) :=
  match scanAll source with
  | ⟨tokens, none⟩ => .ok tokens
  | ⟨_, some e⟩ => .error e

end Lexer
end AddressExpr
