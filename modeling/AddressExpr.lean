import AddressExpr.Text.Position
import AddressExpr.Text.Span
import AddressExpr.Text.Row
import AddressExpr.Text.CharClass
import AddressExpr.Text.Quoted
import AddressExpr.Hex
import AddressExpr.Address
import AddressExpr.Value
import AddressExpr.Token.Basic
import AddressExpr.Token.Lexer
import AddressExpr.Expr.Basic
import AddressExpr.Expr.OfTokens
import AddressExpr.Directory
import AddressExpr.Memory
import AddressExpr.Expr.Eval
import AddressExpr.Failure
import AddressExpr.Evaluation
import AddressExpr.CommandLine
import AddressExpr.Main
import AddressExpr.Proofs.Grammar.Basic
import AddressExpr.Proofs.Grammar.Reading
import AddressExpr.Proofs.Grammar.Recognition
import AddressExpr.Proofs.Depth
import AddressExpr.Proofs.Arithmetic
import AddressExpr.Proofs.Positional
import AddressExpr.Proofs.Exact
import AddressExpr.Proofs.Respan
import AddressExpr.Proofs.Scanning
import AddressExpr.Proofs.Composition
import AddressExpr.Proofs.Marks
import AddressExpr.Proofs.Pieces
import AddressExpr.Proofs.Blame
import AddressExpr.Proofs.Kinds
import AddressExpr.Proofs.Lookup
import AddressExpr.Proofs.Naming
import AddressExpr.Proofs.Spelling
import AddressExpr.Proofs.Verdict
import AddressExpr.Proofs.Earliest
import AddressExpr.Proofs.Transcript
import AddressExpr.Proofs.Seams
import AddressExpr.Proofs.Reads
import AddressExpr.Proofs.Footprint
import AddressExpr.Proofs.Numerals
import AddressExpr.Proofs.Underline
import AddressExpr.Proofs.SourceOrder
import AddressExpr.Proofs.Machine.Cursor
import AddressExpr.Proofs.Machine.Register
import AddressExpr.Proofs.Machine.Safety
import AddressExpr.Proofs.Machine.Squaring
import AddressExpr.Proofs.Machine.Calls
