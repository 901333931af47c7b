/-
# The grammar of expressions

The expressions are those of a grammar with one stratum for each strength of operator:

* a sum is products with `+` or `-` between them,
* a product is powers with `*` or `/` between them,
* a power is unaries with `**` between them,
* a unary is an atom, with a sign before it or not,
* an atom is a numeral, a path of names with dots between them, a sum in parentheses, or a sum
  in square brackets.

Chains group to the left, so a chain of one stratum is a shorter one of the same stratum, an
operator, and one operand of the next stratum (`Derives`). Parentheses leave a node in a parse
tree (`ParseTree`) and none in the expression (`ParseTree.expr`).

How many levels the reading of a tree takes at once is its cost (`ParseTree.cost`). Every
bracket and every sign takes a level, and so does every operator; those along the left edge of a
chain are all taken when its last operand is read (`ParseTree.spine`).

Key definitions: `ParseTree`, `ParseTree.cost`, `Derives`.
Key theorems: `Derives.loosen`, `ParseTree.spine_le_cost`.
-/
import AddressExpr.Expr.OfTokens

namespace AddressExpr

/-- The token kind that the sign is written with. -/
def Sign.kind : Sign → Token.Kind
  | .plus => .plus
  | .minus => .minus

/-- The token kind that the operator is written with. -/
def BinaryOp.kind : BinaryOp → Token.Kind
  | .add => .plus
  | .sub => .minus
  | .mul => .times
  | .div => .divide
  | .pow => .power

theorem Token.Kind.sign?_eq_some_iff {k : Token.Kind} {sign : Sign} :
    k.sign? = some sign ↔ k = sign.kind := by
  cases k <;> cases sign <;> simp [Token.Kind.sign?, Sign.kind]

theorem Token.Kind.binaryOp?_eq_some_iff {k : Token.Kind} {op : BinaryOp} :
    k.binaryOp? = some op ↔ k = op.kind := by
  cases k <;> cases op <;> simp [Token.Kind.binaryOp?, BinaryOp.kind]

theorem Sign.kind_ne_eof (sign : Sign) : sign.kind ≠ .eof := by
  cases sign <;> nofun

theorem BinaryOp.kind_ne_eof (op : BinaryOp) : op.kind ≠ .eof := by
  cases op <;> nofun

/-! ### Parse trees -/

/-- An expression as it is written, with a node for every pair of parentheses. -/
inductive ParseTree
  | literal (text : String) (span : Span)
  | path (p : Path)
  | group (openSpan : Span) (inner : ParseTree) (closeSpan : Span)
  | signed (sign : Sign) (signSpan : Span) (operand : ParseTree)
  | binary (op : BinaryOp) (opSpan : Span) (left right : ParseTree)
  | deref (openSpan : Span) (address : ParseTree) (closeSpan : Span)
deriving DecidableEq, Inhabited

namespace ParseTree

/-- The expression of the tree: the tree without its groups. -/
def expr : ParseTree → Expr
  | literal text s => .literal text s
  | path p => .path p
  | group _ inner _ => inner.expr
  | signed sign s operand => .signed sign s operand.expr
  | binary op s left right => .binary op s left.expr right.expr
  | deref s address s' => .deref s address.expr s'

/-- The levels that are still taken when the whole tree is read: one for a sign, and one for
every operator on the left edge of a chain. -/
def spine : ParseTree → Nat
  | literal .. => 0
  | path _ => 0
  | group .. => 0
  | signed .. => 1
  | binary _ _ left _ => left.spine + 1
  | deref .. => 0

/-- The most levels that are taken at once while the tree is read. -/
def cost : ParseTree → Nat
  | literal .. => 0
  | path _ => 0
  | group _ inner _ => inner.cost + 1
  | signed _ _ operand => operand.cost + 1
  | binary _ _ left right => max left.cost (left.spine + 1 + right.cost)
  | deref _ address _ => address.cost + 1

theorem spine_le_cost : ∀ c : ParseTree, c.spine ≤ c.cost
  | literal .. => Nat.le_refl 0
  | path _ => Nat.le_refl 0
  | group .. => Nat.zero_le _
  | signed .. => Nat.le_add_left 1 _
  | binary _ _ left right => by
    have := spine_le_cost left
    simp only [spine, cost]
    omega
  | deref .. => Nat.zero_le _

end ParseTree

/-! ### Derivations -/

/-- The strata of the grammar, from the loosest. -/
inductive Stratum
  | sum
  | prod
  | pow
  | unary
  | atom
deriving DecidableEq, Inhabited

namespace Stratum

/-- The stratum of the operands of a stratum. -/
def tighter : Stratum → Stratum
  | sum => prod
  | prod => pow
  | pow => unary
  | unary => atom
  | atom => atom

/-- The number of a stratum: for a chain, the strength of its operators. -/
def strength : Stratum → Nat
  | sum => 1
  | prod => 2
  | pow => 3
  | unary => 4
  | atom => 5

/-- The loosest stratum whose chains have no operators of strength `power` or less. -/
def above : Nat → Stratum
  | 0 => sum
  | 1 => prod
  | 2 => pow
  | _ => unary

theorem strength_pos (s : Stratum) : 0 < s.strength := by
  cases s <;> decide

theorem strength_le_five (s : Stratum) : s.strength ≤ Stratum.atom.strength := by
  cases s <;> decide

theorem strength_above {power : Nat} (h : power ≤ 3) : (above power).strength = power + 1 := by
  match power, h with
  | 0, _ => rfl
  | 1, _ => rfl
  | 2, _ => rfl
  | 3, _ => rfl

theorem strength_lt_strength_tighter (s : Stratum) (h : s.strength < 5) :
    s.strength < s.tighter.strength := by
  cases s <;> simp_all [strength, tighter]

theorem strength_le_strength_tighter (s : Stratum) : s.strength ≤ s.tighter.strength := by
  cases s <;> decide

theorem strength_lt_five {s s' : Stratum} (h : s'.strength ≤ s.strength) (hne : s' ≠ s) :
    s'.strength < 5 := by
  cases s <;> cases s' <;> simp_all [strength]

/-- A stratum looser than another one is still no tighter than it after one step. -/
theorem strength_tighter_le {s s' : Stratum} (h : s'.strength ≤ s.strength) (hne : s' ≠ s) :
    s'.tighter.strength ≤ s.strength := by
  cases s <;> cases s' <;> simp_all [strength, tighter]

end Stratum

/-- The stratum of the chains of the operator. -/
def BinaryOp.stratum : BinaryOp → Stratum
  | .add => .sum
  | .sub => .sum
  | .mul => .prod
  | .div => .prod
  | .pow => .pow

theorem BinaryOp.strength_stratum (op : BinaryOp) : op.stratum.strength = op.strength := by
  cases op <;> rfl

theorem BinaryOp.above_strength (op : BinaryOp) : .above op.strength = op.stratum.tighter := by
  cases op <;> rfl

theorem BinaryOp.strength_lt_strength_tighter (op : BinaryOp) :
    op.strength < op.stratum.tighter.strength := by
  cases op <;> decide

theorem BinaryOp.stratum_ne_atom (op : BinaryOp) : op.stratum ≠ .atom := by
  cases op <;> decide

theorem BinaryOp.strength_le_three (op : BinaryOp) : op.strength ≤ 3 := by
  cases op <;> decide

/-- The names of a path after the first one, each with a dot before it. -/
inductive Dotted : List Segment → List Token → Prop
  | nil : Dotted [] []
  | cons (dotSpan : Span) (name : String) (s : Span) {more : List Segment} {w : List Token}
      (h : Dotted more w) :
      Dotted (⟨name, s⟩ :: more) (⟨.dot, dotSpan⟩ :: ⟨.ident name, s⟩ :: w)

/-- The tokens `w` are a phrase of the stratum with the parse tree `c`. -/
inductive Derives : Stratum → ParseTree → List Token → Prop
  | hex (text : String) (s : Span) : Derives .atom (.literal text s) [⟨.hex text, s⟩]
  | path (name : String) (s : Span) {more : List Segment} {w : List Token} (h : Dotted more w) :
      Derives .atom (.path ⟨⟨name, s⟩, more⟩) (⟨.ident name, s⟩ :: w)
  | group (s s' : Span) {c : ParseTree} {w : List Token} (h : Derives .sum c w) :
      Derives .atom (.group s c s') (⟨.openParen, s⟩ :: (w ++ [⟨.closeParen, s'⟩]))
  | deref (s s' : Span) {c : ParseTree} {w : List Token} (h : Derives .sum c w) :
      Derives .atom (.deref s c s') (⟨.openBracket, s⟩ :: (w ++ [⟨.closeBracket, s'⟩]))
  | signed (sign : Sign) (s : Span) {c : ParseTree} {w : List Token} (h : Derives .atom c w) :
      Derives .unary (.signed sign s c) (⟨sign.kind, s⟩ :: w)
  | fold (op : BinaryOp) (s : Span) {left right : ParseTree} {u v : List Token}
      (hl : Derives op.stratum left u) (hr : Derives op.stratum.tighter right v) :
      Derives op.stratum (.binary op s left right) (u ++ ⟨op.kind, s⟩ :: v)
  | lift {s : Stratum} {c : ParseTree} {w : List Token} (h : Derives s.tighter c w) :
      Derives s c w

/-- A phrase of a stratum is a phrase of every looser one. -/
theorem Derives.loosen {s s' : Stratum} {c : ParseTree} {w : List Token} (h : Derives s c w)
    (hs : s'.strength ≤ s.strength) : Derives s' c w := by
  by_cases heq : s' = s
  · rwa [heq]
  · exact lift (loosen h (Stratum.strength_tighter_le hs heq))
termination_by 5 - s'.strength
decreasing_by
  have hlt := Stratum.strength_lt_five hs heq
  have := s'.strength_lt_strength_tighter hlt
  omega

end AddressExpr
