/-
# Positions in a text

A position stands between two characters of a text and says what comes
before it: how many UTF-8 bytes, how many line feeds, and how many characters
since the last of these. A reader starts at `Position.origin` and moves past one
character at a time (`Position.advance`) or past a whole piece of text
(`Position.advanceBy`). Only a line feed starts a row; a carriage return and
a tab are one column each.

Positions are ordered by their bytes, then by row, then by column. Positions
of one text are told apart by their bytes alone, but positions written by hand
need not belong to any text, and then the later fields decide.

Key definitions: `Position.advance`, `Position.advanceBy`, `Position.Before`.
Key theorems: `Position.advanceBy_append`.
-/

namespace AddressExpr

/-- A place in a text, counted from zero: the bytes before it, the line feeds
before it, and the characters before it in its row. -/
structure Position where
  index : Nat
  row : Nat
  column : Nat
deriving DecidableEq, Inhabited

namespace Position

/-- The position before the first character. -/
def origin : Position := ⟨0, 0, 0⟩

/-- The position after the character `c`, if `p` is the one before it. -/
def advance (p : Position) (c : Char) : Position :=
  if c = '\n' then ⟨p.index + c.utf8Size, p.row + 1, 0⟩
  else ⟨p.index + c.utf8Size, p.row, p.column + 1⟩

/-- The position after the characters `cs`, in order. -/
def advanceBy (p : Position) (cs : List Char) : Position :=
  cs.foldl advance p

@[simp] theorem advanceBy_nil (p : Position) : p.advanceBy [] = p := rfl

@[simp] theorem advanceBy_cons (p : Position) (c : Char) (cs : List Char) :
    p.advanceBy (c :: cs) = (p.advance c).advanceBy cs := rfl

/-- Moving past a text is moving past its parts. -/
theorem advanceBy_append (p : Position) (cs ds : List Char) :
    p.advanceBy (cs ++ ds) = (p.advanceBy cs).advanceBy ds :=
  List.foldl_append

@[simp] theorem index_advance (p : Position) (c : Char) :
    (p.advance c).index = p.index + c.utf8Size := by
  unfold advance; split <;> rfl

/-- The number of bytes of a text in UTF-8. -/
def byteCount : List Char → Nat
  | [] => 0
  | c :: cs => c.utf8Size + byteCount cs

theorem byteCount_append : ∀ cs ds : List Char,
    byteCount (cs ++ ds) = byteCount cs + byteCount ds
  | [], ds => by simp [byteCount]
  | c :: cs, ds => by simp [byteCount, byteCount_append cs ds, Nat.add_assoc]

/-- The text shown for a position in a report. -/
def render (p : Position) : String :=
  "row(" ++ toString p.row ++ "), col(" ++ toString p.column ++ ")"

/-! ### Order -/

/-- `p` is before `q`: by index, then by row, then by column. -/
def Before (p q : Position) : Prop :=
  p.index < q.index ∨ p.index = q.index ∧
    (p.row < q.row ∨ p.row = q.row ∧ p.column < q.column)

instance : LT Position := ⟨Before⟩

instance : LE Position := ⟨fun p q => ¬ q < p⟩

instance (p q : Position) : Decidable (p < q) :=
  inferInstanceAs (Decidable (p.index < q.index ∨ p.index = q.index ∧
    (p.row < q.row ∨ p.row = q.row ∧ p.column < q.column)))

instance (p q : Position) : Decidable (p ≤ q) :=
  inferInstanceAs (Decidable (¬ q < p))

instance : Ord Position := ⟨fun p q => compareOfLessAndEq p q⟩

instance : Min Position := minOfLe

instance : Max Position := maxOfLe

theorem lt_iff {p q : Position} : p < q ↔ p.index < q.index ∨ p.index = q.index ∧
    (p.row < q.row ∨ p.row = q.row ∧ p.column < q.column) := Iff.rfl

theorem le_iff {p q : Position} : p ≤ q ↔ p.index < q.index ∨ p.index = q.index ∧
    (p.row < q.row ∨ p.row = q.row ∧ p.column ≤ q.column) := by
  show ¬ q < p ↔ _
  rw [lt_iff]
  omega

protected theorem le_refl (p : Position) : p ≤ p := by
  rw [le_iff]; omega

protected theorem le_trans {p q r : Position} (h : p ≤ q) (h' : q ≤ r) : p ≤ r := by
  rw [le_iff] at *; omega

protected theorem le_total (p q : Position) : p ≤ q ∨ q ≤ p := by
  simp only [le_iff]; omega

protected theorem le_of_lt {p q : Position} (h : p < q) : p ≤ q := by
  rw [lt_iff] at h; rw [le_iff]; omega

protected theorem lt_of_lt_of_le {p q r : Position} (h : p < q) (h' : q ≤ r) : p < r := by
  rw [lt_iff] at *; rw [le_iff] at h'; omega

protected theorem lt_of_le_of_lt {p q r : Position} (h : p ≤ q) (h' : q < r) : p < r := by
  rw [lt_iff] at *; rw [le_iff] at h; omega

theorem index_le_of_le {p q : Position} (h : p ≤ q) : p.index ≤ q.index := by
  rw [le_iff] at h; omega

/-- Moving forward never goes back. -/
theorem le_advance (p : Position) (c : Char) : p ≤ p.advance c := by
  have := c.utf8Size_pos
  rw [le_iff, index_advance]
  omega

theorem le_advanceBy (p : Position) : ∀ cs : List Char, p ≤ p.advanceBy cs
  | [] => p.le_refl
  | c :: cs => Position.le_trans (p.le_advance c) (le_advanceBy (p.advance c) cs)

end Position
end AddressExpr
