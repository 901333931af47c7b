/-
# Spans of a text

A span is the part of a text from one position up to, and not including,
another. A node of a tree has the smallest span that covers its parts, so spans
are joined with `Span.cover`; a place where something is missing is an empty
span, `Span.point`.

Key definitions: `Span.point`, `Span.cover`, `Span.length`.
Key theorems: `Span.cover_ordered`.
-/
import AddressExpr.Text.Position

namespace AddressExpr

/-- The text from `start` up to `stop`. -/
structure Span where
  start : Position
  stop : Position
deriving DecidableEq, Inhabited

namespace Span

/-- The empty span at a position. -/
def point (p : Position) : Span := ⟨p, p⟩

/-- The span from the earlier of the two starts to the later of the two stops. -/
def cover (s t : Span) : Span := ⟨min s.start t.start, max s.stop t.stop⟩

/-- The number of bytes covered. -/
def length (s : Span) : Nat := s.stop.index - s.start.index

/-- Whether no byte is covered. -/
def isEmpty (s : Span) : Bool := s.length == 0

/-- Whether the span does not end before it starts, counted in bytes. -/
def Ordered (s : Span) : Prop := s.start.index ≤ s.stop.index

theorem point_ordered (p : Position) : (point p).Ordered := Nat.le_refl _

theorem start_cover_le_left (s t : Span) : (s.cover t).start ≤ s.start := by
  show min s.start t.start ≤ _
  simp only [min]
  split
  · exact Position.le_refl _
  · exact (Position.le_total _ _).resolve_left ‹_›

theorem le_stop_cover_left (s t : Span) : s.stop ≤ (s.cover t).stop := by
  show _ ≤ max s.stop t.stop
  simp only [max]
  split
  · assumption
  · exact Position.le_refl _

/-- Covering keeps spans ordered, whatever rows and columns they carry. -/
theorem cover_ordered {s : Span} (t : Span) (h : s.Ordered) : (s.cover t).Ordered :=
  Nat.le_trans (Position.index_le_of_le (start_cover_le_left s t))
    (Nat.le_trans h (Position.index_le_of_le (le_stop_cover_left s t)))

end Span
end AddressExpr
