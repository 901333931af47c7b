/-
# The part of a text that a span marks

A position of a text is where one of its prefixes ends. Read off the prefix as a whole, it is the
bytes of the prefix, its line feeds, and the characters after the last of these
(`Position.after`); moving past the prefix one character at a time leads to the same position
(`Position.advanceBy_origin`).

A span marks a part of a text if it runs from where one prefix ends to where a longer one does, and
the part is what is between them (`Span.Marks`). It marks one part at most (`Span.Marks.unique`),
and the span that covers two marks is a mark again (`Span.Marks.exists_cover`).

Key definitions: `Position.after`, `Position.Ends`, `Span.Marks`.
Key theorems: `Position.advanceBy_origin`, `Span.Marks.unique`, `Span.Marks.exists_cover`.
-/
import AddressExpr.Text.Span

namespace AddressExpr

/-! ### Positions of prefixes -/

namespace Position

/-- Where the text `cs` ends: its bytes, its line feeds, and the characters after the last of
these. -/
def after (cs : List Char) : Position :=
  ⟨byteCount cs, cs.count '\n', (cs.reverse.takeWhile (· ≠ '\n')).length⟩

/-- The position is where a prefix of the text ends. -/
def Ends (text : List Char) (p : Position) : Prop := ∃ pre, pre <+: text ∧ p = after pre

theorem after_concat (cs : List Char) (c : Char) : after (cs ++ [c]) = (after cs).advance c := by
  have hbytes : byteCount (cs ++ [c]) = byteCount cs + c.utf8Size := byteCount_append cs [c]
  unfold after advance
  by_cases hc : c = '\n'
  · rw [if_pos hc, hbytes]
    simp [hc]
  · rw [if_neg hc, hbytes]
    simp [hc]

theorem after_append (cs ds : List Char) : after (cs ++ ds) = (after cs).advanceBy ds := by
  induction ds generalizing cs with
  | nil => rw [List.append_nil, advanceBy_nil]
  | cons d ds ih =>
    have hsplit : cs ++ d :: ds = (cs ++ [d]) ++ ds := by simp
    rw [hsplit, ih, after_concat, advanceBy_cons]

/-- Moving past a text leads to where the text ends. -/
theorem advanceBy_origin (cs : List Char) : origin.advanceBy cs = after cs :=
  (after_append [] cs).symm

theorem byteCount_eq_zero_iff {cs : List Char} : byteCount cs = 0 ↔ cs = [] := by
  cases cs with
  | nil => simp [byteCount]
  | cons c cs =>
    have := c.utf8Size_pos
    simp only [byteCount, reduceCtorEq, iff_false]
    omega

theorem after_le_after_append (cs ds : List Char) : after cs ≤ after (cs ++ ds) := by
  rw [after_append]
  exact le_advanceBy _ ds

/-- Of two prefixes of a text the one with no more bytes is a prefix of the other. -/
theorem prefix_of_byteCount_le {text p q : List Char} (hp : p <+: text) (hq : q <+: text)
    (h : byteCount p ≤ byteCount q) : p <+: q := by
  rcases List.prefix_or_prefix_of_prefix hp hq with hpq | ⟨ds, rfl⟩
  · exact hpq
  · have hbytes := byteCount_append q ds
    have hnil : ds = [] := byteCount_eq_zero_iff.mp (by omega)
    simp [hnil]

/-- The prefixes of a text are told apart by where they end. -/
theorem eq_of_after_eq {text p q : List Char} (hp : p <+: text) (hq : q <+: text)
    (h : after p = after q) : p = q := by
  have hbytes : byteCount p = byteCount q := congrArg index h
  have hpq := prefix_of_byteCount_le hp hq (Nat.le_of_eq hbytes)
  have hqp := prefix_of_byteCount_le hq hp (Nat.le_of_eq hbytes.symm)
  exact hpq.eq_of_length (Nat.le_antisymm hpq.length_le hqp.length_le)

variable {text : List Char} {p q : Position}

theorem Ends.min (hp : p.Ends text) (hq : q.Ends text) : (min p q).Ends text := by
  show (if p ≤ q then p else q).Ends text
  split
  · exact hp
  · exact hq

theorem Ends.max (hp : p.Ends text) (hq : q.Ends text) : (max p q).Ends text := by
  show (if p ≤ q then q else p).Ends text
  split
  · exact hq
  · exact hp

end Position

/-! ### Marks -/

namespace Span

/-- The span of the text `piece` that stands after the text `pre`. -/
def next (pre piece : List Char) : Span := ⟨.after pre, .after (pre ++ piece)⟩

/-- The span is that of the part `piece` of the text. -/
def Marks (text piece : List Char) (s : Span) : Prop :=
  ∃ pre post, text = pre ++ piece ++ post ∧ s = next pre piece

theorem length_next (pre piece : List Char) :
    (next pre piece).length = Position.byteCount piece := by
  have := Position.byteCount_append pre piece
  show Position.byteCount (pre ++ piece) - Position.byteCount pre = _
  omega

/-- A span of a text says where its part stands and what it is. -/
theorem next_injective {text pre piece post pre' piece' post' : List Char}
    (htext : text = pre ++ piece ++ post) (htext' : text = pre' ++ piece' ++ post')
    (h : next pre piece = next pre' piece') : pre = pre' ∧ piece = piece' ∧ post = post' := by
  obtain ⟨hstart, hstop⟩ := Span.mk.inj h
  have hprefix : pre <+: text := ⟨piece ++ post, by rw [htext, List.append_assoc]⟩
  have hprefix' : pre' <+: text := ⟨piece' ++ post', by rw [htext', List.append_assoc]⟩
  obtain rfl : pre = pre' := Position.eq_of_after_eq hprefix hprefix' hstart
  have hboth : pre ++ piece = pre ++ piece' :=
    Position.eq_of_after_eq ⟨post, htext.symm⟩ ⟨post', htext'.symm⟩ hstop
  obtain rfl : piece = piece' := List.append_cancel_left hboth
  exact ⟨rfl, rfl, List.append_cancel_left (htext.symm.trans htext')⟩

theorem length_le_length_cover (s t : Span) : s.length ≤ (s.cover t).length := by
  have hstart := Position.index_le_of_le (start_cover_le_left s t)
  have hstop := Position.index_le_of_le (le_stop_cover_left s t)
  unfold length
  omega

/-- A span marks a part of the text if it starts and stops in the text, in this order. -/
theorem exists_marks {text : List Char} {s : Span} (hstart : s.start.Ends text)
    (hstop : s.stop.Ends text) (h : s.Ordered) : ∃ piece, s.Marks text piece := by
  obtain ⟨start, stop⟩ := s
  obtain ⟨p, hp, rfl⟩ := hstart
  obtain ⟨q, hq, rfl⟩ := hstop
  obtain ⟨piece, rfl⟩ := Position.prefix_of_byteCount_le hp hq h
  obtain ⟨post, rfl⟩ := hq
  exact ⟨piece, p, post, rfl, rfl⟩

namespace Marks

variable {text piece piece' : List Char} {s t : Span}

theorem start_le_stop (h : s.Marks text piece) : s.start ≤ s.stop := by
  obtain ⟨pre, post, -, rfl⟩ := h
  exact Position.after_le_after_append pre piece

theorem ends_start (h : s.Marks text piece) : s.start.Ends text := by
  obtain ⟨pre, post, rfl, rfl⟩ := h
  exact ⟨pre, ⟨piece ++ post, (List.append_assoc pre piece post).symm⟩, rfl⟩

theorem ends_stop (h : s.Marks text piece) : s.stop.Ends text := by
  obtain ⟨pre, post, rfl, rfl⟩ := h
  exact ⟨pre ++ piece, ⟨post, rfl⟩, rfl⟩

theorem length_eq (h : s.Marks text piece) : s.length = Position.byteCount piece := by
  obtain ⟨pre, post, -, rfl⟩ := h
  exact length_next pre piece

theorem isEmpty_iff (h : s.Marks text piece) : s.isEmpty = true ↔ piece = [] := by
  rw [isEmpty, h.length_eq, beq_iff_eq, Position.byteCount_eq_zero_iff]

/-- A span marks one part of a text at most. -/
theorem unique (h : s.Marks text piece) (h' : s.Marks text piece') : piece = piece' := by
  obtain ⟨pre, post, htext, hs⟩ := h
  obtain ⟨pre', post', htext', hs'⟩ := h'
  exact (next_injective htext htext' (hs.symm.trans hs')).2.1

/-- What covers two marks is a mark, and it is empty only if the first one is. -/
theorem exists_cover (h : s.Marks text piece) (h' : t.Marks text piece') :
    ∃ r, (s.cover t).Marks text r ∧ (piece ≠ [] → r ≠ []) := by
  have hordered : (s.cover t).Ordered := cover_ordered t (Position.index_le_of_le h.start_le_stop)
  obtain ⟨r, hr⟩ := exists_marks (h.ends_start.min h'.ends_start) (h.ends_stop.max h'.ends_stop)
    hordered
  refine ⟨r, hr, ?_⟩
  rintro hne rfl
  have hle := s.length_le_length_cover t
  rw [h.length_eq, hr.length_eq] at hle
  exact hne (Position.byteCount_eq_zero_iff.mp (Nat.le_zero.mp hle))

end Marks

end Span
end AddressExpr
