/-
# An excerpt underlines the part that its span marks

The row and the columns of a position are counted while a text is read, and the row that an excerpt
shows is found by cutting the text at its line feeds. The two agree: the row of the position after
`pre` is what `pre` has behind its last line feed, followed by what the rest of the text has before
its first one (`Text.getElem?_rows`). So the carets stand below the characters of the marked part as
far as they are in this row (`Text.excerpt_underlines`).

A carriage return is shown only if it does not end the row (`Text.ShownAs`). If the marked part goes
on past the row, no caret stands for one there; if it ends in the row, there is a caret for each of
its characters (`Text.ShownPart`).

Key definitions: `Text.lastRow`, `Text.firstRow`, `Text.ShownAs`, `Text.ShownPart`,
`Text.underlined`.
Key theorems: `Text.getElem?_rows`, `Text.shownAs_iff`, `Text.excerpt_underlines`.
-/
import AddressExpr.Proofs.Marks
import AddressExpr.Text.Row

namespace AddressExpr
namespace Text

/-! ### The first and the last row -/

/-- What stands before the first line feed, or all of the text if it has none. -/
def firstRow (text : List Char) : List Char := text.takeWhile (· ≠ '\n')

/-- What stands behind the last line feed, or all of the text if it has none. -/
def lastRow (text : List Char) : List Char := (text.reverse.takeWhile (· ≠ '\n')).reverse

theorem newline_not_mem_firstRow (text : List Char) : '\n' ∉ firstRow text := by
  intro hmem
  have := List.all_eq_true.mp List.all_takeWhile _ hmem
  simp at this

theorem newline_not_mem_lastRow (text : List Char) : '\n' ∉ lastRow text := by
  rw [lastRow, List.mem_reverse]
  exact newline_not_mem_firstRow text.reverse

theorem firstRow_append_of_not_mem {text : List Char} (h : '\n' ∉ text) (more : List Char) :
    firstRow (text ++ more) = text ++ firstRow more :=
  List.takeWhile_append_of_pos fun c hc => by
    simpa using fun hnewline : c = '\n' => h (hnewline ▸ hc)

theorem firstRow_append_of_mem {text : List Char} (h : '\n' ∈ text) (more : List Char) :
    firstRow (text ++ more) = firstRow text := by
  obtain ⟨front, back, rfl⟩ := List.append_of_mem h
  induction front with
  | nil => simp [firstRow]
  | cons c front ih =>
    simp only [firstRow, List.cons_append, List.takeWhile_cons] at ih ⊢
    rw [ih (by simp)]

theorem lastRow_append_of_not_mem (text : List Char) {more : List Char} (h : '\n' ∉ more) :
    lastRow (text ++ more) = lastRow text ++ more := by
  have h' : '\n' ∉ more.reverse := by rwa [List.mem_reverse]
  calc lastRow (text ++ more)
      = (firstRow (more.reverse ++ text.reverse)).reverse := by
        rw [lastRow, List.reverse_append]
        rfl
    _ = (more.reverse ++ firstRow text.reverse).reverse := by rw [firstRow_append_of_not_mem h']
    _ = lastRow text ++ more := by rw [List.reverse_append, List.reverse_reverse]; rfl

theorem lastRow_of_not_mem {text : List Char} (h : '\n' ∉ text) : lastRow text = text :=
  lastRow_append_of_not_mem [] h

/-- A text with a line feed is cut by the last one. -/
theorem exists_eq_append_lastRow {text : List Char} (h : '\n' ∈ text) :
    ∃ front, text = front ++ '\n' :: lastRow text := by
  have hcut : text.reverse = (lastRow text).reverse ++ text.reverse.dropWhile (· ≠ '\n') := by
    rw [lastRow, List.reverse_reverse, List.takeWhile_append_dropWhile]
  cases hback : text.reverse.dropWhile (· ≠ '\n') with
  | nil =>
    rw [hback, List.append_nil, List.reverse_inj] at hcut
    exact absurd (hcut ▸ h) (newline_not_mem_lastRow text)
  | cons c back =>
    have hc : c = '\n' := by
      have := List.head_dropWhile_not (fun c : Char => decide (c ≠ '\n')) (l := text.reverse)
        (by rw [hback]; exact List.cons_ne_nil c back)
      simp only [hback, List.head_cons] at this
      simpa using this
    refine ⟨back.reverse, ?_⟩
    calc text = text.reverse.reverse := text.reverse_reverse.symm
      _ = ((lastRow text).reverse ++ c :: back).reverse := by rw [← hback, ← hcut]
      _ = back.reverse ++ '\n' :: lastRow text := by simp [hc]

/-! ### The row of a position -/

theorem getElem?_zero_rows (text : List Char) : (rows text)[0]? = some (firstRow text) := by
  induction text with
  | nil => rfl
  | cons c text ih =>
    rw [rows, firstRow, List.takeWhile_cons]
    split
    · next hc => simp [hc]
    · next hc =>
      cases hrows : rows text with
      | nil => exact absurd hrows (rows_ne_nil text)
      | cons row rest =>
        rw [hrows, List.getElem?_cons_zero, Option.some_inj] at ih
        simp [hc, ih, firstRow]

/-- The row in which a prefix of a text ends, found by counting its line feeds, is its last row and
what the rest adds to it. -/
theorem getElem?_rows (pre rest : List Char) :
    (rows (pre ++ rest))[(Position.after pre).row]? = some (lastRow pre ++ firstRow rest) := by
  show (rows (pre ++ rest))[pre.count '\n']? = _
  by_cases h : '\n' ∈ pre
  · obtain ⟨front, hfront⟩ := exists_eq_append_lastRow h
    have hlast := newline_not_mem_lastRow pre
    have hcount : pre.count '\n' = (rows front).length := by
      rw [length_rows, hfront, List.count_append, List.count_cons_self,
        List.count_eq_zero.mpr hlast]
    calc (rows (pre ++ rest))[pre.count '\n']?
        = (rows front ++ rows (lastRow pre ++ rest))[(rows front).length]? := by
          rw [hcount, ← rows_append_newline, ← List.cons_append, ← List.append_assoc, ← hfront]
      _ = (rows (lastRow pre ++ rest))[0]? := by
          rw [List.getElem?_append_right (Nat.le_refl _), Nat.sub_self]
      _ = some (lastRow pre ++ firstRow rest) := by
          rw [getElem?_zero_rows, firstRow_append_of_not_mem hlast]
  · rw [List.count_eq_zero.mpr h, getElem?_zero_rows, firstRow_append_of_not_mem h,
      lastRow_of_not_mem h]

theorem column_after (text : List Char) : (Position.after text).column = (lastRow text).length := by
  rw [lastRow, List.length_reverse]
  rfl

/-! ### The carets -/

/-- The row is shown like this: without the carriage return at its end, if it has one there. -/
inductive ShownAs : List Char → List Char → Prop
  | cut (shown : List Char) : ShownAs (shown ++ ['\r']) shown
  | whole {row : List Char} (h : row.getLast? ≠ some '\r') : ShownAs row row

/-- The part of a marked text that is shown in the row it starts in: all of it if it ends there, and
else what is shown of its first row. -/
inductive ShownPart : List Char → List Char → Prop
  | within {piece : List Char} (h : '\n' ∉ piece) : ShownPart piece piece
  | beyond {piece part : List Char} (h : '\n' ∈ piece) (hpart : ShownAs (firstRow piece) part) :
      ShownPart piece part

/-- The row that is shown, and a line with a caret below every character of `part`, but at least
one, behind as many blanks as there are characters in `before`. -/
def underlined (row before part : List Char) : List Char :=
  row ++ '\n' :: (List.replicate before.length ' ' ++ List.replicate (max 1 part.length) '^')

/-- A row is shown as what is left when the carriage return at its end is dropped. -/
theorem shownAs_iff {row shown : List Char} : ShownAs row shown ↔ dropReturn row = shown := by
  constructor
  · rintro (_ | hreturn)
    · exact dropReturn_concat shown
    · exact dropReturn_of_ne hreturn
  · rintro rfl
    by_cases hreturn : row.getLast? = some '\r'
    · obtain ⟨init, rfl⟩ := List.getLast?_eq_some_iff.mp hreturn
      rw [dropReturn_concat]
      exact .cut init
    · rw [dropReturn_of_ne hreturn]
      exact .whole hreturn

/-- The shown part of a marked text. -/
def shownPart (piece : List Char) : List Char :=
  if '\n' ∈ piece then dropReturn (firstRow piece) else piece

theorem shownPart_iff {piece part : List Char} : ShownPart piece part ↔ shownPart piece = part := by
  unfold shownPart
  constructor
  · rintro (h | ⟨h, hpart⟩)
    · exact if_neg h
    · rw [if_pos h, shownAs_iff.mp hpart]
  · rintro rfl
    split
    · next h => exact .beyond h (shownAs_iff.mpr rfl)
    · next h => exact .within h

theorem dropReturn_append (front : List Char) {row : List Char} (h : row ≠ []) :
    dropReturn (front ++ row) = front ++ dropReturn row := by
  obtain ⟨init, c, rfl⟩ := (List.eq_nil_or_concat row).resolve_left h
  simp only [dropReturn, List.concat_eq_append, ← List.append_assoc, List.getLast?_concat,
    List.dropLast_concat]
  split
  · rfl
  · rw [List.append_assoc]

theorem length_dropReturn_le (row : List Char) : (dropReturn row).length ≤ row.length := by
  unfold dropReturn
  split
  · rw [List.length_dropLast]
    omega
  · exact Nat.le_refl _

/-- What is left of a row behind its part `front`: a carriage return of `front` itself does not
count. -/
theorem length_dropReturn_append_sub (front row : List Char) :
    (dropReturn (front ++ row)).length - front.length = (dropReturn row).length := by
  by_cases h : row = []
  · have hle := length_dropReturn_le front
    rw [h, List.append_nil, show dropReturn [] = [] from rfl, List.length_nil]
    omega
  · rw [dropReturn_append front h, List.length_append]
    omega

theorem row_after_append_eq_iff (pre piece : List Char) :
    (Position.after (pre ++ piece)).row = (Position.after pre).row ↔ '\n' ∉ piece := by
  show (pre ++ piece).count '\n' = pre.count '\n' ↔ _
  rw [List.count_append, ← List.count_eq_zero]
  omega

/-- There are as many carets as the marked part has characters in the row that is shown. -/
theorem caretCount_next (pre piece post : List Char) :
    caretCount (dropReturn (lastRow pre ++ firstRow (piece ++ post))) (Span.next pre piece) =
      max 1 (shownPart piece).length := by
  unfold caretCount shownPart Span.next
  simp only [row_after_append_eq_iff, column_after]
  by_cases h : '\n' ∈ piece
  · rw [if_neg (not_not_intro h), if_pos h, firstRow_append_of_mem h,
      length_dropReturn_append_sub]
  · rw [if_pos h, if_neg h, lastRow_append_of_not_mem pre h, List.length_append,
      Nat.add_sub_cancel_left]

/-- The excerpt of a part of a text. -/
theorem excerpt_next {pre piece post row part : List Char}
    (hrow : ShownAs (lastRow pre ++ firstRow (piece ++ post)) row) (hpart : ShownPart piece part) :
    excerpt (pre ++ piece ++ post) (Span.next pre piece) = underlined row (lastRow pre) part := by
  have hshown : row? (pre ++ piece ++ post) (Span.next pre piece).start.row = some row := by
    rw [row?, List.append_assoc, Span.next, getElem?_rows, Option.map_some, shownAs_iff.mp hrow]
  have hcarets := caretCount_next pre piece post
  rw [shownAs_iff.mp hrow, shownPart_iff.mp hpart] at hcarets
  rw [excerpt, hshown, Option.getD_some, hcarets, underlined, ← column_after]
  rfl

theorem ShownAs.subset {row shown : List Char} (h : ShownAs row shown) : shown ⊆ row := by
  cases h with
  | cut => exact List.subset_append_left shown ['\r']
  | whole => exact List.Subset.refl row

theorem count_newline_underlined {row : List Char} (h : '\n' ∉ row) (before part : List Char) :
    (underlined row before part).count '\n' = 1 := by
  simp [underlined, List.count_eq_zero.mpr h, List.count_replicate]

/-- **An excerpt points at the marked characters.** A span that runs from where one prefix of a text
ends to where a longer one does has the part between the two for its own, and the excerpt is the row
this part starts in, one line feed, and a caret below each of its characters shown there. -/
theorem excerpt_underlines {text : List Char} {s : Span} (hstart : s.start.Ends text)
    (hstop : s.stop.Ends text) (hordered : s.Ordered) :
    ∃ pre piece post row part, text = pre ++ piece ++ post ∧
      s = ⟨Position.origin.advanceBy pre, Position.origin.advanceBy (pre ++ piece)⟩ ∧
      ShownAs (lastRow pre ++ firstRow (piece ++ post)) row ∧ ShownPart piece part ∧
      excerpt text s = underlined row (lastRow pre) part ∧ (excerpt text s).count '\n' = 1 := by
  obtain ⟨piece, pre, post, rfl, rfl⟩ := Span.exists_marks hstart hstop hordered
  have hrow : ShownAs (lastRow pre ++ firstRow (piece ++ post)) _ := shownAs_iff.mpr rfl
  have hpart : ShownPart piece _ := shownPart_iff.mpr rfl
  refine ⟨pre, piece, post, _, _, rfl, ?_, hrow, hpart, excerpt_next hrow hpart, ?_⟩
  · rw [Position.advanceBy_origin, Position.advanceBy_origin, Span.next]
  · rw [excerpt_next hrow hpart]
    refine count_newline_underlined (fun hmem => ?_) _ _
    rcases List.mem_append.mp (hrow.subset hmem) with hmem | hmem
    · exact newline_not_mem_lastRow pre hmem
    · exact newline_not_mem_firstRow _ hmem

/-- A span from the first row into the second one. -/
theorem excerpt_underlines_crossing :
    Position.Ends "1+\r\n[2".toList ⟨1, 0, 1⟩ ∧ Position.Ends "1+\r\n[2".toList ⟨6, 1, 2⟩ ∧
    Span.Ordered ⟨⟨1, 0, 1⟩, ⟨6, 1, 2⟩⟩ ∧
    ∃ pre piece post row part, "1+\r\n[2".toList = pre ++ piece ++ post ∧
      (⟨⟨1, 0, 1⟩, ⟨6, 1, 2⟩⟩ : Span) =
        ⟨Position.origin.advanceBy pre, Position.origin.advanceBy (pre ++ piece)⟩ ∧
      ShownAs (lastRow pre ++ firstRow (piece ++ post)) row ∧ ShownPart piece part ∧
      excerpt "1+\r\n[2".toList ⟨⟨1, 0, 1⟩, ⟨6, 1, 2⟩⟩ = underlined row (lastRow pre) part ∧
      (excerpt "1+\r\n[2".toList ⟨⟨1, 0, 1⟩, ⟨6, 1, 2⟩⟩).count '\n' = 1 := by
  have hstart : Position.Ends "1+\r\n[2".toList ⟨1, 0, 1⟩ := ⟨['1'], by decide, by decide⟩
  have hstop : Position.Ends "1+\r\n[2".toList ⟨6, 1, 2⟩ :=
    ⟨"1+\r\n[2".toList, by decide, by decide⟩
  have hordered : Span.Ordered ⟨⟨1, 0, 1⟩, ⟨6, 1, 2⟩⟩ := by
    show 1 ≤ 6
    omega
  exact ⟨hstart, hstop, hordered, excerpt_underlines hstart hstop hordered⟩

-- The carriage return ends the row, so only the sign before it is underlined.
example : excerpt "1+\r\n[2".toList ⟨⟨1, 0, 1⟩, ⟨6, 1, 2⟩⟩ = "1+\n ^".toList := by decide

end Text
end AddressExpr
