/-
# No list of tokens makes a machine crash

Tokens need not come from a text: a list may be empty, have an end of the text anywhere in it, or
have numerals and names with any characters in them. All that is asked of it is that no span ends
before it starts, counted in bytes; rows and columns may be anything.

The machine with a cursor reads every such list to its end, the one with registers evaluates every
expression that was read, and neither crashes. Every span in the expression and in an error is that
of a token, or covers some of them, or is the place where the last one stops. So it does not end
before it starts either, and its length can be computed (`isSafe_of_ordered`).

Key definitions: `Span.measure`, `Span.IsMeasured`, `IsSafe`.
Key theorems: `Expr.isMeasured_of_ofTokens`, `isSafe_of_ordered`.
-/
import AddressExpr.Proofs.Machine.Register
import AddressExpr.Proofs.SourceOrder

namespace AddressExpr

/-! ### Lengths of spans -/

namespace Span

/-- The number of bytes covered, as a machine computes it. -/
def measure (s : Span) : Except (Halt Empty) Nat := difference s.stop.index s.start.index

/-- The span does not end before it starts, and its length can be computed. -/
def IsMeasured (s : Span) : Prop := s.Ordered ∧ s.measure = .ok s.length

theorem Ordered.isMeasured {s : Span} (h : s.Ordered) : s.IsMeasured := ⟨h, difference_eq h⟩

end Span

/-! ### Where the spans come from -/

section

variable {P : Span → Prop}

/-- What an error of a list marks are spans of tokens, or its end. -/
theorem SyntaxError.IsWithin.forall_labels {fin : Token} {ts : List Token} {e : SyntaxError}
    (h : e.IsWithin fin ts) (hfin : P fin.span) (hts : ∀ t ∈ ts, P t.span) :
    ∀ label ∈ e.labels, P label.1 := by
  intro label hlabel
  have habout := h.about
  rcases eq_span_or_of_mem_labels hlabel with hspan | hproblem | hproblem
  · rw [hspan]
    rcases h.found_mem with hfound | hfound
    · exact hts _ hfound
    · rw [span, hfound]
      exact hfin
  · rw [hproblem] at habout
    exact hts _ habout
  · rw [hproblem] at habout
    exact hts _ habout

/-- The parts of a node are spans of tokens, or cover some. -/
theorem Expr.AllTokens.forall_parts {e : Expr}
    (hcover : ∀ {s t : Span}, P s → P t → P (s.cover t)) (h : e.AllTokens fun t => P t.span) :
    ∀ s ∈ e.parts, P s := by
  cases e with
  | literal text s => exact List.forall_mem_singleton.mpr h
  | path p =>
    intro s hs
    obtain ⟨name, hname, rfl⟩ := List.mem_map.mp hs
    exact h name hname
  | signed sign s operand =>
    simp only [parts, List.forall_mem_cons]
    exact ⟨h.1, h.2.span hcover, nofun⟩
  | binary op s left right =>
    simp only [parts, List.forall_mem_cons]
    exact ⟨h.2.1.span hcover, h.1, h.2.2.span hcover, nofun⟩
  | deref s address s' =>
    simp only [parts, List.forall_mem_cons]
    exact ⟨h.1, h.2.1.span hcover, h.2.2, nofun⟩

end

namespace Expr

variable {ts : List Token}

theorem ordered_span_endOf (h : ∀ t ∈ ts, t.span.Ordered) : (endOf ts).span.Ordered := by
  unfold endOf
  split
  · next t ht => exact h t (List.mem_of_find?_eq_some ht)
  · exact Span.point_ordered _

variable (hts : ∀ t ∈ ts, t.span.Ordered)
include hts

theorem ordered_of_mem_words : ∀ t ∈ words ts, t.span.Ordered :=
  fun t ht => hts t ((List.takeWhile_sublist _).subset ht)

/-- Every span of an expression can be measured. -/
theorem isMeasured_of_ofTokens {e : Expr} (h : ofTokens ts = .ok e) :
    ∀ d ∈ e.postorder, d.span.IsMeasured ∧ ∀ s ∈ d.parts, s.IsMeasured := by
  intro d hd
  have htokens : d.AllTokens fun t => t.span.Ordered :=
    (allTokens_of_ofTokens h (ordered_of_mem_words hts)).of_mem_postorder hd
  have hparts := htokens.forall_parts fun hs _ => Span.cover_ordered _ hs
  exact ⟨(htokens.span fun hs _ => Span.cover_ordered _ hs).isMeasured,
    fun s hs => (hparts s hs).isMeasured⟩

/-- Every span that an error of a list marks can be measured. -/
theorem isMeasured_of_ofTokens_error {err : SyntaxError} (h : ofTokens ts = .error err) :
    ∀ label ∈ err.labels, label.1.IsMeasured := by
  have hlabels := (isWithin_of_ofTokens h).forall_labels (ordered_span_endOf hts)
    (ordered_of_mem_words hts)
  exact fun label hlabel => (hlabels label hlabel).isMeasured

/-- Every span that an error of an evaluation marks can be measured. -/
theorem isMeasured_of_evalAddress_error {dir : Directory} {mem : Memory} {e : Expr}
    {err : EvalError} (h : ofTokens ts = .ok e)
    (herr : (e.evalAddress dir mem).result = .error err) :
    ∀ label ∈ err.labels, label.1.IsMeasured := by
  have htokens := allTokens_of_ofTokens h (ordered_of_mem_words hts)
  have hlabels := forall_labels_of_evalAddress (fun hs _ => Span.cover_ordered _ hs) htokens herr
  exact fun label hlabel => (hlabels label hlabel).isMeasured

end Expr

/-! ### The whole -/

/-- Neither reading the list nor evaluating what was read makes a machine crash, and the length of
every span that there is can be computed. -/
structure IsSafe (dir : Directory) (mem : Memory) (ts : List Token) : Prop where
  /-- The list is read to its end, with the outcome that is specified, which is never a crash. -/
  parse_eq : ∀ calls, ts.length + 2 * maxLevels + 2 ≤ calls →
    Cursor.parse calls ts = (Expr.ofTokens ts).mapError .failed
  /-- What was read is evaluated, with the outcome and the reads that are specified, and the outcome
  is never a crash. -/
  interpret_eq : ∀ e, Expr.ofTokens ts = .ok e →
    Register.interpret dir mem e = (e.evalAddress dir mem).mapError .failed
  /-- The spans of the expression can be measured: those of its nodes and of their own tokens. -/
  tree_measured : ∀ e, Expr.ofTokens ts = .ok e →
    ∀ d ∈ e.postorder, d.span.IsMeasured ∧ ∀ s ∈ d.parts, s.IsMeasured
  /-- The spans of an error of the list can be measured. -/
  syntaxError_measured : ∀ err, Expr.ofTokens ts = .error err →
    ∀ label ∈ err.labels, label.1.IsMeasured
  /-- The spans of an error of the evaluation can be measured. -/
  evalError_measured : ∀ e err, Expr.ofTokens ts = .ok e →
    (e.evalAddress dir mem).result = .error err → ∀ label ∈ err.labels, label.1.IsMeasured

/-- **No list of tokens makes a machine crash.** -/
theorem isSafe_of_ordered (dir : Directory) (mem : Memory) {ts : List Token}
    (hts : ∀ t ∈ ts, t.span.Ordered) : IsSafe dir mem ts where
  parse_eq _ hcalls := Cursor.parse_eq ts hcalls
  interpret_eq e _ := Register.interpret_eq dir mem e
  tree_measured _ h := Expr.isMeasured_of_ofTokens hts h
  syntaxError_measured _ h := Expr.isMeasured_of_ofTokens_error hts h
  evalError_measured _ _ h herr := Expr.isMeasured_of_evalAddress_error hts h herr

/-- A sum of which one numeral has no digit and runs backwards over the rows, and the other comes
first in the text. An end of the text follows, and then one token more. -/
theorem isSafe_of_ordered_eof_inside :
    (∀ t ∈ [Token.mk (.hex "zz") ⟨⟨5, 9, 9⟩, ⟨6, 0, 0⟩⟩, ⟨.plus, .point ⟨2, 1, 0⟩⟩,
        ⟨.hex "1", ⟨⟨0, 0, 3⟩, ⟨1, 0, 0⟩⟩⟩, .eofAt ⟨9, 0, 0⟩, ⟨.closeParen, .point .origin⟩],
      t.span.Ordered) ∧
      IsSafe .empty .placeholder [⟨.hex "zz", ⟨⟨5, 9, 9⟩, ⟨6, 0, 0⟩⟩⟩, ⟨.plus, .point ⟨2, 1, 0⟩⟩,
        ⟨.hex "1", ⟨⟨0, 0, 3⟩, ⟨1, 0, 0⟩⟩⟩, .eofAt ⟨9, 0, 0⟩, ⟨.closeParen, .point .origin⟩] := by
  have hts : ∀ t ∈ [Token.mk (.hex "zz") ⟨⟨5, 9, 9⟩, ⟨6, 0, 0⟩⟩, ⟨.plus, .point ⟨2, 1, 0⟩⟩,
      ⟨.hex "1", ⟨⟨0, 0, 3⟩, ⟨1, 0, 0⟩⟩⟩, .eofAt ⟨9, 0, 0⟩, ⟨.closeParen, .point .origin⟩],
      t.span.Ordered := by
    simp only [List.forall_mem_cons]
    exact ⟨Nat.le_succ 5, Span.point_ordered _, Nat.zero_le 1, Span.point_ordered _,
      Span.point_ordered _, nofun⟩
  exact ⟨hts, isSafe_of_ordered .empty .placeholder hts⟩

end AddressExpr
