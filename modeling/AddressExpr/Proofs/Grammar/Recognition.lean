/-
# A list of tokens is an expression when the grammar derives it

`Expr.ofTokens` gives an expression exactly for the lists whose words are a sum that costs no
more than `maxLevels`, and the expression is the parse tree without its groups
(`ofTokens_iff_derives`). Words that are a sum and cost more are too deep, and what stands
after the first end of the text is never looked at.

A list of words has one parse tree at most (`Derives.unique`). Reading gives the expression
only, in which groups are lost, so the words are read once more with every parenthesis turned
into a square bracket (`Derives.bracketed`): then nothing is lost. The brackets that were there
before are told apart by a mark in their spans.

Key definitions: `ParseTree.bracketed`.
Key theorems: `Derives.unique`, `ofTokens_iff_derives`.
-/
import AddressExpr.Proofs.Grammar.Reading

namespace AddressExpr

/-! ### One tree for each phrase -/

/-- The span with a mark, which is zero or one, in the last bit of where it starts. -/
def Span.marked (mark : Nat) (s : Span) : Span :=
  ⟨⟨2 * s.start.index + mark, s.start.row, s.start.column⟩, s.stop⟩

theorem Span.eq_of_marked_eq {m n : Nat} {s t : Span} (hm : m < 2) (hn : n < 2)
    (h : s.marked m = t.marked n) : m = n ∧ s = t := by
  obtain ⟨⟨i, r, c⟩, stop⟩ := s
  obtain ⟨⟨i', r', c'⟩, stop'⟩ := t
  simp only [marked, Span.mk.injEq, Position.mk.injEq] at h ⊢
  obtain ⟨⟨hi, rfl, rfl⟩, rfl⟩ := h
  exact ⟨by omega, ⟨by omega, rfl, rfl⟩, rfl⟩

/-- The token with every parenthesis turned into a bracket. -/
def Token.bracketed : Token → Token
  | ⟨.openParen, s⟩ => ⟨.openBracket, s.marked 1⟩
  | ⟨.closeParen, s⟩ => ⟨.closeBracket, s⟩
  | ⟨.openBracket, s⟩ => ⟨.openBracket, s.marked 0⟩
  | t => t

/-- The tree with every group turned into a dereference. -/
def ParseTree.bracketed : ParseTree → ParseTree
  | literal text s => literal text s
  | path p => path p
  | group s inner s' => deref (s.marked 1) inner.bracketed s'
  | signed sign s operand => signed sign s operand.bracketed
  | binary op s left right => binary op s left.bracketed right.bracketed
  | deref s address s' => deref (s.marked 0) address.bracketed s'

theorem Dotted.map_bracketed {more : List Segment} {w : List Token} (h : Dotted more w) :
    w.map Token.bracketed = w := by
  induction h with
  | nil => rfl
  | cons dotSpan name s h ih => rw [List.map_cons, List.map_cons, ih]; rfl

/-- No group is left in the expression of the turned tree, and nothing else is lost. -/
theorem ParseTree.eq_of_expr_bracketed : ∀ {c c' : ParseTree},
    c.bracketed.expr = c'.bracketed.expr → c = c'
  | literal .., c', h => by
    cases c' <;> simp only [bracketed, expr, reduceCtorEq, Expr.literal.injEq] at h
    rw [h.1, h.2]
  | path _, c', h => by
    cases c' <;> simp only [bracketed, expr, reduceCtorEq, Expr.path.injEq] at h
    rw [h]
  | group _ inner _, c', h => by
    cases c' with
    | group =>
      obtain ⟨hs, hin, hs'⟩ := Expr.deref.inj h
      rw [(Span.eq_of_marked_eq (by decide) (by decide) hs).2, eq_of_expr_bracketed hin, hs']
    | deref =>
      have := (Span.eq_of_marked_eq (by decide) (by decide) (Expr.deref.inj h).1).1
      omega
    | _ => cases h
  | signed _ _ operand, c', h => by
    cases c' <;> simp only [bracketed, expr, reduceCtorEq, Expr.signed.injEq] at h
    rw [h.1, h.2.1, eq_of_expr_bracketed h.2.2]
  | binary _ _ left right, c', h => by
    cases c' <;> simp only [bracketed, expr, reduceCtorEq, Expr.binary.injEq] at h
    rw [h.1, h.2.1, eq_of_expr_bracketed h.2.2.1, eq_of_expr_bracketed h.2.2.2]
  | deref _ address _, c', h => by
    cases c' with
    | group =>
      have := (Span.eq_of_marked_eq (by decide) (by decide) (Expr.deref.inj h).1).1
      omega
    | deref =>
      obtain ⟨hs, hin, hs'⟩ := Expr.deref.inj h
      rw [(Span.eq_of_marked_eq (by decide) (by decide) hs).2, eq_of_expr_bracketed hin, hs']
    | _ => cases h

theorem Derives.bracketed {s : Stratum} {c : ParseTree} {w : List Token} (h : Derives s c w) :
    Derives s c.bracketed (w.map Token.bracketed) := by
  induction h with
  | hex text s => exact hex text s
  | path name s h =>
    rw [List.map_cons, h.map_bracketed]
    exact path name s h
  | group s s' h ih =>
    rw [List.map_cons, List.map_append]
    exact deref (s.marked 1) s' ih
  | deref s s' h ih =>
    rw [List.map_cons, List.map_append]
    exact deref (s.marked 0) s' ih
  | signed sign s h ih =>
    rw [List.map_cons]
    cases sign
    · exact signed .plus s ih
    · exact signed .minus s ih
  | fold op s hl hr ihl ihr =>
    have hop : Token.bracketed ⟨op.kind, s⟩ = ⟨op.kind, s⟩ := by cases op <;> rfl
    rw [List.map_append, List.map_cons, hop]
    exact fold op s ihl ihr
  | lift h ih => exact lift ih

namespace Expr

theorem stops_nil {fin : Token} (hfin : fin.kind = .eof) (power : Nat) : Stops fin power [] :=
  ⟨fun h => absurd (hfin.symm.trans h) (by decide),
    fun op h => absurd (h.symm.trans hfin) op.kind_ne_eof⟩

/-- A phrase with nothing after it is read whole. -/
theorem climb_of_derives_nil {fin : Token} (hfin : fin.kind = .eof) {s : Stratum} {c : ParseTree}
    {w : List Token} (h : Derives s c w) {room : Nat} (hcost : c.cost ≤ room) :
    climb fin room 0 w = .ok (c.expr, []) := by
  have hstep := climb_of_derives h hcost (stops_nil hfin _) s.strength_pos
  rwa [List.append_nil, fold_of_stops (stops_nil hfin 0)] at hstep

end Expr

/-- **A phrase has one parse tree.** -/
theorem Derives.unique {s : Stratum} {c c' : ParseTree} {w : List Token} (h : Derives s c w)
    (h' : Derives s c' w) : c = c' := by
  have hfin : (Token.eofAt .origin).kind = .eof := rfl
  have hread := Expr.climb_of_derives_nil hfin h.bracketed
    (Nat.le_max_left c.bracketed.cost c'.bracketed.cost)
  rw [Expr.climb_of_derives_nil hfin h'.bracketed (Nat.le_max_right _ _)] at hread
  exact ParseTree.eq_of_expr_bracketed (Prod.mk.inj (Except.ok.inj hread)).1.symm

/-! ### Whole lists -/

namespace Expr

theorem kind_endOf (ts : List Token) : (endOf ts).kind = .eof := by
  unfold endOf
  split
  · next t ht => simpa [Token.Kind.isEof] using List.find?_some ht
  · rfl

theorem ofTokens_eq_ok_iff {ts : List Token} {e : Expr} :
    ofTokens ts = .ok e ↔ climb (endOf ts) maxLevels 0 (words ts) = .ok (e, []) := by
  unfold ofTokens
  rw [bind_eq_ok_iff]
  constructor
  · rintro ⟨⟨e', rest⟩, hread, h⟩
    cases rest with
    | nil => rw [hread, Except.ok.inj h]
    | cons t ts => cases h
  · exact fun h => ⟨(e, []), h, rfl⟩

theorem ofTokens_of_climb_error {ts : List Token} {err : SyntaxError}
    (h : climb (endOf ts) maxLevels 0 (words ts) = .error err) : ofTokens ts = .error err := by
  unfold ofTokens
  rw [h]
  rfl

end Expr

theorem Dotted.isEof_eq_false {more : List Segment} {w : List Token} (h : Dotted more w) :
    ∀ t ∈ w, t.kind.isEof = false := by
  induction h with
  | nil => exact nofun
  | cons dotSpan name s h ih => simpa [Token.Kind.isEof] using ih

/-- No word of a phrase is an end of the text. -/
theorem Derives.isEof_eq_false {s : Stratum} {c : ParseTree} {w : List Token}
    (h : Derives s c w) : ∀ t ∈ w, t.kind.isEof = false := by
  induction h with
  | hex text s => simp [Token.Kind.isEof]
  | path name s h => simpa [Token.Kind.isEof] using h.isEof_eq_false
  | group s s' h ih => simpa [Token.Kind.isEof, or_imp, forall_and] using ih
  | deref s s' h ih => simpa [Token.Kind.isEof, or_imp, forall_and] using ih
  | signed sign s h ih => simpa [Token.Kind.isEof, sign.kind_ne_eof] using ih
  | fold op s hl hr ihl ihr =>
    intro t ht
    rcases List.mem_append.mp ht with ht | ht
    · exact ihl t ht
    rcases List.mem_cons.mp ht with rfl | ht
    · simp [Token.Kind.isEof, op.kind_ne_eof]
    · exact ihr t ht
  | lift h ih => exact ih

/-- Tokens without an end of the text are all words. -/
theorem Expr.words_of_isEof_eq_false {w : List Token} (h : ∀ t ∈ w, t.kind.isEof = false) :
    words w = w := by
  have hall : ∀ t ∈ w, (!t.kind.isEof) = true := fun t ht => by rw [h t ht]; rfl
  have happ : (w ++ []).takeWhile (fun t => !t.kind.isEof) = w ++ [] :=
    List.takeWhile_append_of_pos hall
  rwa [List.append_nil] at happ

/-- A phrase is all words. -/
theorem Derives.words_eq {s : Stratum} {c : ParseTree} {w : List Token} (h : Derives s c w) :
    Expr.words w = w :=
  Expr.words_of_isEof_eq_false h.isEof_eq_false

namespace Expr

/-- What is read from a list is the expression of a sum that costs no more than `maxLevels`. -/
theorem exists_derives_of_ofTokens {ts : List Token} {e : Expr} (h : ofTokens ts = .ok e) :
    ∃ c, Derives .sum c (words ts) ∧ c.expr = e ∧ c.cost ≤ maxLevels := by
  obtain ⟨c, w, hw, hc, he, hcost, -⟩ :=
    derives_of_climb (kind_endOf ts) maxLevels (by decide) (ofTokens_eq_ok_iff.mp h)
  rw [List.append_nil] at hw
  exact ⟨c, hw ▸ hc, he, hcost⟩

/-- A sum that costs no more than `maxLevels` is read. -/
theorem ofTokens_of_derives {ts : List Token} {c : ParseTree} (h : Derives .sum c (words ts))
    (hcost : c.cost ≤ maxLevels) : ofTokens ts = .ok c.expr :=
  ofTokens_eq_ok_iff.mpr (climb_of_derives_nil (kind_endOf ts) h hcost)

/-- A sum that costs more than `maxLevels` is too deep. -/
theorem ofTokens_of_maxLevels_lt_cost {ts : List Token} {c : ParseTree}
    (h : Derives .sum c (words ts)) (hcost : maxLevels < c.cost) :
    ∃ t, ofTokens ts = .error ⟨.tooDeep, t⟩ := by
  obtain ⟨t, ht⟩ := climb_of_room_lt_cost (endOf ts) [] h hcost 0 (by decide)
  rw [List.append_nil] at ht
  exact ⟨t, ofTokens_of_climb_error ht⟩

/-- The tokens after the first end are not among the words. -/
theorem words_append_eof (pre : List Token) {fin : Token} (post : List Token)
    (hfin : fin.kind = .eof) : words (pre ++ fin :: post) = words pre := by
  unfold words
  induction pre with
  | nil => simp [Token.Kind.isEof, hfin]
  | cons t pre ih => rw [List.cons_append, List.takeWhile_cons, List.takeWhile_cons, ih]

theorem endOf_append_eof (pre : List Token) {fin : Token} (post : List Token)
    (hfin : fin.kind = .eof) :
    endOf (pre ++ fin :: post) = (pre.find? (·.kind.isEof)).getD fin := by
  have hisEof : fin.kind.isEof = true := by simp [Token.Kind.isEof, hfin]
  unfold endOf
  rw [List.find?_append, List.find?_cons, hisEof]
  cases pre.find? (·.kind.isEof) <;> rfl

theorem ofTokens_append_eof (pre : List Token) {fin : Token} (post : List Token)
    (hfin : fin.kind = .eof) : ofTokens (pre ++ fin :: post) = ofTokens (pre ++ [fin]) := by
  unfold ofTokens
  rw [words_append_eof pre post hfin, words_append_eof pre [] hfin, endOf_append_eof pre post hfin,
    endOf_append_eof pre [] hfin]

/-- A list is its words, or the first end of the text stands behind them. -/
theorem words_eq_or_append_endOf (ts : List Token) :
    words ts = ts ∨ ∃ post, ts = words ts ++ endOf ts :: post := by
  cases hfind : ts.find? (·.kind.isEof) with
  | none => exact .inl (words_of_isEof_eq_false (by simpa using hfind))
  | some t =>
    have hend : endOf ts = t := by rw [endOf, hfind]
    obtain ⟨heof, pre, post, rfl, hpre⟩ := List.find?_eq_some_iff_append.mp hfind
    have hkind : t.kind = .eof := by simpa [Token.Kind.isEof] using heof
    refine .inr ⟨post, ?_⟩
    rw [hend, words_append_eof pre post hkind, words_of_isEof_eq_false (by simpa using hpre)]

theorem isEof_eq_false_of_mem_words {ts : List Token} {t : Token} (h : t ∈ words ts) :
    t.kind.isEof = false := by
  simpa using List.all_eq_true.mp List.all_takeWhile t h

/-- A list is its words and then nothing, or an end of the text and whatever stands after it. -/
theorem exists_eq_words_append (ts : List Token) :
    ∃ rest, ts = words ts ++ rest ∧ ∀ t ∈ rest.head?, t.kind = .eof := by
  rcases words_eq_or_append_endOf ts with hall | ⟨post, hpost⟩
  · exact ⟨[], by rw [hall, List.append_nil], nofun⟩
  · refine ⟨endOf ts :: post, hpost, fun t ht => ?_⟩
    obtain rfl := Option.some.inj ht
    exact kind_endOf ts

theorem kind_ne_eof_of_mem_words {ts : List Token} {t : Token} (h : t ∈ words ts) :
    t.kind ≠ .eof := by
  intro heof
  have hword := isEof_eq_false_of_mem_words h
  rw [heof] at hword
  cases hword

/-- **The expressions are the sums of the grammar.** Let `w` be the tokens of a list before its
first end, or all of them if it has none. They are read as `e` exactly if they derive a parse tree
whose expression is `e` and that costs no more than `maxLevels`; they derive one tree at most; if it
costs more, the list is too deep; and nothing depends on what stands after the first end. -/
theorem ofTokens_iff_derives (ts : List Token) :
    ∃ w rest, ts = w ++ rest ∧ (∀ t ∈ w, t.kind ≠ .eof) ∧ (∀ t ∈ rest.head?, t.kind = .eof) ∧
      (∀ e, ofTokens ts = .ok e ↔ ∃ c, Derives .sum c w ∧ c.expr = e ∧ c.cost ≤ maxLevels) ∧
      (∀ c c', Derives .sum c w → Derives .sum c' w → c = c') ∧
      (∀ c, Derives .sum c w → maxLevels < c.cost → ∃ t, ofTokens ts = .error ⟨.tooDeep, t⟩) ∧
      ∀ pre fin post, ts = pre ++ fin :: post → fin.kind = .eof →
        ofTokens ts = ofTokens (pre ++ [fin]) := by
  obtain ⟨rest, hts, hrest⟩ := exists_eq_words_append ts
  refine ⟨words ts, rest, hts, fun t => kind_ne_eof_of_mem_words, hrest,
    fun e => ⟨exists_derives_of_ofTokens, ?_⟩, fun c c' h h' => h.unique h',
    fun c h hcost => ofTokens_of_maxLevels_lt_cost h hcost, ?_⟩
  · rintro ⟨c, hc, rfl, hcost⟩
    exact ofTokens_of_derives hc hcost
  · rintro pre fin post rfl hfin
    exact ofTokens_append_eof pre post hfin

end Expr
end AddressExpr
