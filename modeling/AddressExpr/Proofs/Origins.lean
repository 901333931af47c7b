/-
# What expressions and errors are made of

Every part of an expression that is read from a list of tokens comes from one of them: names and
numerals, signs, operators and brackets, each with its span (`Expr.AllTokens`). An error comes from
them too. It is found at one of them or at the end of the text, the bracket that it misses the
other of is among them, and what is too deep is found at a bracket or an operator
(`SyntaxError.IsWithin`).

Key definitions: `Expr.AllTokens`, `SyntaxError.IsWithin`.
Key theorems: `Expr.allTokens_of_ofTokens`, `Expr.isWithin_of_ofTokens`.
-/
import AddressExpr.Proofs.Grammar.Recognition

namespace AddressExpr

/-! ### Expressions -/

/-- Every token that a part of the expression was read from has the property. The parentheses
around a part leave no trace in it. -/
def Expr.AllTokens (P : Token → Prop) : Expr → Prop
  | literal text s => P ⟨.hex text, s⟩
  | path p => ∀ name ∈ p.segments, P ⟨.ident name.name, name.span⟩
  | signed sign s operand => P ⟨sign.kind, s⟩ ∧ operand.AllTokens P
  | binary op s left right => P ⟨op.kind, s⟩ ∧ left.AllTokens P ∧ right.AllTokens P
  | deref s address s' =>
    P ⟨.openBracket, s⟩ ∧ address.AllTokens P ∧ P ⟨.closeBracket, s'⟩

section

variable {P : Token → Prop}

theorem Dotted.forall_segments {more : List Segment} {w : List Token} (h : Dotted more w)
    (hw : ∀ t ∈ w, P t) : ∀ name ∈ more, P ⟨.ident name.name, name.span⟩ := by
  induction h with
  | nil => exact nofun
  | cons dotSpan name s h ih =>
    simp only [List.forall_mem_cons] at hw ⊢
    exact ⟨hw.2.1, ih hw.2.2⟩

theorem Derives.allTokens {s : Stratum} {c : ParseTree} {w : List Token} (h : Derives s c w)
    (hw : ∀ t ∈ w, P t) : c.expr.AllTokens P := by
  induction h with
  | hex text s => exact hw _ List.mem_cons_self
  | path name s h =>
    simp only [List.forall_mem_cons] at hw
    exact List.forall_mem_cons.mpr ⟨hw.1, h.forall_segments hw.2⟩
  | group s s' h ih =>
    simp only [List.forall_mem_cons, List.forall_mem_append] at hw
    exact ih hw.2.1
  | deref s s' h ih =>
    simp only [List.forall_mem_cons, List.forall_mem_append] at hw
    exact ⟨hw.1, ih hw.2.1, hw.2.2.1⟩
  | signed sign s h ih =>
    simp only [List.forall_mem_cons] at hw
    exact ⟨hw.1, ih hw.2⟩
  | fold op s hl hr ihl ihr =>
    simp only [List.forall_mem_cons, List.forall_mem_append] at hw
    exact ⟨hw.2.1, ihl hw.1, ihr hw.2.2⟩
  | lift h ih => exact ih hw

/-- What is read is made of the words of the list. -/
theorem Expr.allTokens_of_ofTokens {ts : List Token} {e : Expr} (h : ofTokens ts = .ok e)
    (hts : ∀ t ∈ words ts, P t) : e.AllTokens P := by
  obtain ⟨c, hc, rfl, -⟩ := exists_derives_of_ofTokens h
  exact hc.allTokens hts

end

/-! ### Errors -/

theorem Sign.exists_binaryOp_kind_eq (sign : Sign) : ∃ op : BinaryOp, sign.kind = op.kind := by
  cases sign with
  | plus => exact ⟨.add, rfl⟩
  | minus => exact ⟨.sub, rfl⟩

/-- What the problem is about is in the list: the bracket that was opened, or a token that takes a
level. -/
def SyntaxProblem.IsAbout (ts : List Token) (found : Token) : SyntaxProblem → Prop
  | unmatchedParenthesis s => ⟨.openParen, s⟩ ∈ ts
  | unmatchedBracket s => ⟨.openBracket, s⟩ ∈ ts
  | tooDeep => found.kind = .openParen ∨ found.kind = .openBracket ∨
      ∃ op : BinaryOp, found.kind = op.kind
  | _ => True

/-- The error is found at a token of the list or at its end, and is about tokens of the list. -/
structure SyntaxError.IsWithin (fin : Token) (ts : List Token) (e : SyntaxError) : Prop where
  found_mem : e.found ∈ ts ∨ e.found = fin
  about : e.problem.IsAbout ts e.found

namespace SyntaxError.IsWithin

variable {fin : Token} {ts ts' : List Token} {e : SyntaxError}

theorem mono (h : e.IsWithin fin ts) (hts : ts ⊆ ts') : e.IsWithin fin ts' := by
  obtain ⟨hfound, habout⟩ := h
  refine ⟨hfound.imp_left (hts ·), ?_⟩
  cases hproblem : e.problem with
  | unmatchedParenthesis s =>
    rw [hproblem] at habout
    exact hts habout
  | unmatchedBracket s =>
    rw [hproblem] at habout
    exact hts habout
  | tooDeep =>
    rw [hproblem] at habout
    exact habout
  | expectedIdentifier => trivial
  | invalidToken => trivial
  | trailingInput => trivial

end SyntaxError.IsWithin

namespace Expr

theorem bind_eq_error_iff {ε α β : Type} {x : Except ε α} {f : α → Except ε β} {e : ε} :
    (x >>= f) = .error e ↔ x = .error e ∨ ∃ a, x = .ok a ∧ f a = .error e := by
  cases x with
  | ok a =>
    constructor
    · intro h
      exact .inr ⟨a, rfl, h⟩
    · rintro (h | ⟨b, hb, h⟩)
      · cases h
      · exact Except.ok.inj hb ▸ h
  | error e' =>
    constructor
    · intro h
      exact .inl (congrArg _ (Except.error.inj h))
    · rintro (h | ⟨b, hb, -⟩)
      · exact congrArg _ (Except.error.inj h)
      · cases hb

variable {fin : Token}

/-- The next token is one of the list, or the end if there is none. -/
theorem headD_mem (ts : List Token) : ts.headD fin ∈ ts ∨ ts.headD fin = fin := by
  cases ts with
  | nil => exact .inr rfl
  | cons t ts => exact .inl List.mem_cons_self

theorem isWithin_of_expect {kind : Token.Kind} {problem : SyntaxProblem} {ts rest : List Token}
    {err : SyntaxError} (h : expect fin kind problem rest = .error err) (hrest : rest ⊆ ts)
    (habout : problem.IsAbout ts (rest.headD fin)) : err.IsWithin fin ts := by
  unfold expect at h
  split at h
  · cases h
  · obtain rfl := Except.error.inj h
    exact ⟨(headD_mem rest).imp_left (hrest ·), habout⟩

theorem isWithin_of_dottedNames {ts : List Token} {err : SyntaxError}
    (h : dottedNames fin ts = .error err) : err.IsWithin fin ts := by
  fun_induction dottedNames fin ts with
  | case1 dotSpan name s ts ih =>
    rcases bind_eq_error_iff.mp h with h | ⟨a, -, h⟩
    · exact (ih h).mono fun t ht => List.mem_cons_of_mem _ (List.mem_cons_of_mem _ ht)
    · cases h
  | case2 dotSpan ts =>
    obtain rfl := Except.error.inj h
    exact ⟨(headD_mem ts).imp_left (List.mem_cons_of_mem _), trivial⟩
  | case3 ts => cases h

/-- What is read up to a closing bracket, whatever is made of it. -/
theorem isWithin_of_enclosed (hfin : fin.kind = .eof) {room : Nat} {ts : List Token}
    {opener : Token} {kind : Token.Kind} {err : SyntaxError} (problem : SyntaxProblem)
    (next : Expr → Token → Expr)
    (h : (climb fin room 0 ts >>= fun x => expect fin kind problem x.2 >>= fun y =>
      .ok (next x.1 y.1, y.2)) = Except.error err)
    (habout : ∀ found, problem.IsAbout (opener :: ts) found)
    (hclimb : climb fin room 0 ts = .error err → err.IsWithin fin ts) :
    err.IsWithin fin (opener :: ts) := by
  rcases bind_eq_error_iff.mp h with hfail | ⟨⟨inner, rest⟩, hin, hnext⟩
  · exact (hclimb hfail).mono (List.subset_cons_self _ _)
  · obtain ⟨c, w, rfl, -⟩ := derives_of_climb hfin room (Nat.zero_le 3) hin
    rcases bind_eq_error_iff.mp hnext with hfail | ⟨a, -, hnext⟩
    · refine isWithin_of_expect hfail (fun t ht => ?_) (habout _)
      exact List.mem_cons_of_mem _ (List.mem_append_right w ht)
    · cases hnext

mutual

theorem isWithin_of_atom (hfin : fin.kind = .eof) (room : Nat) {ts : List Token}
    {err : SyntaxError} (h : atom fin room ts = .error err) : err.IsWithin fin ts := by
  unfold atom at h
  split at h
  · cases h
  · next name s ts =>
    rcases bind_eq_error_iff.mp h with h | ⟨a, -, h⟩
    · exact (isWithin_of_dottedNames h).mono (List.subset_cons_self _ _)
    · cases h
  · next s ts =>
    cases room with
    | zero =>
      obtain rfl := Except.error.inj h
      exact ⟨.inl List.mem_cons_self, .inl rfl⟩
    | succ room =>
      exact isWithin_of_enclosed hfin (.unmatchedParenthesis s) (fun inner _ => inner) h
        (fun _ => List.mem_cons_self) (isWithin_of_climb hfin room (Nat.zero_le 3))
  · next s ts =>
    cases room with
    | zero =>
      obtain rfl := Except.error.inj h
      exact ⟨.inl List.mem_cons_self, .inr (.inl rfl)⟩
    | succ room =>
      exact isWithin_of_enclosed hfin (.unmatchedBracket s)
        (fun address t => .deref s address t.span) h
        (fun _ => List.mem_cons_self) (isWithin_of_climb hfin room (Nat.zero_le 3))
  · obtain rfl := Except.error.inj h
    exact ⟨headD_mem ts, trivial⟩
termination_by 2 * room

theorem isWithin_of_climb (hfin : fin.kind = .eof) (room : Nat) {power : Nat} {ts : List Token}
    {err : SyntaxError} (hpower : power ≤ 3) (h : climb fin room power ts = .error err) :
    err.IsWithin fin ts := by
  cases hsign : (ts.headD fin).kind.sign? with
  | some sign =>
    have hkind := Token.Kind.sign?_eq_some_iff.mp hsign
    obtain ⟨s, ts, rfl⟩ := eq_cons_of_headD hfin hkind sign.kind_ne_eof
    cases room with
    | zero =>
      rw [climb_zero_sign] at h
      obtain rfl := Except.error.inj h
      exact ⟨.inl List.mem_cons_self, .inr (.inr sign.exists_binaryOp_kind_eq)⟩
    | succ room =>
      rw [climb_sign] at h
      rcases bind_eq_error_iff.mp h with hfail | ⟨⟨operand, rest⟩, hin, hnext⟩
      · exact (isWithin_of_atom hfin room hfail).mono (List.subset_cons_self _ _)
      -- The operand is a phrase of the list, so what is left behind it is a part of the list.
      · obtain ⟨c, w, rfl, -⟩ := derives_of_atom hfin room hin
        refine (isWithin_of_fold hfin room hpower hnext).mono fun t ht => ?_
        exact List.mem_cons_of_mem _ (List.mem_append_right w ht)
  | none =>
    rw [climb_of_sign?_eq_none hsign] at h
    rcases bind_eq_error_iff.mp h with hfail | ⟨⟨operand, rest⟩, hin, hnext⟩
    · exact isWithin_of_atom hfin room hfail
    · obtain ⟨c, w, rfl, -⟩ := derives_of_atom hfin room hin
      exact (isWithin_of_fold hfin room hpower hnext).mono (List.subset_append_right w rest)
termination_by 2 * room + 1

theorem isWithin_of_fold (hfin : fin.kind = .eof) (room : Nat) {power : Nat} {ts : List Token}
    {left : Expr} {err : SyntaxError} (hpower : power ≤ 3)
    (h : fold fin room power left ts = .error err) : err.IsWithin fin ts := by
  by_cases hstop : ∀ op : BinaryOp, (ts.headD fin).kind = op.kind → op.strength ≤ power
  · rw [fold_of_ops hstop] at h
    cases h
  · have hgoes : ∃ op : BinaryOp, (ts.headD fin).kind = op.kind ∧ power < op.strength := by
      simpa using hstop
    obtain ⟨op, hkind, hop⟩ := hgoes
    obtain ⟨s, ts, rfl⟩ := eq_cons_of_headD hfin hkind op.kind_ne_eof
    cases room with
    | zero =>
      rw [fold_zero_op s hop] at h
      obtain rfl := Except.error.inj h
      exact ⟨.inl List.mem_cons_self, .inr (.inr ⟨op, rfl⟩)⟩
    | succ room =>
      rw [fold_op s hop] at h
      rcases bind_eq_error_iff.mp h with hfail | ⟨⟨right, rest⟩, hin, hnext⟩
      · exact (isWithin_of_climb hfin room op.strength_le_three hfail).mono
          (List.subset_cons_self _ _)
      · obtain ⟨c, w, rfl, -⟩ := derives_of_climb hfin room op.strength_le_three hin
        refine (isWithin_of_fold hfin room hpower hnext).mono fun t ht => ?_
        exact List.mem_cons_of_mem _ (List.mem_append_right w ht)
termination_by 2 * room

end

/-- **An error is about the words of the list, or about where they end.** -/
theorem isWithin_of_ofTokens {ts : List Token} {err : SyntaxError}
    (h : ofTokens ts = .error err) : err.IsWithin (endOf ts) (words ts) := by
  unfold ofTokens at h
  rcases bind_eq_error_iff.mp h with hfail | ⟨⟨e, rest⟩, hread, hnext⟩
  · exact isWithin_of_climb (kind_endOf ts) maxLevels (Nat.zero_le 3) hfail
  · obtain ⟨c, w, hw, -⟩ := derives_of_climb (kind_endOf ts) maxLevels (Nat.zero_le 3) hread
    cases rest with
    | nil => cases hnext
    | cons t rest =>
      obtain rfl := Except.error.inj hnext
      refine ⟨.inl ?_, trivial⟩
      rw [hw]
      exact List.mem_append_right w List.mem_cons_self

end Expr
end AddressExpr
