/-
# The value of a text is made of the values of its parts

If two texts have addresses, then so has the text of an operation on them, each in parentheses
(`operationText`): it is what the operator makes of the two addresses, unless that is no
address, or the whole is too deep to be read. The same holds of a text in square brackets
(`derefText`), whose value is what is read at the address of the text inside. What is read for
the parts is read for the whole, in the same order.

All three stages take part in this. The parts have the same tokens where they stand in the whole
(`Lexer.Scans`); these derive the same trees, which are operands now (`Derives`); and the trees
have the same values there, as the new spans do not matter (`Expr.eval_mapSpan`).

Key definitions: `operationText`, `derefText`, `BinaryOp.IsOutcome`, `Memory.IsOutcome`,
`IsTooDeep`.
Key theorems: `Evaluates.operation`, `Evaluates.deref`, `evaluate_compose`.
-/
import AddressExpr.Evaluation
import AddressExpr.Proofs.Exact
import AddressExpr.Proofs.Grammar.Recognition
import AddressExpr.Proofs.Scanning

namespace AddressExpr

/-- The text of the operator between two texts in parentheses. -/
def operationText (op : BinaryOp) (a b : String) : String :=
  "(" ++ a ++ ")" ++ op.symbol ++ "(" ++ b ++ ")"

/-- The text in square brackets. -/
def derefText (a : String) : String := "[" ++ a ++ "]"

/-- The text is a sum whose tree costs more than can be read, and that is why it fails. -/
structure IsTooDeep (source : String) (result : Except Failure Address) : Prop where
  exists_derives : ∃ ts c, Lexer.tokenize source = .ok ts ∧ Derives .sum c (Expr.words ts) ∧
    maxLevels < c.cost
  exists_eq_error : ∃ t, result = .error (.parsing ⟨.tooDeep, t⟩)

/-- The result is the exact result of the operator on two integers, or what is wrong with it as
an address. -/
def BinaryOp.IsOutcome (op : BinaryOp) (x y : Int) (result : Except Failure Address) : Prop :=
  if op.DividesByZero x y then
    ∃ s s', result = .error (.evaluating ⟨.divisionByZero op s, s'⟩)
  else if ¬ Value.Fits (op.exact x y) then
    ∃ s, result = .error (.evaluating ⟨.overflow (.binary op), s⟩)
  else if op.exact x y < 0 then
    ∃ s, result = .error (.evaluating ⟨.negativeAddress (op.exact x y), s⟩)
  else if Address.limit ≤ op.exact x y then
    ∃ s, result = .error (.evaluating ⟨.addressOutOfRange (op.exact x y), s⟩)
  else ∃ z, result = .ok z ∧ Address.toInt z = op.exact x y

/-- The result is that of one read. -/
def Memory.IsOutcome (mem : Memory) (x : Address) (result : Except Failure Address) : Prop :=
  match mem x with
  | .ok value => result = .ok value
  | .error reason => ∃ s, result = .error (.evaluating ⟨.unreadable x reason, s⟩)

/-! ### Texts with an address -/

namespace Expr

/-- The result of a text is that of its expression, checked and reworded. -/
theorem result_mapError_evalAddress (dir : Directory) (mem : Memory) (e : Expr) :
    ((e.evalAddress dir mem).mapError Failure.evaluating).result =
      ((e.eval dir mem).result.bind (toAddress e.span)).mapError Failure.evaluating := by
  show ((e.evalAddress dir mem).result).mapError _ = _
  rw [evalAddress, Run.result_bind]
  rfl

end Expr

theorem parse_eq_ok_iff {source : String} {e : Expr} :
    parse source = .ok e ↔ ∃ ts, Lexer.tokenize source = .ok ts ∧ Expr.ofTokens ts = .ok e := by
  unfold parse
  constructor
  · intro h
    split at h
    · cases h
    · next ts htokens =>
      split at h
      · cases h
      · next e' hexpr => exact ⟨ts, htokens, Except.ok.inj h ▸ hexpr⟩
  · rintro ⟨ts, htokens, hexpr⟩
    rw [htokens]
    simp only [hexpr]

/-- A text with an address is an expression that has it. -/
theorem exists_parse_of_result_evaluate {dir : Directory} {mem : Memory} {source : String}
    {x : Address} (h : (evaluate dir mem source).result = .ok x) :
    ∃ e, parse source = .ok e ∧ (e.evalAddress dir mem).result = .ok x := by
  cases hparse : parse source with
  | error f =>
    rw [evaluate, hparse] at h
    cases h
  | ok e =>
    rw [evaluate_of_parse_eq_ok hparse] at h
    exact ⟨e, rfl, Run.result_mapError_eq_ok_iff.mp h⟩

/-- The text has the words `w`, which are a sum with the tree `c` and the address `x`, for which
`reads` is read. -/
structure Evaluates (dir : Directory) (mem : Memory) (source : String) (w : List Token)
    (c : ParseTree) (x : Address) (reads : List Address) : Prop where
  scans : Lexer.Scans none .origin source.toList w
  derives : Derives .sum c w
  result_eval : (c.expr.eval dir mem).result = .ok (Address.toInt x)
  reads_eval : (c.expr.eval dir mem).reads = reads

/-- The end of the text is none of its words. -/
theorem Lexer.Scans.words_eq {opened : Option Position} {here : Position} {cs : List Char}
    {w : List Token} (h : Scans opened here cs w) (p : Position) :
    Expr.words (w ++ [.eofAt p]) = w := by
  rw [Expr.words_append_eof w [] rfl]
  exact Expr.words_of_isEof_eq_false h.isEof_eq_false

theorem exists_evaluates {dir : Directory} {mem : Memory} {source : String} {x : Address}
    (h : (evaluate dir mem source).result = .ok x) :
    ∃ w c, Evaluates dir mem source w c x (evaluate dir mem source).reads := by
  obtain ⟨e, hparse, haddress⟩ := exists_parse_of_result_evaluate h
  obtain ⟨ts, htokens, hexpr⟩ := parse_eq_ok_iff.mp hparse
  obtain ⟨w, hts, hscans⟩ := Lexer.exists_scans (Lexer.tokenize_eq_ok_iff.mp htokens)
  obtain ⟨c, hderives, rfl, -⟩ := Expr.exists_derives_of_ofTokens hexpr
  rw [hts, hscans.words_eq] at hderives
  have hvalue := Expr.result_eval_of_evalAddress haddress
  have hreads : (c.expr.eval dir mem).reads = (evaluate dir mem source).reads := by
    rw [evaluate_of_parse_eq_ok hparse, ← Expr.reads_evalAddress]
    rfl
  exact ⟨w, c, hscans, hderives, hvalue, hreads⟩

/-- The words that are scanned are those that are read. -/
theorem Lexer.Scans.tokenize_eq {source : String} {w : List Token}
    (h : Scans none .origin source.toList w) :
    ∃ ts, tokenize source = .ok ts ∧ Expr.words ts = w :=
  ⟨_, tokenize_eq_ok_iff.mpr h.scan_eq, h.words_eq _⟩

/-- A text whose words are a sum that can be read has the address of its tree. -/
theorem evaluate_of_derives_of_cost_le {dir : Directory} {mem : Memory} {source : String}
    {w : List Token} {c : ParseTree} (hscans : Lexer.Scans none .origin source.toList w)
    (hderives : Derives .sum c w) (hcost : c.cost ≤ maxLevels) :
    evaluate dir mem source = (c.expr.evalAddress dir mem).mapError .evaluating := by
  obtain ⟨ts, htokens, rfl⟩ := hscans.tokenize_eq
  have hexpr := Expr.ofTokens_of_derives hderives hcost
  exact evaluate_of_parse_eq_ok (parse_eq_ok_iff.mpr ⟨ts, htokens, hexpr⟩)

/-- A text whose words are a sum is too deep or has the address of its tree. -/
theorem evaluate_of_derives {dir : Directory} {mem : Memory} {source : String} {w : List Token}
    {c : ParseTree} (hscans : Lexer.Scans none .origin source.toList w)
    (hderives : Derives .sum c w) :
    IsTooDeep source (evaluate dir mem source).result ∨
      evaluate dir mem source = (c.expr.evalAddress dir mem).mapError .evaluating := by
  rcases Nat.lt_or_ge maxLevels c.cost with hcost | hcost
  · obtain ⟨ts, htokens, rfl⟩ := hscans.tokenize_eq
    obtain ⟨t, ht⟩ := Expr.ofTokens_of_maxLevels_lt_cost hderives hcost
    have hparse : parse source = .error (.parsing ⟨.tooDeep, t⟩) := by
      rw [parse_of_tokenize htokens, ht]
      rfl
    refine .inl ⟨⟨_, c, htokens, hderives, hcost⟩, t, ?_⟩
    rw [evaluate, hparse]
  · exact .inr (evaluate_of_derives_of_cost_le hscans hderives hcost)

/-! ### The text of the whole -/

namespace Lexer

theorem scans_operator (op : BinaryOp) (here : Position) :
    Scans none here op.symbol.toList [⟨op.kind, ⟨here, here.advanceBy op.symbol.toList⟩⟩] := by
  cases op with
  | add => exact .symbol rfl (.nil _)
  | sub => exact .symbol rfl (.nil _)
  | div => exact .symbol rfl (.nil _)
  | mul => exact @Scans.token none here '*' [] [] .times rfl (.inr rfl) (.nil _)
  | pow => exact @Scans.token none here '*' ['*'] [] .power rfl (.inr rfl) (.nil _)

/-- A text between two characters that are tokens has its own tokens between those. -/
theorem Scans.enclose {o c : Char} {ko kc : Token.Kind} (ho : symbol? o = some ko)
    (hc : symbol? c = some kc) (hbreaks : ∀ ds, Breaks (c :: ds)) {cs ds : List Char}
    {u v : List Token} {here : Position} (h : Scans none .origin cs u)
    (hrest : Scans none (((here.advance o).advanceBy cs).advance c) ds v) :
    ∃ s s' : Span, Scans none here (o :: (cs ++ c :: ds))
      (⟨ko, s⟩ :: (u.map (Token.mapSpan (Span.shift (here.advance o))) ++ ⟨kc, s'⟩ :: v)) := by
  have hpart := h.shift (here.advance o)
  rw [Position.shift_origin] at hpart
  have hclosed := hpart.append (hbreaks ds) (.symbol hc hrest)
  exact ⟨_, _, .symbol ho hclosed⟩

/-- The words of an operation are those of its parts, moved to where these stand. -/
theorem exists_scans_operation (op : BinaryOp) {a b : String} {u v : List Token}
    (ha : Scans none .origin a.toList u) (hb : Scans none .origin b.toList v) :
    ∃ (p q : Position) (s₁ s₂ s₃ s₄ s₅ : Span),
      Scans none .origin (operationText op a b).toList
        (⟨.openParen, s₁⟩ :: (u.map (Token.mapSpan (Span.shift p)) ++
          ⟨.closeParen, s₂⟩ :: ⟨op.kind, s₃⟩ :: ⟨.openParen, s₄⟩ ::
            (v.map (Token.mapSpan (Span.shift q)) ++ [⟨.closeParen, s₅⟩]))) := by
  have htext : (operationText op a b).toList =
      '(' :: (a.toList ++ ')' :: (op.symbol.toList ++ '(' :: (b.toList ++ [')']))) := by
    simp [operationText, String.toList_append]
  have hopen : Breaks ('(' :: (b.toList ++ [')'])) := .cons (by decide) (by decide) _
  have hclose : ∀ ds, Breaks (')' :: ds) := Breaks.cons (by decide) (by decide)
  have hopenParen : symbol? '(' = some .openParen := rfl
  have hcloseParen : symbol? ')' = some .closeParen := rfl
  obtain ⟨middle, hmiddle⟩ : ∃ p : Position,
      ((Position.origin.advance '(').advanceBy a.toList).advance ')' = p := ⟨_, rfl⟩
  have hoperator := scans_operator op middle
  obtain ⟨s₄, s₅, hright⟩ := Scans.enclose hopenParen hcloseParen hclose hb
    (.nil ((((middle.advanceBy op.symbol.toList).advance '(').advanceBy b.toList).advance ')'))
  have hrest := hoperator.append hopen hright
  rw [← hmiddle] at hrest
  obtain ⟨s₁, s₂, hleft⟩ := Scans.enclose hopenParen hcloseParen hclose ha hrest
  rw [htext]
  exact ⟨_, _, s₁, s₂, _, s₄, s₅, hleft⟩

theorem exists_scans_deref {a : String} {u : List Token}
    (ha : Scans none .origin a.toList u) :
    ∃ (p : Position) (s₁ s₂ : Span),
      Scans none .origin (derefText a).toList
        (⟨.openBracket, s₁⟩ ::
          (u.map (Token.mapSpan (Span.shift p)) ++ [⟨.closeBracket, s₂⟩])) := by
  have htext : (derefText a).toList = '[' :: (a.toList ++ [']']) := by
    simp [derefText, String.toList_append]
  have hclose : ∀ ds, Breaks (']' :: ds) := Breaks.cons (by decide) (by decide)
  have hopenBracket : symbol? '[' = some .openBracket := rfl
  have hcloseBracket : symbol? ']' = some .closeBracket := rfl
  obtain ⟨s₁, s₂, hwhole⟩ := Scans.enclose hopenBracket hcloseBracket hclose ha (.nil _)
  rw [htext]
  exact ⟨_, s₁, s₂, hwhole⟩

end Lexer

/-! ### The value of the whole -/

section

variable {dir : Directory} {mem : Memory}

/-- A part has the same value and the same reads where it stands. -/
theorem Evaluates.eval_shift {source : String} {w : List Token} {c : ParseTree} {x : Address}
    {reads : List Address} (h : Evaluates dir mem source w c x reads) (p : Position) :
    ((c.mapSpan (Span.shift p)).expr.eval dir mem).result = .ok (Address.toInt x) ∧
      ((c.mapSpan (Span.shift p)).expr.eval dir mem).reads = reads := by
  rw [ParseTree.expr_mapSpan, Expr.eval_mapSpan dir mem (Span.shift_cover p)]
  exact ⟨Run.result_mapError_eq_ok_iff.mpr h.result_eval, h.reads_eval⟩

/-- The address of an operation on two expressions that have values. -/
theorem isOutcome_binary (op : BinaryOp) (s : Span) {l r : Expr} {m n : Int}
    (hl : (l.eval dir mem).result = .ok m) (hr : (r.eval dir mem).result = .ok n) :
    op.IsOutcome m n
      (((Expr.binary op s l r).evalAddress dir mem).mapError Failure.evaluating).result := by
  rw [Expr.result_mapError_evalAddress, Expr.eval_binary_of_eval op s hl hr]
  show op.IsOutcome m n ((((op.apply m n).mapError _).bind _).mapError _)
  rw [op.apply_eq]
  unfold BinaryOp.IsOutcome
  by_cases hzero : op.DividesByZero m n
  · rw [if_pos hzero, if_pos hzero]
    exact ⟨s, r.span, rfl⟩
  rw [if_neg hzero, if_neg hzero]
  by_cases hfits : Value.Fits (op.exact m n)
  · rw [if_neg (not_not_intro hfits), Value.checked_of_fits hfits]
    have hvalue :
        (((Except.ok (op.exact m n)).mapError (Expr.faultError op s r.span)).bind
          (Expr.toAddress (Expr.binary op s l r).span)).mapError Failure.evaluating =
        (Expr.toAddress (Expr.binary op s l r).span (op.exact m n)).mapError .evaluating := rfl
    rw [hvalue]
    by_cases hneg : op.exact m n < 0
    · rw [if_pos hneg, Expr.toAddress_of_neg _ hneg]
      exact ⟨_, rfl⟩
    rw [if_neg hneg]
    by_cases hlarge : Address.limit ≤ op.exact m n
    · rw [if_pos hlarge, Expr.toAddress_of_limit_le _ hlarge]
      exact ⟨_, rfl⟩
    · have hnonneg := Int.not_lt.mp hneg
      have hlt := Int.not_le.mp hlarge
      rw [if_neg hlarge, Expr.toAddress_of_lt _ hnonneg hlt]
      exact ⟨_, rfl, Expr.toInt_exactAddress hnonneg hlt⟩
  · rw [if_pos hfits, Value.checked_of_not_fits hfits]
    exact ⟨s, rfl⟩

theorem reads_binary (op : BinaryOp) (s : Span) {l r : Expr} {m n : Int}
    (hl : (l.eval dir mem).result = .ok m) (hr : (r.eval dir mem).result = .ok n) :
    (((Expr.binary op s l r).evalAddress dir mem).mapError Failure.evaluating).reads =
      (l.eval dir mem).reads ++ (r.eval dir mem).reads := by
  show (Expr.evalAddress dir mem _).reads = _
  rw [Expr.reads_evalAddress, Expr.eval_binary_of_eval op s hl hr]

/-- What is read passes a check that gives back every address. -/
theorem isOutcome_read {x : Address} {s : Span} {value : Address → Int}
    {check : Int → Except EvalError Address} (hcheck : ∀ y, check (value y) = .ok y) :
    mem.IsOutcome x
      (((((mem x).mapError fun reason => (⟨.unreadable x reason, s⟩ : EvalError)).bind fun y =>
        .ok (value y)).bind check).mapError Failure.evaluating) := by
  unfold Memory.IsOutcome
  cases mem x with
  | ok y =>
    show (check (value y)).mapError Failure.evaluating = _
    rw [hcheck]
    rfl
  | error reason => exact ⟨s, rfl⟩

theorem isOutcome_deref (s s' : Span) {e : Expr} {n : Int} {x : Address}
    (he : (e.eval dir mem).result = .ok n) (hx : Expr.toAddress e.span n = .ok x) :
    mem.IsOutcome x
      (((Expr.deref s e s').evalAddress dir mem).mapError Failure.evaluating).result := by
  rw [Expr.result_mapError_evalAddress, Expr.eval_deref_of_eval s s' he hx]
  exact isOutcome_read (Expr.toAddress_toInt _)

theorem reads_deref (s s' : Span) {e : Expr} {n : Int} {x : Address}
    (he : (e.eval dir mem).result = .ok n) (hx : Expr.toAddress e.span n = .ok x) :
    (((Expr.deref s e s').evalAddress dir mem).mapError Failure.evaluating).reads =
      (e.eval dir mem).reads ++ [x] := by
  show (Expr.evalAddress dir mem _).reads = _
  rw [Expr.reads_evalAddress, Expr.eval_deref_of_eval s s' he hx]

variable {a b : String} {u v : List Token} {c d : ParseTree} {x y : Address}
  {reads reads' : List Address}

/-- An operation on two texts with addresses. -/
theorem Evaluates.operation (op : BinaryOp) (ha : Evaluates dir mem a u c x reads)
    (hb : Evaluates dir mem b v d y reads') :
    IsTooDeep (operationText op a b) (evaluate dir mem (operationText op a b)).result ∨
    op.IsOutcome (Address.toInt x) (Address.toInt y)
        (evaluate dir mem (operationText op a b)).result ∧
      (evaluate dir mem (operationText op a b)).reads = reads ++ reads' := by
  obtain ⟨p, q, s₁, s₂, s₃, s₄, s₅, hscans⟩ := Lexer.exists_scans_operation op ha.scans hb.scans
  have hleft := Derives.group s₁ s₂ (ha.derives.mapSpan (Span.shift p))
  have hright := Derives.group s₄ s₅ (hb.derives.mapSpan (Span.shift q))
  have hfold := Derives.fold op s₃ (hleft.loosen op.stratum.strength_le_five)
    (hright.loosen op.stratum.tighter.strength_le_five)
  have hderives : Derives .sum _ _ := hfold.loosen op.stratum.strength_pos
  rw [List.cons_append, List.append_assoc, List.singleton_append] at hderives
  obtain ⟨hx, hreads⟩ := ha.eval_shift p
  obtain ⟨hy, hreads'⟩ := hb.eval_shift q
  rcases evaluate_of_derives hscans hderives with hdeep | heval
  · exact .inl hdeep
  · rw [heval, ← hreads, ← hreads']
    exact .inr ⟨isOutcome_binary op s₃ hx hy, reads_binary op s₃ hx hy⟩

/-- A dereference of a text with an address. -/
theorem Evaluates.deref (ha : Evaluates dir mem a u c x reads) :
    IsTooDeep (derefText a) (evaluate dir mem (derefText a)).result ∨
    mem.IsOutcome x (evaluate dir mem (derefText a)).result ∧
      (evaluate dir mem (derefText a)).reads = reads ++ [x] := by
  obtain ⟨p, s₁, s₂, hscans⟩ := Lexer.exists_scans_deref ha.scans
  have hatom := Derives.deref s₁ s₂ (ha.derives.mapSpan (Span.shift p))
  have hderives : Derives .sum _ _ := hatom.loosen (by decide)
  obtain ⟨hx, hreads⟩ := ha.eval_shift p
  have haddress := Expr.toAddress_toInt (c.mapSpan (Span.shift p)).expr.span x
  rcases evaluate_of_derives hscans hderives with hdeep | heval
  · exact .inl hdeep
  · rw [heval, ← hreads]
    exact .inr ⟨isOutcome_deref s₁ s₂ hx haddress, reads_deref s₁ s₂ hx haddress⟩

end

/-- **A text has the value that its parts make.** Let two texts have addresses. The text of an
operation on them is too deep, or it has the exact result of the operator, or the error that says
what is wrong with that; and it reads what the two texts read, one after the other. The text of
a dereference is too deep, or it has the outcome of one read at the address of the text inside,
which comes after all that is read for that text. -/
theorem evaluate_compose {dir : Directory} {mem : Memory} {a b : String} {x y : Address}
    (ha : (evaluate dir mem a).result = .ok x) (hb : (evaluate dir mem b).result = .ok y) :
    (∀ op,
      IsTooDeep (operationText op a b) (evaluate dir mem (operationText op a b)).result ∨
      op.IsOutcome (Address.toInt x) (Address.toInt y)
          (evaluate dir mem (operationText op a b)).result ∧
        (evaluate dir mem (operationText op a b)).reads =
          (evaluate dir mem a).reads ++ (evaluate dir mem b).reads) ∧
    (IsTooDeep (derefText a) (evaluate dir mem (derefText a)).result ∨
      mem.IsOutcome x (evaluate dir mem (derefText a)).result ∧
        (evaluate dir mem (derefText a)).reads = (evaluate dir mem a).reads ++ [x]) := by
  obtain ⟨u, c, ha⟩ := exists_evaluates ha
  obtain ⟨v, d, hb⟩ := exists_evaluates hb
  exact ⟨fun op => ha.operation op hb, ha.deref⟩

/-- The texts `[1]` and `2` have addresses, and so have the texts made of them. -/
theorem evaluate_compose_deref_two :
    (evaluate .empty .placeholder "[1]").result = .ok 0xCE ∧
    (evaluate .empty .placeholder "2").result = .ok 2 ∧
    (IsTooDeep (operationText .pow "[1]" "2")
        (evaluate .empty .placeholder (operationText .pow "[1]" "2")).result ∨
      BinaryOp.pow.IsOutcome (Address.toInt 0xCE) (Address.toInt 2)
          (evaluate .empty .placeholder (operationText .pow "[1]" "2")).result ∧
        (evaluate .empty .placeholder (operationText .pow "[1]" "2")).reads =
          (evaluate .empty .placeholder "[1]").reads ++
            (evaluate .empty .placeholder "2").reads) := by
  have ha : (evaluate .empty .placeholder "[1]").result = .ok 0xCE := by
    with_unfolding_all rfl
  have hb : (evaluate .empty .placeholder "2").result = .ok 2 := by
    with_unfolding_all rfl
  exact ⟨ha, hb, (evaluate_compose ha hb).1 .pow⟩

end AddressExpr
