/-
# The spans of a text do not matter

Tokens, expressions and errors carry the spans they came from. If every span is replaced by
another one (`Token.mapSpan`, `Expr.mapSpan`), what is a phrase stays one, with a parse tree of
the same cost, and an expression has the same value and reads the same addresses, or has the
same error with its spans replaced. Only the covering of spans has to be kept: the span of a
node is covered together from those below it, and it may be a part of an error.

Key definitions: `Token.mapSpan`, `Expr.mapSpan`, `ParseTree.mapSpan`, `EvalError.mapSpan`.
Key theorems: `Derives.mapSpan`, `Expr.eval_mapSpan`.
-/
import AddressExpr.Expr.Eval
import AddressExpr.Proofs.Grammar.Basic

namespace AddressExpr

/-! ### Replacing spans -/

/-- The token with another span. -/
def Token.mapSpan (f : Span → Span) (t : Token) : Token := ⟨t.kind, f t.span⟩

/-- The name with another span. -/
def Segment.mapSpan (f : Span → Span) (s : Segment) : Segment := ⟨s.name, f s.span⟩

/-- The path with other spans. -/
def Path.mapSpan (f : Span → Span) (p : Path) : Path :=
  ⟨p.first.mapSpan f, p.rest.map (Segment.mapSpan f)⟩

/-- The expression with other spans. -/
def Expr.mapSpan (f : Span → Span) : Expr → Expr
  | literal text s => literal text (f s)
  | path p => path (p.mapSpan f)
  | signed sign s operand => signed sign (f s) (operand.mapSpan f)
  | binary op s left right => binary op (f s) (left.mapSpan f) (right.mapSpan f)
  | deref s address s' => deref (f s) (address.mapSpan f) (f s')

/-- The parse tree with other spans. -/
def ParseTree.mapSpan (f : Span → Span) : ParseTree → ParseTree
  | literal text s => literal text (f s)
  | path p => path (p.mapSpan f)
  | group s inner s' => group (f s) (inner.mapSpan f) (f s')
  | signed sign s operand => signed sign (f s) (operand.mapSpan f)
  | binary op s left right => binary op (f s) (left.mapSpan f) (right.mapSpan f)
  | deref s address s' => deref (f s) (address.mapSpan f) (f s')

/-- The problem with other spans. -/
def EvalProblem.mapSpan (f : Span → Span) : EvalProblem → EvalProblem
  | divisionByZero op s => divisionByZero op (f s)
  | problem => problem

/-- The error with other spans. -/
def EvalError.mapSpan (f : Span → Span) (e : EvalError) : EvalError :=
  ⟨e.problem.mapSpan f, f e.span⟩

/-! ### Phrases -/

namespace ParseTree

variable (f : Span → Span)

theorem expr_mapSpan : ∀ c : ParseTree, (c.mapSpan f).expr = c.expr.mapSpan f
  | literal .. => rfl
  | path _ => rfl
  | group _ inner _ => expr_mapSpan inner
  | signed _ _ operand => by rw [mapSpan, expr, expr_mapSpan operand]; rfl
  | binary _ _ left right => by rw [mapSpan, expr, expr_mapSpan left, expr_mapSpan right]; rfl
  | deref _ address _ => by rw [mapSpan, expr, expr_mapSpan address]; rfl

end ParseTree

theorem Dotted.mapSpan (f : Span → Span) {more : List Segment} {w : List Token}
    (h : Dotted more w) : Dotted (more.map (Segment.mapSpan f)) (w.map (Token.mapSpan f)) := by
  induction h with
  | nil => exact nil
  | cons dotSpan name s h ih => exact cons (f dotSpan) name (f s) ih

/-- A phrase stays a phrase. -/
theorem Derives.mapSpan (f : Span → Span) {s : Stratum} {c : ParseTree} {w : List Token}
    (h : Derives s c w) : Derives s (c.mapSpan f) (w.map (Token.mapSpan f)) := by
  induction h with
  | hex text s => exact hex text (f s)
  | path name s h => exact path name (f s) (h.mapSpan f)
  | group s s' h ih =>
    rw [List.map_cons, List.map_append]
    exact group (f s) (f s') ih
  | deref s s' h ih =>
    rw [List.map_cons, List.map_append]
    exact deref (f s) (f s') ih
  | signed sign s h ih => exact signed sign (f s) ih
  | fold op s hl hr ihl ihr =>
    rw [List.map_append, List.map_cons]
    exact fold op (f s) ihl ihr
  | lift h ih => exact lift ih

/-! ### Values -/

namespace Run

variable {ε ε' α β : Type}

/-- The errors of both computations are reworded. -/
theorem mapError_bind (g : ε → ε') (run : Run ε α) (next : α → Run ε β) :
    (run >>= next).mapError g = run.mapError g >>= fun a => (next a).mapError g := by
  obtain ⟨result, reads⟩ := run
  cases result with
  | ok a => rfl
  | error e => rfl

theorem mapError_mapError {ε'' : Type} (g : ε → ε') (g' : ε' → ε'') (run : Run ε α) :
    (run.mapError g).mapError g' = run.mapError fun e => g' (g e) := by
  obtain ⟨result, reads⟩ := run
  cases result with
  | ok a => rfl
  | error e => rfl

end Run

namespace Path

variable (f : Span → Span)

theorem text_mapSpan (p : Path) : (p.mapSpan f).text = p.text := by
  simp [text, segments, mapSpan, Segment.mapSpan, Function.comp_def]

theorem last_mapSpan (p : Path) : (p.mapSpan f).last = p.last.mapSpan f := by
  unfold last mapSpan
  simp only [List.getLast?_map]
  cases p.rest.getLast? <;> rfl

theorem qualifier?_mapSpan (p : Path) : (p.mapSpan f).qualifier? = p.qualifier? := by
  have hnames : (p.mapSpan f).segments.dropLast.map (·.name) =
      p.segments.dropLast.map (·.name) := by
    show ((p.segments.map (Segment.mapSpan f)).dropLast).map _ = _
    rw [← List.map_dropLast, List.map_map]
    rfl
  unfold qualifier?
  rw [hnames]
  simp only [mapSpan, List.map_eq_nil_iff]

end Path

namespace Expr

section

variable {f : Span → Span} (hf : ∀ s t : Span, f (s.cover t) = (f s).cover (f t))
include hf

theorem span_path_mapSpan (p : Path) : (p.mapSpan f).span = f p.span := by
  rw [Path.span, Path.last_mapSpan, Path.span, hf]
  rfl

/-- If covering is kept, the node covers what it covered before. -/
theorem span_mapSpan : ∀ e : Expr, (e.mapSpan f).span = f e.span
  | literal .. => rfl
  | path p => span_path_mapSpan hf p
  | signed _ s operand => by rw [mapSpan, span, span_mapSpan operand, span, hf]
  | binary _ _ left right => by
    rw [mapSpan, span, span_mapSpan left, span_mapSpan right, span, hf]
  | deref s _ s' => (hf s s').symm

end

variable {f : Span → Span} (dir : Directory) (mem : Memory)

theorem numeralValue_mapSpan (text : String) (digits : List Char) (s : Span) :
    numeralValue text digits (f s) =
      (numeralValue text digits s).mapError (EvalError.mapSpan f) := by
  unfold numeralValue
  cases Value.ofNumeral? digits <;> rfl

theorem resolveName_mapSpan (s : Segment) :
    resolveName dir (s.mapSpan f) = (resolveName dir s).mapError (EvalError.mapSpan f) := by
  unfold resolveName
  simp only [Segment.mapSpan]
  cases dir.symbol? s.name with
  | some value => rfl
  | none =>
    by_cases hname : isNumeralName s.name = true
    · simp only [hname, if_true]
      exact numeralValue_mapSpan _ _ _
    · simp only [hname]
      cases dir.anyExport? s.name <;> rfl

theorem toAddress_mapSpan (s : Span) (n : Int) :
    toAddress (f s) n = (toAddress s n).mapError (EvalError.mapSpan f) := by
  unfold toAddress
  cases Address.ofInt? n with
  | some address => rfl
  | none => by_cases h : n < 0 <;> simp only [h, if_true, if_false] <;> rfl

theorem faultError_mapSpan (op : BinaryOp) (s s' : Span) :
    faultError op (f s) (f s') = fun fault => (faultError op s s' fault).mapSpan f := by
  funext fault
  cases fault <;> rfl

variable (hf : ∀ s t : Span, f (s.cover t) = (f s).cover (f t))
include hf

theorem resolve_mapSpan (p : Path) :
    resolve dir (p.mapSpan f) = (resolve dir p).mapError (EvalError.mapSpan f) := by
  unfold resolve
  rw [Path.qualifier?_mapSpan, Path.last_mapSpan, Path.text_mapSpan, span_path_mapSpan hf]
  cases p.qualifier? with
  | none => exact resolveName_mapSpan dir p.last
  | some owner =>
    simp only [Segment.mapSpan]
    cases dir.export? owner p.last.name with
    | some address => rfl
    | none => cases dir.base? p.text <;> rfl

/-- **An expression has the same value and the same reads whatever its spans are.** An error has
the spans that took the place of its own. -/
theorem eval_mapSpan (e : Expr) :
    (e.mapSpan f).eval dir mem = (e.eval dir mem).mapError (EvalError.mapSpan f) := by
  induction e with
  | literal text s =>
    rw [mapSpan, eval, numeralValue_mapSpan]
    rfl
  | path p =>
    rw [mapSpan, eval, resolve_mapSpan dir hf]
    rfl
  | signed sign s operand ih =>
    rw [mapSpan, eval, ih, eval, Run.mapError_bind]
    simp only [Run.mapError_mapError]
    rfl
  | binary op s left right ihl ihr =>
    rw [mapSpan, eval, ihl, ihr, eval, Run.mapError_bind, span_mapSpan hf, faultError_mapSpan]
    simp only [Run.mapError_bind, Run.mapError_mapError]
  | deref s address s' ih =>
    rw [mapSpan, eval, ih, eval, Run.mapError_bind, span_mapSpan hf, ← hf]
    simp only [Run.mapError_bind, Run.mapError_mapError, toAddress_mapSpan]
    rfl

theorem evalAddress_mapSpan (e : Expr) :
    (e.mapSpan f).evalAddress dir mem =
      (e.evalAddress dir mem).mapError (EvalError.mapSpan f) := by
  rw [evalAddress, eval_mapSpan dir mem hf, evalAddress, Run.mapError_bind, span_mapSpan hf]
  simp only [toAddress_mapSpan]
  rfl

end Expr
end AddressExpr
