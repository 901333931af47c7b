/-
# Only the kinds of the tokens count

Two lists of tokens that have the same kinds in the same order are read alike: as expressions that
are the same but for their spans, or with the same error but for its spans. The two expressions
then have the same address or the same error, and read the same (`alike_of_kinds_eq`). So it does
not matter how a text is laid out, as long as it is cut into the same words.

The reading takes every branch for the kind of a token, and carries the spans along: if each span is
replaced by another one, the reading goes the same way and gives the replaced spans back
(`Expr.atom_mapSpan`, `Expr.climb_mapSpan`, `Expr.fold_mapSpan`). Two lists with the same kinds
become the same list if all spans are forgotten (`Span.forget`), so what is read from them becomes
the same too.

Key definitions: `SyntaxError.mapSpan`, `Span.forget`, `Agree`, `Expr.Alike`, `SyntaxError.Alike`,
`EvalError.Alike`.
Key theorems: `Expr.climb_mapSpan`, `Expr.agrees_evalAddress`, `alike_of_kinds_eq`.
-/
import AddressExpr.Proofs.Composition

namespace AddressExpr

/-! ### Reading with other spans -/

/-- The problem with other spans. -/
def SyntaxProblem.mapSpan (f : Span → Span) : SyntaxProblem → SyntaxProblem
  | unmatchedParenthesis s => unmatchedParenthesis (f s)
  | unmatchedBracket s => unmatchedBracket (f s)
  | problem => problem

/-- The error with other spans. -/
def SyntaxError.mapSpan (f : Span → Span) (e : SyntaxError) : SyntaxError :=
  ⟨e.problem.mapSpan f, e.found.mapSpan f⟩

namespace Expr

/-- What is read and the tokens that are left, or an error, with other spans. -/
def mapRead {α : Type} (f : Span → Span) (g : α → α) :
    Except SyntaxError (α × List Token) → Except SyntaxError (α × List Token)
  | .ok (a, rest) => .ok (g a, rest.map (Token.mapSpan f))
  | .error e => .error (e.mapSpan f)

variable (f : Span → Span) (fin : Token)

theorem mapRead_bind {α β : Type} {g : α → α} {g' : β → β}
    {read : Except SyntaxError (α × List Token)}
    {next next' : α × List Token → Except SyntaxError (β × List Token)}
    (h : ∀ a rest, next (g a, rest.map (Token.mapSpan f)) = mapRead f g' (next' (a, rest))) :
    (mapRead f g read >>= next) = mapRead f g' (read >>= next') := by
  cases read with
  | ok r => exact h r.1 r.2
  | error e => rfl

theorem map_mapSpan_cons (kind : Token.Kind) (s : Span) (ts : List Token) :
    (⟨kind, s⟩ :: ts).map (Token.mapSpan f) = ⟨kind, f s⟩ :: ts.map (Token.mapSpan f) := rfl

theorem headD_mapSpan (ts : List Token) :
    (ts.map (Token.mapSpan f)).headD (fin.mapSpan f) = (ts.headD fin).mapSpan f := by
  cases ts <;> rfl

theorem dottedNames_mapSpan (ts : List Token) :
    dottedNames (fin.mapSpan f) (ts.map (Token.mapSpan f)) =
      mapRead f (List.map (Segment.mapSpan f)) (dottedNames fin ts) := by
  fun_induction dottedNames fin ts with
  | case1 dotSpan name s ts ih =>
    rw [map_mapSpan_cons, map_mapSpan_cons, dottedNames, ih]
    exact mapRead_bind f fun _ _ => rfl
  | case2 dotSpan ts hname =>
    cases ts with
    | nil => rfl
    | cons t ts =>
      obtain ⟨kind, s⟩ := t
      cases kind <;> first | rfl | exact (hname _ _ _ rfl).elim
  | case3 ts hname hdot =>
    cases ts with
    | nil => rfl
    | cons t ts =>
      obtain ⟨kind, s⟩ := t
      cases kind <;> first | rfl | exact (hdot _ _ rfl).elim

theorem expect_mapSpan (kind : Token.Kind) (problem : SyntaxProblem) (ts : List Token) :
    expect (fin.mapSpan f) kind (problem.mapSpan f) (ts.map (Token.mapSpan f)) =
      mapRead f (Token.mapSpan f) (expect fin kind problem ts) := by
  unfold expect
  rw [headD_mapSpan, ← List.map_tail, Token.mapSpan]
  split
  · rfl
  · rfl

/-- What is read up to a closing bracket, whatever is made of it. -/
theorem expect_bind_mapSpan (kind : Token.Kind) (problem : SyntaxProblem)
    (read : Except SyntaxError (Expr × List Token)) (next next' : Expr → Token → Expr)
    (hnext : ∀ e t, next' (e.mapSpan f) (t.mapSpan f) = (next e t).mapSpan f) :
    (mapRead f (Expr.mapSpan f) read >>= fun x =>
        expect (fin.mapSpan f) kind (problem.mapSpan f) x.2 >>= fun y =>
          .ok (next' x.1 y.1, y.2)) =
      mapRead f (Expr.mapSpan f)
        (read >>= fun x => expect fin kind problem x.2 >>= fun y => .ok (next x.1 y.1, y.2)) := by
  refine mapRead_bind f fun inner rest => ?_
  rw [expect_mapSpan]
  refine mapRead_bind f fun t rest => ?_
  rw [hnext]
  rfl

mutual

theorem atom_mapSpan (room : Nat) (ts : List Token) :
    atom (fin.mapSpan f) room (ts.map (Token.mapSpan f)) =
      mapRead f (Expr.mapSpan f) (atom fin room ts) := by
  cases ts with
  | nil =>
    unfold atom
    rfl
  | cons t ts =>
    obtain ⟨kind, s⟩ := t
    rw [map_mapSpan_cons]
    cases kind with
    | ident name =>
      rw [atom, atom, dottedNames_mapSpan]
      exact mapRead_bind f fun _ _ => rfl
    | openParen =>
      cases room with
      | zero =>
        rw [atom, atom]
        rfl
      | succ room =>
        rw [atom, atom, climb_mapSpan room 0 ts]
        exact expect_bind_mapSpan f fin .closeParen (.unmatchedParenthesis s)
          (climb fin room 0 ts) (fun inner _ => inner) (fun inner _ => inner) fun _ _ => rfl
    | openBracket =>
      cases room with
      | zero =>
        rw [atom, atom]
        rfl
      | succ room =>
        rw [atom, atom, climb_mapSpan room 0 ts]
        exact expect_bind_mapSpan f fin .closeBracket (.unmatchedBracket s)
          (climb fin room 0 ts) (fun address t => .deref s address t.span)
          (fun address t => .deref (f s) address t.span) fun _ _ => rfl
    | _ =>
      unfold atom
      rfl
termination_by 2 * room

theorem climb_mapSpan (room power : Nat) (ts : List Token) :
    climb (fin.mapSpan f) room power (ts.map (Token.mapSpan f)) =
      mapRead f (Expr.mapSpan f) (climb fin room power ts) := by
  -- The next token keeps its kind, so the same branch is taken.
  have hkind : ((ts.headD fin).mapSpan f).kind = (ts.headD fin).kind := rfl
  rw [climb, climb, headD_mapSpan, hkind, ← List.map_tail]
  cases (ts.headD fin).kind.sign? with
  | none =>
    show atom _ _ _ >>= _ = _
    rw [atom_mapSpan room ts]
    exact mapRead_bind f fun operand rest => fold_mapSpan room power operand rest
  | some sign =>
    cases room with
    | zero => rfl
    | succ room =>
      show atom _ _ _ >>= _ = _
      rw [atom_mapSpan room ts.tail]
      exact mapRead_bind f fun operand rest => fold_mapSpan room power (.signed _ _ operand) rest
termination_by 2 * room + 1

theorem fold_mapSpan (room power : Nat) (left : Expr) (ts : List Token) :
    fold (fin.mapSpan f) room power (left.mapSpan f) (ts.map (Token.mapSpan f)) =
      mapRead f (Expr.mapSpan f) (fold fin room power left ts) := by
  have hkind : ((ts.headD fin).mapSpan f).kind = (ts.headD fin).kind := rfl
  rw [fold, fold, headD_mapSpan, hkind, ← List.map_tail]
  cases (ts.headD fin).kind.binaryOp?.filter (power < ·.strength) with
  | none => rfl
  | some op =>
    cases room with
    | zero => rfl
    | succ room =>
      show climb _ _ _ _ >>= _ = _
      rw [climb_mapSpan room op.strength ts.tail]
      exact mapRead_bind f fun right rest => fold_mapSpan room power (.binary op _ left right) rest
termination_by 2 * room

end

theorem words_mapSpan (ts : List Token) :
    words (ts.map (Token.mapSpan f)) = (words ts).map (Token.mapSpan f) := by
  unfold words
  rw [List.takeWhile_map]
  rfl

end Expr

/-! ### Spans forgotten -/

/-- Every span is replaced by the same one. -/
def Span.forget (_ : Span) : Span := .point .origin

theorem Span.forget_cover (s t : Span) : (s.cover t).forget = s.forget.cover t.forget := by
  show Span.point .origin = (Span.point .origin).cover (Span.point .origin)
  rfl

/-- Lists with the same kinds are the same list without their spans. -/
theorem Token.map_forget_eq {ts ts' : List Token} (h : ts.map (·.kind) = ts'.map (·.kind)) :
    ts.map (mapSpan .forget) = ts'.map (mapSpan .forget) := by
  have hkind : (mapSpan .forget) = (⟨·, .point .origin⟩) ∘ Token.kind := rfl
  rw [hkind, ← List.map_map, ← List.map_map, h]

namespace Expr

/-- The end of a list is found without its spans: the last token stops at the origin then. -/
theorem endOf_forget (ts : List Token) :
    endOf (ts.map (Token.mapSpan .forget)) = (endOf ts).mapSpan .forget := by
  have hfind : (ts.map (Token.mapSpan .forget)).find? (·.kind.isEof) =
      (ts.find? (·.kind.isEof)).map (Token.mapSpan .forget) := by
    rw [List.find?_map]
    rfl
  unfold endOf
  rw [hfind, List.getLast?_map]
  cases ts.find? (·.kind.isEof) with
  | some t => rfl
  | none => cases ts.getLast? <;> rfl

/-- A list without its spans is read as the expression without its spans. -/
theorem ofTokens_forget (ts : List Token) :
    ofTokens (ts.map (Token.mapSpan .forget)) =
      ((ofTokens ts).mapError (SyntaxError.mapSpan .forget)).map (mapSpan .forget) := by
  unfold ofTokens
  rw [endOf_forget, words_mapSpan, climb_mapSpan]
  cases climb (endOf ts) maxLevels 0 (words ts) with
  | error e => rfl
  | ok r =>
    obtain ⟨e, rest⟩ := r
    cases rest with
    | nil => rfl
    | cons t rest => rfl

end Expr

/-! ### What is the same but for its spans -/

/-- Two outcomes agree: they are values that are related by `R`, or errors related by `E`. -/
inductive Agree {ε α : Type} (R : α → α → Prop) (E : ε → ε → Prop) :
    Except ε α → Except ε α → Prop
  | ok {a b : α} (h : R a b) : Agree R E (.ok a) (.ok b)
  | error {e e' : ε} (h : E e e') : Agree R E (.error e) (.error e')

namespace Agree

variable {ε ε' α β : Type} {R : α → α → Prop} {E : ε → ε → Prop}

theorem of_map_eq {g : ε → ε'} {g' : α → β} {x y : Except ε α}
    (h : (x.mapError g).map g' = (y.mapError g).map g') :
    Agree (fun a b => g' a = g' b) (fun e e' => g e = g e') x y := by
  cases x with
  | ok a =>
    cases y with
    | ok b => exact ok (Except.ok.inj h)
    | error e => cases h
  | error e =>
    cases y with
    | ok b => cases h
    | error e' => exact error (Except.error.inj h)

theorem imp {R' : α → α → Prop} {E' : ε → ε → Prop} {x y : Except ε α} (h : Agree R E x y)
    (hR : ∀ a b, R a b → R' a b) (hE : ∀ e e', E e e' → E' e e') : Agree R' E' x y := by
  cases h with
  | ok h => exact ok (hR _ _ h)
  | error h => exact error (hE _ _ h)

theorem mapError {E' : ε' → ε' → Prop} {g : ε → ε'} {x y : Except ε α} (h : Agree R E x y)
    (hE : ∀ e e', E e e' → E' (g e) (g e')) : Agree R E' (x.mapError g) (y.mapError g) := by
  cases h with
  | ok h => exact ok h
  | error h => exact error (hE _ _ h)

end Agree

/-- Two computations have the same value or errors related by `E`, and the same reads. -/
structure Run.Agrees {ε α : Type} (E : ε → ε → Prop) (run run' : Run ε α) : Prop where
  result : Agree Eq E run.result run'.result
  reads_eq : run.reads = run'.reads

/-- The expressions are the same but for their spans, so they are shown as the same text. -/
structure Expr.Alike (e e' : Expr) : Prop where
  forget_eq : e.mapSpan .forget = e'.mapSpan .forget
  render_eq : e.render = e'.render

/-- The errors are the same but for their spans: they are about the same problem, found at the same
kind of token, and reported with the same words. -/
structure SyntaxError.Alike (e e' : SyntaxError) : Prop where
  problem_eq : e.problem.mapSpan .forget = e'.problem.mapSpan .forget
  kind_eq : e.found.kind = e'.found.kind
  message_eq : e.message = e'.message
  notes_eq : e.labels.map (·.2) = e'.labels.map (·.2)

/-- The errors are the same but for their spans: they are about the same problem and reported with
the same words. -/
structure EvalError.Alike (e e' : EvalError) : Prop where
  problem_eq : e.problem.mapSpan .forget = e'.problem.mapSpan .forget
  message_eq : e.message = e'.message
  notes_eq : e.labels.map (·.2) = e'.labels.map (·.2)

/-- The failures are in the same stage behind the scanning, and the same but for their spans. -/
inductive Failure.Alike : Failure → Failure → Prop
  | parsing {e e' : SyntaxError} (h : e.Alike e') : Alike (.parsing e) (.parsing e')
  | evaluating {e e' : EvalError} (h : e.Alike e') : Alike (.evaluating e) (.evaluating e')

section

variable (f : Span → Span)

theorem Expr.render_mapSpan : ∀ e : Expr, (e.mapSpan f).render = e.render
  | literal .. => rfl
  | path p => Path.text_mapSpan f p
  | signed _ _ operand => by rw [mapSpan, render, render_mapSpan operand, render]
  | binary _ _ left right => by
    rw [mapSpan, render, render_mapSpan left, render_mapSpan right, render]
  | deref _ address _ => by rw [mapSpan, render, render_mapSpan address, render]

theorem SyntaxError.message_mapSpan (e : SyntaxError) : (e.mapSpan f).message = e.message := by
  obtain ⟨problem, found⟩ := e
  cases problem <;> rfl

theorem SyntaxError.labels_mapSpan (e : SyntaxError) :
    (e.mapSpan f).labels = e.labels.map fun label => (f label.1, label.2) := by
  obtain ⟨problem, found⟩ := e
  cases problem <;> rfl

theorem EvalError.message_mapSpan (e : EvalError) : (e.mapSpan f).message = e.message := by
  obtain ⟨problem, s⟩ := e
  cases problem <;> rfl

theorem EvalError.labels_mapSpan (e : EvalError) :
    (e.mapSpan f).labels = e.labels.map fun label => (f label.1, label.2) := by
  obtain ⟨problem, s⟩ := e
  cases problem <;> rfl

end

theorem Expr.alike_of_forget_eq {e e' : Expr} (h : e.mapSpan .forget = e'.mapSpan .forget) :
    e.Alike e' := by
  refine ⟨h, ?_⟩
  calc e.render = (e.mapSpan .forget).render := (render_mapSpan _ e).symm
    _ = (e'.mapSpan .forget).render := by rw [h]
    _ = e'.render := render_mapSpan _ e'

theorem SyntaxError.alike_of_forget_eq {e e' : SyntaxError}
    (h : e.mapSpan .forget = e'.mapSpan .forget) : e.Alike e' := by
  obtain ⟨hproblem, hfound⟩ := SyntaxError.mk.inj h
  have hmessage : e.message = e'.message := by
    calc e.message = (e.mapSpan .forget).message := (e.message_mapSpan _).symm
      _ = (e'.mapSpan .forget).message := by rw [h]
      _ = e'.message := e'.message_mapSpan _
  have hnotes : e.labels.map (·.2) = e'.labels.map (·.2) := by
    have hlabels := congrArg (·.labels.map (·.2)) h
    simpa [labels_mapSpan, Function.comp_def] using hlabels
  exact ⟨hproblem, (Token.mk.inj hfound).1, hmessage, hnotes⟩

theorem EvalError.alike_of_forget_eq {e e' : EvalError}
    (h : e.mapSpan .forget = e'.mapSpan .forget) : e.Alike e' := by
  have hmessage : e.message = e'.message := by
    calc e.message = (e.mapSpan .forget).message := (e.message_mapSpan _).symm
      _ = (e'.mapSpan .forget).message := by rw [h]
      _ = e'.message := e'.message_mapSpan _
  have hnotes : e.labels.map (·.2) = e'.labels.map (·.2) := by
    have hlabels := congrArg (·.labels.map (·.2)) h
    simpa [labels_mapSpan, Function.comp_def] using hlabels
  exact ⟨(EvalError.mk.inj h).1, hmessage, hnotes⟩

/-! ### Lists with the same kinds -/

section

variable {ts ts' : List Token}

/-- Lists with the same kinds are read alike. -/
theorem Expr.agree_ofTokens (h : ts.map (·.kind) = ts'.map (·.kind)) :
    Agree Alike SyntaxError.Alike (ofTokens ts) (ofTokens ts') := by
  have hread := congrArg ofTokens (Token.map_forget_eq h)
  rw [ofTokens_forget, ofTokens_forget] at hread
  exact (Agree.of_map_eq hread).imp (fun _ _ => alike_of_forget_eq)
    (fun _ _ => SyntaxError.alike_of_forget_eq)

/-- **Expressions that are alike have the same address, or errors that are alike, and read the
same.** -/
theorem Expr.agrees_evalAddress {e e' : Expr} (h : e.Alike e') (dir : Directory) (mem : Memory) :
    (e.evalAddress dir mem).Agrees EvalError.Alike (e'.evalAddress dir mem) := by
  have hrun := congrArg (evalAddress dir mem) h.forget_eq
  rw [evalAddress_mapSpan dir mem Span.forget_cover,
    evalAddress_mapSpan dir mem Span.forget_cover] at hrun
  obtain ⟨hresult, hreads⟩ := Run.mk.inj hrun
  -- An address has no spans, so nothing is forgotten of it.
  have hagree : Agree (fun a b => id a = id b) _ (e.evalAddress dir mem).result
      (e'.evalAddress dir mem).result := Agree.of_map_eq (congrArg (Except.map id) hresult)
  exact ⟨hagree.imp (fun _ _ => id) (fun _ _ => EvalError.alike_of_forget_eq), hreads⟩

variable {source source' : String}

/-- Texts with the same kinds of tokens are expressions that are alike. -/
theorem agree_parse (hsource : Lexer.tokenize source = .ok ts)
    (hsource' : Lexer.tokenize source' = .ok ts') (h : ts.map (·.kind) = ts'.map (·.kind)) :
    Agree Expr.Alike Failure.Alike (parse source) (parse source') := by
  rw [parse_of_tokenize hsource, parse_of_tokenize hsource']
  exact (Expr.agree_ofTokens h).mapError fun _ _ => .parsing

theorem agrees_evaluate (h : Agree Expr.Alike Failure.Alike (parse source) (parse source'))
    (dir : Directory) (mem : Memory) :
    (evaluate dir mem source).Agrees Failure.Alike (evaluate dir mem source') := by
  unfold evaluate
  generalize parse source = x at h
  generalize parse source' = y at h
  cases h with
  | ok h =>
    have hrun := Expr.agrees_evalAddress h dir mem
    exact ⟨hrun.result.mapError fun _ _ => .evaluating, hrun.reads_eq⟩
  | error h => exact ⟨.error h, rfl⟩

/-- **How a text is laid out does not change what it means.** Lists of tokens that have the same
kinds, and so the same texts, are read as expressions that are alike or with errors that are alike.
The two expressions have the same address, or errors that are alike, and read the same addresses.
So it is with any two texts that are cut into such lists. -/
theorem alike_of_kinds_eq (h : ts.map (·.kind) = ts'.map (·.kind)) :
    Agree Expr.Alike SyntaxError.Alike (Expr.ofTokens ts) (Expr.ofTokens ts') ∧
    (∀ e e', Expr.ofTokens ts = .ok e → Expr.ofTokens ts' = .ok e' → ∀ dir mem,
      (e.evalAddress dir mem).Agrees EvalError.Alike (e'.evalAddress dir mem)) ∧
    ∀ source source', Lexer.tokenize source = .ok ts → Lexer.tokenize source' = .ok ts' →
      Agree Expr.Alike Failure.Alike (parse source) (parse source') ∧
      ∀ dir mem, (evaluate dir mem source).Agrees Failure.Alike (evaluate dir mem source') := by
  have hread := Expr.agree_ofTokens h
  refine ⟨hread, ?_, ?_⟩
  · intro e e' he he' dir mem
    rw [he, he'] at hread
    cases hread with
    | ok halike => exact Expr.agrees_evalAddress halike dir mem
  · intro source source' hsource hsource'
    have hparse := agree_parse hsource hsource' h
    exact ⟨hparse, agrees_evaluate hparse⟩

end

/-- The same quotient without blanks, and with blanks and a quoted name. -/
theorem alike_of_kinds_eq_blanks :
    ∃ ts ts', Lexer.tokenize "[a/0]" = .ok ts ∧ Lexer.tokenize " [ \"a\" /\n0]" = .ok ts' ∧
      ts.map (·.kind) = ts'.map (·.kind) ∧
      (evaluate .empty .placeholder "[a/0]").Agrees Failure.Alike
        (evaluate .empty .placeholder " [ \"a\" /\n0]") := by
  have hts : Lexer.tokenize "[a/0]" = .ok
      [⟨.openBracket, ⟨⟨0, 0, 0⟩, ⟨1, 0, 1⟩⟩⟩, ⟨.ident "a", ⟨⟨1, 0, 1⟩, ⟨2, 0, 2⟩⟩⟩,
        ⟨.divide, ⟨⟨2, 0, 2⟩, ⟨3, 0, 3⟩⟩⟩, ⟨.hex "0", ⟨⟨3, 0, 3⟩, ⟨4, 0, 4⟩⟩⟩,
        ⟨.closeBracket, ⟨⟨4, 0, 4⟩, ⟨5, 0, 5⟩⟩⟩, ⟨.eof, ⟨⟨5, 0, 5⟩, ⟨5, 0, 5⟩⟩⟩] := by
    with_unfolding_all rfl
  have hts' : Lexer.tokenize " [ \"a\" /\n0]" = .ok
      [⟨.openBracket, ⟨⟨1, 0, 1⟩, ⟨2, 0, 2⟩⟩⟩, ⟨.ident "a", ⟨⟨4, 0, 4⟩, ⟨5, 0, 5⟩⟩⟩,
        ⟨.divide, ⟨⟨7, 0, 7⟩, ⟨8, 0, 8⟩⟩⟩, ⟨.hex "0", ⟨⟨9, 1, 0⟩, ⟨10, 1, 1⟩⟩⟩,
        ⟨.closeBracket, ⟨⟨10, 1, 1⟩, ⟨11, 1, 2⟩⟩⟩, ⟨.eof, ⟨⟨11, 1, 2⟩, ⟨11, 1, 2⟩⟩⟩] := by
    with_unfolding_all rfl
  refine ⟨_, _, hts, hts', rfl, ((alike_of_kinds_eq ?_).2.2 _ _ hts hts').2 _ _⟩
  rfl

end AddressExpr
