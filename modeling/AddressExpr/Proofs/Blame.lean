/-
# Every failure names the text that it blames

The spans of a failure are those of tokens of the text, or cover some of them. So they start and
stop in the text, and what they mark there is what the failure is about: the character, the name,
the numeral, the operator or the bracket (`Failure.Located`). Only the end of the text has nothing
to mark.

For each stage it is shown where its errors come from. The scanner marks the piece at fault, or all
from the quote that is open (`Lexer.Cut.blames`). The reader blames tokens
(`SyntaxError.IsWithin`). And an error of the evaluation is that of a condition, which belongs to a
node of an expression whose tokens are all words of the text (`EvalError.IsWithin`).

Key definitions: `Span.IsPart`, `Failure.Blames`, `Failure.Located`.
Key theorems: `Lexer.blames_of_tokenize`, `Expr.isWithin_of_evalAddress`, `located_of_evaluate`.
-/
import AddressExpr.Proofs.Composition
import AddressExpr.Proofs.Origins
import AddressExpr.Proofs.Pieces

namespace AddressExpr

/-! ### Parts of the text -/

/-- The span marks a part of the text that is not empty. -/
def Span.IsPart (text : List Char) (s : Span) : Prop := ∃ piece, s.Marks text piece ∧ piece ≠ []

/-- The token is a word of the text. -/
def Token.IsWord (text : List Char) (t : Token) : Prop :=
  t.span.Marks text t.kind.chars ∧ t.kind.chars ≠ []

theorem Token.IsWord.isPart {text : List Char} {t : Token} (h : t.IsWord text) :
    t.span.IsPart text := ⟨_, h⟩

namespace Span

variable {text : List Char} {s t : Span}

theorem IsPart.cover (h : s.IsPart text) (h' : t.IsPart text) : (s.cover t).IsPart text := by
  obtain ⟨piece, hs, hne⟩ := h
  obtain ⟨piece', ht, -⟩ := h'
  obtain ⟨r, hr, hr'⟩ := hs.exists_cover ht
  exact ⟨r, hr, hr' hne⟩

theorem IsPart.isEmpty_eq_false (h : s.IsPart text) : s.isEmpty = false := by
  obtain ⟨piece, hs, hne⟩ := h
  rw [Bool.eq_false_iff, Ne, hs.isEmpty_iff]
  exact hne

end Span

theorem BinaryOp.chars_kind (op : BinaryOp) : op.kind.chars = op.symbol.toList := by
  cases op <;> rfl

theorem Sign.chars_kind (sign : Sign) : sign.kind.chars = sign.symbol.toList := by
  cases sign <;> rfl

/-! ### What the errors blame -/

/-- The span of the error marks what the problem is about. -/
def LexError.Blames (text : List Char) (e : LexError) : Prop :=
  match e.problem with
  | .unexpectedCharacter c => e.span.Marks text [c]
  | .missingHexDigits => e.span.Marks text ['0', 'x']
  | .unterminatedQuote => ∃ before inside, text = before ++ '\x22' :: inside ∧ '\x22' ∉ inside ∧
      e.span = .next before ('\x22' :: inside)

/-- The bracket that was opened is one, and what is too deep is a bracket or an operator. -/
def SyntaxError.Blames (text : List Char) (e : SyntaxError) : Prop :=
  match e.problem with
  | .unmatchedParenthesis opener => opener.Marks text ['(']
  | .unmatchedBracket opener => opener.Marks text ['[']
  | .tooDeep => e.span.Marks text ['('] ∨ e.span.Marks text ['['] ∨
      ∃ op : BinaryOp, e.span.Marks text op.symbol.toList
  | _ => True

/-- The name, the numeral or the operator of the problem is marked. -/
def EvalError.Blames (text : List Char) (e : EvalError) : Prop :=
  match e.problem with
  | .undefinedSymbol name => e.span.Marks text name.toList
  | .literalOutOfRange numeral => e.span.Marks text numeral.toList
  | .overflow op => e.span.Marks text op.symbol.toList
  | .divisionByZero op opSpan => opSpan.Marks text op.symbol.toList
  | _ => True

/-- The failure marks what it is about. -/
def Failure.Blames (text : List Char) : Failure → Prop
  | lexing e => e.Blames text
  | parsing e => e.Blames text
  | evaluating e => e.Blames text

/-- The failure says where in the text it is, and what is there. -/
structure Failure.Located (text : List Char) (f : Failure) : Prop where
  /-- The span of the failure is one of those it marks. -/
  span_mem : f.span ∈ f.labels.map (·.1)
  /-- What is marked starts and stops where prefixes of the text end, in this order. -/
  ordered : ∀ label ∈ f.labels,
    label.1.start ≤ label.1.stop ∧ label.1.start.Ends text ∧ label.1.stop.Ends text
  /-- What is marked is what the failure is about. -/
  blames : f.Blames text
  /-- Nothing is marked only where the text ends too soon. -/
  isEmpty_iff : f.span.isEmpty = true ↔ ∃ e, f = .parsing e ∧ e.found.kind = .eof

/-! ### Scanning -/

namespace Lexer

theorem Cut.blames {pre cs : List Char} {r : Scanned} (h : Cut pre cs r) {e : LexError}
    (he : r.failure = some e) : e.Blames (pre ++ cs) := by
  induction h with
  | done hquoted => cases he
  | @unterminated before inside hquoted hinside =>
    obtain rfl := Option.some.inj he
    exact ⟨before, inside, List.append_nil _, hinside, rfl⟩
  | quote h ih => simpa using ih he
  | blank hquoted hc h ih => simpa using ih he
  | token hlexeme hne hmaximal h ih => simpa using ih he
  | @fault pre piece cs problem h =>
    obtain rfl := Option.some.inj he
    cases problem with
    | unexpectedCharacter c =>
      obtain ⟨rfl, -⟩ := h
      exact ⟨pre, cs, (List.append_assoc _ _ _).symm, rfl⟩
    | missingHexDigits =>
      obtain ⟨rfl, -⟩ := h
      exact ⟨pre, cs, (List.append_assoc _ _ _).symm, rfl⟩
    | unterminatedQuote => exact h.elim

theorem blames_of_tokenize {source : String} {e : LexError} (h : tokenize source = .error e) :
    e.Blames source.toList := by
  unfold tokenize at h
  split at h
  · cases h
  · next ts e' hscan =>
    obtain rfl := Except.error.inj h
    have hcut := cut_scanAll source
    rw [hscan] at hcut
    exact hcut.blames rfl

/-- The tokens of a text are its words and its end. -/
theorem words_of_tokenize {source : String} {ts : List Token} (h : tokenize source = .ok ts) :
    Expr.endOf ts = .eofAt (.after source.toList) ∧
      ∀ t ∈ Expr.words ts, t.IsWord source.toList := by
  have hscan := tokenize_eq_ok_iff.mp h
  have hcut := cut_scanAll source
  rw [hscan] at hcut
  obtain ⟨ws, hws, hscans⟩ := exists_scans hscan
  rw [Position.advanceBy_origin] at hws
  have hwords : Expr.words ts = ws := by rw [hws, hscans.words_eq]
  have hend : Expr.endOf ts = .eofAt (.after source.toList) := by
    have hnone : ws.find? (·.kind.isEof) = none := by
      rw [List.find?_eq_none]
      intro t ht
      simp [hscans.isEof_eq_false t ht]
    rw [hws, Expr.endOf_append_eof ws [] rfl, hnone, Option.getD_none]
  refine ⟨hend, fun t ht => ?_⟩
  rw [hwords] at ht
  have hplaced : IsPlaced source.toList t := by
    apply hcut.isPlaced
    rw [hws]
    exact List.mem_append_left _ ht
  refine ⟨hplaced.marks, fun hchars => ?_⟩
  have hisEof := hscans.isEof_eq_false t ht
  rw [hplaced.chars_eq_nil_iff.mp hchars] at hisEof
  cases hisEof

end Lexer

/-- What a scanning error marks is not empty. -/
theorem LexError.Blames.isPart {text : List Char} {e : LexError} (h : e.Blames text) :
    e.span.IsPart text := by
  unfold LexError.Blames at h
  cases hproblem : e.problem with
  | unexpectedCharacter c =>
    rw [hproblem] at h
    exact ⟨_, h, nofun⟩
  | missingHexDigits =>
    rw [hproblem] at h
    exact ⟨_, h, nofun⟩
  | unterminatedQuote =>
    rw [hproblem] at h
    obtain ⟨before, inside, htext, -, hspan⟩ := h
    refine ⟨'\x22' :: inside, ⟨before, [], ?_, hspan⟩, nofun⟩
    rw [htext, List.append_nil]

/-! ### Reading -/

namespace SyntaxError

variable {text : List Char} {ts : List Token} {e : SyntaxError}

theorem span_mem_labels (e : SyntaxError) : e.span ∈ e.labels.map (·.1) := by
  unfold labels
  cases e.problem <;> simp

/-- A label is at the token where the error is found, or at the bracket that was opened. -/
theorem eq_span_or_of_mem_labels {label : Span × String} (h : label ∈ e.labels) :
    label.1 = e.span ∨ e.problem = .unmatchedParenthesis label.1 ∨
      e.problem = .unmatchedBracket label.1 := by
  unfold labels at h
  cases hproblem : e.problem <;> grind

namespace IsWithin

variable (h : e.IsWithin (.eofAt (.after text)) ts) (hts : ∀ t ∈ ts, t.IsWord text)
include h hts

/-- The token at which an error is found is marked. At the end of the text this is nothing. -/
theorem marks : e.span.Marks text e.found.kind.chars := by
  rcases h.found_mem with hfound | hfound
  · exact (hts _ hfound).1
  · refine ⟨text, [], ?_, ?_⟩
    · rw [hfound]
      simp [Token.eofAt, Token.Kind.chars, Token.Kind.lexeme?]
    · rw [span, hfound, Span.next]
      simp [Token.eofAt, Token.Kind.chars, Token.Kind.lexeme?, Span.point]

theorem isEmpty_span_iff : e.span.isEmpty = true ↔ e.found.kind = .eof := by
  rw [(h.marks hts).isEmpty_iff]
  rcases h.found_mem with hfound | hfound
  · have hne := (hts _ hfound).2
    refine iff_of_false hne fun heof => hne ?_
    rw [heof]
    rfl
  · rw [hfound]
    exact iff_of_true rfl rfl

theorem blames : e.Blames text := by
  have habout := h.about
  unfold SyntaxError.Blames
  cases hproblem : e.problem with
  | unmatchedParenthesis opener =>
    rw [hproblem] at habout
    show opener.Marks text Token.Kind.openParen.chars
    exact (hts _ habout).1
  | unmatchedBracket opener =>
    rw [hproblem] at habout
    show opener.Marks text Token.Kind.openBracket.chars
    exact (hts _ habout).1
  | tooDeep =>
    rw [hproblem] at habout
    have hmarks := h.marks hts
    rcases habout with hkind | hkind | ⟨op, hkind⟩
    · rw [hkind] at hmarks
      exact .inl hmarks
    · rw [hkind] at hmarks
      exact .inr (.inl hmarks)
    · rw [hkind, op.chars_kind] at hmarks
      exact .inr (.inr ⟨op, hmarks⟩)
  | expectedIdentifier => trivial
  | invalidToken => trivial
  | trailingInput => trivial

theorem exists_marks_of_mem_labels {label : Span × String} (hlabel : label ∈ e.labels) :
    ∃ piece, label.1.Marks text piece := by
  have habout := h.about
  rcases eq_span_or_of_mem_labels hlabel with hspan | hproblem | hproblem
  · rw [hspan]
    exact ⟨_, h.marks hts⟩
  · rw [hproblem] at habout
    exact ⟨_, (hts _ habout).1⟩
  · rw [hproblem] at habout
    exact ⟨_, (hts _ habout).1⟩

end IsWithin
end SyntaxError

/-! ### Evaluation -/

section

variable {text : List Char} {e : Expr}

theorem Path.last_mem_segments (p : Path) : p.last ∈ p.segments := by
  rw [segments_eq]
  exact List.mem_append_right _ List.mem_cons_self

namespace Expr.AllTokens

/-- A node covers its own tokens and those below it, so what covering keeps holds of its span if it
does of theirs. -/
protected theorem span {P : Span → Prop} (hcover : ∀ {s t : Span}, P s → P t → P (s.cover t))
    (h : e.AllTokens fun t => P t.span) : P e.span := by
  induction e with
  | literal numeral s => exact h
  | path p => exact hcover (h p.first List.mem_cons_self) (h p.last p.last_mem_segments)
  | signed sign s operand ih => exact hcover h.1 (ih h.2)
  | binary op s left right ihl ihr => exact hcover (ihl h.2.1) (ihr h.2.2)
  | deref s address s' ih => exact hcover h.1 h.2.2

theorem imp {P Q : Token → Prop} (hPQ : ∀ {t}, P t → Q t) (h : e.AllTokens P) :
    e.AllTokens Q := by
  induction e with
  | literal numeral s => exact hPQ h
  | path p => exact fun name hname => hPQ (h name hname)
  | signed sign s operand ih => exact ⟨hPQ h.1, ih h.2⟩
  | binary op s left right ihl ihr => exact ⟨hPQ h.1, ihl h.2.1, ihr h.2.2⟩
  | deref s address s' ih => exact ⟨hPQ h.1, ih h.2.1, hPQ h.2.2⟩

end Expr.AllTokens

theorem Expr.AllTokens.of_mem_postorder {P : Token → Prop} {d : Expr} (h : e.AllTokens P)
    (hd : d ∈ e.postorder) : d.AllTokens P := by
  induction e with
  | literal numeral s =>
    rw [List.mem_singleton.mp hd]
    exact h
  | path p =>
    rw [List.mem_singleton.mp hd]
    exact h
  | signed sign s operand ih =>
    rcases List.mem_append.mp hd with hd | hd
    · exact ih h.2 hd
    · rw [List.mem_singleton.mp hd]
      exact h
  | binary op s left right ihl ihr =>
    rcases List.mem_append.mp hd with hd | hd
    · rcases List.mem_append.mp hd with hd | hd
      · exact ihl h.2.1 hd
      · exact ihr h.2.2 hd
    · rw [List.mem_singleton.mp hd]
      exact h
  | deref s address s' ih =>
    rcases List.mem_append.mp hd with hd | hd
    · exact ih h.2.1 hd
    · rw [List.mem_singleton.mp hd]
      exact h

/-- All that the error marks are parts of the text, and they are what it is about. -/
structure EvalError.IsWithin (text : List Char) (e : EvalError) : Prop where
  isPart : ∀ label ∈ e.labels, label.1.IsPart text
  blames : e.Blames text

namespace Expr

variable {dir : Directory} {mem : Memory} {r : Requirement} {err : EvalError}

/-- An error is that of a condition, which belongs to a node or to the whole. -/
theorem exists_condition_of_evalAddress (h : (e.evalAddress dir mem).result = .error err) :
    ∃ r : Requirement, r.error = err ∧ ((∃ d ∈ e.postorder, r ∈ nodeConditions dir mem d) ∨
      r ∈ addressConditions e.span (e.exact dir mem)) := by
  obtain ⟨r, hr, rfl⟩ := (settles_evalAddress dir mem e).eq_error_iff.mp h
  refine ⟨r, rfl, (List.mem_append.mp hr.mem).imp_left fun hmem => ?_⟩
  exact List.mem_flatMap.mp hmem

section

variable {P : Span → Prop}

theorem forall_labels_of_mem_addressConditions {s : Span} {n : Int} (hs : P s)
    (hr : r ∈ addressConditions s n) : ∀ label ∈ r.error.labels, P label.1 := by
  rw [addressConditions, List.mem_cons, List.mem_singleton] at hr
  rcases hr with rfl | rfl
  · exact List.forall_mem_singleton.mpr hs
  · exact List.forall_mem_singleton.mpr hs

variable (hcover : ∀ {s t : Span}, P s → P t → P (s.cover t))
include hcover

theorem forall_labels_pathCondition {p : Path} (h : (path p).AllTokens fun t => P t.span) :
    ∀ label ∈ (pathCondition dir p).error.labels, P label.1 := by
  have hfirst := h p.first List.mem_cons_self
  unfold pathCondition
  by_cases hnumeral : p.IsNumeral dir
  · rw [if_pos hnumeral]
    exact List.forall_mem_singleton.mpr hfirst
  rw [if_neg hnumeral]
  by_cases hrest : p.rest = []
  · simp only [if_pos hrest]
    exact List.forall_mem_singleton.mpr hfirst
  · simp only [if_neg hrest]
    exact List.forall_mem_singleton.mpr (h.span hcover)

/-- The condition of a node marks what the node covers, or a part of it. -/
theorem forall_labels_of_mem_nodeConditions {d : Expr} (h : d.AllTokens fun t => P t.span)
    (hr : r ∈ nodeConditions dir mem d) : ∀ label ∈ r.error.labels, P label.1 := by
  cases d with
  | literal numeral s =>
    rw [List.mem_singleton.mp hr]
    exact List.forall_mem_singleton.mpr h
  | path p =>
    rw [List.mem_singleton.mp hr]
    exact forall_labels_pathCondition hcover h
  | signed sign s operand =>
    rw [List.mem_singleton.mp hr]
    exact List.forall_mem_singleton.mpr h.1
  | binary op s left right =>
    rw [nodeConditions, List.mem_cons, List.mem_singleton] at hr
    rcases hr with rfl | rfl
    · refine List.forall_mem_cons.mpr ⟨h.2.2.span hcover, ?_⟩
      exact List.forall_mem_singleton.mpr h.1
    · exact List.forall_mem_singleton.mpr h.1
  | deref s address s' =>
    rcases List.mem_append.mp hr with hr | hr
    · exact forall_labels_of_mem_addressConditions (h.2.1.span hcover) hr
    · rw [List.mem_singleton.mp hr]
      exact List.forall_mem_singleton.mpr (h.span hcover)

/-- What an error marks are spans of tokens, or they cover some. -/
theorem forall_labels_of_evalAddress (he : e.AllTokens fun t => P t.span)
    (h : (e.evalAddress dir mem).result = .error err) : ∀ label ∈ err.labels, P label.1 := by
  obtain ⟨r, rfl, ⟨d, hd, hr⟩ | hr⟩ := exists_condition_of_evalAddress h
  · exact forall_labels_of_mem_nodeConditions hcover (he.of_mem_postorder hd) hr
  · exact forall_labels_of_mem_addressConditions (he.span hcover) hr

end

theorem blames_of_mem_addressConditions {s : Span} {n : Int} (hr : r ∈ addressConditions s n) :
    r.error.Blames text := by
  rw [addressConditions, List.mem_cons, List.mem_singleton] at hr
  rcases hr with rfl | rfl <;> trivial

theorem blames_pathCondition {p : Path} (h : (path p).AllTokens (Token.IsWord text)) :
    (pathCondition dir p).error.Blames text := by
  have hfirst := (h p.first List.mem_cons_self).1
  unfold pathCondition
  by_cases hnumeral : p.IsNumeral dir
  · rw [if_pos hnumeral]
    exact hfirst
  rw [if_neg hnumeral]
  by_cases hrest : p.rest = []
  · simp only [if_pos hrest]
    exact hfirst
  · simp only [if_neg hrest]
    trivial

/-- The condition of a node is about the tokens of the node. -/
theorem blames_of_mem_nodeConditions {d : Expr} (h : d.AllTokens (Token.IsWord text))
    (hr : r ∈ nodeConditions dir mem d) : r.error.Blames text := by
  cases d with
  | literal numeral s =>
    rw [List.mem_singleton.mp hr]
    exact h.1
  | path p =>
    rw [List.mem_singleton.mp hr]
    exact blames_pathCondition h
  | signed sign s operand =>
    rw [List.mem_singleton.mp hr]
    show s.Marks text sign.symbol.toList
    rw [← sign.chars_kind]
    exact h.1.1
  | binary op s left right =>
    have hop : s.Marks text op.symbol.toList := by
      rw [← op.chars_kind]
      exact h.1.1
    rw [nodeConditions, List.mem_cons, List.mem_singleton] at hr
    rcases hr with rfl | rfl
    · exact hop
    · exact hop
  | deref s address s' =>
    rcases List.mem_append.mp hr with hr | hr
    · exact blames_of_mem_addressConditions hr
    · rw [List.mem_singleton.mp hr]
      trivial

/-- **An error of an expression is about its tokens.** -/
theorem isWithin_of_evalAddress (he : e.AllTokens (Token.IsWord text))
    (h : (e.evalAddress dir mem).result = .error err) : err.IsWithin text := by
  refine ⟨forall_labels_of_evalAddress (fun hs ht => hs.cover ht)
    (he.imp fun ht => Token.IsWord.isPart ht) h, ?_⟩
  obtain ⟨r, rfl, ⟨d, hd, hr⟩ | hr⟩ := exists_condition_of_evalAddress h
  · exact blames_of_mem_nodeConditions (he.of_mem_postorder hd) hr
  · exact blames_of_mem_addressConditions hr

end Expr

theorem EvalError.span_mem_labels (e : EvalError) : e.span ∈ e.labels.map (·.1) := by
  unfold labels
  cases e.problem <;> simp

end

/-! ### The whole -/

namespace Failure

variable {text : List Char}

theorem located_lexing {e : LexError} (h : e.Blames text) : (lexing e).Located text := by
  have hpart := h.isPart
  obtain ⟨piece, hmarks, -⟩ := h.isPart
  refine ⟨List.mem_cons_self, ?_, h, ?_⟩
  · exact List.forall_mem_singleton.mpr ⟨hmarks.start_le_stop, hmarks.ends_start, hmarks.ends_stop⟩
  · rw [show (lexing e).span.isEmpty = false from hpart.isEmpty_eq_false]
    exact iff_of_false Bool.false_ne_true (by simp)

theorem located_parsing {e : SyntaxError} {ts : List Token}
    (h : e.IsWithin (.eofAt (.after text)) ts) (hts : ∀ t ∈ ts, t.IsWord text) :
    (parsing e).Located text := by
  refine ⟨e.span_mem_labels, fun label hlabel => ?_, h.blames hts, ?_⟩
  · obtain ⟨piece, hmarks⟩ := h.exists_marks_of_mem_labels hts hlabel
    exact ⟨hmarks.start_le_stop, hmarks.ends_start, hmarks.ends_stop⟩
  · show e.span.isEmpty = true ↔ _
    rw [h.isEmpty_span_iff hts]
    simp

theorem located_evaluating {e : EvalError} (h : e.IsWithin text) :
    (evaluating e).Located text := by
  refine ⟨e.span_mem_labels, fun label hlabel => ?_, h.blames, ?_⟩
  · obtain ⟨piece, hmarks, -⟩ := h.isPart label hlabel
    exact ⟨hmarks.start_le_stop, hmarks.ends_start, hmarks.ends_stop⟩
  · obtain ⟨label, hlabel, hspan⟩ := List.mem_map.mp e.span_mem_labels
    have hpart : e.span.IsPart text := hspan ▸ h.isPart label hlabel
    rw [show (evaluating e).span.isEmpty = false from hpart.isEmpty_eq_false]
    exact iff_of_false Bool.false_ne_true (by simp)

end Failure

/-- **Every failure of a text says where in the text it is and marks what it is about.** -/
theorem located_of_evaluate {dir : Directory} {mem : Memory} {source : String} {f : Failure}
    (h : (evaluate dir mem source).result = .error f) : f.Located source.toList := by
  cases htokens : Lexer.tokenize source with
  | error e =>
    rw [evaluate, parse, htokens] at h
    obtain rfl := Except.error.inj h
    exact Failure.located_lexing (Lexer.blames_of_tokenize htokens)
  | ok ts =>
    obtain ⟨hend, hwords⟩ := Lexer.words_of_tokenize htokens
    cases hexpr : Expr.ofTokens ts with
    | error e =>
      rw [evaluate, parse_of_tokenize htokens, hexpr] at h
      obtain rfl := Except.error.inj h
      have hwithin := Expr.isWithin_of_ofTokens hexpr
      rw [hend] at hwithin
      exact Failure.located_parsing hwithin hwords
    | ok e =>
      have hparse : parse source = .ok e := parse_eq_ok_iff.mpr ⟨ts, htokens, hexpr⟩
      rw [evaluate_of_parse_eq_ok hparse] at h
      obtain ⟨err, herr, rfl⟩ := Run.result_mapError_eq_error_iff.mp h
      have htokens := Expr.allTokens_of_ofTokens hexpr hwords
      exact Failure.located_evaluating (Expr.isWithin_of_evalAddress htokens herr)

/-- A name that is nowhere, of two ideographs with a line feed between them. -/
theorem located_of_evaluate_undefined :
    ∃ f, (evaluate .empty .placeholder "1 - \"生\n命\"").result = .error f ∧
      f = .evaluating ⟨.undefinedSymbol "生\n命", ⟨⟨5, 0, 5⟩, ⟨12, 1, 1⟩⟩⟩ ∧
      f.Located "1 - \"生\n命\"".toList := by
  have hresult : (evaluate .empty .placeholder "1 - \"生\n命\"").result =
      .error (.evaluating ⟨.undefinedSymbol "生\n命", ⟨⟨5, 0, 5⟩, ⟨12, 1, 1⟩⟩⟩) := by
    with_unfolding_all rfl
  exact ⟨_, hresult, rfl, located_of_evaluate hresult⟩

end AddressExpr
