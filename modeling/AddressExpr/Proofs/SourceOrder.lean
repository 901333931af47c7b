/-
# Spans mirror the order of the text

The words of a text stand in it one after the other, and none is empty (`Token.Queued`). A phrase is
a part of them without a gap, and so are the phrases that it is made of. Its node covers the spans
of the first and the last of these only, which gives a span from the first token of the phrase to
the last one, parentheses apart (`Span.RunsOver.cover`).

So what a node is made of (`Expr.parts`), its own tokens and the nodes below it, stands in the text
in the order in which the node has it, each part behind the one before and inside the span of the
node (`Expr.Mirrors`). This holds for every node, whatever was grouped and however chains were
folded (`Expr.mirrors_of_parse`).

Key definitions: `Span.RunsOver`, `Token.Queued`, `Expr.parts`, `Expr.Mirrors`.
Key theorems: `Span.RunsOver.cover`, `Derives.mirrors`, `Expr.mirrors_of_parse`.
-/
import AddressExpr.Proofs.Blame

namespace AddressExpr

/-! ### Spans over tokens -/

/-- Whether the token is a parenthesis, which leaves no node. -/
def Token.Kind.isParen : Token.Kind → Bool
  | openParen => true
  | closeParen => true
  | _ => false

/-- The tokens without the parentheses. -/
def Token.bare (ts : List Token) : List Token := ts.filter fun t => !t.kind.isParen

/-- The tokens stand one after the other, and none is empty. -/
structure Token.Queued (ts : List Token) : Prop where
  proper : ∀ t ∈ ts, t.span.start < t.span.stop
  ordered : ts.Pairwise fun t u => t.span.stop ≤ u.span.start

theorem Token.bare_append (us vs : List Token) :
    Token.bare (us ++ vs) = Token.bare us ++ Token.bare vs :=
  List.filter_append us vs

theorem Token.bare_cons {t : Token} (h : t.kind.isParen = false) (ts : List Token) :
    Token.bare (t :: ts) = t :: Token.bare ts :=
  List.filter_cons_of_pos (by rw [h]; rfl)

theorem Token.Queued.sublist {us ts : List Token} (h : Token.Queued ts) (hus : us.Sublist ts) :
    Token.Queued us :=
  ⟨fun t ht => h.proper t (hus.subset ht), h.ordered.sublist hus⟩

theorem Token.Queued.bare {ts : List Token} (h : Token.Queued ts) : Token.Queued (Token.bare ts) :=
  h.sublist List.filter_sublist

namespace Span

/-- The span runs from where the first of the tokens starts to where the last one stops. -/
def RunsOver (s : Span) (ts : List Token) : Prop :=
  ∃ t ∈ ts.head?, ∃ u ∈ ts.getLast?, s = ⟨t.span.start, u.span.stop⟩

/-- The span does not go beyond the other one. -/
def Inside (s r : Span) : Prop := r.start ≤ s.start ∧ s.stop ≤ r.stop

namespace RunsOver

variable {s t r : Span} {us vs ts : List Token}

theorem single (t : Token) : t.span.RunsOver [t] := ⟨t, rfl, t, rfl, rfl⟩

theorem inside_of_mem (h : r.RunsOver ts) (hq : Token.Queued ts) {t : Token} (ht : t ∈ ts) :
    t.span.Inside r := by
  obtain ⟨first, hfirst, last, hlast, rfl⟩ := h
  have hstart : first.span.start ≤ t.span.start := by
    obtain ⟨rest, rfl⟩ := List.head?_eq_some_iff.mp hfirst
    rcases List.mem_cons.mp ht with rfl | ht
    · exact Position.le_refl _
    · have hproper := hq.proper first List.mem_cons_self
      exact Position.le_trans (Position.le_of_lt hproper) (List.rel_of_pairwise_cons hq.ordered ht)
  have hstop : t.span.stop ≤ last.span.stop := by
    obtain ⟨front, rfl⟩ := List.getLast?_eq_some_iff.mp hlast
    rcases List.mem_append.mp ht with ht | ht
    · have hbefore : t.span.stop ≤ last.span.start :=
        (List.pairwise_append.mp hq.ordered).2.2 t ht last List.mem_cons_self
      have hproper := hq.proper last (List.mem_append_right _ List.mem_cons_self)
      exact Position.le_trans hbefore (Position.le_of_lt hproper)
    · rw [List.mem_singleton.mp ht]
      exact Position.le_refl _
  exact ⟨hstart, hstop⟩

theorem inside (h : s.RunsOver us) (hr : r.RunsOver ts) (hq : Token.Queued ts)
    (hus : us.Sublist ts) : s.Inside r := by
  obtain ⟨first, hfirst, last, hlast, rfl⟩ := h
  have hstart := hr.inside_of_mem hq (hus.subset (List.mem_of_head? hfirst))
  have hstop := hr.inside_of_mem hq (hus.subset (List.mem_of_getLast? hlast))
  exact ⟨hstart.1, hstop.2⟩

theorem start_lt_stop (h : s.RunsOver ts) (hq : Token.Queued ts) : s.start < s.stop := by
  have ⟨first, hfirst, _⟩ := h
  have hmem : first ∈ ts := List.mem_of_head? hfirst
  obtain ⟨hstart, hstop⟩ := h.inside_of_mem hq hmem
  exact Position.lt_of_lt_of_le (Position.lt_of_le_of_lt hstart (hq.proper first hmem)) hstop

/-- To cover the tokens it is enough to cover some of the first and some of the last of them. -/
theorem cover (hs : s.RunsOver us) (ht : t.RunsOver vs) (hq : Token.Queued ts) (hus : us <+: ts)
    (hvs : vs <:+ ts) : (s.cover t).RunsOver ts := by
  have ⟨first, hfirst, _, _, hseq⟩ := hs
  have ⟨_, _, last', hlast', hteq⟩ := ht
  have hhead : first ∈ ts.head? := by
    obtain ⟨more, rfl⟩ := hus
    rw [Option.mem_def] at hfirst ⊢
    rw [List.head?_append, hfirst, Option.some_or]
  have hend : last' ∈ ts.getLast? := by
    obtain ⟨more, rfl⟩ := hvs
    rw [Option.mem_def] at hlast' ⊢
    rw [List.getLast?_append, hlast', Option.some_or]
  have hruns : RunsOver ⟨first.span.start, last'.span.stop⟩ ts :=
    ⟨first, hhead, last', hend, rfl⟩
  have hinside := hs.inside hruns hq hus.sublist
  have hinside' := ht.inside hruns hq hvs.sublist
  have hcover : s.cover t = ⟨first.span.start, last'.span.stop⟩ := by
    have hmin : min s.start t.start = s.start := by
      rw [hseq]
      exact if_pos hinside'.1
    have hmax : max s.stop t.stop = t.stop := by
      rw [hteq]
      exact if_pos hinside.2
    rw [Span.cover, hmin, hmax, hseq, hteq]
  rw [hcover]
  exact hruns

end RunsOver

/-- Spans over parts of a queue stand one after the other. -/
theorem pairwise_of_runsOver {blocks : List (Span × List Token)}
    (hruns : ∀ b ∈ blocks, b.1.RunsOver b.2) (hq : Token.Queued (blocks.flatMap (·.2))) :
    (blocks.map (·.1)).Pairwise fun p q => p.stop ≤ q.start := by
  have hblocks := (List.pairwise_flatMap.mp hq.ordered).2
  rw [List.pairwise_map]
  refine hblocks.imp_of_mem fun {b b'} hb hb' hall => ?_
  obtain ⟨_, _, last, hlast, hspan⟩ := hruns b hb
  obtain ⟨first, hfirst, _, _, hspan'⟩ := hruns b' hb'
  rw [hspan, hspan']
  exact hall last (List.mem_of_getLast? hlast) first (List.mem_of_head? hfirst)

end Span

/-! ### Nodes and their parts -/

namespace Expr

/-- The spans of what a node is made of, its own tokens and the nodes below it, in the order in
which it has them. -/
def parts : Expr → List Span
  | literal _ s => [s]
  | path p => p.segments.map (·.span)
  | signed _ s operand => [s, operand.span]
  | binary _ s left right => [left.span, s, right.span]
  | deref s address s' => [s, address.span, s']

/-- The node `d` was read from a phrase in the tokens `ws`, and its spans say where this phrase
stands, and in which order what it is made of. -/
structure Mirrors (ws : List Token) (d : Expr) : Prop where
  /-- The span runs over the phrase, parentheses apart. -/
  runsOver : ∃ s c v, Derives s c v ∧ c.expr = d ∧ v <:+: ws ∧ d.span.RunsOver (Token.bare v)
  /-- Every part stops before the next one starts. -/
  ordered : d.parts.Pairwise fun p q => p.stop ≤ q.start
  /-- No part is empty. -/
  proper : ∀ p ∈ d.parts, p.start < p.stop
  /-- Every part is inside the node. -/
  inside : ∀ p ∈ d.parts, p.Inside d.span

theorem Mirrors.mono {v ws : List Token} {d : Expr} (h : d.Mirrors v) (hv : v <:+: ws) :
    d.Mirrors ws := by
  obtain ⟨⟨s, c, u, hu, hd, huv, hruns⟩, hordered, hproper, hinside⟩ := h
  exact ⟨⟨s, c, u, hu, hd, huv.trans hv, hruns⟩, hordered, hproper, hinside⟩

/-- A node mirrors its phrase if its parts run over parts of the phrase, one behind the other. -/
theorem mirrors_of_blocks {s : Stratum} {c : ParseTree} {v us : List Token} (h : Derives s c v)
    (hq : Token.Queued v) (hbare : Token.bare v = us) (hspan : c.expr.span.RunsOver us)
    (blocks : List (Span × List Token)) (hparts : c.expr.parts = blocks.map (·.1))
    (hruns : ∀ b ∈ blocks, b.1.RunsOver b.2) (hsub : (blocks.flatMap (·.2)).Sublist us) :
    c.expr.Mirrors v := by
  have hus : Token.Queued us := hbare ▸ hq.bare
  have hblock {p : Span} (hp : p ∈ c.expr.parts) : ∃ bs, bs.Sublist us ∧ p.RunsOver bs := by
    rw [hparts] at hp
    obtain ⟨b, hb, rfl⟩ := List.mem_map.mp hp
    exact ⟨b.2, (List.sublist_flatten_of_mem (List.mem_map_of_mem hb)).trans hsub, hruns b hb⟩
  refine ⟨⟨s, c, v, h, rfl, List.infix_rfl, hbare ▸ hspan⟩, ?ordered, ?proper, ?inside⟩
  case ordered =>
    rw [hparts]
    exact Span.pairwise_of_runsOver hruns (hus.sublist hsub)
  case proper =>
    intro p hp
    obtain ⟨bs, hbs, hruns⟩ := hblock hp
    exact hruns.start_lt_stop (hus.sublist hbs)
  case inside =>
    intro p hp
    obtain ⟨bs, hbs, hruns⟩ := hblock hp
    exact hruns.inside hspan hus hbs

end Expr

/-! ### Phrases -/

theorem BinaryOp.isParen_kind (op : BinaryOp) : op.kind.isParen = false := by
  cases op <;> rfl

theorem Sign.isParen_kind (sign : Sign) : sign.kind.isParen = false := by
  cases sign <;> rfl

/-- The token of the name. -/
def Segment.token (name : Segment) : Token := ⟨.ident name.name, name.span⟩

theorem Dotted.sublist {more : List Segment} {w : List Token} (h : Dotted more w) :
    (more.map Segment.token).Sublist w := by
  induction h with
  | nil => exact .slnil
  | cons dotSpan name s h ih => exact .cons _ (ih.cons_cons _)

theorem Dotted.bare_eq {more : List Segment} {w : List Token} (h : Dotted more w) :
    Token.bare w = w := by
  induction h with
  | nil => rfl
  | cons dotSpan name s h ih =>
    show _ :: _ :: Token.bare _ = _
    rw [ih]

/-- The last token of a path is that of its last name. -/
theorem Dotted.suffix {more : List Segment} {w : List Token} (h : Dotted more w)
    (first : Segment) : [(Path.last ⟨first, more⟩).token] <:+ first.token :: w := by
  induction h generalizing first with
  | nil => exact List.suffix_rfl
  | @cons dotSpan name s more w h ih =>
    have hlast : Path.last ⟨first, ⟨name, s⟩ :: more⟩ = Path.last ⟨⟨name, s⟩, more⟩ := by
      simp [Path.last, List.getLast?_cons]
    rw [hlast]
    exact ((ih ⟨name, s⟩).trans (List.suffix_cons _ _)).trans (List.suffix_cons _ _)

/-- A path mirrors its names and dots. -/
theorem Dotted.mirrors {name : String} {s : Span} {more : List Segment} {w : List Token}
    (h : Dotted more w) (hq : Token.Queued (⟨.ident name, s⟩ :: w)) :
    (Path.span ⟨⟨name, s⟩, more⟩).RunsOver (Token.bare (⟨.ident name, s⟩ :: w)) ∧
      (Expr.path ⟨⟨name, s⟩, more⟩).Mirrors (⟨.ident name, s⟩ :: w) := by
  have hbare : Token.bare (⟨.ident name, s⟩ :: w) = ⟨.ident name, s⟩ :: w := by
    rw [Token.bare_cons rfl, h.bare_eq]
  have hspan : (Path.span ⟨⟨name, s⟩, more⟩).RunsOver (⟨.ident name, s⟩ :: w) :=
    (Span.RunsOver.single (Segment.token ⟨name, s⟩)).cover (.single (Segment.token _)) hq
      ⟨w, rfl⟩ (h.suffix ⟨name, s⟩)
  rw [hbare]
  refine ⟨hspan, ?_⟩
  refine Expr.mirrors_of_blocks (.path name s h) hq hbare hspan
    ((Path.segments ⟨⟨name, s⟩, more⟩).map fun n => (n.span, [n.token])) ?_ ?_ ?_
  · rw [List.map_map]
    rfl
  · intro b hb
    obtain ⟨n, -, rfl⟩ := List.mem_map.mp hb
    exact .single n.token
  · rw [List.flatMap_map]
    show (List.flatMap (fun n => [Segment.token n]) _).Sublist _
    rw [← List.map_eq_flatMap]
    exact h.sublist.cons_cons _

/-- The nodes of a phrase mirror it. By induction on the phrase: the span of each node runs over its
phrase, so it may be a part of the node above. -/
theorem Derives.mirrors {s : Stratum} {c : ParseTree} {w : List Token} (h : Derives s c w)
    (hq : Token.Queued w) :
    c.expr.span.RunsOver (Token.bare w) ∧ ∀ d ∈ c.expr.postorder, d.Mirrors w := by
  induction h with
  | hex text s =>
    have hruns : s.RunsOver [⟨.hex text, s⟩] := .single ⟨.hex text, s⟩
    refine ⟨hruns, List.forall_mem_singleton.mpr ?_⟩
    exact Expr.mirrors_of_blocks (.hex text s) hq rfl hruns [(s, [⟨.hex text, s⟩])] rfl
      (List.forall_mem_singleton.mpr hruns) (List.Sublist.refl _)
  | path name s h =>
    obtain ⟨hruns, hmirrors⟩ := h.mirrors hq
    exact ⟨hruns, List.forall_mem_singleton.mpr hmirrors⟩
  | @group s s' c w h ih =>
    have hinfix : w <:+: ⟨.openParen, s⟩ :: (w ++ [⟨.closeParen, s'⟩]) := ⟨[_], [_], rfl⟩
    have hbare : Token.bare (⟨.openParen, s⟩ :: (w ++ [⟨.closeParen, s'⟩])) = Token.bare w := by
      show Token.bare (w ++ [⟨.closeParen, s'⟩]) = _
      rw [Token.bare_append]
      exact List.append_nil _
    obtain ⟨hruns, hnodes⟩ := ih (hq.sublist hinfix.sublist)
    rw [hbare]
    exact ⟨hruns, fun d hd => (hnodes d hd).mono hinfix⟩
  | @deref s s' c w h ih =>
    have hinfix : w <:+: ⟨.openBracket, s⟩ :: (w ++ [⟨.closeBracket, s'⟩]) := ⟨[_], [_], rfl⟩
    have hbare : Token.bare (⟨.openBracket, s⟩ :: (w ++ [⟨.closeBracket, s'⟩])) =
        ⟨.openBracket, s⟩ :: (Token.bare w ++ [⟨.closeBracket, s'⟩]) := by
      rw [Token.bare_cons rfl, Token.bare_append]
      rfl
    have hus := hbare ▸ hq.bare
    obtain ⟨hruns, hnodes⟩ := ih (hq.sublist hinfix.sublist)
    have hopen : s.RunsOver [⟨.openBracket, s⟩] := .single ⟨.openBracket, s⟩
    have hclose : s'.RunsOver [⟨.closeBracket, s'⟩] := .single ⟨.closeBracket, s'⟩
    have hspan := hopen.cover hclose hus ⟨_, rfl⟩ ⟨⟨.openBracket, s⟩ :: Token.bare w, rfl⟩
    rw [hbare]
    refine ⟨hspan, List.forall_mem_append.mpr
      ⟨fun d hd => (hnodes d hd).mono hinfix, List.forall_mem_singleton.mpr ?_⟩⟩
    refine Expr.mirrors_of_blocks (.deref s s' h) hq hbare hspan
      [(s, [⟨.openBracket, s⟩]), (c.expr.span, Token.bare w), (s', [⟨.closeBracket, s'⟩])] rfl
      ?_ (List.Sublist.refl _)
    simp only [List.forall_mem_cons]
    exact ⟨hopen, hruns, hclose, nofun⟩
  | @signed sign s c w h ih =>
    have hinfix : w <:+: ⟨sign.kind, s⟩ :: w := (List.suffix_cons _ w).isInfix
    have hbare : Token.bare (⟨sign.kind, s⟩ :: w) = ⟨sign.kind, s⟩ :: Token.bare w :=
      Token.bare_cons sign.isParen_kind w
    have hus := hbare ▸ hq.bare
    obtain ⟨hruns, hnodes⟩ := ih (hq.sublist hinfix.sublist)
    have hsign : s.RunsOver [⟨sign.kind, s⟩] := .single ⟨sign.kind, s⟩
    have hspan := hsign.cover hruns hus ⟨_, rfl⟩ (List.suffix_cons _ _)
    rw [hbare]
    refine ⟨hspan, List.forall_mem_append.mpr
      ⟨fun d hd => (hnodes d hd).mono hinfix, List.forall_mem_singleton.mpr ?_⟩⟩
    refine Expr.mirrors_of_blocks (.signed sign s h) hq hbare hspan
      [(s, [⟨sign.kind, s⟩]), (c.expr.span, Token.bare w)] rfl ?_ ?_
    · simp only [List.forall_mem_cons]
      exact ⟨hsign, hruns, nofun⟩
    · simp
  | @fold op s left right u v hl hr ihl ihr =>
    have hinfix : u <:+: u ++ ⟨op.kind, s⟩ :: v := (List.prefix_append u _).isInfix
    have hinfix' : v <:+: u ++ ⟨op.kind, s⟩ :: v := ⟨u ++ [⟨op.kind, s⟩], [], by simp⟩
    have hbare : Token.bare (u ++ ⟨op.kind, s⟩ :: v) =
        Token.bare u ++ ⟨op.kind, s⟩ :: Token.bare v := by
      rw [Token.bare_append, Token.bare_cons op.isParen_kind]
    have hus := hbare ▸ hq.bare
    obtain ⟨hruns, hnodes⟩ := ihl (hq.sublist hinfix.sublist)
    obtain ⟨hruns', hnodes'⟩ := ihr (hq.sublist hinfix'.sublist)
    have hspan := hruns.cover hruns' hus (List.prefix_append _ _)
      ⟨Token.bare u ++ [⟨op.kind, s⟩], by simp⟩
    rw [hbare]
    refine ⟨hspan, List.forall_mem_append.mpr ⟨List.forall_mem_append.mpr
      ⟨fun d hd => (hnodes d hd).mono hinfix, fun d hd => (hnodes' d hd).mono hinfix'⟩,
        List.forall_mem_singleton.mpr ?_⟩⟩
    refine Expr.mirrors_of_blocks (.fold op s hl hr) hq hbare hspan
      [(left.expr.span, Token.bare u), (s, [⟨op.kind, s⟩]), (right.expr.span, Token.bare v)] rfl
      ?_ ?_
    · simp only [List.forall_mem_cons]
      exact ⟨hruns, .single ⟨op.kind, s⟩, hruns', nofun⟩
    · simp
  | lift h ih => exact ih hq

/-! ### Texts -/

namespace Lexer

/-- The words of a text stand in it one after the other. -/
theorem queued_words {source : String} {ts : List Token} (h : tokenize source = .ok ts) :
    Token.Queued (Expr.words ts) := by
  obtain ⟨-, hwords⟩ := words_of_tokenize h
  refine ⟨fun t ht => ?_, (layout_of_tokenize h).ordered.sublist (List.takeWhile_sublist _)⟩
  obtain ⟨hmarks, hne⟩ := hwords t ht
  have hlength : t.span.length ≠ 0 := by
    rw [hmarks.length_eq, Ne, Position.byteCount_eq_zero_iff]
    exact hne
  rw [Position.lt_iff]
  unfold Span.length at hlength
  omega

end Lexer

namespace Expr

/-- **The spans of an expression mirror the order of its text.** Every node stands where the phrase
that it was read from does, and its parts are in it one after the other. -/
theorem mirrors_of_parse {source : String} {e : Expr} (h : parse source = .ok e) :
    ∃ ts, Lexer.tokenize source = .ok ts ∧ ∀ d ∈ e.postorder, d.Mirrors (words ts) := by
  obtain ⟨ts, htokens, hread⟩ := parse_eq_ok_iff.mp h
  obtain ⟨c, hc, rfl, -⟩ := exists_derives_of_ofTokens hread
  exact ⟨ts, htokens, (hc.mirrors (Lexer.queued_words htokens)).2⟩

/-- A group on the right of an operator, with a path and a dereference in it. -/
theorem mirrors_of_parse_group :
    ∃ e, parse "2*(\"a.b\" -[1])" = .ok e ∧ e.render = "(* 2 (- a.b (deref 1)))" ∧
      ∃ ts, Lexer.tokenize "2*(\"a.b\" -[1])" = .ok ts ∧
        ∀ d ∈ e.postorder, d.Mirrors (words ts) := by
  have hparse : parse "2*(\"a.b\" -[1])" = .ok (.binary .mul ⟨⟨1, 0, 1⟩, ⟨2, 0, 2⟩⟩
      (.literal "2" ⟨⟨0, 0, 0⟩, ⟨1, 0, 1⟩⟩)
      (.binary .sub ⟨⟨9, 0, 9⟩, ⟨10, 0, 10⟩⟩
        (.path ⟨⟨"a", ⟨4, 0, 4⟩, ⟨5, 0, 5⟩⟩, [⟨"b", ⟨6, 0, 6⟩, ⟨7, 0, 7⟩⟩]⟩)
        (.deref ⟨⟨10, 0, 10⟩, ⟨11, 0, 11⟩⟩ (.literal "1" ⟨⟨11, 0, 11⟩, ⟨12, 0, 12⟩⟩)
          ⟨⟨12, 0, 12⟩, ⟨13, 0, 13⟩⟩))) := by
    with_unfolding_all rfl
  exact ⟨_, hparse, by decide +kernel, mirrors_of_parse hparse⟩

end Expr
end AddressExpr
