/-
# Texts put together from parts

Two texts with a blank between them are scanned one after the other: the first one has its own
tokens, as the blank goes on with none of them, and the second one is scanned as if it stood alone,
with its positions counted from behind the blank (`Lexer.scanAll_append_separator`).

Without a blank a part can still be exchanged for another one if no name or numeral goes over the
seam (`Lexer.forget_scan_append`). So a path in the middle of a text may be put between quotes
(`Lexer.alike_scanAll_quoted`). A name is less outside quotes than between them, but the same run of
characters is cut out of both texts, as what ends the one also ends the other: a dot, the quote, and
what stands behind the path.

Key definitions: `Lexer.Scanned.Alike`, `Lexer.IsClosed`, `Lexer.IsPlainPath`.
Key theorems: `Lexer.scanAll_append_separator`, `Lexer.forget_scan_append`,
`Lexer.forget_scan_quoted_path`, `Lexer.alike_scanAll_quoted`.
-/
import AddressExpr.Proofs.Kinds
import AddressExpr.Proofs.Verdict

namespace AddressExpr
namespace Lexer

/-! ### A blank between two texts -/

theorem eq_of_isSeparator {w : Char} (h : isSeparator w = true) :
    w = ' ' ∨ w = '\t' ∨ w = '\r' ∨ w = '\n' := by
  simpa [isSeparator, or_assoc] using h

theorem front_of_isSeparator {w : Char} (h : isSeparator w = true) (cs : List Char) :
    front false w cs = ⟨.blank, [w], cs⟩ := by
  rcases eq_of_isSeparator h with rfl | rfl | rfl | rfl <;> rfl

theorem breaks_of_isSeparator {w : Char} (h : isSeparator w = true) (cs : List Char) :
    Breaks (w :: cs) := by
  rcases eq_of_isSeparator h with rfl | rfl | rfl | rfl <;>
    exact .cons (by decide) (by decide) cs

/-- A text outside quotes is scanned as if it stood alone, with its spans moved. -/
theorem scan_eq_mapSpan (here : Position) (cs : List Char) :
    scan none here cs = (scan none .origin cs).mapSpan (Span.shift here) :=
  scan_shift here none .origin cs

theorem scan_separator {w : Char} (h : isSeparator w = true) (here : Position) (cs : List Char) :
    scan none here (w :: cs) = scan none (here.advance w) cs := by
  have hfront := front_of_isSeparator h cs
  have hscan := @scan_of_blank none here w cs
  rw [Option.isSome_none, hfront] at hscan
  exact hscan rfl

/-- **Texts with a blank between them are scanned one after the other.** The first one keeps its
tokens but for its end, and then comes all that is scanned in the second one alone, the error too if
there is one, with every position counted from where the blank ends. -/
theorem scanAll_append_separator {s : String} {ts : List Token} (h : tokenize s = .ok ts)
    {w : Char} (hw : isSeparator w = true) (s' : String) :
    ∃ ws, ts = ws ++ [.eofAt (.after s.toList)] ∧ (∀ t ∈ ws, t.kind ≠ .eof) ∧
      scanAll (s ++ String.singleton w ++ s') =
        ((scanAll s').mapSpan (Span.shift (.after (s.toList ++ [w])))).prepend ws := by
  obtain ⟨ws, hts, hscans⟩ := exists_scans (tokenize_eq_ok_iff.mp h)
  rw [Position.advanceBy_origin] at hts
  refine ⟨ws, hts, ?_, ?_⟩
  · intro t ht heof
    have hisEof := hscans.isEof_eq_false t ht
    rw [heof] at hisEof
    cases hisEof
  · have htext : (s ++ String.singleton w ++ s').toList = s.toList ++ w :: s'.toList := by
      simp [String.toList_append]
    have hbreaks := breaks_of_isSeparator hw s'.toList
    calc scanAll (s ++ String.singleton w ++ s')
        = scan none .origin (s.toList ++ w :: s'.toList) := by rw [scanAll, htext]
      _ = (scan none (.after s.toList) (w :: s'.toList)).prepend ws := by
        rw [hscans.scan_append _ hbreaks, Position.advanceBy_origin]
      _ = (scan none (.after (s.toList ++ [w])) s'.toList).prepend ws := by
        rw [scan_separator hw, Position.after_concat]
      _ = ((scanAll s').mapSpan (Span.shift (.after (s.toList ++ [w])))).prepend ws := by
        rw [scan_eq_mapSpan, scanAll]

/-- A line feed before a text that is not closed. -/
theorem scanAll_append_separator_unterminated :
    tokenize "\"a\nb\"" = .ok [⟨.ident "a\nb", ⟨⟨1, 0, 1⟩, ⟨4, 1, 1⟩⟩⟩, .eofAt ⟨5, 1, 2⟩] ∧
    isSeparator '\n' = true ∧
    ∃ ws, [⟨.ident "a\nb", ⟨⟨1, 0, 1⟩, ⟨4, 1, 1⟩⟩⟩, .eofAt ⟨5, 1, 2⟩] =
        ws ++ [.eofAt (.after "\"a\nb\"".toList)] ∧
      (∀ t ∈ ws, t.kind ≠ .eof) ∧
      scanAll ("\"a\nb\"" ++ String.singleton '\n' ++ "0\n\"") =
        ((scanAll "0\n\"").mapSpan
          (Span.shift (.after ("\"a\nb\"".toList ++ ['\n'])))).prepend ws := by
  have htokens : tokenize "\"a\nb\"" =
      .ok [⟨.ident "a\nb", ⟨⟨1, 0, 1⟩, ⟨4, 1, 1⟩⟩⟩, .eofAt ⟨5, 1, 2⟩] := by
    with_unfolding_all rfl
  exact ⟨htokens, rfl, scanAll_append_separator htokens rfl _⟩

/-! ### Scans that are the same but for their spans -/

/-- The scans have words of the same kinds with the same texts, and end with errors about the same
problem with the same message, or both without one. -/
structure Scanned.Alike (s s' : Scanned) : Prop where
  kinds_eq : s.tokens.map (·.kind) = s'.tokens.map (·.kind)
  lexemes_eq : s.tokens.map (·.lexeme?) = s'.tokens.map (·.lexeme?)
  problem_eq : s.failure.map (·.problem) = s'.failure.map (·.problem)
  message_eq : s.failure.map (·.message) = s'.failure.map (·.message)

namespace Scanned

variable {s s' : Scanned}

theorem alike_of_forget_eq (h : s.mapSpan .forget = s'.mapSpan .forget) : s.Alike s' := by
  obtain ⟨htokens, hfailure⟩ := Scanned.mk.inj h
  have hkinds : s.tokens.map (·.kind) = s'.tokens.map (·.kind) := by
    simpa [Token.mapSpan, Function.comp_def] using congrArg (List.map (·.kind)) htokens
  have hproblem : s.failure.map (·.problem) = s'.failure.map (·.problem) := by
    simpa [LexError.mapSpan, Function.comp_def] using congrArg (Option.map (·.problem)) hfailure
  refine ⟨hkinds, ?_, hproblem, ?_⟩
  · simpa [Token.lexeme?, Function.comp_def] using
      congrArg (List.map Token.Kind.lexeme?) hkinds
  · simpa [LexError.message, Function.comp_def] using
      congrArg (Option.map LexProblem.message) hproblem

theorem forget_mapSpan (f : Span → Span) (s : Scanned) :
    (s.mapSpan f).mapSpan .forget = s.mapSpan .forget := by
  unfold mapSpan
  rw [List.map_map, Option.map_map]
  rfl

/-- Words of the same kinds may stand before scans that are the same. -/
theorem forget_prepend_eq {ts ts' : List Token}
    (hts : ts.map (·.kind) = ts'.map (·.kind)) (h : s.mapSpan .forget = s'.mapSpan .forget) :
    (s.prepend ts).mapSpan .forget = (s'.prepend ts').mapSpan .forget := by
  obtain ⟨htokens, hfailure⟩ := Scanned.mk.inj h
  unfold mapSpan prepend
  rw [List.map_append, List.map_append, htokens, hfailure, Token.map_forget_eq hts]

end Scanned

/-- A text outside quotes is scanned alike wherever it starts. -/
theorem forget_scan (here here' : Position) (cs : List Char) :
    (scan none here cs).mapSpan .forget = (scan none here' cs).mapSpan .forget := by
  rw [scan_eq_mapSpan here, scan_eq_mapSpan here', Scanned.forget_mapSpan, Scanned.forget_mapSpan]

/-! ### A seam that no word goes over -/

/-- The text, which starts between quotes or outside, ends outside, and not with a character of a
name or a numeral. -/
structure IsClosed (quoted : Bool) (cs : List Char) : Prop where
  outside : quotedAfter cs = quoted
  last : ∀ c ∈ cs.getLast?, isIdentChar c = false

namespace IsClosed

variable {quoted : Bool} {c : Char} {cs piece : List Char}

theorem nil_quoted (h : IsClosed quoted []) : quoted = false := h.outside.symm

/-- What is behind a quote starts on the other side of it. -/
theorem of_cons_quote (h : IsClosed quoted ('\x22' :: cs)) : IsClosed (!quoted) cs := by
  refine ⟨?_, fun c hc => h.last c ?_⟩
  · have houtside := h.outside
    rw [← List.singleton_append, quotedAfter_append_eq] at houtside
    rw [← houtside]
    cases quotedAfter cs <;> rfl
  · rw [List.getLast?_cons, Option.mem_def.mp hc]
    rfl

/-- What is behind a piece without quotes starts on the same side. -/
theorem of_append (h : IsClosed quoted (piece ++ cs)) (hpiece : '\x22' ∉ piece) :
    IsClosed quoted cs := by
  refine ⟨?_, fun c hc => h.last c ?_⟩
  · have houtside := h.outside
    rwa [quotedAfter_append_eq, quotedAfter_of_not_mem hpiece, Bool.false_xor] at houtside
  · rw [List.getLast?_append, Option.mem_def.mp hc]
    rfl

theorem more (h : IsClosed quoted (c :: cs)) (htext : '\x22' ∉ (front quoted c cs).text) :
    IsClosed quoted (front quoted c cs).more := by
  rw [← text_front_append_more quoted c cs] at h
  exact h.of_append htext

end IsClosed

/-- A character that no piece starts with is at fault whatever is behind it. -/
theorem front_of_isLegal_eq_false {quoted : Bool} {c : Char} (h : isLegal quoted c = false)
    (cs : List Char) : front quoted c cs = ⟨.fault (.unexpectedCharacter c), [c], cs⟩ := by
  unfold isLegal at h
  simp only [Bool.or_eq_false_iff, beq_eq_false_iff_ne] at h
  obtain ⟨⟨hquote, hdot⟩, hclass⟩ := h
  rw [front, if_neg hquote, if_neg hdot]
  cases quoted with
  | true =>
    have hident : isQuotedIdentChar c = false := hclass
    rw [if_pos rfl, quotedFront, hident]
    rfl
  | false =>
    simp only [Bool.false_eq_true, if_false, Bool.or_eq_false_iff, beq_eq_false_iff_ne] at hclass
    obtain ⟨⟨⟨hsep, hstar⟩, hsymbol⟩, hident⟩ := hclass
    have hdigit : c.isDigit = false := by
      rw [Bool.eq_false_iff]
      intro hdigit
      simp [isIdentChar, Char.isAlphanum, hdigit] at hident
    have hnone : symbol? c = none := by simpa using hsymbol
    rw [if_neg (by decide)]
    unfold plainFront
    simp only [hsep, if_neg hstar, hnone, hdigit, hident, Bool.false_eq_true, if_false]

/-- No piece of a closed text goes on in what is behind the text, if that is no second star. -/
theorem front_append_of_isClosed {quoted : Bool} {c : Char} {cs ds : List Char}
    (h : IsClosed quoted (c :: cs)) (hds : ∀ d ∈ ds.head?, d ≠ '*') :
    front quoted c (cs ++ ds) = (front quoted c cs).extend ds := by
  by_cases hne : (front quoted c cs).more ≠ []
  · exact front_append (.inl hne)
  have hmore := Decidable.not_not.mp hne
  -- The piece is all that is left of the text, and how that ends says what it can be.
  have htext : (front quoted c cs).text = c :: cs := by
    rw [← text_front_append_more quoted c cs, hmore, List.append_nil]
  have hnoName (hchars : ∀ d ∈ c :: cs, isIdentChar d = true) : False := by
    have hlast := h.last _ (List.getLast?_eq_some_getLast (List.cons_ne_nil c cs))
    rw [hchars _ (List.getLast_mem _)] at hlast
    cases hlast
  cases hkind : (front quoted c cs).kind with
  | quote =>
    rw [kind_front_eq_quote_iff.mp hkind]
    rfl
  | blank =>
    obtain ⟨rfl, d, hd, hpiece⟩ := sound_blank hkind
    rw [htext] at hpiece
    obtain ⟨rfl, rfl⟩ := List.cons.inj hpiece
    rw [front_of_isSeparator hd, front_of_isSeparator hd]
    rfl
  | token kind =>
    obtain ⟨hlexeme, hquote, -⟩ := sound_token hkind
    have hchars := Token.Kind.chars_of_lexeme? hlexeme
    have hfits := fits_front hkind
    rw [htext] at hquote hchars
    obtain rfl : quoted = false := by
      rw [← h.outside, quotedAfter_of_not_mem hquote]
    cases kind with
    | hex text => exact (hnoName (hchars ▸ isIdentChar_of_mem_isNumeral hfits.2)).elim
    | ident name => exact (hnoName (hchars ▸ hfits.2)).elim
    | eof => exact hfits.elim
    | times =>
      obtain ⟨rfl, rfl⟩ := List.cons.inj hchars
      show plainFront '*' ds = _
      rw [plainFront_star hds]
      rfl
    | _ =>
      obtain ⟨rfl, rfl⟩ := List.cons.inj hchars
      rfl
  | fault problem =>
    have hfault := sound_fault hkind
    rw [htext] at hfault
    cases problem with
    | unexpectedCharacter d =>
      obtain ⟨hpiece, hd⟩ := hfault
      obtain ⟨rfl, rfl⟩ := List.cons.inj hpiece
      rw [front_of_isLegal_eq_false hd, front_of_isLegal_eq_false hd]
      rfl
    | missingHexDigits =>
      rw [hfault.1] at hnoName
      exact (hnoName (List.all_eq_true.mp rfl)).elim
    | unterminatedQuote => exact hfault.elim

/-- **What is behind a closed text may be exchanged for what is scanned alike.** -/
theorem forget_scan_append {ds ds' : List Char} (hds : ∀ d ∈ ds.head?, d ≠ '*')
    (hds' : ∀ d ∈ ds'.head?, d ≠ '*')
    (hbehind : ∀ here, (scan none here ds).mapSpan .forget = (scan none here ds').mapSpan .forget)
    {opened : Option Position} {here : Position} {cs : List Char}
    (h : IsClosed opened.isSome cs) :
    (scan opened here (cs ++ ds)).mapSpan .forget =
      (scan opened here (cs ++ ds')).mapSpan .forget := by
  fun_induction scan opened here cs with
  | case1 here opening => cases h.nil_quoted
  | case2 here => exact hbehind here
  | case3 opened here c cs piece next hkind =>
    rename_i ih
    obtain rfl : c = '\x22' := kind_front_eq_quote_iff.mp hkind
    rw [scan_append_of_quote (front_append_of_isClosed h hds) hkind,
      scan_append_of_quote (front_append_of_isClosed h hds') hkind]
    have hclosed := h.of_cons_quote
    cases opened with
    | none => exact ih hclosed
    | some opening => exact ih hclosed
  | case4 opened here c cs piece next hkind =>
    rename_i ih
    rw [scan_append_of_blank (front_append_of_isClosed h hds) hkind,
      scan_append_of_blank (front_append_of_isClosed h hds') hkind]
    refine ih (h.more ?_)
    obtain ⟨-, d, hd, htext⟩ := sound_blank hkind
    rw [htext, List.mem_singleton]
    rintro rfl
    exact absurd hd (by decide)
  | case5 opened here c cs piece next kind hkind rest =>
    rename_i ih
    rw [scan_append_of_token (front_append_of_isClosed h hds) hkind,
      scan_append_of_token (front_append_of_isClosed h hds') hkind]
    exact Scanned.forget_prepend_eq rfl (ih (h.more (sound_token hkind).2.1))
  | case6 opened here c cs piece next problem hkind =>
    rw [scan_append_of_fault (front_append_of_isClosed h hds) hkind,
      scan_append_of_fault (front_append_of_isClosed h hds') hkind]

/-! ### A path between quotes -/

/-- The text is made of dots and of characters of names, and neither at its start nor behind a dot
does it go on with a decimal digit or a minus sign. -/
structure IsPlainPath (cs : List Char) : Prop where
  chars : ∀ c ∈ cs, isIdentChar c = true ∨ c = '.'
  starts : ∀ pre c post, cs = pre ++ c :: post → (∀ d ∈ pre.getLast?, d = '.') →
    c.isDigit = false ∧ c ≠ '-'

theorem isPlainPath_iff {cs : List Char} :
    IsPlainPath cs ↔ (cs.all fun c => isIdentChar c || c == '.') = true ∧
      ∀ i (hi : i < cs.length), ((cs.take i).getLast?.all (· == '.')) = true →
        cs[i].isDigit = false ∧ cs[i] ≠ '-' := by
  constructor
  · rintro ⟨hchars, hstarts⟩
    refine ⟨by simpa using hchars, fun i hi hlast => ?_⟩
    refine hstarts (cs.take i) cs[i] (cs.drop (i + 1)) ?_ ?_
    · rw [List.getElem_cons_drop, List.take_append_drop]
    · simpa [Option.all_eq_true] using hlast
  · rintro ⟨hchars, hstarts⟩
    refine ⟨by simpa using hchars, ?_⟩
    rintro pre c post rfl hpre
    have hc := hstarts pre.length (by simp)
    rw [List.take_left, List.getElem_append_right (Nat.le_refl _)] at hc
    simpa using hc (by simpa [Option.all_eq_true] using hpre)

instance (cs : List Char) : Decidable (IsPlainPath cs) :=
  decidable_of_iff' _ isPlainPath_iff

namespace IsPlainPath

variable {c : Char} {cs name : List Char}

/-- What is left of a path at a dot, or behind one, is a path. -/
theorem of_append (h : IsPlainPath (name ++ cs))
    (hseam : (∀ d ∈ name.getLast?, d = '.') ∨ ∀ d ∈ cs.head?, d = '.') : IsPlainPath cs := by
  refine ⟨fun c hc => h.chars c (List.mem_append_right _ hc), ?_⟩
  rintro pre c post rfl hpre
  rcases List.eq_nil_or_concat pre with rfl | ⟨before, d, rfl⟩
  · rcases hseam with hname | hhead
    · exact h.starts name c post rfl hname
    · rw [hhead c rfl]
      decide
  · refine h.starts (name ++ (before ++ [d])) c post (by simp) ?_
    simpa using hpre

/-- What is no dot at the start of a path starts a name, which ends at a dot or with the path. -/
theorem exists_name (h : IsPlainPath (c :: cs)) (hdot : c ≠ '.') :
    ∃ name rest, cs = name ++ rest ∧ (∀ d ∈ c :: name, isIdentChar d = true) ∧
      (c.isDigit = false ∧ c ≠ '-') ∧ (∀ d ∈ rest.head?, d = '.') ∧ IsPlainPath rest := by
  have hsplit : cs = cs.takeWhile isIdentChar ++ cs.dropWhile isIdentChar :=
    List.takeWhile_append_dropWhile.symm
  have hhead : ∀ d ∈ (cs.dropWhile isIdentChar).head?, d = '.' := by
    intro d hd
    have hmem : d ∈ cs := (List.dropWhile_sublist _).subset (List.mem_of_head? hd)
    refine (h.chars d (List.mem_cons_of_mem _ hmem)).resolve_left fun hident => ?_
    rw [eq_false_of_mem_head?_dropWhile d hd] at hident
    cases hident
  have hrest : IsPlainPath (cs.dropWhile isIdentChar) := by
    rw [hsplit, ← List.cons_append] at h
    exact h.of_append (.inr hhead)
  refine ⟨_, _, hsplit, List.forall_mem_cons.mpr ⟨?_, ?_⟩, ?_, hhead, hrest⟩
  · exact (h.chars c List.mem_cons_self).resolve_right hdot
  · exact List.all_eq_true.mp List.all_takeWhile
  · exact h.starts [] c cs rfl nofun

end IsPlainPath

/-- A name outside quotes goes on up to the first character that can be in no name there. -/
theorem front_plain {c : Char} {cs more : List Char}
    (hname : ∀ c' ∈ c :: cs, isIdentChar c' = true) (hdigit : c.isDigit = false) (hminus : c ≠ '-')
    (hmore : ∀ d ∈ more.head?, isIdentChar d = false) :
    front false c (cs ++ more) = ⟨.token (.ident (.ofList (c :: cs))), c :: cs, more⟩ := by
  obtain ⟨hc, hcs⟩ := List.forall_mem_cons.mp hname
  have hne {d : Char} (hd : isIdentChar d = false) : c ≠ d := by
    rintro rfl
    rw [hc] at hd
    cases hd
  have hsep : isSeparator c = false := by
    simp [isSeparator, hne (d := ' ') (by decide), hne (d := '\t') (by decide),
      hne (d := '\r') (by decide), hne (d := '\n') (by decide)]
  have hstar : c ≠ '*' := hne (by decide)
  have hsymbol : symbol? c = none := by
    rw [Option.eq_none_iff_forall_ne_some]
    intro k hk
    rcases eq_of_symbol? hk with h | h | h | h | h | h | h
    case inr.inl => exact hminus h
    all_goals exact hne (by decide) h
  rw [front, if_neg (hne (by decide)), if_neg (hne (by decide)), if_neg (by decide)]
  unfold plainFront
  simp only [hsep, if_neg hstar, hsymbol, hdigit, hc, Bool.false_eq_true, if_false, if_true]
  rw [run_append_of_forall hcs hmore]
  rfl

/-- A path between quotes has the words that it has without them, and what is behind the quote is
scanned as what is behind the path. -/
theorem forget_scan_quoted_path {v : List Char} (hv : ∀ d ∈ v.head?, isIdentChar d = false) :
    ∀ {p : List Char}, IsPlainPath p → ∀ opening here here' : Position,
      (scan (some opening) here (p ++ '\x22' :: v)).mapSpan .forget =
        (scan none here' (p ++ v)).mapSpan .forget
  | [], _, opening, here, here' => by
    rw [List.nil_append, List.nil_append, scan_of_quote rfl]
    exact forget_scan _ _ _
  | c :: cs, hp, opening, here, here' => by
    by_cases hdot : c = '.'
    · subst hdot
      have hrest : IsPlainPath cs :=
        @IsPlainPath.of_append cs ['.'] hp (.inl fun d hd => (Option.some.inj hd).symm)
      rw [List.cons_append, List.cons_append, scan_of_token rfl, scan_of_token rfl]
      exact Scanned.forget_prepend_eq rfl (forget_scan_quoted_path hv hrest _ _ _)
    · obtain ⟨name, rest, rfl, hname, ⟨hdigit, hminus⟩, hhead, hrest⟩ := hp.exists_name hdot
      have hquotedName : ∀ d ∈ c :: name, isQuotedIdentChar d = true :=
        fun d hd => isQuotedIdentChar_of_isIdentChar (hname d hd)
      -- The name ends at a dot, or where the path does, and there it ends in both texts.
      have hquotedEnd : ∀ d ∈ (rest ++ '\x22' :: v).head?, isQuotedIdentChar d = false := by
        cases rest with
        | nil => exact fun d hd => by rw [← Option.some.inj hd]; decide
        | cons e rest => exact fun d hd => by rw [hhead d hd]; decide
      have hplainEnd : ∀ d ∈ (rest ++ v).head?, isIdentChar d = false := by
        cases rest with
        | nil => exact hv
        | cons e rest => exact fun d hd => by rw [hhead d hd]; decide
      have hquoted := front_quoted hquotedName hquotedEnd
      have hplain := front_plain hname hdigit hminus hplainEnd
      rw [List.cons_append, List.append_assoc, List.cons_append, List.append_assoc,
        scan_of_token (by rw [Option.isSome_some, hquoted]),
        scan_of_token (by rw [Option.isSome_none, hplain]), Option.isSome_some, Option.isSome_none,
        hquoted, hplain]
      exact Scanned.forget_prepend_eq rfl (forget_scan_quoted_path hv hrest _ _ _)
termination_by p => p.length

/-- **A path in a text may be put between quotes.** Let it stand outside quotes, made of names that
may stand there and of dots, with no character of a name before it or behind it. Then the text has
the same words with the quotes, and fails for the same reason if it does. -/
theorem alike_scanAll_quoted {u p v : String} (hu : quotedAfter u.toList = false)
    (hlast : ∀ c ∈ u.toList.getLast?, isIdentChar c = false) (hne : p ≠ "")
    (hp : IsPlainPath p.toList) (hhead : ∀ c ∈ v.toList.head?, isIdentChar c = false) :
    (scanAll (u ++ p ++ v)).Alike (scanAll (u ++ "\x22" ++ p ++ "\x22" ++ v)) := by
  have hplain : (u ++ p ++ v).toList = u.toList ++ (p.toList ++ v.toList) := by
    simp [String.toList_append]
  have hquoted : (u ++ "\x22" ++ p ++ "\x22" ++ v).toList =
      u.toList ++ '\x22' :: (p.toList ++ '\x22' :: v.toList) := by
    simp [String.toList_append]
  have hstar : ∀ d ∈ (p.toList ++ v.toList).head?, d ≠ '*' := by
    obtain ⟨c, cs, hchars⟩ := List.exists_cons_of_ne_nil fun hnil =>
      hne (String.toList_eq_nil_iff.mp hnil)
    rw [hchars]
    rintro d hd rfl
    obtain rfl : c = '*' := Option.some.inj hd
    rcases hp.chars '*' (by rw [hchars]; exact List.mem_cons_self) with hc | hc
    · exact absurd hc (by decide)
    · exact absurd hc (by decide)
  apply Scanned.alike_of_forget_eq
  rw [scanAll, scanAll, hplain, hquoted]
  refine forget_scan_append hstar ?_ (fun here => ?_) ⟨hu, hlast⟩
  · intro d hd
    rw [← Option.some.inj hd]
    decide
  · rw [@scan_of_quote none here '\x22' _ rfl]
    exact (forget_scan_quoted_path hhead hp _ _ _).symm

/-- A path of two names after a quoted one, with a character behind it that cannot be there. -/
theorem alike_scanAll_quoted_dll :
    quotedAfter "\"my game\".exe*".toList = false ∧
    (∀ c ∈ "\"my game\".exe*".toList.getLast?, isIdentChar c = false) ∧
    "user32.dll" ≠ "" ∧ IsPlainPath "user32.dll".toList ∧
    (∀ c ∈ "\t#".toList.head?, isIdentChar c = false) ∧
    (scanAll ("\"my game\".exe*" ++ "user32.dll" ++ "\t#")).Alike
      (scanAll ("\"my game\".exe*" ++ "\x22" ++ "user32.dll" ++ "\x22" ++ "\t#")) := by
  have hu : quotedAfter "\"my game\".exe*".toList = false := by decide
  have hlast : ∀ c ∈ "\"my game\".exe*".toList.getLast?, isIdentChar c = false :=
    fun c hc => by rw [← Option.some.inj hc]; rfl
  have hp : IsPlainPath "user32.dll".toList := by decide
  have hhead : ∀ c ∈ "\t#".toList.head?, isIdentChar c = false :=
    fun c hc => by rw [← Option.some.inj hc]; rfl
  exact ⟨hu, hlast, by decide, hp, hhead, alike_scanAll_quoted hu hlast (by decide) hp hhead⟩

end Lexer
end AddressExpr
