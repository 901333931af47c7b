/-
# The words that texts have, and a text for any words

Every word that is cut out of a text has the shape of its kind: a numeral is a decimal digit with
hexadecimal ones behind it, or `0x` with at least one, and a name is made of the characters that may
stand between quotes (`Token.Kind.IsWellFormed`). Nothing else is asked of a list of words to be
that of a text. The words are written with a blank between any two of them and with every name
between quotes (`Lexer.spell`), and no word then goes on into the next one
(`Lexer.exists_scans_spell`).

Outside quotes a word may be less than between them. The shape that is found there is finer
(`Token.Kind.Fits`), and all characters of a word that has it may stand where the word does.

Key definitions: `Lexer.IsNumeral`, `Token.Kind.IsWellFormed`, `Token.Kind.Fits`, `Lexer.spell`.
Key theorems: `Lexer.fits_front`, `Lexer.exists_scans_spell`, `Lexer.tokenize_spell`.
-/
import AddressExpr.Proofs.Naming
import AddressExpr.Proofs.Pieces

namespace AddressExpr

/-! ### The shapes of words -/

/-- The text of a numeral: a decimal digit and then hexadecimal ones, or `0x` and at least one. -/
def Lexer.IsNumeral (cs : List Char) : Prop :=
  (∃ c ds, cs = c :: ds ∧ c.isDigit = true ∧ ∀ d ∈ ds, Hex.isDigit d = true) ∨
    ∃ ds, cs = '0' :: 'x' :: ds ∧ ds ≠ [] ∧ ∀ d ∈ ds, Hex.isDigit d = true

namespace Token.Kind

/-- The kind of a word with a text that such a word can have. The end of the text is no word. -/
def IsWellFormed : Token.Kind → Prop
  | hex text => Lexer.IsNumeral text.toList
  | ident name => IsQuotable name
  | eof => False
  | _ => True

/-- The kind of a word that can stand between quotes, or outside. -/
def Fits (quoted : Bool) : Token.Kind → Prop
  | hex text => quoted = false ∧ Lexer.IsNumeral text.toList
  | ident name => name ≠ "" ∧
      ∀ c ∈ name.toList, (if quoted then Lexer.isQuotedIdentChar c else Lexer.isIdentChar c) = true
  | dot => True
  | eof => False
  | _ => quoted = false

end Token.Kind

namespace Lexer

theorem isQuotedIdentChar_of_isIdentChar {c : Char} (h : isIdentChar c = true) :
    isQuotedIdentChar c = true := by
  simp [isQuotedIdentChar, h]

end Lexer

theorem Token.Kind.Fits.isWellFormed {quoted : Bool} {k : Token.Kind} (h : k.Fits quoted) :
    k.IsWellFormed := by
  cases k with
  | hex text => exact h.2
  | ident name =>
    refine ⟨h.1, fun c hc => ?_⟩
    have hchar := h.2 c hc
    cases quoted with
    | true => exact hchar
    | false => exact Lexer.isQuotedIdentChar_of_isIdentChar hchar
  | eof => exact h
  | _ => trivial

namespace Lexer

/-! ### The words of a text -/

theorem ofList_cons_ne_empty (c : Char) (cs : List Char) : String.ofList (c :: cs) ≠ "" := by
  intro h
  have hchars := congrArg String.toList h
  simp at hchars

/-- A run of the characters of names is a name. -/
theorem fits_run_ident {quoted : Bool} {p : Char → Bool} {c : Char} (hc : p c = true)
    (hp : p = if quoted then isQuotedIdentChar else isIdentChar) (cs : List Char) :
    Token.Kind.Fits quoted (.ident (.ofList ([c] ++ cs.takeWhile p))) := by
  refine ⟨ofList_cons_ne_empty c _, fun d hd => ?_⟩
  rw [String.toList_ofList, List.singleton_append] at hd
  have hclass : p d = true := by
    rcases List.mem_cons.mp hd with rfl | hd
    · exact hc
    · exact List.all_eq_true.mp List.all_takeWhile d hd
  rw [hp] at hclass
  cases quoted with
  | true => exact hclass
  | false => exact hclass

theorem fits_run_digit {c : Char} (hc : c.isDigit = true) (cs : List Char) :
    Token.Kind.Fits false (.hex (.ofList ([c] ++ cs.takeWhile Hex.isDigit))) := by
  refine ⟨rfl, .inl ⟨c, cs.takeWhile Hex.isDigit, ?_, hc, ?_⟩⟩
  · rw [String.toList_ofList, List.singleton_append]
  · exact List.all_eq_true.mp List.all_takeWhile

theorem fits_numeral {c : Char} (hc : c.isDigit = true) {cs : List Char} {k : Token.Kind}
    (h : (numeral c cs).kind = .token k) : k.Fits false := by
  unfold numeral at h
  split at h
  · next rest =>
    split at h
    · next hzero =>
      split at h
      · next hdigit =>
        obtain rfl := PieceKind.token.inj h
        refine ⟨rfl, .inr ⟨rest.takeWhile Hex.isDigit, ?_, ?_, ?_⟩⟩
        · rw [String.toList_ofList]
          rfl
        · cases rest with
          | nil => cases hdigit
          | cons d more =>
            have hd : Hex.isDigit d = true := hdigit
            rw [List.takeWhile_cons_of_pos hd]
            exact List.cons_ne_nil _ _
        · exact List.all_eq_true.mp List.all_takeWhile
      · cases h
    · obtain rfl := PieceKind.token.inj h
      exact fits_run_digit hc _
  · obtain rfl := PieceKind.token.inj h
    exact fits_run_digit hc _

theorem fits_of_symbol? {c : Char} {k : Token.Kind} (h : symbol? c = some k) : k.Fits false := by
  rcases eq_of_symbol? h with rfl | rfl | rfl | rfl | rfl | rfl | rfl
  all_goals
    obtain rfl := Option.some.inj h
    rfl

theorem fits_plainFront {c : Char} {cs : List Char} {k : Token.Kind}
    (h : (plainFront c cs).kind = .token k) : k.Fits false := by
  unfold plainFront at h
  split at h
  · cases h
  split at h
  · split at h
    · obtain rfl := PieceKind.token.inj h
      rfl
    · obtain rfl := PieceKind.token.inj h
      rfl
  split at h
  · next hsymbol =>
    obtain rfl := PieceKind.token.inj h
    exact fits_of_symbol? hsymbol
  split at h
  · next hdigit => exact fits_numeral hdigit h
  split at h
  · next hident =>
    obtain rfl := PieceKind.token.inj h
    exact fits_run_ident hident rfl cs
  · cases h

/-- **A token has the shape of its kind where it stands.** -/
theorem fits_front {quoted : Bool} {c : Char} {cs : List Char} {k : Token.Kind}
    (h : (front quoted c cs).kind = .token k) : k.Fits quoted := by
  unfold front at h
  split at h
  · cases h
  split at h
  · obtain rfl := PieceKind.token.inj h
    trivial
  split at h
  · next hquoted =>
    subst hquoted
    unfold quotedFront at h
    split at h
    · next hc =>
      obtain rfl := PieceKind.token.inj h
      exact fits_run_ident hc rfl cs
    · cases h
  · next hquoted =>
    rw [Bool.not_eq_true] at hquoted
    subst hquoted
    exact fits_plainFront h

/-- Every token of a scan is the end of the text or has the shape of its kind. -/
theorem isWellFormed_of_scan {pre cs : List Char} {opened : Option Position} {here : Position}
    (hhere : here = .after pre) (hopened : IsOpened pre opened) :
    ∀ t ∈ (scan opened here cs).tokens, t.kind = .eof ∨ t.kind.IsWellFormed := by
  refine scan_induction
    (motive := fun _ _ s => ∀ t ∈ s.tokens, t.kind = .eof ∨ t.kind.IsWellFormed)
    ?done ?unterminated ?quote ?blank ?token ?fault hhere hopened
  case done =>
    intro pre _
    exact List.forall_mem_singleton.mpr (.inl rfl)
  case unterminated =>
    intro before inside _ _
    exact List.forall_mem_nil _
  case quote =>
    intro pre cs s ih
    exact ih
  case blank =>
    intro pre c cs s _ _ ih
    exact ih
  case token =>
    intro pre c cs kind s hkind ih
    exact List.forall_mem_cons.mpr ⟨.inr (fits_front hkind).isWellFormed, ih⟩
  case fault =>
    intro pre c cs problem _
    exact List.forall_mem_nil _

/-- The tokens of a text are well-formed words and the end of the text. -/
theorem exists_kinds_of_tokenize {source : String} {ts : List Token}
    (h : tokenize source = .ok ts) :
    ∃ ks, ts.map (·.kind) = ks ++ [.eof] ∧ ∀ k ∈ ks, k.IsWellFormed := by
  have hscan := tokenize_eq_ok_iff.mp h
  obtain ⟨ws, rfl, hscans⟩ := exists_scans hscan
  refine ⟨ws.map (·.kind), by simp [Token.eofAt], ?_⟩
  rw [List.forall_mem_map]
  intro t ht
  have hall := @isWellFormed_of_scan [] source.toList none .origin rfl rfl
  rw [show scan none .origin source.toList = _ from hscan] at hall
  refine (hall t (List.mem_append_left _ ht)).resolve_left fun heof => ?_
  have hisEof := hscans.isEof_eq_false t ht
  rw [heof] at hisEof
  cases hisEof

end Lexer

/-! ### A text for the words -/

/-- How a word is written: a name between quotes, and any other word as its own text. -/
def Token.Kind.spelling : Token.Kind → String
  | ident name => "\x22" ++ name ++ "\x22"
  | k => k.lexeme?.getD ""

namespace Lexer

/-- The words with single spaces between them, every name between quotes. -/
def spell (ks : List Token.Kind) : String := " ".intercalate (ks.map Token.Kind.spelling)

theorem toList_spell_cons_cons (k k' : Token.Kind) (ks : List Token.Kind) :
    (spell (k :: k' :: ks)).toList =
      k.spelling.toList ++ ' ' :: (spell (k' :: ks)).toList := by
  rw [spell, List.map_cons, List.map_cons, String.intercalate_cons_cons]
  simp [String.toList_append, spell]

/-- A decimal digit starts a numeral. -/
theorem front_of_isDigit {c : Char} (hc : c.isDigit = true) (cs : List Char) :
    front false c cs = numeral c cs := by
  have hne {d : Char} (hd : d.isDigit = false) : c ≠ d := by
    rintro rfl
    rw [hc] at hd
    cases hd
  have hsep : isSeparator c = false := by
    simp [isSeparator, hne]
  have hsymbol : symbol? c = none := by
    rw [Option.eq_none_iff_forall_ne_some]
    intro k hk
    rcases eq_of_symbol? hk with rfl | rfl | rfl | rfl | rfl | rfl | rfl
    all_goals exact absurd hc (by decide)
  have hstar : c ≠ '*' := hne (by decide)
  rw [front, if_neg (hne (by decide)), if_neg (hne (by decide)), if_neg (by decide)]
  unfold plainFront
  simp only [hsep, if_neg hstar, hsymbol, hc, Bool.false_eq_true, if_false, if_true]

/-- The text of a numeral is one piece. -/
theorem exists_front_of_isNumeral {text : String} (h : IsNumeral text.toList) :
    ∃ c cs, text.toList = c :: cs ∧ front false c cs = ⟨.token (.hex text), c :: cs, []⟩ := by
  rcases h with ⟨c, ds, htext, hc, hds⟩ | ⟨ds, htext, hne, hds⟩
  · refine ⟨c, ds, htext, ?_⟩
    have hx : ∀ d ∈ ds.head?, d ≠ 'x' := by
      rintro d hd rfl
      exact absurd (hds _ (List.mem_of_head? hd)) (by decide)
    rw [front_of_isDigit hc, numeral_of_ne hx, run_of_forall hds, List.singleton_append, ← htext,
      String.ofList_toList]
  · obtain ⟨d, more, rfl⟩ := List.exists_cons_of_ne_nil hne
    refine ⟨'0', 'x' :: d :: more, htext, ?_⟩
    have hd : (d :: more).head?.any Hex.isDigit = true := hds d List.mem_cons_self
    rw [front_of_isDigit (by decide), numeral]
    simp only [if_true, hd]
    rw [run_of_forall hds, List.cons_append, List.singleton_append, ← htext, String.ofList_toList]

/-- A word that is written alone is one token. -/
theorem exists_scans_spelling {k : Token.Kind} (h : k.IsWellFormed) (here : Position) :
    ∃ t, t.kind = k ∧ Scans none here k.spelling.toList [t] := by
  cases k with
  | hex text =>
    obtain ⟨c, cs, htext, hfront⟩ := exists_front_of_isNumeral h
    have htoken := @Scans.token none here c cs [] (.hex text)
    rw [Option.isSome_none, hfront, ← htext] at htoken
    exact ⟨_, rfl, htoken rfl (.inr rfl) (.nil _)⟩
  | ident name =>
    have hclose : Scans (some here) ((here.advanceBy ['\x22']).advanceBy name.toList) ['\x22'] [] :=
      .quote rfl (.nil _)
    have hname := Scans.name h (by decide) hclose
    have htext : (Token.Kind.ident name).spelling.toList =
        '\x22' :: (name.toList ++ ['\x22']) := by
      simp [Token.Kind.spelling, String.toList_append]
    rw [htext]
    exact ⟨_, rfl, .quote rfl hname⟩
  | eof => exact h.elim
  | dot => exact ⟨_, rfl, @Scans.token none here '.' [] [] .dot rfl (.inr rfl) (.nil _)⟩
  | times => exact ⟨_, rfl, @Scans.token none here '*' [] [] .times rfl (.inr rfl) (.nil _)⟩
  | power => exact ⟨_, rfl, @Scans.token none here '*' ['*'] [] .power rfl (.inr rfl) (.nil _)⟩
  | plus => exact ⟨_, rfl, @Scans.symbol here '+' [] [] .plus rfl (.nil _)⟩
  | minus => exact ⟨_, rfl, @Scans.symbol here '-' [] [] .minus rfl (.nil _)⟩
  | divide => exact ⟨_, rfl, @Scans.symbol here '/' [] [] .divide rfl (.nil _)⟩
  | openParen => exact ⟨_, rfl, @Scans.symbol here '(' [] [] .openParen rfl (.nil _)⟩
  | closeParen => exact ⟨_, rfl, @Scans.symbol here ')' [] [] .closeParen rfl (.nil _)⟩
  | openBracket => exact ⟨_, rfl, @Scans.symbol here '[' [] [] .openBracket rfl (.nil _)⟩
  | closeBracket => exact ⟨_, rfl, @Scans.symbol here ']' [] [] .closeBracket rfl (.nil _)⟩

/-- Words that are written with spaces between them are the tokens of the text. -/
theorem exists_scans_spell {ks : List Token.Kind} (h : ∀ k ∈ ks, k.IsWellFormed)
    (here : Position) :
    ∃ ts : List Token, ts.map (·.kind) = ks ∧ Scans none here (spell ks).toList ts := by
  induction ks generalizing here with
  | nil => exact ⟨[], rfl, .nil here⟩
  | cons k ks ih =>
    obtain ⟨hk, hks⟩ := List.forall_mem_cons.mp h
    obtain ⟨t, ht, hword⟩ := exists_scans_spelling hk here
    cases ks with
    | nil =>
      have hspell : spell [k] = k.spelling := String.intercalate_singleton
      rw [hspell]
      exact ⟨[t], by rw [List.map_singleton, ht], hword⟩
    | cons k' ks =>
      obtain ⟨ts, hts, hrest⟩ := ih hks ((here.advanceBy k.spelling.toList).advanceBy [' '])
      -- the blank ends the word, whatever the word is, and the rest is scanned outside quotes
      have hblank : Scans none (here.advanceBy k.spelling.toList)
          (' ' :: (spell (k' :: ks)).toList) ts := .blank rfl (.inr rfl) hrest
      have hbreaks : Breaks (' ' :: (spell (k' :: ks)).toList) := .cons (by decide) (by decide) _
      rw [toList_spell_cons_cons]
      exact ⟨t :: ts, by rw [List.map_cons, ht, hts], hword.append hbreaks hblank⟩

theorem exists_tokenize_spell {ks : List Token.Kind} (h : ∀ k ∈ ks, k.IsWellFormed) :
    ∃ ts, tokenize (spell ks) = .ok ts ∧ ts.map (·.kind) = ks ++ [.eof] := by
  obtain ⟨ws, hws, hscans⟩ := exists_scans_spell h .origin
  refine ⟨_, tokenize_eq_ok_iff.mpr hscans.scan_eq, ?_⟩
  rw [List.map_append, hws]
  rfl

/-- **The lists of words that texts have are those of well-formed words, and a text that is written
for such a list has it.** What is scanned always ends with the end of the text. -/
theorem tokenize_spell :
    (∀ ks, (∃ source ts, tokenize source = .ok ts ∧ ts.map (·.kind) = ks ++ [.eof]) ↔
      ∀ k ∈ ks, k.IsWellFormed) ∧
    (∀ source ts, tokenize source = .ok ts → ∃ ks, ts.map (·.kind) = ks ++ [.eof]) ∧
    ∀ ks, (∀ k ∈ ks, k.IsWellFormed) →
      ∃ ts, tokenize (spell ks) = .ok ts ∧ ts.map (·.kind) = ks ++ [.eof] := by
  refine ⟨fun ks => ⟨?_, fun h => ⟨spell ks, exists_tokenize_spell h⟩⟩, ?_, ?_⟩
  · rintro ⟨source, ts, hts, hkinds⟩
    obtain ⟨ks', hkinds', hks'⟩ := exists_kinds_of_tokenize hts
    rw [hkinds] at hkinds'
    obtain rfl := (List.append_inj' hkinds' rfl).1
    exact hks'
  · intro source ts hts
    obtain ⟨ks, hkinds, -⟩ := exists_kinds_of_tokenize hts
    exact ⟨ks, hkinds⟩
  · intro ks h
    exact exists_tokenize_spell h

/-- Two stars that stay two, a name with a blank and brackets in it, and one with a sign. -/
theorem tokenize_spell_stars :
    (∀ k ∈ [.hex "0x0F", .times, .times, .ident "a (b)", .minus, .ident "-c"],
      Token.Kind.IsWellFormed k) ∧
    spell [.hex "0x0F", .times, .times, .ident "a (b)", .minus, .ident "-c"] =
      "0x0F * * \"a (b)\" - \"-c\"" ∧
    ∃ ts, tokenize "0x0F * * \"a (b)\" - \"-c\"" = .ok ts ∧
      ts.map (·.kind) =
        [.hex "0x0F", .times, .times, .ident "a (b)", .minus, .ident "-c", .eof] := by
  have hwords : ∀ k ∈ [.hex "0x0F", .times, .times, .ident "a (b)", .minus, .ident "-c"],
      Token.Kind.IsWellFormed k := by
    have hnumeral : IsNumeral "0x0F".toList :=
      .inr ⟨['0', 'F'], rfl, nofun, List.all_eq_true.mp rfl⟩
    simp only [List.forall_mem_cons]
    exact ⟨hnumeral, trivial, trivial, ⟨by decide, List.all_eq_true.mp rfl⟩, trivial,
      ⟨by decide, List.all_eq_true.mp rfl⟩, nofun⟩
  have hspell : spell [.hex "0x0F", .times, .times, .ident "a (b)", .minus, .ident "-c"] =
      "0x0F * * \"a (b)\" - \"-c\"" := by decide
  exact ⟨hwords, hspell, hspell ▸ tokenize_spell.2.2 _ hwords⟩

end Lexer
end AddressExpr
