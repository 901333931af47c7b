/-
# The pieces of a text and where its tokens stand

A text is cut into pieces, and each piece is what it is because of its own characters, the one
that follows, and the number of quotes before it (`Lexer.quotedAfter`): a token is as long as it can
be, a blank stands outside quotes, and what can be no token starts with a character that no piece
starts with, or is `0x` without a digit (`Lexer.Piece.Sound`). A scan goes through the pieces one
by one and loses nothing between them (`Lexer.Cut`).

So the tokens stand in the text in their order, each of them where its own text is. What is outside
all of them is quotes, and blanks outside quotes (`Lexer.layout_of_tokenize`).

Key definitions: `Lexer.quotedAfter`, `Lexer.IsMaximal`, `Lexer.Cut`, `Lexer.Layout`.
Key theorems: `Lexer.sound_front`, `Lexer.scan_induction`, `Lexer.cut_scan`,
`Lexer.layout_of_tokenize`.
-/
import AddressExpr.Proofs.Marks
import AddressExpr.Proofs.Scanning

namespace AddressExpr

/-- The characters of the word. The end of the text has none. -/
def Token.Kind.chars (k : Token.Kind) : List Char := (k.lexeme?.getD "").toList

theorem Token.Kind.chars_of_lexeme? {k : Token.Kind} {cs : List Char}
    (h : k.lexeme? = some (.ofList cs)) : k.chars = cs := by
  rw [chars, h, Option.getD_some, String.toList_ofList]

namespace Lexer

/-! ### Between quotes and outside -/

/-- Whether what stands after `pre` is between quotes: the number of quotes before it is odd. -/
def quotedAfter (pre : List Char) : Bool := pre.count '\x22' % 2 == 1

theorem quotedAfter_of_not_mem {cs : List Char} (h : '\x22' ∉ cs) : quotedAfter cs = false := by
  rw [quotedAfter, List.count_eq_zero_of_not_mem h]
  rfl

/-- Two texts one after the other open a quote if one of them does and the other does not. -/
theorem quotedAfter_append_eq (cs ds : List Char) :
    quotedAfter (cs ++ ds) = (quotedAfter cs ^^ quotedAfter ds) := by
  unfold quotedAfter
  rw [List.count_append]
  rcases Nat.mod_two_eq_zero_or_one (cs.count '\x22') with h | h <;>
    rcases Nat.mod_two_eq_zero_or_one (ds.count '\x22') with h' | h' <;>
      simp [Nat.add_mod, h, h']

theorem quotedAfter_append {pre piece : List Char} (h : '\x22' ∉ piece) :
    quotedAfter (pre ++ piece) = quotedAfter pre := by
  rw [quotedAfter_append_eq, quotedAfter_of_not_mem h, Bool.xor_false]

theorem quotedAfter_quote (pre : List Char) :
    quotedAfter (pre ++ ['\x22']) = !quotedAfter pre := by
  have hquote : quotedAfter ['\x22'] = true := rfl
  rw [quotedAfter_append_eq, hquote, Bool.xor_true]

/-- What follows `pre` stands outside quotes, or in the quote that was opened there. -/
def IsOpened (pre : List Char) : Option Position → Prop
  | none => quotedAfter pre = false
  | some opening => quotedAfter pre = true ∧
      ∃ before inside, pre = before ++ '\x22' :: inside ∧ '\x22' ∉ inside ∧
        opening = .after before

namespace IsOpened

variable {pre piece : List Char} {opened : Option Position}

theorem isSome_eq (h : IsOpened pre opened) : opened.isSome = quotedAfter pre := by
  cases opened with
  | none => exact Eq.symm h
  | some opening => exact h.1.symm

theorem quote (h : IsOpened pre opened) :
    IsOpened (pre ++ ['\x22']) (if opened.isSome then none else some (.after pre)) := by
  have hflip := quotedAfter_quote pre
  rw [h.isSome_eq]
  by_cases hquoted : quotedAfter pre = true
  · rw [if_pos hquoted]
    rw [hquoted] at hflip
    exact hflip
  · rw [if_neg hquoted]
    rw [Bool.eq_false_iff.mpr hquoted] at hflip
    exact ⟨hflip, pre, [], rfl, List.not_mem_nil, rfl⟩

theorem append (h : IsOpened pre opened) (hpiece : '\x22' ∉ piece) :
    IsOpened (pre ++ piece) opened := by
  have hsame : quotedAfter (pre ++ piece) = quotedAfter pre := quotedAfter_append hpiece
  cases opened with
  | none => exact hsame.trans h
  | some opening =>
    obtain ⟨hquoted, before, inside, rfl, hinside, hopening⟩ := h
    refine ⟨hsame.trans hquoted, before, inside ++ piece, ?_, ?_, hopening⟩
    · simp
    · simp [hinside, hpiece]

end IsOpened

/-! ### What the pieces are -/

/-- A token of this kind could not be longer, where `more` is behind it. A name outside quotes does
not start with what starts another token, and a numeral stands outside quotes. -/
def IsMaximal (quoted : Bool) (kind : Token.Kind) (more : List Char) : Prop :=
  match kind with
  | .ident name =>
    if quoted then ∀ d ∈ more.head?, isQuotedIdentChar d = false
    else (∀ c ∈ name.toList.head?, c.isDigit = false ∧ c ≠ '-') ∧
      ∀ d ∈ more.head?, isIdentChar d = false
  | .hex text =>
    quoted = false ∧ (∀ d ∈ more.head?, Hex.isDigit d = false) ∧
      (text = "0" → ∀ d ∈ more.head?, d ≠ 'x')
  | .times => ∀ d ∈ more.head?, d ≠ '*'
  | _ => True

/-- Whether a piece may start with the character. -/
def isLegal (quoted : Bool) (c : Char) : Bool :=
  c == '\x22' || c == '.' ||
    if quoted then isQuotedIdentChar c
    else isSeparator c || c == '*' || (symbol? c).isSome || isIdentChar c

/-- The text is what the problem is about, where `more` is behind it. -/
def IsFault (quoted : Bool) (problem : LexProblem) (text more : List Char) : Prop :=
  match problem with
  | .unexpectedCharacter c => text = [c] ∧ isLegal quoted c = false
  | .missingHexDigits =>
    text = ['0', 'x'] ∧ quoted = false ∧ ∀ d ∈ more.head?, Hex.isDigit d = false
  | .unterminatedQuote => False

/-- The piece is what its kind says. -/
def Piece.Sound (quoted : Bool) (p : Piece) : Prop :=
  match p.kind with
  | .quote => p.text = ['\x22']
  | .blank => quoted = false ∧ ∃ c, isSeparator c = true ∧ p.text = [c]
  | .token kind =>
    kind.lexeme? = some (.ofList p.text) ∧ '\x22' ∉ p.text ∧ IsMaximal quoted kind p.more
  | .fault problem => IsFault quoted problem p.text p.more

theorem eq_false_of_mem_head?_dropWhile {p : Char → Bool} {cs : List Char} :
    ∀ d ∈ (cs.dropWhile p).head?, p d = false := by
  intro d hd
  have hhead := List.head?_dropWhile_not p cs
  rw [hd] at hhead
  simpa using hhead

theorem sound_run {quoted : Bool} {p : Char → Bool} {kind : String → Token.Kind}
    {lead cs : List Char} (hkind : ∀ text, (kind text).lexeme? = some text)
    (hlead : '\x22' ∉ lead) (hp : p '\x22' = false)
    (hmaximal : IsMaximal quoted (kind (.ofList (lead ++ cs.takeWhile p))) (cs.dropWhile p)) :
    (run p kind lead cs).Sound quoted := by
  refine ⟨hkind _, ?_, hmaximal⟩
  intro hmem
  rcases List.mem_append.mp hmem with hmem | hmem
  · exact hlead hmem
  · have htake : p '\x22' = true := List.all_eq_true.mp List.all_takeWhile _ hmem
    rw [hp] at htake
    cases htake

theorem sound_quotedFront {c : Char} (hquote : c ≠ '\x22') (hdot : c ≠ '.') (cs : List Char) :
    (quotedFront c cs).Sound true := by
  unfold quotedFront
  split
  · exact sound_run (fun _ => rfl) (by simpa using hquote.symm) (by decide)
      eq_false_of_mem_head?_dropWhile
  · next hc => exact ⟨rfl, by simpa [isLegal, hquote, hdot] using hc⟩

/-- The numeral zero is followed by an `x` only if that belongs to it. -/
theorem sound_run_digit {c : Char} (hc : c.isDigit = true) {cs : List Char}
    (hx : c = '0' → ∀ d ∈ cs.head?, d ≠ 'x') : (run Hex.isDigit .hex [c] cs).Sound false := by
  have hquote : '\x22' ∉ [c] := by
    rintro hmem
    rw [← List.mem_singleton.mp hmem] at hc
    exact absurd hc (by decide)
  refine sound_run (fun _ => rfl) hquote (by decide)
    ⟨rfl, eq_false_of_mem_head?_dropWhile, fun htext => ?_⟩
  have hchars : [c] ++ cs.takeWhile Hex.isDigit = ['0'] := by
    rw [← String.toList_ofList (l := [c] ++ _), htext]
    rfl
  obtain ⟨rfl, htake⟩ := List.cons.inj hchars
  have hdrop := List.takeWhile_append_dropWhile (p := Hex.isDigit) (l := cs)
  rw [show cs.takeWhile Hex.isDigit = [] from htake, List.nil_append] at hdrop
  rw [hdrop]
  exact hx rfl

theorem sound_numeral {c : Char} (hc : c.isDigit = true) (cs : List Char) :
    (numeral c cs).Sound false := by
  by_cases hx : cs.head? = some 'x' ∧ c = '0'
  · obtain ⟨hhead, rfl⟩ := hx
    obtain ⟨rest, rfl⟩ := List.head?_eq_some_iff.mp hhead
    unfold numeral
    simp only [if_true]
    split
    · refine sound_run (fun _ => rfl) (by decide) (by decide)
        ⟨rfl, eq_false_of_mem_head?_dropWhile, fun htext => ?_⟩
      have hchars := congrArg String.toList htext
      simp at hchars
    · next hdigit =>
      refine ⟨rfl, rfl, fun d hd => ?_⟩
      rw [Option.mem_def.mp hd] at hdigit
      simpa using hdigit
  · have hne : c = '0' → ∀ d ∈ cs.head?, d ≠ 'x' := by
      rintro hzero d hd rfl
      exact hx ⟨hd, hzero⟩
    have hrun : numeral c cs = run Hex.isDigit .hex [c] cs := by
      unfold numeral
      split
      · exact if_neg fun hzero => hx ⟨rfl, hzero⟩
      · rfl
    rw [hrun]
    exact sound_run_digit hc hne

theorem symbol?_lexeme? {c : Char} {kind : Token.Kind} (h : symbol? c = some kind) :
    kind.lexeme? = some (.ofList [c]) := by
  rcases eq_of_symbol? h with rfl | rfl | rfl | rfl | rfl | rfl | rfl
  all_goals
    obtain rfl := Option.some.inj h
    rfl

theorem isMaximal_of_symbol? {c : Char} {kind : Token.Kind} (h : symbol? c = some kind)
    (more : List Char) : IsMaximal false kind more := by
  rcases eq_of_symbol? h with rfl | rfl | rfl | rfl | rfl | rfl | rfl
  all_goals
    obtain rfl := Option.some.inj h
    trivial

theorem sound_plainFront {c : Char} (hquote : c ≠ '\x22') (hdot : c ≠ '.') (cs : List Char) :
    (plainFront c cs).Sound false := by
  have hnotMem : '\x22' ∉ [c] := by simpa using hquote.symm
  by_cases hstar : c = '*'
  · subst hstar
    by_cases hnext : cs.head? = some '*'
    · obtain ⟨rest, rfl⟩ := List.head?_eq_some_iff.mp hnext
      exact ⟨rfl, (by decide : '\x22' ∉ ['*', '*']), trivial⟩
    · have hne : ∀ d ∈ cs.head?, d ≠ '*' := by
        rintro d hd rfl
        exact hnext hd
      rw [plainFront_star hne]
      exact ⟨rfl, (by decide : '\x22' ∉ ['*']), hne⟩
  unfold plainFront
  simp only [if_neg hstar]
  by_cases hsep : isSeparator c = true
  · rw [if_pos hsep]
    exact ⟨rfl, c, hsep, rfl⟩
  rw [if_neg hsep]
  cases hsymbol : symbol? c with
  | some kind => exact ⟨symbol?_lexeme? hsymbol, hnotMem, isMaximal_of_symbol? hsymbol cs⟩
  | none =>
    simp only
    by_cases hdigit : c.isDigit = true
    · rw [if_pos hdigit]
      exact sound_numeral hdigit cs
    rw [if_neg hdigit]
    by_cases hident : isIdentChar c = true
    · rw [if_pos hident]
      refine sound_run (fun _ => rfl) hnotMem (by decide)
        ⟨fun d hd => ?_, eq_false_of_mem_head?_dropWhile⟩
      obtain rfl : c = d := by simpa using hd
      refine ⟨Bool.eq_false_iff.mpr hdigit, ?_⟩
      rintro rfl
      cases hsymbol
    · rw [if_neg hident]
      exact ⟨rfl, by simp [isLegal, hquote, hdot, hstar, hsep, hsymbol, hident]⟩

/-- **A piece is what it is taken for.** -/
theorem sound_front (quoted : Bool) (c : Char) (cs : List Char) :
    (front quoted c cs).Sound quoted := by
  unfold front
  by_cases hquote : c = '\x22'
  · rw [if_pos hquote, hquote]
    rfl
  rw [if_neg hquote]
  by_cases hdot : c = '.'
  · rw [if_pos hdot, hdot]
    exact ⟨rfl, (by decide : '\x22' ∉ ['.']), trivial⟩
  rw [if_neg hdot]
  cases quoted with
  | true => exact sound_quotedFront hquote hdot cs
  | false => exact sound_plainFront hquote hdot cs

section

variable {quoted : Bool} {c : Char} {cs : List Char}

theorem sound_blank (h : (front quoted c cs).kind = .blank) :
    quoted = false ∧ ∃ d, isSeparator d = true ∧ (front quoted c cs).text = [d] := by
  have hsound := sound_front quoted c cs
  rwa [Piece.Sound, h] at hsound

theorem sound_token {kind : Token.Kind} (h : (front quoted c cs).kind = .token kind) :
    kind.lexeme? = some (.ofList (front quoted c cs).text) ∧
      '\x22' ∉ (front quoted c cs).text ∧ IsMaximal quoted kind (front quoted c cs).more := by
  have hsound := sound_front quoted c cs
  rwa [Piece.Sound, h] at hsound

theorem sound_fault {problem : LexProblem} (h : (front quoted c cs).kind = .fault problem) :
    IsFault quoted problem (front quoted c cs).text (front quoted c cs).more := by
  have hsound := sound_front quoted c cs
  rwa [Piece.Sound, h] at hsound

end

/-! ### From piece to piece -/

/-- What holds of the end of a text, and of a piece with what is scanned behind it, holds of every
scan. What stands before the piece says where it is and whether it is between quotes. -/
theorem scan_induction {motive : List Char → List Char → Scanned → Prop}
    (done : ∀ {pre}, quotedAfter pre = false → motive pre [] ⟨[.eofAt (.after pre)], none⟩)
    (unterminated : ∀ {before inside}, quotedAfter (before ++ '\x22' :: inside) = true →
      '\x22' ∉ inside → motive (before ++ '\x22' :: inside) []
        ⟨[], some ⟨.unterminatedQuote, .next before ('\x22' :: inside)⟩⟩)
    (quote : ∀ {pre cs r}, motive (pre ++ ['\x22']) cs r → motive pre ('\x22' :: cs) r)
    (blank : ∀ {pre c cs r}, quotedAfter pre = false → isSeparator c = true →
      motive (pre ++ [c]) cs r → motive pre (c :: cs) r)
    (token : ∀ {pre c cs kind r}, (front (quotedAfter pre) c cs).kind = .token kind →
      motive (pre ++ (front (quotedAfter pre) c cs).text) (front (quotedAfter pre) c cs).more r →
        motive pre (c :: cs)
          (r.prepend [⟨kind, .next pre (front (quotedAfter pre) c cs).text⟩]))
    (fault : ∀ {pre c cs problem}, (front (quotedAfter pre) c cs).kind = .fault problem →
      motive pre (c :: cs)
        ⟨[], some ⟨problem, .next pre (front (quotedAfter pre) c cs).text⟩⟩)
    {pre cs : List Char} {opened : Option Position} {here : Position} (hhere : here = .after pre)
    (hopened : IsOpened pre opened) : motive pre cs (scan opened here cs) := by
  fun_induction scan opened here cs generalizing pre with
  | case1 here opening =>
    obtain ⟨hquoted, before, inside, rfl, hinside, rfl⟩ := hopened
    rw [hhere]
    exact unterminated hquoted hinside
  | case2 here =>
    rw [hhere]
    exact done hopened
  | case3 opened here c cs piece next hkind =>
    rename_i ih
    obtain rfl : c = '\x22' := kind_front_eq_quote_iff.mp hkind
    have hnext : next = .after (pre ++ ['\x22']) := by
      rw [Position.after_append, ← hhere]
      rfl
    have hquote := hopened.quote
    rw [← hhere] at hquote
    exact quote (ih hnext hquote)
  | case4 opened here c cs piece next hkind =>
    rename_i ih
    obtain ⟨hquoted, d, hd, htext⟩ := sound_blank hkind
    have hsplit := text_front_append_more opened.isSome c cs
    rw [htext] at hsplit
    obtain ⟨rfl, hmore⟩ := List.cons.inj hsplit
    have hnext : next = .after (pre ++ [d]) := by
      rw [Position.after_append, ← hhere, ← htext]
    have hnotMem : '\x22' ∉ [d] := by
      intro hmem
      rw [← List.mem_singleton.mp hmem] at hd
      exact absurd hd (by decide)
    have hrest := ih hnext (hopened.append hnotMem)
    rw [hopened.isSome_eq] at hquoted
    rw [← hmore]
    exact blank hquoted hd hrest
  | case5 opened here c cs piece next kind hkind rest =>
    rename_i ih
    have hnotMem : '\x22' ∉ piece.text := (sound_token hkind).2.1
    have hnext : next = .after (pre ++ piece.text) := by
      rw [Position.after_append, ← hhere]
    have hrest : motive (pre ++ piece.text) piece.more rest := ih hnext (hopened.append hnotMem)
    have hpiece : piece = front (quotedAfter pre) c cs := by rw [← hopened.isSome_eq]
    rw [hpiece] at hkind hrest hnext
    rw [hhere, hnext]
    exact token hkind hrest
  | case6 opened here c cs piece next problem =>
    rename_i hkind
    have hnext : next = .after (pre ++ piece.text) := by
      rw [Position.after_append, ← hhere]
    have hpiece : piece = front (quotedAfter pre) c cs := by rw [← hopened.isSome_eq]
    rw [hpiece] at hkind hnext
    rw [hhere, hnext]
    exact fault hkind

/-! ### A text is cut into its pieces -/

/-- The text `cs` after the text `pre` is cut into pieces, which are scanned as `r`. -/
inductive Cut : List Char → List Char → Scanned → Prop
  | done {pre : List Char} (h : quotedAfter pre = false) : Cut pre [] ⟨[.eofAt (.after pre)], none⟩
  | unterminated {before inside : List Char}
      (hquoted : quotedAfter (before ++ '\x22' :: inside) = true) (hinside : '\x22' ∉ inside) :
      Cut (before ++ '\x22' :: inside) []
        ⟨[], some ⟨.unterminatedQuote, .next before ('\x22' :: inside)⟩⟩
  | quote {pre cs : List Char} {r : Scanned} (h : Cut (pre ++ ['\x22']) cs r) :
      Cut pre ('\x22' :: cs) r
  | blank {pre cs : List Char} {c : Char} {r : Scanned} (hquoted : quotedAfter pre = false)
      (hc : isSeparator c = true) (h : Cut (pre ++ [c]) cs r) : Cut pre (c :: cs) r
  | token {pre piece cs : List Char} {kind : Token.Kind} {r : Scanned}
      (hlexeme : kind.lexeme? = some (.ofList piece)) (hne : piece ≠ [])
      (hmaximal : IsMaximal (quotedAfter pre) kind cs) (h : Cut (pre ++ piece) cs r) :
      Cut pre (piece ++ cs) (r.prepend [⟨kind, .next pre piece⟩])
  | fault {pre piece cs : List Char} {problem : LexProblem}
      (h : IsFault (quotedAfter pre) problem piece cs) :
      Cut pre (piece ++ cs) ⟨[], some ⟨problem, .next pre piece⟩⟩

/-- **A scan cuts the text that it goes through.** -/
theorem cut_scan {pre cs : List Char} {opened : Option Position} {here : Position}
    (hhere : here = .after pre) (hopened : IsOpened pre opened) :
    Cut pre cs (scan opened here cs) := by
  refine scan_induction (motive := Cut) .done .unterminated .quote .blank ?token ?fault
    hhere hopened
  case token =>
    intro pre c cs kind r hkind ih
    obtain ⟨hlexeme, -, hmaximal⟩ := sound_token hkind
    rw [← text_front_append_more (quotedAfter pre) c cs]
    exact .token hlexeme (text_front_ne_nil _ _ _) hmaximal ih
  case fault =>
    intro pre c cs problem hkind
    have hfault := sound_fault hkind
    rw [← text_front_append_more (quotedAfter pre) c cs]
    exact .fault hfault

/-! ### Where the tokens stand -/

/-- The token is placed in the text: its span is that of its own text, which only the end of the
text does not have, and it is as long as it can be where it stands. -/
def IsPlaced (text : List Char) (t : Token) : Prop :=
  ∃ pre post, text = pre ++ t.kind.chars ++ post ∧ t.span = .next pre t.kind.chars ∧
    (t.kind.chars = [] ↔ t.kind = .eof) ∧ IsMaximal (quotedAfter pre) t.kind post

/-- The span of the token has the character behind `pre` in it. -/
def Covers (t : Token) (pre : List Char) (c : Char) : Prop :=
  t.span.start ≤ .after pre ∧ .after (pre ++ [c]) ≤ t.span.stop

namespace Cut

variable {pre cs : List Char} {r : Scanned}

theorem isPlaced (h : Cut pre cs r) : ∀ t ∈ r.tokens, IsPlaced (pre ++ cs) t := by
  induction h with
  | @done pre hquoted =>
    intro t ht
    obtain rfl := List.mem_singleton.mp ht
    refine ⟨pre, [], ?_, ?_, iff_of_true rfl rfl, trivial⟩
    · exact (List.append_nil _).symm
    · show Span.point _ = .next pre []
      rw [Span.next, List.append_nil, Span.point]
  | unterminated =>
    intro t ht
    cases ht
  | quote h ih => simpa using ih
  | blank hquoted hc h ih => simpa using ih
  | @token pre piece cs kind r hlexeme hne hmaximal h ih =>
    intro t ht
    rcases List.mem_cons.mp ht with rfl | ht
    · obtain rfl : kind.chars = piece := Token.Kind.chars_of_lexeme? hlexeme
      have hkind : kind ≠ .eof := by
        rintro rfl
        exact hne rfl
      exact ⟨pre, cs, (List.append_assoc _ _ _).symm, rfl, iff_of_false hne hkind, hmaximal⟩
    · rw [← List.append_assoc]
      exact ih t ht
  | fault =>
    intro t ht
    cases ht

/-- No token starts before the text that is cut. -/
theorem after_le_start (h : Cut pre cs r) : ∀ t ∈ r.tokens, .after pre ≤ t.span.start := by
  induction h with
  | done hquoted =>
    intro t ht
    obtain rfl := List.mem_singleton.mp ht
    exact Position.le_refl _
  | unterminated => exact nofun
  | quote h ih =>
    intro t ht
    exact Position.le_trans (Position.after_le_after_append _ _) (ih t ht)
  | blank hquoted hc h ih =>
    intro t ht
    exact Position.le_trans (Position.after_le_after_append _ _) (ih t ht)
  | token hlexeme hne hmaximal h ih =>
    intro t ht
    rcases List.mem_cons.mp ht with rfl | ht
    · exact Position.le_refl _
    · exact Position.le_trans (Position.after_le_after_append _ _) (ih t ht)
  | fault => exact nofun

/-- Every token stops where the next one starts, or before. -/
theorem pairwise (h : Cut pre cs r) :
    r.tokens.Pairwise fun t u => t.span.stop ≤ u.span.start := by
  induction h with
  | done hquoted => exact List.pairwise_singleton _ _
  | unterminated => exact .nil
  | quote h ih => exact ih
  | blank hquoted hc h ih => exact ih
  | token hlexeme hne hmaximal h ih => exact .cons h.after_le_start ih
  | fault => exact .nil

/-- Every character is in a token, or it is a quote, or a blank outside quotes. -/
theorem covers_or (h : Cut pre cs r) (hr : r.failure = none) {p q : List Char} {c : Char}
    (hcs : cs = p ++ c :: q) :
    (∃ t ∈ r.tokens, Covers t (pre ++ p) c) ∨ c = '\x22' ∨
      isSeparator c = true ∧ quotedAfter (pre ++ p) = false := by
  induction h generalizing p with
  | done hquoted => simp at hcs
  | unterminated => cases hr
  | quote h ih =>
    cases p with
    | nil => exact .inr (.inl (List.cons.inj hcs).1.symm)
    | cons d p =>
      obtain ⟨rfl, hrest⟩ := List.cons.inj hcs
      simpa using ih hr hrest
  | blank hquoted hc h ih =>
    cases p with
    | nil =>
      obtain ⟨rfl, -⟩ := List.cons.inj hcs
      exact .inr (.inr ⟨hc, by simpa using hquoted⟩)
    | cons d p =>
      obtain ⟨rfl, hrest⟩ := List.cons.inj hcs
      simpa using ih hr hrest
  | @token pre piece cs kind r hlexeme hne hmaximal h ih =>
    -- The character is behind the piece or in it.
    have hbehind {p : List Char} (hcs : cs = p ++ c :: q) :
        (∃ t ∈ (r.prepend [⟨kind, .next pre piece⟩]).tokens, Covers t (pre ++ (piece ++ p)) c) ∨
          c = '\x22' ∨ isSeparator c = true ∧ quotedAfter (pre ++ (piece ++ p)) = false := by
      rw [← List.append_assoc]
      refine (ih hr hcs).imp_left ?_
      rintro ⟨t, ht, hcovers⟩
      exact ⟨t, List.mem_cons_of_mem _ ht, hcovers⟩
    rcases List.append_eq_append_iff.mp hcs with ⟨p', rfl, hrest⟩ | ⟨inside, rfl, hrest⟩
    · exact hbehind hrest
    · cases inside with
      | nil => simpa using hbehind (p := []) hrest.symm
      | cons d inside =>
        obtain ⟨rfl, -⟩ := List.cons.inj hrest
        refine .inl ⟨_, List.mem_cons_self, ?_, ?_⟩
        · exact Position.after_le_after_append pre p
        · have hpiece : pre ++ (p ++ c :: inside) = pre ++ p ++ [c] ++ inside := by simp
          show _ ≤ Position.after (pre ++ (p ++ c :: inside))
          rw [hpiece]
          exact Position.after_le_after_append _ _
  | fault => cases hr

end Cut

/-- The whole text is cut into its pieces. -/
theorem cut_scanAll (source : String) : Cut [] source.toList (scanAll source) :=
  cut_scan rfl rfl

namespace IsPlaced

variable {text : List Char} {t : Token}

theorem marks (h : IsPlaced text t) : t.span.Marks text t.kind.chars := by
  obtain ⟨pre, post, htext, hspan, -⟩ := h
  exact ⟨pre, post, htext, hspan⟩

theorem chars_eq_nil_iff (h : IsPlaced text t) : t.kind.chars = [] ↔ t.kind = .eof := by
  obtain ⟨pre, post, -, -, heof, -⟩ := h
  exact heof

theorem isMaximal (h : IsPlaced text t) {pre piece post : List Char}
    (htext : text = pre ++ piece ++ post) (hspan : t.span = .next pre piece) :
    IsMaximal (quotedAfter pre) t.kind post := by
  obtain ⟨pre', post', htext', hspan', -, hmaximal⟩ := h
  obtain ⟨rfl, -, rfl⟩ := Span.next_injective htext htext' (hspan.symm.trans hspan')
  exact hmaximal

end IsPlaced

/-- The tokens `ts` are parts of the text, in their order, and only quotes and blanks are left. -/
structure Layout (text : List Char) (ts : List Token) : Prop where
  /-- The last token is the end of the text, and no other is. -/
  eof_last : ∃ ws, ts = ws ++ [.eofAt (.after text)] ∧ ∀ t ∈ ws, t.kind ≠ .eof
  /-- No token stops behind the start of a later one. -/
  ordered : ts.Pairwise fun t u => t.span.stop ≤ u.span.start
  /-- Every span starts and stops where a prefix of the text ends. -/
  ends : ∀ t ∈ ts, t.span.start.Ends text ∧ t.span.stop.Ends text
  /-- The span of a word is that of its own text, which is not empty. -/
  word_marked : ∀ t ∈ ts, t.kind ≠ .eof → t.span.isEmpty = false ∧
    ∃ lexeme, t.lexeme? = some lexeme ∧ t.span.Marks text lexeme.toList
  /-- A character outside all tokens is a quote, or a blank outside quotes. -/
  gap : ∀ pre c post, text = pre ++ c :: post →
    (∃ t ∈ ts, Covers t pre c) ∨ c = '\x22' ∨ isSeparator c = true ∧ quotedAfter pre = false
  /-- A token is as long as it can be, where the quotes before it say what it can be. -/
  maximal : ∀ t ∈ ts, ∀ pre piece post, text = pre ++ piece ++ post →
    t.span = .next pre piece → IsMaximal (quotedAfter pre) t.kind post

/-- **The tokens of a text are laid out in it without loss.** -/
theorem layout_of_tokenize {source : String} {ts : List Token} (h : tokenize source = .ok ts) :
    Layout source.toList ts := by
  have hscan := tokenize_eq_ok_iff.mp h
  have hcut := cut_scanAll source
  rw [hscan] at hcut
  have hplaced : ∀ t ∈ ts, IsPlaced source.toList t := hcut.isPlaced
  refine ⟨?eof_last, hcut.pairwise, ?ends, ?word_marked, ?gap, ?maximal⟩
  case eof_last =>
    obtain ⟨ws, hws, hscans⟩ := exists_scans hscan
    rw [Position.advanceBy_origin] at hws
    refine ⟨ws, hws, fun t ht heof => ?_⟩
    have hisEof := hscans.isEof_eq_false t ht
    rw [heof] at hisEof
    cases hisEof
  case ends =>
    intro t ht
    have hmarks := (hplaced t ht).marks
    exact ⟨hmarks.ends_start, hmarks.ends_stop⟩
  case word_marked =>
    intro t ht hword
    have hmarks := (hplaced t ht).marks
    refine ⟨?_, ?_⟩
    · rw [Bool.eq_false_iff, Ne, hmarks.isEmpty_iff, (hplaced t ht).chars_eq_nil_iff]
      exact hword
    · obtain ⟨lexeme, hlexeme⟩ := Option.ne_none_iff_exists'.mp
        fun hnone => hword (Token.Kind.lexeme?_eq_none_iff.mp hnone)
      rw [Token.Kind.chars, hlexeme, Option.getD_some] at hmarks
      exact ⟨lexeme, hlexeme, hmarks⟩
  case gap =>
    intro pre c post hsource
    exact hcut.covers_or rfl hsource
  case maximal =>
    intro t ht pre piece post hsource hspan
    exact (hplaced t ht).isMaximal hsource hspan

/-- A name with a line feed in it and another one, between quotes, and an operator after a blank. -/
theorem layout_of_tokenize_quoted :
    ∃ ts, tokenize "\"a\n.c\" ** 0" = .ok ts ∧
      ts.map (·.kind) = [.ident "a\n", .dot, .ident "c", .power, .hex "0", .eof] ∧
      Layout "\"a\n.c\" ** 0".toList ts := by
  have htokens : tokenize "\"a\n.c\" ** 0" = .ok
      [⟨.ident "a\n", ⟨⟨1, 0, 1⟩, ⟨3, 1, 0⟩⟩⟩, ⟨.dot, ⟨⟨3, 1, 0⟩, ⟨4, 1, 1⟩⟩⟩,
        ⟨.ident "c", ⟨⟨4, 1, 1⟩, ⟨5, 1, 2⟩⟩⟩, ⟨.power, ⟨⟨7, 1, 4⟩, ⟨9, 1, 6⟩⟩⟩,
        ⟨.hex "0", ⟨⟨10, 1, 7⟩, ⟨11, 1, 8⟩⟩⟩, ⟨.eof, ⟨⟨11, 1, 8⟩, ⟨11, 1, 8⟩⟩⟩] := by
    with_unfolding_all rfl
  exact ⟨_, htokens, rfl, layout_of_tokenize htokens⟩

end Lexer
end AddressExpr
