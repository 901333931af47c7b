/-
# Scanning a part of a text

A text is scanned in pieces from the front, so the tokens of a part of it depend on the rest in
two ways only. Where the part starts moves the spans and nothing else (`Lexer.scan_shift`): a
position in the part, counted from where the part starts, is a position in the whole
(`Position.shift`). What is behind the part could make its last piece longer, and it does not
if it starts with a character that no piece goes on with (`Lexer.Breaks`).

So a part that is a text of its own has its own tokens (`Lexer.Scans`). A quote that is open
at its end would let a piece go on, but then the part would not be a text of its own.

Key definitions: `Position.shift`, `Lexer.Breaks`, `Lexer.Scans`.
Key theorems: `Lexer.scan_shift`, `Lexer.front_append`, `Lexer.exists_scans`,
`Lexer.Scans.append`, `Lexer.Scans.shift`.
-/
import AddressExpr.Proofs.Respan
import AddressExpr.Token.Lexer

namespace AddressExpr

/-! ### Where a part starts -/

/-- The position in the whole of the position `q` in a part that starts at `start`. -/
def Position.shift (start q : Position) : Position :=
  ⟨start.index + q.index, start.row + q.row,
    if q.row = 0 then start.column + q.column else q.column⟩

/-- The span in the whole of a span in a part that starts at `start`. -/
def Span.shift (start : Position) (s : Span) : Span :=
  ⟨start.shift s.start, start.shift s.stop⟩

/-- The error with another span. -/
def LexError.mapSpan (f : Span → Span) (e : LexError) : LexError := ⟨e.problem, f e.span⟩

namespace Position

theorem shift_origin (start : Position) : start.shift origin = start := rfl

theorem shift_advance (start q : Position) (c : Char) :
    start.shift (q.advance c) = (start.shift q).advance c := by
  unfold shift advance
  by_cases hc : c = '\n'
  · simp [hc, Nat.add_assoc]
  · by_cases hrow : q.row = 0
    · simp [hc, hrow, Nat.add_assoc]
    · simp [hc, hrow, Nat.add_assoc]

theorem shift_advanceBy (start q : Position) (cs : List Char) :
    start.shift (q.advanceBy cs) = (start.shift q).advanceBy cs := by
  induction cs generalizing q with
  | nil => rfl
  | cons c cs ih => rw [advanceBy_cons, advanceBy_cons, ih, shift_advance]

/-- Positions of a part keep their order. -/
theorem shift_lt_shift_iff {start p q : Position} : start.shift p < start.shift q ↔ p < q := by
  simp only [lt_iff, shift]
  by_cases hrow : p.row = q.row
  · rw [hrow]
    by_cases hzero : q.row = 0
    · rw [if_pos hzero, if_pos hzero]
      omega
    · rw [if_neg hzero, if_neg hzero]
      omega
  · omega

theorem shift_min (start p q : Position) :
    start.shift (min p q) = min (start.shift p) (start.shift q) := by
  show start.shift (if ¬ q < p then p else q) = if ¬ start.shift q < start.shift p then _ else _
  simp only [shift_lt_shift_iff]
  split <;> rfl

theorem shift_max (start p q : Position) :
    start.shift (max p q) = max (start.shift p) (start.shift q) := by
  show start.shift (if ¬ q < p then q else p) = if ¬ start.shift q < start.shift p then _ else _
  simp only [shift_lt_shift_iff]
  split <;> rfl

end Position

theorem Span.shift_cover (start : Position) (s t : Span) :
    (s.cover t).shift start = (s.shift start).cover (t.shift start) := by
  simp only [shift, cover, Position.shift_min, Position.shift_max]

namespace Lexer

/-- The same scan with other spans. -/
def Scanned.mapSpan (f : Span → Span) (s : Scanned) : Scanned :=
  ⟨s.tokens.map (Token.mapSpan f), s.failure.map (LexError.mapSpan f)⟩

/-- The tokens `ts`, and then what is scanned behind them. -/
def Scanned.prepend (ts : List Token) (s : Scanned) : Scanned := ⟨ts ++ s.tokens, s.failure⟩

/-! ### One piece -/

section Step

variable {opened : Option Position} {here : Position} {c : Char} {cs : List Char}

theorem scan_of_quote (h : (front opened.isSome c cs).kind = .quote) :
    scan opened here (c :: cs) =
      scan (if opened.isSome then none else some here)
        (here.advanceBy (front opened.isSome c cs).text) (front opened.isSome c cs).more := by
  rw [scan]
  simp only [h]

theorem scan_of_blank (h : (front opened.isSome c cs).kind = .blank) :
    scan opened here (c :: cs) =
      scan opened (here.advanceBy (front opened.isSome c cs).text)
        (front opened.isSome c cs).more := by
  rw [scan]
  simp only [h]

theorem scan_of_token {kind : Token.Kind} (h : (front opened.isSome c cs).kind = .token kind) :
    scan opened here (c :: cs) =
      (scan opened (here.advanceBy (front opened.isSome c cs).text)
        (front opened.isSome c cs).more).prepend
        [⟨kind, ⟨here, here.advanceBy (front opened.isSome c cs).text⟩⟩] := by
  rw [scan]
  simp only [h]
  rfl

theorem scan_of_fault {problem : LexProblem}
    (h : (front opened.isSome c cs).kind = .fault problem) :
    scan opened here (c :: cs) =
      ⟨[], some ⟨problem, ⟨here, here.advanceBy (front opened.isSome c cs).text⟩⟩⟩ := by
  rw [scan]
  simp only [h]

end Step

/-- A part of a text has the same tokens and the same error wherever it starts. -/
theorem scan_shift (start : Position) (opened : Option Position) (here : Position)
    (cs : List Char) :
    scan (opened.map start.shift) (start.shift here) cs =
      (scan opened here cs).mapSpan (Span.shift start) := by
  have hsome (opened : Option Position) : (opened.map start.shift).isSome = opened.isSome :=
    Option.isSome_map
  fun_induction scan opened here cs with
  | case1 here opening => simp [scan, Scanned.mapSpan, LexError.mapSpan, Span.shift]
  | case2 here => simp [scan, Scanned.mapSpan, Token.mapSpan, Token.eofAt, Span.shift, Span.point]
  | case3 opened here c cs piece next hkind ih =>
    rw [scan_of_quote (by rwa [hsome]), ← Position.shift_advanceBy, hsome]
    cases opened with
    | none => exact ih
    | some opening => exact ih
  | case4 opened here c cs piece next hkind ih =>
    rw [scan_of_blank (by rwa [hsome]), ← Position.shift_advanceBy, hsome]
    exact ih
  | case5 opened here c cs piece next kind hkind rest ih =>
    rw [scan_of_token (by rw [hsome]; exact hkind), ← Position.shift_advanceBy, hsome, ih]
    rfl
  | case6 opened here c cs piece next problem hkind =>
    rw [scan_of_fault (by rw [hsome]; exact hkind), ← Position.shift_advanceBy, hsome]
    rfl

/-! ### What follows a part -/

/-- The text starts with a character that no piece outside quotes goes on with, or is empty. -/
def Breaks (ds : List Char) : Prop := ∀ d ∈ ds.head?, isIdentChar d = false ∧ d ≠ '*'

/-- The piece with more text behind it. -/
def Piece.extend (p : Piece) (ds : List Char) : Piece := { p with more := p.more ++ ds }

/-- A digit may stand in an identifier. -/
theorem isIdentChar_of_isDigit {c : Char} (h : Hex.isDigit c = true) : isIdentChar c = true := by
  have halnum : c.isAlphanum = true := by
    unfold Hex.isDigit Hex.digit? at h
    simp only [Char.le_def, UInt32.le_iff_toNat_le] at h
    unfold Char.isAlphanum Char.isAlpha Char.isUpper Char.isLower Char.isDigit
    simp only [ge_iff_le, UInt32.le_iff_toNat_le, Bool.or_eq_true, Bool.and_eq_true,
      decide_eq_true_eq]
    split at h
    · next hdigit => exact .inr hdigit
    split at h
    · next hlower => exact .inl (.inr ⟨hlower.1, Nat.le_trans hlower.2 (by decide)⟩)
    split at h
    · next hupper => exact .inl (.inl ⟨hupper.1, Nat.le_trans hupper.2 (by decide)⟩)
    · cases h
  simp [isIdentChar, halnum]

theorem Breaks.isDigit_eq_false {ds : List Char} (h : Breaks ds) :
    ∀ d ∈ ds.head?, Hex.isDigit d = false := by
  intro d hd
  by_cases hdigit : Hex.isDigit d = true
  · have := (h d hd).1
    rw [isIdentChar_of_isDigit hdigit] at this
    cases this
  · exact Bool.eq_false_iff.mpr hdigit

/-- A run of characters is not made longer by what is behind it if it ends before that or that
starts with another character. -/
theorem span_append {p : Char → Bool} {ds : List Char} : ∀ {cs : List Char},
    cs.dropWhile p ≠ [] ∨ (∀ d ∈ ds.head?, p d = false) →
      (cs ++ ds).takeWhile p = cs.takeWhile p ∧ (cs ++ ds).dropWhile p = cs.dropWhile p ++ ds
  | [], h => by
    have hds := h.resolve_left (· rfl)
    cases ds with
    | nil => exact ⟨rfl, rfl⟩
    | cons d ds =>
      have hd := hds d rfl
      simp [hd]
  | c :: cs, h => by
    by_cases hc : p c = true
    · rw [List.dropWhile_cons_of_pos hc] at h
      obtain ⟨htake, hdrop⟩ := span_append h
      simp [hc, htake, hdrop]
    · simp [hc]

theorem run_append {p : Char → Bool} {kind : String → Token.Kind} {lead cs ds : List Char}
    (h : (run p kind lead cs).more ≠ [] ∨ ∀ d ∈ ds.head?, p d = false) :
    run p kind lead (cs ++ ds) = (run p kind lead cs).extend ds := by
  obtain ⟨htake, hdrop⟩ := span_append h
  unfold run Piece.extend
  rw [htake, hdrop]

/-- A run goes on to the end of a text of its own characters. -/
theorem run_of_forall {p : Char → Bool} {kind : String → Token.Kind} {lead cs : List Char}
    (h : ∀ c ∈ cs, p c = true) :
    run p kind lead cs = ⟨.token (kind (.ofList (lead ++ cs))), lead ++ cs, []⟩ := by
  have htake : (cs ++ []).takeWhile p = cs ++ [] := List.takeWhile_append_of_pos h
  have hdrop : (cs ++ []).dropWhile p = [] := List.dropWhile_append_of_pos h
  rw [List.append_nil] at htake hdrop
  rw [run, htake, hdrop]

/-- A run of its own characters ends where another one follows. -/
theorem run_append_of_forall {p : Char → Bool} {kind : String → Token.Kind}
    {lead cs ds : List Char} (h : ∀ c ∈ cs, p c = true) (hds : ∀ d ∈ ds.head?, p d = false) :
    run p kind lead (cs ++ ds) = ⟨.token (kind (.ofList (lead ++ cs))), lead ++ cs, ds⟩ := by
  rw [run_append (.inr hds), run_of_forall h]
  rfl

/-- A digit that no `x` follows starts a numeral without `0x`. -/
theorem numeral_of_ne {c : Char} {cs : List Char} (h : ∀ d ∈ cs.head?, d ≠ 'x') :
    numeral c cs = run Hex.isDigit .hex [c] cs := by
  unfold numeral
  split
  · exact absurd rfl (h 'x' rfl)
  · rfl

theorem numeral_append {c : Char} {cs ds : List Char} (h : (numeral c cs).more ≠ [] ∨ Breaks ds) :
    numeral c (cs ++ ds) = (numeral c cs).extend ds := by
  have hdigit := h.imp_right Breaks.isDigit_eq_false
  cases cs with
  | nil =>
    -- Nothing is left of the text, so it is what is behind it that must not start with an x.
    have hds := h.resolve_left (· rfl)
    have hne : ∀ d ∈ ds.head?, d ≠ 'x' := by
      rintro d hd rfl
      exact absurd (hds 'x' hd).1 (by decide)
    rw [List.nil_append, numeral_of_ne hne]
    exact @run_append Hex.isDigit .hex [c] [] ds (.inr hds.isDigit_eq_false)
  | cons d cs =>
    by_cases hd : d = 'x'
    · subst hd
      unfold numeral at hdigit ⊢
      rw [List.cons_append]
      simp only at hdigit ⊢
      by_cases hc : c = '0'
      · rw [if_pos hc] at hdigit
        rw [if_pos hc, if_pos hc]
        have hany : (cs ++ ds).head?.any Hex.isDigit = cs.head?.any Hex.isDigit := by
          cases cs with
          | nil =>
            have hds := hdigit.resolve_left (· rfl)
            cases ds with
            | nil => rfl
            | cons d ds => exact hds d rfl
          | cons e cs => rfl
        rw [hany]
        split
        · next hhead =>
          rw [if_pos hhead] at hdigit
          exact run_append hdigit
        · rfl
      · rw [if_neg hc] at hdigit
        rw [if_neg hc, if_neg hc]
        exact run_append hdigit
    · have hne (more : List Char) : ∀ e ∈ (d :: more).head?, e ≠ 'x' := by
        rintro e he rfl
        exact hd (Option.some.inj he)
      rw [numeral_of_ne (hne cs)] at hdigit ⊢
      rw [List.cons_append, numeral_of_ne (hne _)]
      exact run_append hdigit

theorem kind_front_eq_quote_iff {quoted : Bool} {c : Char} {cs : List Char} :
    (front quoted c cs).kind = .quote ↔ c = '\x22' := by
  constructor
  · intro h
    unfold front quotedFront plainFront numeral run at h
    split at h
    · assumption
    · repeat' split at h
      all_goals cases h
  · rintro rfl
    rfl

theorem quotedFront_append {c : Char} {cs : List Char} (h : (quotedFront c cs).more ≠ [])
    (ds : List Char) : quotedFront c (cs ++ ds) = (quotedFront c cs).extend ds := by
  unfold quotedFront at h ⊢
  by_cases hc : isQuotedIdentChar c = true
  · rw [if_pos hc] at h
    rw [if_pos hc, if_pos hc]
    exact run_append (.inl h)
  · rw [if_neg hc, if_neg hc]
    rfl

/-- A star is alone unless another one follows it. -/
theorem plainFront_star {cs : List Char} (h : ∀ d ∈ cs.head?, d ≠ '*') :
    plainFront '*' cs = ⟨.token .times, ['*'], cs⟩ := by
  unfold plainFront
  rw [if_neg (by decide), if_pos rfl]
  split
  · exact absurd rfl (h '*' rfl)
  · rfl

theorem plainFront_append {c : Char} {cs ds : List Char}
    (h : (plainFront c cs).more ≠ [] ∨ Breaks ds) :
    plainFront c (cs ++ ds) = (plainFront c cs).extend ds := by
  by_cases hstar : c = '*'
  · subst hstar
    cases cs with
    | nil =>
      have hds := h.resolve_left (· rfl)
      rw [List.nil_append, plainFront_star fun d hd => (hds d hd).2]
      rfl
    | cons d cs =>
      by_cases hd : d = '*'
      · subst hd
        rfl
      · have hne (more : List Char) : ∀ e ∈ (d :: more).head?, e ≠ '*' := by
          rintro e he rfl
          exact hd (Option.some.inj he)
        rw [plainFront_star (hne cs), List.cons_append, plainFront_star (hne _)]
        rfl
  unfold plainFront at h ⊢
  simp only [if_neg hstar] at h ⊢
  by_cases hsep : isSeparator c = true
  · rw [if_pos hsep, if_pos hsep]
    rfl
  rw [if_neg hsep] at h
  rw [if_neg hsep, if_neg hsep]
  cases hsymbol : symbol? c with
  | some kind => rfl
  | none =>
    simp only [hsymbol] at h ⊢
    by_cases hdigit : c.isDigit = true
    · rw [if_pos hdigit] at h
      rw [if_pos hdigit, if_pos hdigit]
      exact numeral_append h
    rw [if_neg hdigit] at h
    rw [if_neg hdigit, if_neg hdigit]
    by_cases hident : isIdentChar c = true
    · rw [if_pos hident] at h
      rw [if_pos hident, if_pos hident]
      exact run_append (h.imp_right fun hds d hd => (hds d hd).1)
    · rw [if_neg hident, if_neg hident]
      rfl

/-- A piece is not made longer by what is behind the text if the text goes on behind the piece,
or if the piece is outside quotes and what is behind the text breaks it. -/
theorem front_append {quoted : Bool} {c : Char} {cs ds : List Char}
    (h : (front quoted c cs).more ≠ [] ∨ quoted = false ∧ Breaks ds) :
    front quoted c (cs ++ ds) = (front quoted c cs).extend ds := by
  unfold front at h ⊢
  by_cases hquote : c = '\x22'
  · rw [if_pos hquote, if_pos hquote]
    rfl
  rw [if_neg hquote] at h
  rw [if_neg hquote, if_neg hquote]
  by_cases hdot : c = '.'
  · rw [if_pos hdot, if_pos hdot]
    rfl
  rw [if_neg hdot] at h
  rw [if_neg hdot, if_neg hdot]
  cases quoted with
  | true => exact quotedFront_append (h.resolve_right (Bool.noConfusion ·.1)) ds
  | false => exact plainFront_append (h.imp_right (·.2))

section Step

variable {opened : Option Position} {here : Position} {c : Char} {cs ds : List Char}
  (hfront : front opened.isSome c (cs ++ ds) = (front opened.isSome c cs).extend ds)

include hfront

/-! If its first piece is not made longer, a text with more behind it is scanned up to there as it
is alone. -/

theorem scan_append_of_quote (h : (front opened.isSome c cs).kind = .quote) :
    scan opened here (c :: cs ++ ds) =
      scan (if opened.isSome then none else some here)
        (here.advanceBy (front opened.isSome c cs).text)
        ((front opened.isSome c cs).more ++ ds) := by
  rw [List.cons_append, scan_of_quote (by rw [hfront]; exact h), hfront]
  rfl

theorem scan_append_of_blank (h : (front opened.isSome c cs).kind = .blank) :
    scan opened here (c :: cs ++ ds) =
      scan opened (here.advanceBy (front opened.isSome c cs).text)
        ((front opened.isSome c cs).more ++ ds) := by
  rw [List.cons_append, scan_of_blank (by rw [hfront]; exact h), hfront]
  rfl

theorem scan_append_of_token {kind : Token.Kind}
    (h : (front opened.isSome c cs).kind = .token kind) :
    scan opened here (c :: cs ++ ds) =
      (scan opened (here.advanceBy (front opened.isSome c cs).text)
        ((front opened.isSome c cs).more ++ ds)).prepend
        [⟨kind, ⟨here, here.advanceBy (front opened.isSome c cs).text⟩⟩] := by
  rw [List.cons_append, scan_of_token (by rw [hfront]; exact h), hfront]
  rfl

theorem scan_append_of_fault {problem : LexProblem}
    (h : (front opened.isSome c cs).kind = .fault problem) :
    scan opened here (c :: cs ++ ds) =
      ⟨[], some ⟨problem, ⟨here, here.advanceBy (front opened.isSome c cs).text⟩⟩⟩ := by
  rw [List.cons_append, scan_of_fault (by rw [hfront]; exact h), hfront]
  rfl

end Step

/-! ### Parts that are texts of their own -/

/-- The text `cs` that starts `here` has the tokens `ts`, and whatever is behind it is scanned
from where it ends, if it breaks. -/
structure Scans (opened : Option Position) (here : Position) (cs : List Char)
    (ts : List Token) : Prop where
  isEof_eq_false : ∀ t ∈ ts, t.kind.isEof = false
  scan_append : ∀ ds, Breaks ds →
    scan opened here (cs ++ ds) = (scan none (here.advanceBy cs) ds).prepend ts

theorem breaks_nil : Breaks [] := nofun

theorem Breaks.cons {d : Char} (h : isIdentChar d = false) (hstar : d ≠ '*') (ds : List Char) :
    Breaks (d :: ds) := by
  intro e he
  obtain rfl := Option.some.inj he
  exact ⟨h, hstar⟩

theorem eq_of_symbol? {c : Char} {kind : Token.Kind} (h : symbol? c = some kind) :
    c = '+' ∨ c = '-' ∨ c = '/' ∨ c = '(' ∨ c = ')' ∨ c = '[' ∨ c = ']' := by
  unfold symbol? at h
  repeat' split at h
  all_goals simp_all

theorem symbol?_ne_eof {c : Char} {kind : Token.Kind} (h : symbol? c = some kind) :
    kind ≠ .eof := by
  rintro rfl
  rcases eq_of_symbol? h with rfl | rfl | rfl | rfl | rfl | rfl | rfl
  all_goals cases h

theorem front_of_symbol? {c : Char} {kind : Token.Kind} (h : symbol? c = some kind)
    (cs : List Char) : front false c cs = ⟨.token kind, [c], cs⟩ := by
  rcases eq_of_symbol? h with rfl | rfl | rfl | rfl | rfl | rfl | rfl
  all_goals
    obtain rfl := Option.some.inj h
    rfl

/-- No piece is the end of the text. -/
theorem kind_front_ne_eof {quoted : Bool} {c : Char} {cs : List Char} :
    (front quoted c cs).kind ≠ .token .eof := by
  intro h
  unfold front quotedFront plainFront numeral run at h
  repeat' split at h
  all_goals try cases h
  next hsymbol => exact symbol?_ne_eof hsymbol rfl

/-- A piece and what follows it end where the text ends. -/
theorem advanceBy_front (here : Position) (quoted : Bool) (c : Char) (cs : List Char) :
    (here.advanceBy (front quoted c cs).text).advanceBy (front quoted c cs).more =
      here.advanceBy (c :: cs) := by
  rw [← Position.advanceBy_append, text_front_append_more]

theorem prepend_prepend (ts ts' : List Token) (s : Scanned) :
    (s.prepend ts').prepend ts = s.prepend (ts ++ ts') := by
  simp [Scanned.prepend]

/-- A text inside a quote is not at its end. -/
theorem more_ne_nil_of_scan {opening here : Position} {cs : List Char} {ts : List Token}
    (h : scan (some opening) here cs = ⟨ts, none⟩) : cs ≠ [] := by
  rintro rfl
  rw [scan] at h
  cases h

namespace Scans

variable {opened : Option Position} {here : Position} {c : Char} {cs : List Char}
  {ts ts' : List Token}

theorem nil (here : Position) : Scans none here [] [] := ⟨nofun, fun _ _ => rfl⟩

theorem quote (hkind : (front opened.isSome c cs).kind = .quote)
    (h : Scans (if opened.isSome then none else some here)
      (here.advanceBy (front opened.isSome c cs).text) (front opened.isSome c cs).more ts) :
    Scans opened here (c :: cs) ts := by
  refine ⟨h.isEof_eq_false, fun ds hds => ?_⟩
  have hfront : front opened.isSome c (cs ++ ds) = (front opened.isSome c cs).extend ds := by
    rw [kind_front_eq_quote_iff.mp hkind]
    rfl
  have hscan := h.scan_append ds hds
  rw [advanceBy_front] at hscan
  rw [scan_append_of_quote hfront hkind]
  exact hscan

theorem blank (hkind : (front opened.isSome c cs).kind = .blank)
    (hmore : (front opened.isSome c cs).more ≠ [] ∨ opened.isSome = false)
    (h : Scans opened (here.advanceBy (front opened.isSome c cs).text)
      (front opened.isSome c cs).more ts) :
    Scans opened here (c :: cs) ts := by
  refine ⟨h.isEof_eq_false, fun ds hds => ?_⟩
  have hfront := front_append (hmore.imp_right (⟨·, hds⟩))
  have hscan := h.scan_append ds hds
  rw [advanceBy_front] at hscan
  rw [scan_append_of_blank hfront hkind]
  exact hscan

theorem token {kind : Token.Kind} (hkind : (front opened.isSome c cs).kind = .token kind)
    (hmore : (front opened.isSome c cs).more ≠ [] ∨ opened.isSome = false)
    (h : Scans opened (here.advanceBy (front opened.isSome c cs).text)
      (front opened.isSome c cs).more ts) :
    Scans opened here (c :: cs)
      (⟨kind, ⟨here, here.advanceBy (front opened.isSome c cs).text⟩⟩ :: ts) := by
  refine ⟨?_, fun ds hds => ?_⟩
  · rintro t ht
    rcases List.mem_cons.mp ht with rfl | ht
    · refine Bool.eq_false_iff.mpr fun heof => ?_
      have hkindEof : kind = .eof := eq_of_beq heof
      rw [hkindEof] at hkind
      exact kind_front_ne_eof hkind
    · exact h.isEof_eq_false t ht
  · have hfront := front_append (hmore.imp_right (⟨·, hds⟩))
    have hscan := h.scan_append ds hds
    rw [advanceBy_front] at hscan
    rw [scan_append_of_token hfront hkind]
    exact (congrArg (Scanned.prepend [_]) hscan).trans (prepend_prepend [_] ts _)

/-- A character that is a token is one wherever it stands outside quotes. -/
theorem symbol {kind : Token.Kind} (hc : symbol? c = some kind)
    (h : Scans none (here.advance c) cs ts) :
    Scans none here (c :: cs) (⟨kind, ⟨here, here.advance c⟩⟩ :: ts) := by
  have hfront : front false c cs = ⟨.token kind, [c], cs⟩ := front_of_symbol? hc cs
  have htoken := @token none here c cs ts kind
  rw [Option.isSome_none, hfront] at htoken
  exact htoken rfl (.inr rfl) h

/-- A text alone has its tokens and its end. -/
theorem scan_eq (h : Scans opened here cs ts) :
    scan opened here cs = ⟨ts ++ [.eofAt (here.advanceBy cs)], none⟩ := by
  have hscan := h.scan_append [] breaks_nil
  rw [List.append_nil, scan] at hscan
  exact hscan

/-- Two texts, one after the other, have the tokens of both if the second one breaks. -/
theorem append {ds : List Char} (h : Scans opened here cs ts) (hds : Breaks ds)
    (h' : Scans none (here.advanceBy cs) ds ts') : Scans opened here (cs ++ ds) (ts ++ ts') := by
  refine ⟨?_, fun es hes => ?_⟩
  · intro t ht
    rcases List.mem_append.mp ht with ht | ht
    · exact h.isEof_eq_false t ht
    · exact h'.isEof_eq_false t ht
  · have hbreaks : Breaks (ds ++ es) := by
      cases ds with
      | nil => exact hes
      | cons d ds => exact hds
    rw [List.append_assoc, h.scan_append _ hbreaks, h'.scan_append es hes, prepend_prepend,
      Position.advanceBy_append]

end Scans

/-- **A text that is a list of tokens keeps them whatever breaks it.** The last of them is the end
of the text, and no other is. -/
theorem exists_scans {opened : Option Position} {here : Position} {cs : List Char}
    {ts : List Token} (h : scan opened here cs = ⟨ts, none⟩) :
    ∃ pre, ts = pre ++ [.eofAt (here.advanceBy cs)] ∧ Scans opened here cs pre := by
  -- What is scanned inside a quote up to the end of the text is no list of tokens.
  have hmore {opened : Option Position} {here : Position} {cs : List Char} {ts : List Token}
      (h : scan opened here cs = ⟨ts, none⟩) : cs ≠ [] ∨ opened.isSome = false := by
    cases opened with
    | none => exact .inr rfl
    | some opening => exact .inl (more_ne_nil_of_scan h)
  fun_induction scan opened here cs generalizing ts with
  | case1 here opening => cases h
  | case2 here =>
    cases h
    exact ⟨[], rfl, .nil here⟩
  | case3 opened here c cs piece next hkind =>
    rename_i ih
    have hopened : (if h : opened.isSome then none else some here) =
        if opened.isSome then none else some here := by
      cases opened <;> rfl
    rw [hopened] at ih
    obtain ⟨pre, hts, hpre⟩ := ih h
    rw [advanceBy_front] at hts
    exact ⟨pre, hts, .quote hkind hpre⟩
  | case4 opened here c cs piece next hkind =>
    rename_i ih
    obtain ⟨pre, hts, hpre⟩ := ih h
    rw [advanceBy_front] at hts
    exact ⟨pre, hts, .blank hkind (hmore h) hpre⟩
  | case5 opened here c cs piece next kind hkind rest =>
    rename_i ih
    obtain ⟨rfl, hfailure⟩ := Scanned.mk.inj h
    have hrest : scan opened next piece.more = ⟨rest.tokens, none⟩ := by rw [← hfailure]
    obtain ⟨pre, hts, hpre⟩ := ih hrest
    rw [advanceBy_front] at hts
    refine ⟨⟨kind, ⟨here, next⟩⟩ :: pre, ?_, .token hkind (hmore hrest) hpre⟩
    rw [hts, List.cons_append]
  | case6 opened here c cs piece next problem => cases h

/-- A text that is a list of tokens has them wherever it starts, with their spans moved. -/
theorem Scans.shift {here : Position} {cs : List Char} {ts : List Token}
    (h : Scans none here cs ts) (start : Position) :
    Scans none (start.shift here) cs (ts.map (Token.mapSpan (Span.shift start))) := by
  have hscan := scan_shift start none here cs
  rw [h.scan_eq] at hscan
  obtain ⟨pre, hts, hpre⟩ := exists_scans hscan
  rw [List.map_append] at hts
  rwa [(List.append_inj' hts rfl).1]

theorem tokenize_eq_ok_iff {source : String} {ts : List Token} :
    tokenize source = .ok ts ↔ scanAll source = ⟨ts, none⟩ := by
  unfold tokenize
  split
  · next ts' h => rw [h]; simp
  · next ts' e h => rw [h]; simp

end Lexer
end AddressExpr
