/-
# Which texts cannot be cut into tokens

Whether a character may stand where it does is decided by the quotes before it: between quotes the
characters of quoted names may, and outside quotes those of names, blanks and signs. Quotes and dots
may stand everywhere. The first character that may not (`Lexer.IsLegalText`) ends the scan with an
error about this character. Two other things can be wrong before that: `0x` without a digit, outside
quotes, and a quote that is open where the text ends (`Lexer.Verdict`).

A scan goes by pieces and not by characters, but all characters of a token are of the class that
its first one is of (`Token.Kind.Fits.isLegal`), so that no piece runs over a character that may not
be there.

Key definitions: `Lexer.IsLegalText`, `Lexer.Verdict`.
Key theorems: `Token.Kind.Fits.isLegal`, `Lexer.verdict_tokenize`.
-/
import AddressExpr.Proofs.Spelling

namespace AddressExpr
namespace Lexer

/-! ### Texts of legal characters -/

/-- Every character of the text may stand after the quotes before it. -/
def IsLegalText (text : List Char) : Prop :=
  ∀ pre c post, text = pre ++ c :: post → isLegal (quotedAfter pre) c = true

theorem isLegalText_nil : IsLegalText [] := by
  intro pre c post h
  simp at h

theorem IsLegalText.concat {pre : List Char} {c : Char} (h : IsLegalText pre)
    (hc : isLegal (quotedAfter pre) c = true) : IsLegalText (pre ++ [c]) := by
  intro p d q hsplit
  rcases List.eq_nil_or_concat q with rfl | ⟨q, e, rfl⟩
  · obtain ⟨rfl, hlast⟩ := List.append_inj' hsplit rfl
    obtain ⟨rfl, -⟩ := List.cons.inj hlast
    exact hc
  · have hsplit' : pre ++ [c] = (p ++ d :: q) ++ [e] := by simpa using hsplit
    exact h p d q (List.append_inj' hsplit' rfl).1

/-- A piece without quotes is legal if its characters are where it starts. -/
theorem IsLegalText.append {pre piece : List Char} (h : IsLegalText pre) (hquote : '\x22' ∉ piece)
    (hpiece : ∀ c ∈ piece, isLegal (quotedAfter pre) c = true) : IsLegalText (pre ++ piece) := by
  induction piece generalizing pre with
  | nil => rwa [List.append_nil]
  | cons c piece ih =>
    obtain ⟨hc, hrest⟩ := List.forall_mem_cons.mp hpiece
    rw [List.mem_cons, not_or] at hquote
    obtain ⟨hne, hnotMem⟩ := hquote
    have hsame : quotedAfter (pre ++ [c]) = quotedAfter pre :=
      quotedAfter_append (by simpa using hne)
    rw [List.append_cons]
    refine ih (h.concat hc) hnotMem ?_
    rwa [hsame]

theorem isLegal_quote (quoted : Bool) : isLegal quoted '\x22' = true := rfl

theorem isLegal_of_isSeparator {c : Char} (h : isSeparator c = true) : isLegal false c = true := by
  simp [isLegal, h]

theorem isLegal_of_isIdentChar (quoted : Bool) {c : Char} (h : isIdentChar c = true) :
    isLegal quoted c = true := by
  cases quoted with
  | true => simp [isLegal, isQuotedIdentChar_of_isIdentChar h]
  | false => simp [isLegal, h]

theorem isIdentChar_of_mem_isNumeral {cs : List Char} (h : IsNumeral cs) :
    ∀ c ∈ cs, isIdentChar c = true := by
  rcases h with ⟨c, ds, rfl, hc, hds⟩ | ⟨ds, rfl, -, hds⟩
  · refine List.forall_mem_cons.mpr ⟨?_, fun d hd => isIdentChar_of_isDigit (hds d hd)⟩
    simp [isIdentChar, Char.isAlphanum, hc]
  · refine List.forall_mem_cons.mpr ⟨by decide, List.forall_mem_cons.mpr ⟨by decide, ?_⟩⟩
    exact fun d hd => isIdentChar_of_isDigit (hds d hd)

end Lexer

/-- The characters of a word may all stand where the word may. -/
theorem Token.Kind.Fits.isLegal {quoted : Bool} {k : Token.Kind} (h : k.Fits quoted) :
    ∀ c ∈ k.chars, Lexer.isLegal quoted c = true := by
  cases k with
  | hex text =>
    intro c hc
    exact Lexer.isLegal_of_isIdentChar quoted (Lexer.isIdentChar_of_mem_isNumeral h.2 c hc)
  | ident name =>
    intro c hc
    have hchar := h.2 c hc
    cases quoted with
    | true =>
      rw [if_pos rfl] at hchar
      simp [Lexer.isLegal, hchar]
    | false => exact Lexer.isLegal_of_isIdentChar false hchar
  | dot => exact List.forall_mem_singleton.mpr rfl
  | eof => exact h.elim
  | _ =>
    obtain rfl : quoted = false := h
    exact List.all_eq_true.mp rfl

namespace Lexer

/-! ### What a scan comes to -/

/-- What is wrong with the text, if anything is. -/
inductive Verdict (text : List Char) : Except LexError (List Token) → Prop
  /-- All characters are legal, and every quote is closed. -/
  | tokens {ts : List Token} (hlegal : IsLegalText text) (hclosed : quotedAfter text = false) :
      Verdict text (.ok ts)
  /-- The character is the first one that is not legal. -/
  | unexpectedCharacter {pre post : List Char} {c : Char} (htext : text = pre ++ c :: post)
      (hlegal : IsLegalText pre) (hc : isLegal (quotedAfter pre) c = false) :
      Verdict text (.error ⟨.unexpectedCharacter c, .next pre [c]⟩)
  /-- After `0x` outside quotes there is no digit, and all is legal up to there. -/
  | missingHexDigits {pre post : List Char} (htext : text = pre ++ '0' :: 'x' :: post)
      (hlegal : IsLegalText (pre ++ ['0', 'x'])) (hquoted : quotedAfter pre = false)
      (hdigit : ∀ d ∈ post.head?, Hex.isDigit d = false) :
      Verdict text (.error ⟨.missingHexDigits, .next pre ['0', 'x']⟩)
  /-- All characters are legal, and the last quote is not closed. -/
  | unterminatedQuote {before inside : List Char} (htext : text = before ++ '\x22' :: inside)
      (hinside : '\x22' ∉ inside) (hlegal : IsLegalText text) (hopen : quotedAfter text = true) :
      Verdict text (.error ⟨.unterminatedQuote, .next before ('\x22' :: inside)⟩)

/-- The outcome of a scan. -/
def Scanned.outcome (s : Scanned) : Except LexError (List Token) :=
  match s.failure with
  | none => .ok s.tokens
  | some e => .error e

theorem tokenize_eq_outcome (source : String) : tokenize source = (scanAll source).outcome := by
  unfold tokenize Scanned.outcome
  cases scanAll source with
  | mk tokens failure => cases failure <;> rfl

theorem Verdict.prepend {text : List Char} {s : Scanned} (h : Verdict text s.outcome)
    (ts : List Token) : Verdict text (s.prepend ts).outcome := by
  obtain ⟨tokens, failure⟩ := s
  cases failure with
  | none =>
    cases h with
    | tokens hlegal hclosed => exact .tokens hlegal hclosed
  | some e => exact h

/-- A piece that is no token, behind legal characters, is what the text fails for. -/
theorem verdict_of_isFault {pre piece more : List Char} {problem : LexProblem}
    (hlegal : IsLegalText pre) (h : IsFault (quotedAfter pre) problem piece more) :
    Verdict (pre ++ (piece ++ more)) (.error ⟨problem, .next pre piece⟩) := by
  cases problem with
  | unexpectedCharacter c =>
    obtain ⟨rfl, hc⟩ := h
    exact .unexpectedCharacter rfl hlegal hc
  | missingHexDigits =>
    obtain ⟨rfl, hquoted, hdigit⟩ := h
    have hchars : ∀ c ∈ ['0', 'x'], isLegal (quotedAfter pre) c = true := by
      rw [hquoted]
      exact List.all_eq_true.mp rfl
    exact .missingHexDigits rfl (hlegal.append (by decide) hchars) hquoted hdigit
  | unterminatedQuote => exact h.elim

/-- A scan behind legal characters comes to the verdict on the whole. -/
theorem verdict_scan {pre cs : List Char} {opened : Option Position} {here : Position}
    (hhere : here = .after pre) (hopened : IsOpened pre opened) (hlegal : IsLegalText pre) :
    Verdict (pre ++ cs) (scan opened here cs).outcome := by
  refine scan_induction
    (motive := fun pre cs s => IsLegalText pre → Verdict (pre ++ cs) s.outcome)
    ?done ?unterminated ?quote ?blank ?token ?fault hhere hopened hlegal
  case done =>
    intro pre hquoted hlegal
    rw [List.append_nil]
    exact .tokens hlegal hquoted
  case unterminated =>
    intro before inside hquoted hinside hlegal
    rw [List.append_nil]
    exact .unterminatedQuote rfl hinside hlegal hquoted
  case quote =>
    intro pre cs s ih hlegal
    rw [List.append_cons]
    exact ih (hlegal.concat (isLegal_quote _))
  case blank =>
    intro pre c cs s hquoted hc ih hlegal
    rw [List.append_cons]
    refine ih (hlegal.concat ?_)
    rw [hquoted]
    exact isLegal_of_isSeparator hc
  case token =>
    intro pre c cs kind s hkind ih hlegal
    obtain ⟨hlexeme, hquote, -⟩ := sound_token hkind
    -- a token may be long, but all of it is of the class that its first character is of
    have hchars := (fits_front hkind).isLegal
    rw [Token.Kind.chars_of_lexeme? hlexeme] at hchars
    have hverdict := (ih (hlegal.append hquote hchars)).prepend
      [⟨kind, .next pre (front (quotedAfter pre) c cs).text⟩]
    rwa [List.append_assoc, text_front_append_more] at hverdict
  case fault =>
    intro pre c cs problem hkind hlegal
    have hverdict := verdict_of_isFault hlegal (sound_fault hkind)
    rwa [text_front_append_more] at hverdict

/-- **Why a text is cut into tokens, or is not.** It is only if all its characters are legal and
every quote is closed. Otherwise the error is about the first character that is not legal, or about
`0x` without a digit before that character, or about the last quote, if there is no such
character. -/
theorem verdict_tokenize (source : String) : Verdict source.toList (tokenize source) := by
  rw [tokenize_eq_outcome]
  exact @verdict_scan [] source.toList none .origin rfl rfl isLegalText_nil

end Lexer
end AddressExpr
