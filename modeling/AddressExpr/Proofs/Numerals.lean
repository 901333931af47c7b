/-
# What hexadecimal numerals stand for

A text of hexadecimal digits has the number that is written in base 16 (`Hex.positional`). It comes
to an address if the number has 64 bits, and else to the error that says which of the two limits it
passes (`numeralOutcome`), however many digits it has (`evaluate_digits`).

The digits go one of three ways. After `0x` they are a numeral, and so they are alone if the first
of them is decimal. If that is a letter, they are a name, which is looked up as a symbol first.

Key definitions: `numeralOutcome`.
Key theorems: `numeralOutcome_eq`, `evaluate_digits`.
-/
import AddressExpr.Proofs.Seams

namespace AddressExpr

/-! ### A text that is one word -/

theorem Span.cover_self (s : Span) : s.cover s = s := by
  have hmin : min s.start s.start = s.start := ite_self _
  have hmax : max s.stop s.stop = s.stop := ite_self _
  rw [cover, hmin, hmax]

/-- An expression that is evaluated without reads has the address of its value, if that is one. -/
theorem Expr.evalAddress_of_eval_eq {dir : Directory} {mem : Memory} {e : Expr}
    {value : Except EvalError Int} (h : e.eval dir mem = .ofExcept value) :
    e.evalAddress dir mem = .ofExcept (value.bind (toAddress e.span)) := by
  rw [evalAddress, h]
  cases value with
  | ok n => rfl
  | error err => rfl

section

variable (dir : Directory) (mem : Memory)

/-- A text that is one token has the address of the leaf that the token is. -/
theorem evaluate_of_scans_singleton {source : String} {t : Token} {c : ParseTree}
    {value : Except EvalError Int} (hscans : Lexer.Scans none .origin source.toList [t])
    (hderives : Derives .atom c [t]) (hcost : c.cost = 0)
    (heval : c.expr.eval dir mem = .ofExcept value) :
    evaluate dir mem source =
      .ofExcept ((value.bind (Expr.toAddress c.expr.span)).mapError .evaluating) := by
  have hsum : Derives .sum c [t] := hderives.loosen (by decide)
  rw [evaluate_of_derives_of_cost_le hscans hsum (by omega), Expr.evalAddress_of_eval_eq heval]
  rfl

/-- A text that is a numeral has its value, if that is an address. -/
theorem evaluate_literal {text : String} (h : Lexer.IsNumeral text.toList) :
    evaluate dir mem text =
      .ofExcept (((Expr.numeralValue text (Expr.literalDigits text) (.next [] text.toList)).bind
        (Expr.toAddress (.next [] text.toList))).mapError .evaluating) := by
  obtain ⟨c, cs, htext, hfront⟩ := Lexer.exists_front_of_isNumeral h
  have htoken := @Lexer.Scans.token none .origin c cs [] (.hex text)
  rw [Option.isSome_none, hfront, ← htext, Position.advanceBy_origin] at htoken
  exact evaluate_of_scans_singleton dir mem (htoken rfl (.inr rfl) (.nil _)) (.hex text _) rfl rfl

/-- A text that is a name has what the name stands for. -/
theorem evaluate_name {name : String} {c : Char} {cs : List Char} (hname : name.toList = c :: cs)
    (hchars : ∀ d ∈ c :: cs, Lexer.isIdentChar d = true) (hdigit : c.isDigit = false)
    (hminus : c ≠ '-') :
    evaluate dir mem name =
      .ofExcept (((Expr.resolveName dir ⟨name, .next [] name.toList⟩).bind
        (Expr.toAddress (.next [] name.toList))).mapError .evaluating) := by
  have hfront := @Lexer.front_plain c cs [] hchars hdigit hminus nofun
  rw [List.append_nil, ← hname, String.ofList_toList] at hfront
  have htoken := @Lexer.Scans.token none .origin c cs [] (.ident name)
  rw [Option.isSome_none, hfront, ← hname, Position.advanceBy_origin] at htoken
  have hspan : (Expr.path ⟨⟨name, .next [] name.toList⟩, []⟩).span = .next [] name.toList :=
    Span.cover_self _
  have heval := evaluate_of_scans_singleton dir mem (htoken rfl (.inr rfl) (.nil _))
    (.path name (.next [] name.toList) .nil) rfl rfl
  rwa [ParseTree.expr, hspan] at heval

end

/-! ### Numerals of any length -/

/-- What a text comes to that stands for the number: its address, or the error that says which limit
it passes. The error is about the whole text, and nothing is read. -/
def numeralOutcome (source : String) (n : Nat) : Run Failure Address :=
  if n < Nat.pow 2 64 then .ofExcept (.ok (UInt64.ofNat n))
  else if n < Nat.pow 2 127 then
    .ofExcept (.error (.evaluating ⟨.addressOutOfRange n, .next [] source.toList⟩))
  else .ofExcept (.error (.evaluating ⟨.literalOutOfRange source, .next [] source.toList⟩))

/-- The value of the digits of a text, checked as an address, is what the text comes to. -/
theorem numeralOutcome_eq (source : String) {digits : List Char} (hne : digits ≠ [])
    (hdigits : Hex.IsDigits digits) :
    .ofExcept (((Expr.numeralValue source digits (.next [] source.toList)).bind
        (Expr.toAddress (.next [] source.toList))).mapError .evaluating) =
      numeralOutcome source (Hex.positional digits) := by
  have haddress : Address.limit = (Nat.pow 2 64 : Nat) := rfl
  have hvalue : Value.limit = (Nat.pow 2 127 : Nat) := rfl
  have hle : Nat.pow 2 64 ≤ Nat.pow 2 127 := by decide
  rw [Expr.numeralValue_of_isDigits source hne hdigits, numeralOutcome]
  by_cases hfits : (Hex.positional digits : Int) < Value.limit
  · rw [if_pos hfits, Except.bind]
    by_cases hsmall : Hex.positional digits < Nat.pow 2 64
    · have haddr : Expr.toAddress (.next [] source.toList) (Hex.positional digits : Int) =
          .ok (UInt64.ofNat (Hex.positional digits)) := by
        rw [Expr.toAddress, Address.ofInt?, if_pos (by omega)]
        rfl
      rw [if_pos hsmall, haddr]
      rfl
    · rw [if_neg hsmall, if_pos (by omega), Expr.toAddress_of_limit_le _ (by omega)]
      rfl
  · rw [if_neg hfits, if_neg (by omega), if_neg (by omega)]
    rfl

theorem Lexer.isNumeral_prefixed {digits : List Char} (hne : digits ≠ [])
    (hdigits : Hex.IsDigits digits) : IsNumeral ('0' :: 'x' :: digits) :=
  .inr ⟨digits, rfl, hne, Hex.isDigits_iff.mp hdigits⟩

/-- Digits after `0x` stand for their number. -/
theorem evaluate_prefixed (dir : Directory) (mem : Memory) {h : String} (hne : h ≠ "")
    (hdigits : Hex.IsDigits h.toList) :
    evaluate dir mem ("0x" ++ h) = numeralOutcome ("0x" ++ h) (Hex.positional h.toList) := by
  have hchars : h.toList ≠ [] := fun hnil => hne (String.toList_eq_nil_iff.mp hnil)
  have htext : ("0x" ++ h).toList = '0' :: 'x' :: h.toList := String.toList_append
  have hnumeral : Lexer.IsNumeral ("0x" ++ h).toList := by
    rw [htext]
    exact Lexer.isNumeral_prefixed hchars hdigits
  have hliteral : Expr.literalDigits ("0x" ++ h) = h.toList := by
    rw [Expr.literalDigits, htext]
    rfl
  rw [evaluate_literal dir mem hnumeral, hliteral]
  exact numeralOutcome_eq _ hchars hdigits

/-- Digits of which the first is decimal stand for their number. -/
theorem evaluate_decimal_first (dir : Directory) (mem : Memory) {h : String} {c : Char}
    {cs : List Char} (hchars : h.toList = c :: cs) (hc : c.isDigit = true)
    (hdigits : Hex.IsDigits h.toList) :
    evaluate dir mem h = numeralOutcome h (Hex.positional h.toList) := by
  have hne : h.toList ≠ [] := by
    rw [hchars]
    exact List.cons_ne_nil c cs
  have hrest : ∀ d ∈ cs, Hex.isDigit d = true := by
    intro d hd
    apply Hex.isDigits_iff.mp hdigits
    rw [hchars]
    exact List.mem_cons_of_mem c hd
  have hliteral : Expr.literalDigits h = h.toList := by
    -- No digit is an x, so there is no `0x` to take away.
    unfold Expr.literalDigits
    split
    · next digits hzero =>
      obtain ⟨-, rfl⟩ := List.cons.inj (hchars.symm.trans hzero)
      exact absurd (hrest 'x' List.mem_cons_self) (by decide)
    · rfl
  rw [evaluate_literal dir mem (.inl ⟨c, cs, hchars, hc, hrest⟩), hliteral]
  exact numeralOutcome_eq h hne hdigits

/-- Digits of which the first is a letter are a name. -/
theorem evaluate_letter_first (dir : Directory) (mem : Memory) {h : String} {c : Char}
    {cs : List Char} (hchars : h.toList = c :: cs) (hc : c.isDigit = false)
    (hdigits : Hex.IsDigits h.toList) :
    evaluate dir mem h =
      match dir.symbol? h with
      | some a => .ofExcept (.ok a)
      | none => numeralOutcome h (Hex.positional h.toList) := by
  have hisDigit := Hex.isDigits_iff.mp hdigits
  have hne : h.toList ≠ [] := by
    rw [hchars]
    exact List.cons_ne_nil c cs
  have hempty : h ≠ "" := fun hnil => hne (String.toList_eq_nil_iff.mpr hnil)
  have hident : ∀ d ∈ c :: cs, Lexer.isIdentChar d = true := by
    rw [← hchars]
    exact fun d hd => Lexer.isIdentChar_of_isDigit (hisDigit d hd)
  have hminus : c ≠ '-' := by
    rintro rfl
    rw [hchars] at hisDigit
    exact absurd (hisDigit '-' List.mem_cons_self) (by decide)
  rw [evaluate_name dir mem hchars hident hc hminus]
  cases hsymbol : dir.symbol? h with
  | some a => rw [Expr.resolveName_of_symbol hsymbol, Except.bind, Expr.toAddress_toInt]; rfl
  | none =>
    have hresolve := @Expr.resolveName_of_isDigits dir h (.next [] h.toList) hempty hsymbol hdigits
    rw [← Expr.numeralValue_of_isDigits h hne hdigits] at hresolve
    rw [hresolve]
    exact numeralOutcome_eq h hne hdigits

/-- **Digits of base 16 stand for the number that they are written for, however many they are.**
After `0x` that is the address of the text if it has 64 bits, else the error that the address is out
of range if it has 127 bits, and else the error that the numeral is. Without `0x` it is the same,
but if the first digit is a letter, a symbol of this name comes first. So what is shown for an
address is read as this address. -/
theorem evaluate_digits (dir : Directory) (mem : Memory) :
    (∀ h : String, h ≠ "" → Hex.IsDigits h.toList →
      evaluate dir mem ("0x" ++ h) = numeralOutcome ("0x" ++ h) (Hex.positional h.toList) ∧
      ((∀ c ∈ h.toList.head?, c.isDigit = true) →
        evaluate dir mem h = numeralOutcome h (Hex.positional h.toList)) ∧
      ((∀ c ∈ h.toList.head?, c.isDigit = false) →
        (dir.symbol? h = none →
          evaluate dir mem h = numeralOutcome h (Hex.positional h.toList)) ∧
        ∀ a, dir.symbol? h = some a → evaluate dir mem h = .ofExcept (.ok a))) ∧
    ∀ a : Address, evaluate dir mem (Address.render a) = .ofExcept (.ok a) := by
  constructor
  · intro h hne hdigits
    obtain ⟨c, cs, hchars⟩ := List.exists_cons_of_ne_nil fun hnil =>
      hne (String.toList_eq_nil_iff.mp hnil)
    have hhead : h.toList.head? = some c := by rw [hchars, List.head?_cons]
    refine ⟨evaluate_prefixed dir mem hne hdigits, fun hdecimal => ?_, fun hletter => ?_⟩
    · exact evaluate_decimal_first dir mem hchars (hdecimal c hhead) hdigits
    · have hname := evaluate_letter_first dir mem hchars (hletter c hhead) hdigits
      refine ⟨fun hsymbol => ?_, fun a hsymbol => ?_⟩
      · rwa [hsymbol] at hname
      · rwa [hsymbol] at hname
  · intro a
    have hdigits : Hex.IsDigits (String.ofList (Hex.upper a.toNat)).toList := by
      rw [String.toList_ofList]
      exact Hex.isDigits_upper a.toNat
    have hne : String.ofList (Hex.upper a.toNat) ≠ "" := by
      intro hnil
      have hchars := congrArg String.toList hnil
      rw [String.toList_ofList] at hchars
      exact Hex.digits_ne_nil a.toNat (List.map_eq_nil_iff.mp hchars)
    have hvalue : Hex.positional (String.ofList (Hex.upper a.toNat)).toList = a.toNat := by
      rw [← Hex.value_eq_positional hdigits, String.toList_ofList, Hex.value_upper]
    have hsmall : a.toNat < Nat.pow 2 64 := a.toNat_lt
    rw [Address.render, Hex.render, evaluate_prefixed dir mem hne hdigits, hvalue, numeralOutcome,
      if_pos hsmall, UInt64.ofNat_toNat]

/-- Zeros before thirty-two digits do not count, and these are the first number that is too large;
`F` is a symbol, and `0F` is not looked up as one. -/
theorem evaluate_digits_limit :
    evaluate .empty .placeholder "0x0080000000000000000000000000000000" =
      .ofExcept (.error (.evaluating ⟨.literalOutOfRange "0x0080000000000000000000000000000000",
        ⟨⟨0, 0, 0⟩, ⟨36, 0, 36⟩⟩⟩)) ∧
    evaluate (.ofEntries [.symbol "F" 1, .symbol "0F" 2]) .placeholder "F" = .ofExcept (.ok 1) ∧
    evaluate (.ofEntries [.symbol "F" 1, .symbol "0F" 2]) .placeholder "0F" =
      .ofExcept (.ok 15) := by
  have hlong : Hex.IsDigits "0080000000000000000000000000000000".toList := by decide
  have hletter : Hex.IsDigits "F".toList := by decide
  have hzero : Hex.IsDigits "0F".toList := by decide
  refine ⟨?_, ?_, ?_⟩
  · exact ((evaluate_digits .empty .placeholder).1 _ (by decide) hlong).1
  · refine (((evaluate_digits _ .placeholder).1 "F" (by decide) hletter).2.2 ?_).2 1 rfl
    rintro c ⟨⟩
    rfl
  · refine ((evaluate_digits _ .placeholder).1 "0F" (by decide) hzero).2.1 ?_
    rintro c ⟨⟩
    rfl

end AddressExpr
