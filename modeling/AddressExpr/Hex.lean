/-
# Hexadecimal numerals

Numbers are read and shown in base 16. Both cases of a letter are read; an
address is shown with upper-case letters and a code point with lower-case ones,
without leading zeros (`Hex.upper`, `Hex.lower`). A numeral that is read may have
any number of leading zeros, and one sign before its digits (`Hex.int?`).

Key definitions: `Hex.digits`, `Hex.digit?`, `Hex.value`, `Hex.int?`.
Key theorems: `Hex.value_upper`, `Hex.all_isDigit_upper`.
-/

namespace AddressExpr
namespace Hex

/-! ### Showing -/

/-- The digits of a number, the most significant first. Zero has one digit. -/
def digits (n : Nat) : List Nat :=
  if n < 16 then [n] else digits (n / 16) ++ [n % 16]

/-- The character of a digit, if ten is written `ten` and the letters go on from there. -/
def digitChar (ten : Char) (d : Nat) : Char :=
  if d < 10 then Char.ofNat ('0'.toNat + d) else Char.ofNat (ten.toNat + (d - 10))

/-- The numeral of a number, with upper-case letters. -/
def upper (n : Nat) : List Char := (digits n).map (digitChar 'A')

/-- The numeral of a number, with lower-case letters. -/
def lower (n : Nat) : List Char := (digits n).map (digitChar 'a')

/-- The text shown for a number: its numeral after `0x`. -/
def render (n : Nat) : String := "0x" ++ String.ofList (upper n)

theorem digits_lt {d : Nat} : ∀ {n : Nat}, d ∈ digits n → d < 16 := by
  intro n
  fun_induction digits n with
  | case1 n h => simp; omega
  | case2 n h ih =>
    simp only [List.mem_append, List.mem_singleton]
    rintro (h | rfl)
    · exact ih h
    · exact Nat.mod_lt _ (by decide)

theorem digits_ne_nil (n : Nat) : digits n ≠ [] := by
  unfold digits; split <;> simp

/-! ### Reading -/

/-- The value of a digit, in either case. -/
def digit? (c : Char) : Option Nat :=
  if '0' ≤ c ∧ c ≤ '9' then some (c.toNat - '0'.toNat)
  else if 'a' ≤ c ∧ c ≤ 'f' then some (c.toNat - 'a'.toNat + 10)
  else if 'A' ≤ c ∧ c ≤ 'F' then some (c.toNat - 'A'.toNat + 10)
  else none

/-- Whether the character is a digit of base 16. -/
def isDigit (c : Char) : Bool := (digit? c).isSome

/-- The value of a run of digits, the most significant first. -/
def value (cs : List Char) : Nat :=
  cs.foldl (fun n c => 16 * n + (digit? c).getD 0) 0

/-- The value of a text that is one digit or more, and nothing else. -/
def nat? (cs : List Char) : Option Nat :=
  if cs ≠ [] ∧ cs.all isDigit = true then some (value cs) else none

/-- The value of a numeral, which may have one sign. -/
def int? : List Char → Option Int
  | '+' :: cs => (nat? cs).map Int.ofNat
  | '-' :: cs => (nat? cs).map fun n => -(n : Int)
  | cs => (nat? cs).map Int.ofNat

theorem value_append_singleton (cs : List Char) (c : Char) :
    value (cs ++ [c]) = 16 * value cs + (digit? c).getD 0 := by
  simp [value]

theorem digit?_digitChar : ∀ d : Nat, d < 16 →
    digit? (digitChar 'A' d) = some d ∧ digit? (digitChar 'a' d) = some d := by
  decide

/-- A numeral that is shown has the value it was shown for. -/
theorem value_upper (n : Nat) : value (upper n) = n := by
  unfold upper
  fun_induction digits n with
  | case1 n h => simp [value, digit?_digitChar n h]
  | case2 n h ih =>
    rw [List.map_append, List.map_singleton, value_append_singleton, ih,
      (digit?_digitChar _ (Nat.mod_lt _ (by decide))).1]
    simp only [Option.getD_some]
    omega

theorem all_isDigit_upper (n : Nat) : (upper n).all isDigit = true := by
  simp only [upper, List.all_map, List.all_eq_true, Function.comp, isDigit]
  intro d hd
  simp [digit?_digitChar d (digits_lt hd)]

end Hex
end AddressExpr
