/-
# Values and their arithmetic

Expressions are computed in integers of 128 bits with a sign, so that a sum or a
product of addresses, or a difference that is below zero for a while, need not be an
address. An operation whose exact result does not fit has no result
(`Value.Fault.overflow`); nothing wraps around. Division truncates toward zero, and a
power with an exponent below zero is one divided by the power with its opposite, so it
is zero unless the base is one or minus one.

Key definitions: `Value.Fits`, `Value.checked`, `Value.div`, `Value.pow`.
Key theorems: `Value.checked_eq_ok_iff`, `Value.fits_of_pow`.
-/
import AddressExpr.Hex

namespace AddressExpr
namespace Value

/-- The least number that is too large for a value, two to the power of 127. -/
def limit : Int := 0x80000000000000000000000000000000

/-- Whether the integer has 128 bits, one of them for the sign. -/
def Fits (n : Int) : Prop := -limit ≤ n ∧ n < limit

instance (n : Int) : Decidable (Fits n) :=
  inferInstanceAs (Decidable (-limit ≤ n ∧ n < limit))

/-- Why an operation has no result. -/
inductive Fault
  | overflow
  | divisionByZero
deriving DecidableEq, Inhabited

/-- The integer, if it fits. -/
def checked (n : Int) : Except Fault Int :=
  if Fits n then .ok n else .error .overflow

theorem checked_eq_ok_iff {n m : Int} : checked n = .ok m ↔ Fits n ∧ n = m := by
  unfold checked
  split <;> simp [*]

/-- The opposite of a value. -/
def neg (a : Int) : Except Fault Int := checked (-a)

/-- The sum of two values. -/
def add (a b : Int) : Except Fault Int := checked (a + b)

/-- The difference of two values. -/
def sub (a b : Int) : Except Fault Int := checked (a - b)

/-- The product of two values. -/
def mul (a b : Int) : Except Fault Int := checked (a * b)

/-- The quotient of two values, truncated toward zero. -/
def div (a b : Int) : Except Fault Int :=
  if b = 0 then .error .divisionByZero else checked (a.tdiv b)

/-- The base raised to an exponent. The powers of zero, one and minus one are known for
every exponent; every other base is two or more in size, so its powers from the
128th on do not fit. -/
def pow (base exponent : Int) : Except Fault Int :=
  if base = 0 then
    if exponent < 0 then .error .divisionByZero
    else .ok (if exponent = 0 then 1 else 0)
  else if base = 1 then .ok 1
  else if base = -1 then .ok (if exponent % 2 = 0 then 1 else -1)
  else if exponent < 0 then .ok 0
  else if exponent < 128 then checked (Int.pow base exponent.toNat)
  else .error .overflow

/-- The value of a numeral, if it is one and its value fits. -/
def ofNumeral? (cs : List Char) : Option Int :=
  (Hex.int? cs).filter fun n => Fits n

theorem fits_of_checked {n m : Int} (h : checked n = .ok m) : Fits m := by
  obtain ⟨hf, rfl⟩ := checked_eq_ok_iff.mp h
  exact hf

theorem fits_of_div {a b m : Int} (h : div a b = .ok m) : Fits m := by
  unfold div at h
  split at h
  · simp at h
  · exact fits_of_checked h

/-- A power that is a result fits. -/
theorem fits_of_pow {a b m : Int} (h : pow a b = .ok m) : Fits m := by
  unfold pow at h
  split at h
  · split at h
    · simp at h
    · obtain rfl := Except.ok.inj h
      split <;> decide
  split at h
  · obtain rfl := Except.ok.inj h; decide
  split at h
  · obtain rfl := Except.ok.inj h
    split <;> decide
  split at h
  · obtain rfl := Except.ok.inj h; decide
  split at h
  · exact fits_of_checked h
  · simp at h

theorem fits_of_ofNumeral? {cs : List Char} {n : Int} (h : ofNumeral? cs = some n) : Fits n := by
  simpa using (Option.filter_eq_some_iff.mp h).2

end Value
end AddressExpr
