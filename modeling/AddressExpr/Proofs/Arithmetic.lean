/-
# The arithmetic of values is the arithmetic of the integers

Every operator has an exact result over the integers, which have no bounds (`BinaryOp.exact`,
`Sign.exact`). The values are computed with a check, and a power even without one where its
size is known beforehand. What they give is the exact result whenever that fits: the only other
outcomes are a division by zero, which is also what a negative power of zero is, and an overflow
(`BinaryOp.apply_eq`). A base of two or more in size doubles at least with every step, so its
powers from the 128th on do not fit and one divided by any of them is zero (`Value.pow_eq`).

Key definitions: `Value.product`, `Value.exactPow`, `BinaryOp.exact`,
`BinaryOp.DividesByZero`.
Key theorems: `Value.pow_eq`, `BinaryOp.apply_eq`.
-/
import AddressExpr.Expr.Eval

namespace AddressExpr

/-! ### Powers -/

namespace Value

/-- The product of `n` factors that are all `base`. -/
def product (base : Int) : Nat → Int
  | 0 => 1
  | n + 1 => product base n * base

/-- The exact power. If the exponent is below zero it is one divided by the power with the
opposite exponent, truncated toward zero. -/
def exactPow (base exponent : Int) : Int :=
  if exponent < 0 then Int.tdiv 1 (product base (-exponent).toNat)
  else product base exponent.toNat

theorem pow_eq_product (base : Int) (n : Nat) : Int.pow base n = product base n := by
  induction n with
  | zero => exact Int.pow_zero base
  | succ n ih =>
    rw [product, ← ih]
    exact Int.pow_succ base n

theorem product_one (n : Nat) : product 1 n = 1 := by
  induction n with
  | zero => rfl
  | succ n ih => rw [product, ih, Int.mul_one]

theorem product_zero {n : Nat} (hn : 0 < n) : product 0 n = 0 := by
  cases n with
  | zero => omega
  | succ n => rw [product, Int.mul_zero]

/-- The powers of minus one are one and minus one by turns. -/
theorem product_neg_one (n : Nat) : product (-1) n = if n % 2 = 0 then 1 else -1 := by
  induction n with
  | zero => rfl
  | succ n ih =>
    rw [product, ih]
    by_cases hn : n % 2 = 0
    · rw [if_pos hn, if_neg (by omega)]
      rfl
    · rw [if_neg hn, if_pos (by omega)]
      rfl

/-- A base of two or more in size doubles at least with every factor. -/
theorem two_pow_le_natAbs_product {base : Int} (hbase : 2 ≤ base.natAbs) (n : Nat) :
    Nat.pow 2 n ≤ (product base n).natAbs := by
  induction n with
  | zero => exact Nat.le_refl (Nat.pow 2 0)
  | succ n ih =>
    calc Nat.pow 2 n * 2
        ≤ (product base n).natAbs * base.natAbs := Nat.mul_le_mul ih hbase
      _ = (product base n * base).natAbs := (Int.natAbs_mul _ _).symm

theorem not_fits_product {base : Int} (hbase : 2 ≤ base.natAbs) {n : Nat} (hn : 128 ≤ n) :
    ¬ Fits (product base n) := by
  have hgrow := two_pow_le_natAbs_product hbase n
  have hlarge : Nat.pow 2 128 ≤ Nat.pow 2 n := Nat.pow_le_pow_right (by decide) hn
  have htwo : Nat.pow 2 128 = 0x100000000000000000000000000000000 := rfl
  unfold Fits limit
  omega

theorem one_tdiv_eq_zero {a : Int} (ha : 2 ≤ a.natAbs) : Int.tdiv 1 a = 0 := by
  have habs : (Int.tdiv 1 a).natAbs = 1 / a.natAbs := Int.natAbs_tdiv 1 a
  rw [Nat.div_eq_of_lt (show 1 < a.natAbs by omega)] at habs
  exact Int.natAbs_eq_zero.mp habs

theorem exactPow_one (n : Int) : exactPow 1 n = 1 := by
  unfold exactPow
  split
  · rw [product_one]
    rfl
  · rw [product_one]

theorem exactPow_neg_one (n : Int) : exactPow (-1) n = if n % 2 = 0 then 1 else -1 := by
  unfold exactPow
  rw [product_neg_one, product_neg_one]
  by_cases hn : n < 0
  · rw [if_pos hn]
    by_cases hpar : n % 2 = 0
    · rw [if_pos (by omega), if_pos hpar]
      rfl
    · rw [if_neg (by omega), if_neg hpar]
      rfl
  · rw [if_neg hn]
    by_cases hpar : n % 2 = 0
    · rw [if_pos (by omega), if_pos hpar]
    · rw [if_neg (by omega), if_neg hpar]

theorem exactPow_zero {n : Int} (hn : 0 ≤ n) : exactPow 0 n = if n = 0 then 1 else 0 := by
  unfold exactPow
  rw [if_neg (by omega)]
  by_cases h : n = 0
  · rw [if_pos h, h]
    rfl
  · rw [if_neg h, product_zero (by omega)]

theorem exactPow_of_neg {base n : Int} (hbase : 2 ≤ base.natAbs) (hn : n < 0) :
    exactPow base n = 0 := by
  have hgrow := two_pow_le_natAbs_product hbase (-n).toNat
  have htwo : Nat.pow 2 1 ≤ Nat.pow 2 (-n).toNat := Nat.pow_le_pow_right (by decide) (by omega)
  rw [exactPow, if_pos hn]
  exact one_tdiv_eq_zero (Nat.le_trans htwo hgrow)

theorem checked_of_fits {n : Int} (h : Fits n) : checked n = .ok n := if_pos h

theorem checked_of_not_fits {n : Int} (h : ¬ Fits n) : checked n = .error .overflow := if_neg h

/-- A power is the exact power if that fits. -/
theorem pow_eq (base n : Int) :
    pow base n =
      if base = 0 ∧ n < 0 then .error .divisionByZero else checked (exactPow base n) := by
  unfold pow
  by_cases hzero : base = 0
  · subst hzero
    rw [if_pos rfl]
    by_cases hn : n < 0
    · rw [if_pos hn, if_pos ⟨rfl, hn⟩]
    · have hfits : Fits (if n = 0 then 1 else 0) := by split <;> decide
      rw [if_neg hn, if_neg (fun h : (0 : Int) = 0 ∧ n < 0 => hn h.2), exactPow_zero (by omega),
        checked_of_fits hfits]
  rw [if_neg hzero, if_neg (fun h : base = 0 ∧ n < 0 => hzero h.1)]
  by_cases hone : base = 1
  · rw [if_pos hone, hone, exactPow_one]
    rfl
  rw [if_neg hone]
  by_cases hneg : base = -1
  · have hfits : Fits (if n % 2 = 0 then 1 else -1) := by split <;> decide
    rw [if_pos hneg, hneg, exactPow_neg_one, checked_of_fits hfits]
  rw [if_neg hneg]
  have hbase : 2 ≤ base.natAbs := by omega
  by_cases hn : n < 0
  · rw [if_pos hn, exactPow_of_neg hbase hn]
    rfl
  have hexact : exactPow base n = product base n.toNat := if_neg hn
  rw [if_neg hn, hexact, pow_eq_product]
  by_cases hlarge : n < 128
  · rw [if_pos hlarge]
  · rw [if_neg hlarge, checked_of_not_fits (not_fits_product hbase (by omega))]

end Value

/-! ### Operators -/

/-- The exact result of the sign. -/
def Sign.exact : Sign → Int → Int
  | .plus, a => a
  | .minus, a => -a

/-- The exact result of the operator. -/
def BinaryOp.exact : BinaryOp → Int → Int → Int
  | .add, a, b => a + b
  | .sub, a, b => a - b
  | .mul, a, b => a * b
  | .div, a, b => a.tdiv b
  | .pow, a, b => Value.exactPow a b

/-- The operator has no exact result because it divides by zero. -/
def BinaryOp.DividesByZero : BinaryOp → Int → Int → Prop
  | .div, _, b => b = 0
  | .pow, a, b => a = 0 ∧ b < 0
  | _, _, _ => False

instance (op : BinaryOp) (a b : Int) : Decidable (op.DividesByZero a b) :=
  match op with
  | .add => inferInstanceAs (Decidable False)
  | .sub => inferInstanceAs (Decidable False)
  | .mul => inferInstanceAs (Decidable False)
  | .div => inferInstanceAs (Decidable (b = 0))
  | .pow => inferInstanceAs (Decidable (a = 0 ∧ b < 0))

/-- An operator gives its exact result if it has one and that fits. -/
theorem BinaryOp.apply_eq (op : BinaryOp) (a b : Int) :
    op.apply a b =
      if op.DividesByZero a b then .error .divisionByZero else Value.checked (op.exact a b) := by
  cases op with
  | add => rfl
  | sub => rfl
  | mul => rfl
  | div => rfl
  | pow => exact Value.pow_eq a b

theorem Sign.apply_eq (sign : Sign) {a : Int} (h : Value.Fits a) :
    sign.apply a = Value.checked (sign.exact a) := by
  cases sign with
  | plus => exact (Value.checked_of_fits h).symm
  | minus => rfl

end AddressExpr
