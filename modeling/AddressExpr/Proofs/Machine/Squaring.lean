/-
# Powers by squaring

The exact power is a product of as many factors as the exponent says (`Value.naivePow`). A machine
does not multiply so often. It squares the base and halves the number of factors, and where that
number is odd, one factor is multiplied to an accumulator first (`Register.mulPow?`). Every product
on the way has to fit in a register, and the machine stops at the first that does not.

It never stops too early. The factors that are still to come are squares and so above zero, and an
accumulator that does not fit does not fit after them either. A square that does not fit is above
the limit for a value, which is an odd power of two and no square, so no product fits in which it is
a factor (`Register.mulPow?_eq`). Thus the machine overflows where the exact power does not fit and
nowhere else (`Register.powers_agree`).

Key definitions: `Value.naivePow`, `Register.mulPow?`, `Register.powBySquaring?`.
Key theorems: `Register.mulPow?_eq`, `Register.powBySquaring?_eq`, `Register.powers_agree`.
-/
import AddressExpr.Proofs.Machine.Register

namespace AddressExpr

namespace Value

/-- Naive exponentiation over the integers, which have no bounds. A power is a product of as many
factors as the exponent says, beginning with one, and has to fit. With an exponent below zero it is
one divided by the product with the opposite exponent, truncated toward zero, and the product need
not fit. -/
def naivePow (base exponent : Int) : Except Fault Int :=
  if 0 ≤ exponent then
    if Fits (product base exponent.toNat) then .ok (product base exponent.toNat)
    else .error .overflow
  else if base = 0 then .error .divisionByZero
  else .ok (Int.tdiv 1 (product base (-exponent).toNat))

theorem fits_one_tdiv (a : Int) : Fits (Int.tdiv 1 a) := by
  have habs : (Int.tdiv 1 a).natAbs = 1 / a.natAbs := Int.natAbs_tdiv 1 a
  have hle : 1 / a.natAbs ≤ 1 := Nat.div_le_self 1 a.natAbs
  unfold Fits limit
  omega

theorem pow_eq_naivePow (base exponent : Int) : pow base exponent = naivePow base exponent := by
  rw [pow_eq]
  unfold naivePow exactPow
  by_cases hneg : exponent < 0
  · rw [if_neg (Int.not_le.mpr hneg), if_pos hneg]
    by_cases hbase : base = 0
    · rw [if_pos ⟨hbase, hneg⟩, if_pos hbase]
    · rw [if_neg (fun h => hbase h.1), if_neg hbase, checked_of_fits (fits_one_tdiv _)]
  · rw [if_neg (fun h => hneg h.2), if_neg hneg, if_pos (Int.not_lt.mp hneg)]
    rfl

/-! ### Products that do not fit -/

theorem square_pos {n : Int} (hn : n ≠ 0) : 0 < n * n := by
  rcases Int.lt_or_gt_of_ne hn with hneg | hpos
  · exact Int.mul_pos_of_neg_of_neg hneg hneg
  · exact Int.mul_pos hpos hpos

theorem product_pos {base : Int} (hbase : 0 < base) (n : Nat) : 0 < product base n := by
  induction n with
  | zero => exact Int.zero_lt_one
  | succ n ih => exact Int.mul_pos ih hbase

/-- Twice as many factors are as many squares. -/
theorem product_two_mul (base : Int) (n : Nat) :
    product base (2 * n) = product (base * base) n := by
  induction n with
  | zero => rfl
  | succ n ih =>
    calc product base (2 * n) * base * base
        = product (base * base) n * base * base := by rw [ih]
      _ = product (base * base) n * (base * base) := Int.mul_assoc _ _ _

theorem not_fits_iff {n : Int} : ¬ Fits n ↔ n < -limit ∨ limit ≤ n := by
  unfold Fits
  omega

/-- What does not fit fits no better after a product with a number above zero. -/
theorem not_fits_mul {n m : Int} (hn : ¬ Fits n) (hm : 0 < m) : ¬ Fits (n * m) := by
  have hlimit : 0 < limit := by decide
  rw [not_fits_iff] at hn ⊢
  rcases hn with hlow | hhigh
  · have hle : n * m ≤ n * 1 := Int.mul_le_mul_of_nonpos_left (by omega) (by omega)
    omega
  · have hle : n * 1 ≤ n * m := Int.mul_le_mul_of_nonneg_left (by omega) (by omega)
    omega

/-- The limit is an odd power of two and so no square. A square that does not fit is above it. -/
theorem limit_lt_of_not_fits_square {n : Int} (h : ¬ Fits (n * n)) : limit < n * n := by
  have habs : n * n = ((n.natAbs * n.natAbs : Nat) : Int) := Int.natAbs_mul_self.symm
  have hlarge : limit ≤ n * n := by
    rcases not_fits_iff.mp h with hlow | hhigh
    · have hlimit : 0 < limit := by decide
      omega
    · exact hhigh
  -- The root of the limit is between these two numbers.
  have hroot : 0xB504F333F9DE6484 < n.natAbs := by
    apply Nat.lt_of_not_le
    intro hle
    have hmul : n.natAbs * n.natAbs ≤ 0xB504F333F9DE6484 * 0xB504F333F9DE6484 :=
      Nat.mul_le_mul hle hle
    unfold limit at hlarge
    omega
  have hmul : 0xB504F333F9DE6485 * 0xB504F333F9DE6485 ≤ n.natAbs * n.natAbs :=
    Nat.mul_le_mul hroot hroot
  unfold limit
  omega

/-- Where a square does not fit, no product fits in which it is a factor, unless it is zero. -/
theorem not_fits_mul_product_square {n m : Int} (hn : ¬ Fits (n * n)) (hm : m ≠ 0) {k : Nat}
    (hk : 0 < k) : ¬ Fits (m * product (n * n) k) := by
  have hlimit := limit_lt_of_not_fits_square hn
  have hpos : 0 < limit := by decide
  obtain ⟨k, rfl⟩ := Nat.exists_eq_add_one.mpr hk
  have hmore : 0 < (m * product (n * n) k).natAbs :=
    Int.natAbs_pos.mpr (Int.mul_ne_zero hm (Int.ne_of_gt (product_pos (by omega) k)))
  have hassoc : m * product (n * n) (k + 1) = m * product (n * n) k * (n * n) :=
    (Int.mul_assoc _ _ _).symm
  have habs : (m * product (n * n) k * (n * n)).natAbs =
      (m * product (n * n) k).natAbs * (n * n).natAbs := Int.natAbs_mul _ _
  have hle : 1 * (n * n).natAbs ≤ (m * product (n * n) k).natAbs * (n * n).natAbs :=
    Nat.mul_le_mul_right _ hmore
  rw [hassoc, not_fits_iff]
  omega

/-- What is multiplied when the factors are taken two by two: the odd one first, and then the
squares. -/
theorem mul_product_eq (acc base : Int) (n : Nat) :
    acc * product base n =
      (if n % 2 = 1 then acc * base else acc) * product (base * base) (n / 2) := by
  have htwice := product_two_mul base (n / 2)
  by_cases hodd : n % 2 = 1
  · have hn : n = 2 * (n / 2) + 1 := by omega
    rw [if_pos hodd]
    calc acc * product base n
        = acc * (product base (2 * (n / 2)) * base) := congrArg (fun m => acc * product base m) hn
      _ = acc * (product (base * base) (n / 2) * base) := by rw [htwice]
      _ = acc * base * product (base * base) (n / 2) := by
          rw [Int.mul_comm (product _ _) base, Int.mul_assoc]
  · have hn : n = 2 * (n / 2) := by omega
    rw [if_neg hodd, ← htwice]
    exact congrArg (fun m => acc * product base m) hn

end Value

namespace Register

/-- The accumulator, multiplied with the factor that is left over if their number is odd. -/
def mulOdd? (acc base : Register) (n : Nat) : Option Register :=
  if n % 2 = 1 then acc.mul? base else some acc

/-- The accumulator `acc` times `n` factors that are all `base`, for one factor or more. The base is
squared and the number of factors halved until one is left, which is not squared any more. -/
def mulPow? (acc base : Register) (n : Nat) : Option Register :=
  if h : n ≤ 1 then acc.mul? base
  else do
    let acc ← acc.mulOdd? base n
    let square ← base.mul? base
    mulPow? acc square (n / 2)
termination_by n
decreasing_by omega

/-- The power, by squaring. -/
def powBySquaring? (base : Register) (n : Nat) : Option Register :=
  if n = 0 then some one else mulPow? one base n

theorem ofInt?_toInt (a : Register) : ofInt? a.toInt = some a := ofInt?_of_fits a.2

theorem mulOdd?_eq (acc base : Register) (n : Nat) :
    acc.mulOdd? base n =
      ofInt? (if n % 2 = 1 then acc.toInt * base.toInt else acc.toInt) := by
  unfold mulOdd?
  by_cases hodd : n % 2 = 1
  · rw [if_pos hodd, if_pos hodd]
    rfl
  · rw [if_neg hodd, if_neg hodd, ofInt?_toInt]

/-- **The loop finds the exact product, and stops early only where that does not fit.** -/
theorem mulPow?_eq {acc base : Register} {n : Nat} (hn : 0 < n)
    (hzero : acc.toInt = 0 → base.toInt = 0) :
    acc.mulPow? base n = ofInt? (acc.toInt * Value.product base.toInt n) := by
  fun_induction mulPow? acc base n with
  | case1 acc base n hle =>
    obtain rfl : n = 1 := by omega
    have hone : Value.product base.toInt 1 = base.toInt := Int.one_mul _
    rw [hone]
    rfl
  | case2 acc base n hmany ih =>
    rw [Value.mul_product_eq, mulOdd?_eq]
    generalize hp : (if n % 2 = 1 then acc.toInt * base.toInt else acc.toInt) = p
    -- The accumulator is zero for no base but zero, so it cannot hide a square that does not fit.
    have hpzero : p = 0 → base.toInt = 0 := by
      intro h
      split at hp
      · rcases Int.mul_eq_zero.mp (hp.trans h) with hacc | hbase
        · exact hzero hacc
        · exact hbase
      · exact hzero (hp.trans h)
    have hhalf : 0 < n / 2 := by omega
    by_cases hfits : Value.Fits p
    · rw [ofInt?_of_fits hfits]
      by_cases hsquare : Value.Fits (base.toInt * base.toInt)
      · rw [mul?, ofInt?_of_fits hsquare]
        refine ih ⟨p, hfits⟩ ⟨_, hsquare⟩ hhalf fun h => ?_
        show base.toInt * base.toInt = 0
        rw [hpzero h, Int.zero_mul]
      · have hbase : base.toInt ≠ 0 := by
          intro h
          rw [h] at hsquare
          exact hsquare (by decide)
        have hproduct := Value.not_fits_mul_product_square hsquare (mt hpzero hbase) hhalf
        rw [mul?, ofInt?_of_not_fits hsquare, ofInt?_of_not_fits hproduct]
        rfl
    · have hbase : base.toInt ≠ 0 := by
        intro h
        apply hfits
        rw [← hp, h, Int.mul_zero]
        split
        · decide
        · exact acc.2
      have hpos : 0 < Value.product (base.toInt * base.toInt) (n / 2) :=
        Value.product_pos (Value.square_pos hbase) _
      rw [ofInt?_of_not_fits hfits, ofInt?_of_not_fits (Value.not_fits_mul hfits hpos)]
      rfl

theorem powBySquaring?_eq (base : Register) (n : Nat) : base.powBySquaring? n = base.pow? n := by
  unfold powBySquaring? pow?
  rw [Value.pow_eq_product]
  by_cases hn : n = 0
  · rw [if_pos hn, hn]
    exact (ofInt?_toInt one).symm
  · rw [if_neg hn, mulPow?_eq (Nat.pos_of_ne_zero hn) (fun h => absurd h (by decide))]
    exact congrArg ofInt? (Int.one_mul _)

/-- **Powers are those of naive exponentiation**, for every base and every exponent that a register
can hold. This is so of the powers of values and of those that a machine computes, and the power
that the machine takes is the one found by squaring. -/
theorem powers_agree (base exponent : Register) :
    Value.pow base.toInt exponent.toInt = Value.naivePow base.toInt exponent.toInt ∧
      (base.power exponent).map toInt =
        (Value.naivePow base.toInt exponent.toInt).mapError .failed ∧
      ∀ n, base.pow? n = base.powBySquaring? n := by
  have hpow := Value.pow_eq_naivePow base.toInt exponent.toInt
  refine ⟨hpow, ?_, fun n => (base.powBySquaring?_eq n).symm⟩
  rw [map_power, hpow]

/-- The least value is a power, and no overflow. -/
example : Value.pow (-2) 127 = .ok (-Value.limit) := rfl

end Register
end AddressExpr
