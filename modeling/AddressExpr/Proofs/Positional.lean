/-
# What digits of base 16 are written for

Digits stand for the number that is written in base 16: each counts its rank times sixteen raised to
the number of digits behind it (`Hex.positional`). The ranks are those of the digits in their order,
with small letters or capitals. This is what is meant by the value of a numeral wherever one is
specified; that a program goes from left to right, and takes sixteen times what it has with every
digit more, comes to the same (`Hex.value_eq_positional`).

A numeral is a sign or none and then one digit or more (`Hex.Numeral`). These are the texts that are
read as integers (`Hex.int?_eq_some_iff`).

Key definitions: `Hex.rank`, `Hex.positional`, `Hex.IsDigits`, `Hex.Numeral`.
Key theorems: `Hex.value_eq_positional`, `Hex.int?_eq_some_iff`, `Value.ofNumeral?_eq_some_iff`.
-/
import AddressExpr.Value

namespace AddressExpr
namespace Hex

/-! ### Digits -/

/-- The digits of base 16 in their order, with lower-case letters. -/
def lowerDigits : List Char :=
  ['0', '1', '2', '3', '4', '5', '6', '7', '8', '9', 'a', 'b', 'c', 'd', 'e', 'f']

/-- The digits of base 16 in their order, with upper-case letters. -/
def upperDigits : List Char :=
  ['0', '1', '2', '3', '4', '5', '6', '7', '8', '9', 'A', 'B', 'C', 'D', 'E', 'F']

/-- The number of digits before this one in their order. -/
def rank (c : Char) : Nat :=
  if c ∈ lowerDigits then lowerDigits.idxOf c else upperDigits.idxOf c

/-- The number that the digits are written for, the most significant first. -/
def positional : List Char → Nat
  | [] => 0
  | c :: cs => rank c * Nat.pow 16 cs.length + positional cs

/-- The text is made of digits of base 16, in either case. -/
def IsDigits (cs : List Char) : Prop := ∀ c ∈ cs, c ∈ lowerDigits ∨ c ∈ upperDigits

instance (cs : List Char) : Decidable (IsDigits cs) :=
  List.decidableBAll (fun c => c ∈ lowerDigits ∨ c ∈ upperDigits) cs

theorem digit?_eq_rank {c : Char} (h : c ∈ lowerDigits ∨ c ∈ upperDigits) :
    digit? c = some (rank c) := by
  have hall : (lowerDigits ++ upperDigits).all (fun c => digit? c == some (rank c)) = true := by
    decide
  exact beq_iff_eq.mp (List.all_eq_true.mp hall c (List.mem_append.mpr h))

theorem toNat_le_of_isDigit {c : Char} (h : isDigit c = true) : c.toNat ≤ 102 := by
  unfold isDigit digit? at h
  simp only [Char.le_def, UInt32.le_iff_toNat_le] at h
  split at h
  · next hdigit => exact Nat.le_trans hdigit.2 (by decide)
  split at h
  · next hlower => exact hlower.2
  split at h
  · next hupper => exact Nat.le_trans hupper.2 (by decide)
  · cases h

/-- The digits are those in the two lists. -/
theorem isDigit_iff {c : Char} : isDigit c = true ↔ c ∈ lowerDigits ∨ c ∈ upperDigits := by
  constructor
  · intro h
    have hall : ∀ n ∈ List.range 103, isDigit (Char.ofNat n) = true →
        Char.ofNat n ∈ lowerDigits ∨ Char.ofNat n ∈ upperDigits := by decide
    have hmem := hall c.toNat (List.mem_range.mpr (Nat.lt_succ_of_le (toNat_le_of_isDigit h)))
    rw [Char.ofNat_toNat] at hmem
    exact hmem h
  · intro h
    rw [isDigit, digit?_eq_rank h, Option.isSome_some]

theorem isDigits_iff {cs : List Char} : IsDigits cs ↔ ∀ c ∈ cs, isDigit c = true := by
  simp only [IsDigits, isDigit_iff]

theorem all_isDigit_iff {cs : List Char} : cs.all isDigit = true ↔ IsDigits cs := by
  rw [List.all_eq_true, isDigits_iff]

/-- The digits read so far move up by one place with each digit that follows. -/
theorem foldl_eq_positional {cs : List Char} (h : IsDigits cs) (n : Nat) :
    cs.foldl (fun n c => 16 * n + (digit? c).getD 0) n =
      n * Nat.pow 16 cs.length + positional cs := by
  induction cs generalizing n with
  | nil => simp [positional]
  | cons c cs ih =>
    obtain ⟨hc, hcs⟩ := List.forall_mem_cons.mp h
    have hpow : Nat.pow 16 (cs.length + 1) = Nat.pow 16 cs.length * 16 := rfl
    rw [List.foldl_cons, ih hcs, digit?_eq_rank hc, Option.getD_some, positional,
      List.length_cons, hpow]
    calc (16 * n + rank c) * Nat.pow 16 cs.length + positional cs
        = 16 * n * Nat.pow 16 cs.length + rank c * Nat.pow 16 cs.length + positional cs := by
          rw [Nat.add_mul]
      _ = n * (Nat.pow 16 cs.length * 16) + (rank c * Nat.pow 16 cs.length + positional cs) := by
          rw [Nat.mul_comm 16 n, Nat.mul_assoc, Nat.mul_comm 16, Nat.add_assoc]

/-- **Digits are read as the number that they are written for.** -/
theorem value_eq_positional {cs : List Char} (h : IsDigits cs) : value cs = positional cs := by
  rw [value, foldl_eq_positional h, Nat.zero_mul, Nat.zero_add]

theorem isDigits_upper (n : Nat) : IsDigits (upper n) := all_isDigit_iff.mp (all_isDigit_upper n)

/-! ### Numerals -/

/-- The text is a numeral of the integer: a sign or none, and then one digit or more. -/
inductive Numeral : List Char → Int → Prop
  | unsigned {cs : List Char} (hne : cs ≠ []) (hcs : IsDigits cs) : Numeral cs (positional cs)
  | plus {cs : List Char} (hne : cs ≠ []) (hcs : IsDigits cs) :
      Numeral ('+' :: cs) (positional cs)
  | minus {cs : List Char} (hne : cs ≠ []) (hcs : IsDigits cs) :
      Numeral ('-' :: cs) (-(positional cs : Int))

theorem nat?_eq_some_iff {cs : List Char} {n : Nat} :
    nat? cs = some n ↔ cs ≠ [] ∧ IsDigits cs ∧ positional cs = n := by
  unfold nat?
  by_cases h : cs ≠ [] ∧ cs.all isDigit = true
  · have hcs := all_isDigit_iff.mp h.2
    rw [if_pos h, Option.some_inj, value_eq_positional hcs]
    exact ⟨fun hn => ⟨h.1, hcs, hn⟩, fun h' => h'.2.2⟩
  · rw [if_neg h]
    exact ⟨nofun, fun h' => absurd ⟨h'.1, all_isDigit_iff.mpr h'.2.1⟩ h⟩

/-- Digits do not start with a sign. -/
theorem int?_of_isDigits {cs : List Char} (h : IsDigits cs) :
    int? cs = (nat? cs).map Int.ofNat := by
  unfold int?
  split
  · exact absurd (h '+' List.mem_cons_self) (by decide)
  · exact absurd (h '-' List.mem_cons_self) (by decide)
  · rfl

theorem int?_minus (cs : List Char) : int? ('-' :: cs) = (nat? cs).map fun n => -Int.ofNat n := by
  show Option.map _ (nat? cs >>= _) = _
  cases nat? cs <;> rfl

theorem map_nat?_eq_some_iff {cs : List Char} {f : Nat → Int} {n : Int} :
    (nat? cs).map f = some n ↔ cs ≠ [] ∧ IsDigits cs ∧ f (positional cs) = n := by
  rw [Option.map_eq_some_iff]
  constructor
  · rintro ⟨m, hm, rfl⟩
    obtain ⟨hne, hcs, rfl⟩ := nat?_eq_some_iff.mp hm
    exact ⟨hne, hcs, rfl⟩
  · rintro ⟨hne, hcs, rfl⟩
    exact ⟨_, nat?_eq_some_iff.mpr ⟨hne, hcs, rfl⟩, rfl⟩

/-- What is read as an integer is what is a numeral of it. -/
theorem int?_eq_some_iff {cs : List Char} {n : Int} : int? cs = some n ↔ Numeral cs n := by
  constructor
  · fun_cases int? cs with
    | case1 cs =>
      intro h
      obtain ⟨hne, hcs, rfl⟩ := map_nat?_eq_some_iff.mp h
      exact .plus hne hcs
    | case2 cs =>
      intro h
      change int? ('-' :: cs) = some n at h
      rw [int?_minus] at h
      obtain ⟨hne, hcs, rfl⟩ := map_nat?_eq_some_iff.mp h
      exact .minus hne hcs
    | case3 cs =>
      intro h
      obtain ⟨hne, hcs, rfl⟩ := map_nat?_eq_some_iff.mp h
      exact .unsigned hne hcs
  · rintro (⟨hne, hcs⟩ | ⟨hne, hcs⟩ | ⟨hne, hcs⟩)
    · rw [int?_of_isDigits hcs]
      exact map_nat?_eq_some_iff.mpr ⟨hne, hcs, rfl⟩
    · exact map_nat?_eq_some_iff.mpr ⟨hne, hcs, rfl⟩
    · rw [int?_minus]
      exact map_nat?_eq_some_iff.mpr ⟨hne, hcs, rfl⟩

end Hex

theorem Value.ofNumeral?_eq_some_iff {cs : List Char} {n : Int} :
    Value.ofNumeral? cs = some n ↔ Hex.Numeral cs n ∧ Value.Fits n := by
  rw [Value.ofNumeral?, Option.filter_eq_some_iff, Hex.int?_eq_some_iff, decide_eq_true_eq]

end AddressExpr
