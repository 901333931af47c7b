/-
# Addresses

An address is a number of 64 bits. It is shown in base 16 after `0x`. The values
that an expression is computed in have a wider range and a sign, so a value is
turned into an address by a check (`Address.ofInt?`).

Key definitions: `Address.ofInt?`, `Address.render`.
Key theorems: `Address.ofInt?_eq_some_iff`, `Address.ofInt?_eq_none_iff`.
-/
import AddressExpr.Hex

namespace AddressExpr

/-- A number of 64 bits. -/
abbrev Address := UInt64

namespace Address

/-- The least number that is too large for an address, two to the power of 64. -/
def limit : Int := 0x10000000000000000

/-- The address with this number, if there is one. -/
def ofInt? (n : Int) : Option Address :=
  if 0 ≤ n ∧ n < limit then some (UInt64.ofNat n.toNat) else none

/-- The number of an address. -/
def toInt (a : Address) : Int := (a.toNat : Int)

/-- The text shown for an address. -/
def render (a : Address) : String := Hex.render a.toNat

theorem toInt_nonneg (a : Address) : 0 ≤ toInt a := Int.natCast_nonneg _

theorem toInt_lt (a : Address) : toInt a < limit := by
  have := a.toNat_lt
  unfold toInt limit
  omega

theorem ofInt?_eq_some_iff {n : Int} {a : Address} : ofInt? n = some a ↔ n = toInt a := by
  constructor
  · intro h
    unfold ofInt? at h
    split at h
    · next hn =>
      obtain rfl := Option.some.inj h
      have hlt : n.toNat < UInt64.size := by
        unfold limit at hn
        show n.toNat < 0x10000000000000000
        omega
      rw [toInt, UInt64.toNat_ofNat_of_lt' hlt]
      omega
    · simp at h
  · rintro rfl
    rw [ofInt?, if_pos ⟨toInt_nonneg a, toInt_lt a⟩]
    simp [toInt]

theorem ofInt?_eq_none_iff {n : Int} : ofInt? n = none ↔ n < 0 ∨ limit ≤ n := by
  unfold ofInt?
  split
  · next h => simp; omega
  · next h => simp; omega

end Address
end AddressExpr
