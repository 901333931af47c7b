/-
# How deep an expression can be

Evaluation goes down every branch of an expression, from the root to a leaf, and a branch makes
one turn at every node on its way (`Expr.Branch`). The reader counts levels, and a list that is
read never takes more than `maxLevels` of them at once. But a branch may be longer: an operator
puts all that was read before it one level further down, and that is counted for the operands
that come after it and not for the left operand, whose own levels were given back by then.

So `maxLevels` bounds the turns of a branch that do not go to a left operand
(`ParseTree.descents_le_cost`). A branch that goes to left operands can be longer, up to
`maxLevels` and its triangle number together (`ParseTree.length_le_of_cost_le`). That is reached
with brackets around brackets, each of them followed by as many operators as there is room for
(`ParseTree.tower`).

Key definitions: `Expr.Branch`, `ParseTree.tower`.
Key theorems: `length_branch_of_ofTokens`, `exists_branch_maxLevels_lt`.
-/
import AddressExpr.Proofs.Grammar.Recognition

namespace AddressExpr

/-! ### Branches -/

/-- Where a branch goes from a node: to the operand of a sign, to an operand of an operator, or
to the address of a dereference. -/
inductive Turn
  | operand
  | left
  | right
  | address
deriving DecidableEq, Inhabited

/-- The turns of a way from the root of an expression to a leaf. -/
inductive Expr.Branch : Expr → List Turn → Prop
  | literal (text : String) (s : Span) : Branch (.literal text s) []
  | path (p : Path) : Branch (.path p) []
  | operand (sign : Sign) (s : Span) {e : Expr} {b : List Turn} (h : Branch e b) :
      Branch (.signed sign s e) (.operand :: b)
  | left (op : BinaryOp) (s : Span) {l : Expr} (r : Expr) {b : List Turn} (h : Branch l b) :
      Branch (.binary op s l r) (.left :: b)
  | right (op : BinaryOp) (s : Span) (l : Expr) {r : Expr} {b : List Turn} (h : Branch r b) :
      Branch (.binary op s l r) (.right :: b)
  | address (s s' : Span) {e : Expr} {b : List Turn} (h : Branch e b) :
      Branch (.deref s e s') (.address :: b)

/-- The number of turns of a branch that do not go to a left operand. -/
def Turn.descents (b : List Turn) : Nat := b.countP (· ≠ .left)

theorem Turn.descents_left (b : List Turn) : descents (.left :: b) = descents b :=
  List.countP_cons_of_neg (by decide)

theorem Turn.descents_cons {t : Turn} (h : t ≠ .left) (b : List Turn) :
    descents (t :: b) = descents b + 1 :=
  List.countP_cons_of_pos (by simpa using h)

theorem Turn.descents_eq_length {b : List Turn} (h : .left ∉ b) : descents b = b.length := by
  rw [descents, List.countP_eq_length]
  intro t ht
  simpa using fun (hleft : t = .left) => h (hleft ▸ ht)

/-- The sum of the numbers up to `n`. -/
def triangle : Nat → Nat
  | 0 => 0
  | n + 1 => triangle n + (n + 1)

theorem triangle_mono {m n : Nat} (h : m ≤ n) : triangle m ≤ triangle n := by
  induction h with
  | refl => exact Nat.le_refl _
  | step _ ih => exact Nat.le_trans ih (Nat.le_add_right _ _)

theorem two_mul_triangle : ∀ n : Nat, 2 * triangle n = n * (n + 1)
  | 0 => rfl
  | n + 1 => by
    rw [triangle, Nat.mul_add, two_mul_triangle n, ← Nat.add_mul, Nat.mul_comm]

theorem maxLevels_add_triangle :
    maxLevels + triangle maxLevels = maxLevels * (maxLevels + 3) / 2 := by
  have := two_mul_triangle maxLevels
  unfold maxLevels at *
  omega

/-! ### What the levels bound -/

namespace ParseTree

/-- Every turn costs a level but those to the left. -/
theorem descents_le_cost (c : ParseTree) {b : List Turn} (h : c.expr.Branch b) :
    Turn.descents b ≤ c.cost := by
  induction c generalizing b with
  | literal text s => cases h with | literal => exact Nat.le_refl 0
  | path p => cases h with | path => exact Nat.le_refl 0
  | group s inner s' ih => exact Nat.le_succ_of_le (ih h)
  | signed sign s operand ih =>
    cases h with
    | operand _ _ h =>
      rw [Turn.descents_cons (by decide)]
      exact Nat.succ_le_succ (ih h)
  | binary op s left right ihl ihr =>
    cases h with
    | left _ _ _ h =>
      rw [Turn.descents_left]
      exact Nat.le_trans (ihl h) (Nat.le_max_left _ _)
    | right _ _ _ h =>
      rw [Turn.descents_cons (by decide)]
      have := ihr h
      simp only [cost]
      omega
  | deref s address s' ih =>
    cases h with
    | address _ _ h =>
      rw [Turn.descents_cons (by decide)]
      exact Nat.succ_le_succ (ih h)

/-- What a bracket adds to the longest branch: the spine of what is in it can be as long as that
costs, and is hidden from then on. -/
theorem spine_add_triangle_lt (c : ParseTree) :
    c.spine + triangle c.cost < triangle (c.cost + 1) := by
  have := c.spine_le_cost
  rw [triangle]
  omega

/-- A branch is no longer than the spine with the triangle number of the cost. -/
theorem length_le_spine_add_triangle (c : ParseTree) {b : List Turn} (h : c.expr.Branch b) :
    b.length ≤ c.spine + triangle c.cost := by
  induction c generalizing b with
  | literal text s => cases h with | literal => exact Nat.le_refl 0
  | path p => cases h with | path => exact Nat.le_refl 0
  | group s inner s' ih =>
    have hin := ih h
    have hlt := inner.spine_add_triangle_lt
    simp only [spine, cost]
    omega
  | signed sign s operand ih =>
    cases h with
    | operand _ _ h =>
      have hin := ih h
      have hlt := operand.spine_add_triangle_lt
      simp only [spine, cost, List.length_cons]
      omega
  | binary op s left right ihl ihr =>
    cases h with
    | left _ _ _ h =>
      have hin := ihl h
      have hmono : triangle left.cost ≤ triangle (binary op s left right).cost :=
        triangle_mono (Nat.le_max_left _ _)
      simp only [spine, List.length_cons]
      omega
    | right _ _ _ h =>
      have hin := ihr h
      have hlt := right.spine_add_triangle_lt
      have hmono : triangle (right.cost + 1) ≤ triangle (binary op s left right).cost :=
        triangle_mono (by simp only [cost]; omega)
      simp only [List.length_cons]
      omega
  | deref s address s' ih =>
    cases h with
    | address _ _ h =>
      have hin := ih h
      have hlt := address.spine_add_triangle_lt
      simp only [spine, cost, List.length_cons]
      omega

theorem length_le_of_cost_le {c : ParseTree} {b : List Turn} (h : c.expr.Branch b) {n : Nat}
    (hcost : c.cost ≤ n) : b.length ≤ n + triangle n := by
  have hlen := c.length_le_spine_add_triangle h
  have hspine := c.spine_le_cost
  have hmono := triangle_mono hcost
  omega

end ParseTree

/-! ### Towers -/

namespace ParseTree

/-- The numeral at the top of a tower, and the operand of its operators. -/
def one : ParseTree := literal "1" (.point .origin)

/-- The tree followed by `n` operators. -/
def addOnes (c : ParseTree) : Nat → ParseTree
  | 0 => c
  | n + 1 => binary .add (.point .origin) (addOnes c n) one

/-- A numeral in brackets in brackets, each followed by as many operators as the list says, from
the outermost. -/
def tower : List Nat → ParseTree
  | [] => one
  | n :: ns => addOnes (deref (.point .origin) (tower ns) (.point .origin)) n

/-- The words of `n` operators after an operand. -/
def onesWords : Nat → List Token
  | 0 => []
  | n + 1 => onesWords n ++ [⟨.plus, .point .origin⟩, ⟨.hex "1", .point .origin⟩]

/-- The words of a tower. -/
def towerWords : List Nat → List Token
  | [] => [⟨.hex "1", .point .origin⟩]
  | n :: ns =>
    ⟨.openBracket, .point .origin⟩ :: (towerWords ns ++ [⟨.closeBracket, .point .origin⟩]) ++
      onesWords n

/-- The branch to the top of a tower. -/
def towerBranch : List Nat → List Turn
  | [] => []
  | n :: ns => List.replicate n .left ++ .address :: towerBranch ns

theorem derives_addOnes {c : ParseTree} {w : List Token} (h : Derives .sum c w) :
    ∀ n : Nat, Derives .sum (addOnes c n) (w ++ onesWords n)
  | 0 => by rwa [onesWords, List.append_nil]
  | n + 1 => by
    have hone : Derives .prod one [⟨.hex "1", .point .origin⟩] :=
      (Derives.hex "1" (.point .origin)).loosen (by decide)
    rw [onesWords, ← List.append_assoc]
    exact .fold .add (.point .origin) (derives_addOnes h n) hone

theorem derives_tower : ∀ ns : List Nat, Derives .sum (tower ns) (towerWords ns)
  | [] => (Derives.hex "1" (.point .origin)).loosen (by decide)
  | n :: ns =>
    derives_addOnes ((Derives.deref _ _ (derives_tower ns)).loosen (by decide)) n

theorem spine_addOnes (c : ParseTree) : ∀ n : Nat, (addOnes c n).spine = c.spine + n
  | 0 => rfl
  | n + 1 => by rw [addOnes, spine, spine_addOnes c n, Nat.add_assoc]

theorem cost_addOnes_le {c : ParseTree} {m : Nat} (hc : c.cost ≤ m) :
    ∀ {n : Nat}, c.spine + n ≤ m → (addOnes c n).cost ≤ m
  | 0, _ => hc
  | n + 1, h => by
    have hleft := cost_addOnes_le hc (n := n) (by omega)
    have hone : one.cost = 0 := rfl
    rw [addOnes, cost, spine_addOnes, hone]
    omega

/-- A tower costs no more than it has storeys if none has more operators than there are storeys
from it on. -/
theorem cost_tower_le {m n : Nat} {ns : List Nat} (hns : (tower ns).cost ≤ m) (hn : n ≤ m + 1) :
    (tower (n :: ns)).cost ≤ m + 1 :=
  cost_addOnes_le (Nat.succ_le_succ hns) (by rwa [spine, Nat.zero_add])

theorem branch_addOnes {c : ParseTree} {b : List Turn} (h : c.expr.Branch b) :
    ∀ n : Nat, (addOnes c n).expr.Branch (List.replicate n .left ++ b)
  | 0 => h
  | n + 1 => .left _ _ _ (branch_addOnes h n)

theorem branch_tower : ∀ ns : List Nat, (tower ns).expr.Branch (towerBranch ns)
  | [] => .literal _ _
  | n :: ns => by
    have h : (deref (.point .origin) (tower ns) (.point .origin)).expr.Branch
        (.address :: towerBranch ns) := .address _ _ (branch_tower ns)
    exact branch_addOnes h n

theorem length_towerBranch_cons (n : Nat) (ns : List Nat) :
    (towerBranch (n :: ns)).length = n + 1 + (towerBranch ns).length := by
  rw [towerBranch, List.length_append, List.length_replicate, List.length_cons]
  omega

/-- A tower is what is read from its words. -/
theorem ofTokens_tower {ns : List Nat} (hcost : (tower ns).cost ≤ maxLevels) :
    Expr.ofTokens (towerWords ns) = .ok (tower ns).expr := by
  have h := derives_tower ns
  rw [← h.words_eq] at h
  exact Expr.ofTokens_of_derives h hcost

/-- The storeys of the highest tower that costs `n`. -/
def storeys : Nat → List Nat
  | 0 => []
  | n + 1 => (n + 1) :: storeys n

theorem cost_tower_storeys_le : ∀ n : Nat, (tower (storeys n)).cost ≤ n
  | 0 => Nat.le_refl 0
  | n + 1 => cost_tower_le (cost_tower_storeys_le n) (Nat.le_refl _)

theorem length_towerBranch_storeys : ∀ n : Nat,
    (towerBranch (storeys n)).length = n + triangle n
  | 0 => rfl
  | n + 1 => by
    rw [storeys, length_towerBranch_cons, length_towerBranch_storeys n, triangle]
    omega

theorem cost_tower_replicate_le : ∀ n : Nat, (tower (List.replicate n 0)).cost ≤ n
  | 0 => Nat.le_refl 0
  | n + 1 => cost_tower_le (cost_tower_replicate_le n) (Nat.zero_le _)

theorem length_towerBranch_replicate : ∀ n : Nat,
    (towerBranch (List.replicate n 0)).length = n
  | 0 => rfl
  | n + 1 => by
    rw [List.replicate_succ, length_towerBranch_cons, length_towerBranch_replicate n]
    omega

end ParseTree

/-! ### The depth of what is read -/

namespace Expr

open ParseTree

/-- As many brackets as there are levels and an operator after them: a list that is read, and a
branch that goes to the left operand and then makes `maxLevels` turns more. -/
theorem exists_branch_maxLevels_lt :
    ofTokens (towerWords (1 :: List.replicate 255 0)) =
        .ok (tower (1 :: List.replicate 255 0)).expr ∧
      (tower (1 :: List.replicate 255 0)).expr.Branch
        (towerBranch (1 :: List.replicate 255 0)) ∧
      maxLevels < (towerBranch (1 :: List.replicate 255 0)).length := by
  refine ⟨ofTokens_tower ?_, branch_tower _, ?_⟩
  · exact cost_tower_le (cost_tower_replicate_le 255) (by decide)
  · rw [length_towerBranch_cons, length_towerBranch_replicate]
    decide

/-- **How deep a list that is read can be.** All branches are within `maxLevels` if those are
that go to a left operand somewhere. In every branch `maxLevels` bounds the other turns, and
all of them are at most `maxLevels * (maxLevels + 3) / 2`, which is reached. -/
theorem length_branch_of_ofTokens {ts : List Token} {e : Expr} (h : ofTokens ts = .ok e) :
    ((∀ b, e.Branch b → b.length ≤ maxLevels) ↔
      ∀ b, e.Branch b → .left ∈ b → b.length ≤ maxLevels) ∧
    (∀ b, e.Branch b →
      Turn.descents b ≤ maxLevels ∧ b.length ≤ maxLevels * (maxLevels + 3) / 2) ∧
    ∃ ts' e' b, ofTokens ts' = .ok e' ∧ e'.Branch b ∧
      b.length = maxLevels * (maxLevels + 3) / 2 := by
  rw [← maxLevels_add_triangle]
  obtain ⟨c, -, rfl, hcost⟩ := exists_derives_of_ofTokens h
  have hdescents : ∀ b, c.expr.Branch b → Turn.descents b ≤ maxLevels := fun b hb =>
    Nat.le_trans (c.descents_le_cost hb) hcost
  refine ⟨⟨fun hall b hb _ => hall b hb, fun hleft b hb => ?_⟩, fun b hb => ?_, ?_⟩
  · by_cases hmem : .left ∈ b
    · exact hleft b hb hmem
    · rw [← Turn.descents_eq_length hmem]
      exact hdescents b hb
  · exact ⟨hdescents b hb, length_le_of_cost_le hb hcost⟩
  · exact ⟨_, _, _, ofTokens_tower (cost_tower_storeys_le maxLevels), branch_tower _,
      length_towerBranch_storeys maxLevels⟩

/-- The bounds at the brackets with an operator after them, where the first one fails. -/
theorem length_branch_of_ofTokens_brackets :
    ∃ e, ofTokens (towerWords (1 :: List.replicate 255 0)) = .ok e ∧
      (¬ ∀ b, e.Branch b → .left ∈ b → b.length ≤ maxLevels) ∧
      ∀ b, e.Branch b → Turn.descents b ≤ 256 ∧ b.length ≤ 33152 := by
  have hread : ofTokens (towerWords (1 :: List.replicate 255 0)) =
      .ok (tower (1 :: List.replicate 255 0)).expr :=
    ofTokens_tower (cost_tower_le (cost_tower_replicate_le 255) (by decide))
  have hbounds := length_branch_of_ofTokens hread
  have hdeep : maxLevels < (towerBranch (1 :: List.replicate 255 0)).length := by
    rw [length_towerBranch_cons, length_towerBranch_replicate]
    decide
  refine ⟨_, hread, fun hleft => ?_, fun b hb => ?_⟩
  · exact Nat.not_lt_of_le (hbounds.1.mpr hleft _ (branch_tower _)) hdeep
  · exact hbounds.2.1 b hb

end Expr
end AddressExpr
