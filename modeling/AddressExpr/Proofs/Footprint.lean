/-
# The footprint of an expression

An expression has a footprint in the directory and in the memory, and its address, its error and its
reads depend on nothing else (`Expr.evalAddress_footprint`). In the directory these are the keys
that the paths of the expression ask for, and a new entry about another key changes nothing. In the
memory these are the addresses that are read, and any memory with the same answers there can take
the place of the other. Which addresses these are depends on what was read before, so an operand has
to be evaluated alike before the next one is looked at (`Run.bind_congr`).

Key theorems: `Directory.eval_insert`, `Expr.eval_congr_of_reads`, `Expr.evalAddress_footprint`.
-/
import AddressExpr.Proofs.Lookup

namespace AddressExpr

/-- A new entry that no path of the expression asks for changes nothing. -/
theorem Directory.eval_insert {d : Directory} {entry : Directory.Entry} {e : Expr}
    (h : ∀ p, .path p ∈ e.postorder → ¬ p.Consults d entry.key) (mem : Memory) :
    e.eval (d.insert entry) mem = e.eval d mem := by
  refine (Directory.eval_congr (fun p hp k hk => ?_) mem).symm
  have hne : entry.key ≠ k := by
    rintro rfl
    exact h p hp hk
  rw [Directory.find?_insert, if_neg hne]

namespace Expr

variable {dir : Directory} {mem mem' : Memory}

theorem read_congr {x : Address} (h : mem' x = mem x) : Run.read mem' x = Run.read mem x := by
  unfold Run.read
  rw [h]

/-- **A memory with the same answers at all addresses that are read can take the place of the other
one.** -/
theorem eval_congr_of_reads {e : Expr} (h : ∀ x ∈ (e.eval dir mem).reads, mem' x = mem x) :
    e.eval dir mem' = e.eval dir mem := by
  induction e with
  | literal text s => rfl
  | path p => rfl
  | signed sign s operand ih =>
    have hoperand := (Run.forall_reads_bind_iff.mp h).1
    exact Run.bind_congr (ih hoperand) fun a _ => rfl
  | binary op s left right ihl ihr =>
    obtain ⟨hleft, hnext⟩ := Run.forall_reads_bind_iff.mp h
    refine Run.bind_congr (ihl hleft) fun a ha => ?_
    have hright := (Run.forall_reads_bind_iff.mp (hnext a ha)).1
    exact Run.bind_congr (ihr hright) fun b _ => rfl
  | deref s address s' ih =>
    obtain ⟨haddress, hnext⟩ := Run.forall_reads_bind_iff.mp h
    refine Run.bind_congr (ih haddress) fun n hn => Run.bind_congr rfl fun x hx => ?_
    -- The value of the operand is an address here, so that address is read.
    have hread := (Run.forall_reads_bind_iff.mp (hnext n hn)).2 x hx
    have hx := (Run.forall_reads_bind_iff.mp hread).1 x List.mem_cons_self
    rw [read_congr hx]

/-- **An evaluation depends on the directory and on the memory only through its footprint.** A new
entry changes neither the address nor the error nor the reads unless it is about a key that a path
of the expression asks for. Nor does another memory that answers alike at every address that is
read. -/
theorem evalAddress_footprint (dir : Directory) (mem : Memory) (e : Expr) :
    (∀ entry, (∀ p, path p ∈ e.postorder → ¬ p.Consults dir entry.key) →
      e.evalAddress (dir.insert entry) mem = e.evalAddress dir mem) ∧
    ∀ mem', (∀ x ∈ (e.evalAddress dir mem).reads, mem' x = mem x) →
      e.evalAddress dir mem' = e.evalAddress dir mem := by
  constructor
  · intro entry h
    rw [evalAddress, Directory.eval_insert h, evalAddress]
  · intro mem' h
    rw [reads_evalAddress] at h
    rw [evalAddress, eval_congr_of_reads h, evalAddress]

/-- An export with the name of a numeral, and a memory that can be read at one address only. -/
theorem evalAddress_footprint_numeral :
    ∃ (e : Expr) (entry : Directory.Entry) (mem : Memory),
      e.evalAddress .empty .placeholder = ⟨.ok 0xCE, [0xCAFE]⟩ ∧
      (∀ p, path p ∈ e.postorder → ¬ p.Consults .empty entry.key) ∧
      (∀ x ∈ (e.evalAddress .empty .placeholder).reads, mem x = Memory.placeholder x) ∧
      e.evalAddress (.insert .empty entry) .placeholder = e.evalAddress .empty .placeholder ∧
      e.evalAddress .empty mem = e.evalAddress .empty .placeholder := by
  have hfootprint := evalAddress_footprint .empty .placeholder
    (deref default (path ⟨⟨"cafe", default⟩, []⟩) default)
  have hvalue : ((deref default (path ⟨⟨"cafe", default⟩, []⟩) default).eval
      .empty .placeholder).result = .ok (Address.toInt 0xCE) := by
    with_unfolding_all rfl
  have hrun : (deref default (path ⟨⟨"cafe", default⟩, []⟩) default).evalAddress
      .empty .placeholder = ⟨.ok 0xCE, [0xCAFE]⟩ := by
    rw [evalAddress, Run.bind_of_result_eq_ok hvalue, toAddress_toInt]
    with_unfolding_all rfl
  have hentry (p : Path)
      (hp : path p ∈ (deref default (path ⟨⟨"cafe", default⟩, []⟩) default).postorder) :
      ¬ p.Consults .empty (Directory.Entry.exported "user32" "cafe" 1).key := by
    obtain rfl : p = ⟨⟨"cafe", default⟩, []⟩ := by simpa [postorder] using hp
    rintro (⟨hqual, -⟩ | ⟨-, -, -, hdigits⟩)
    · cases hqual
    · exact hdigits (by decide)
  have hreads : ∀ x ∈ ((deref default (path ⟨⟨"cafe", default⟩, []⟩) default).evalAddress
      .empty .placeholder).reads,
      (fun x => if x = 0xCAFE then .ok 0xCE else .error "hole" : Memory) x =
        Memory.placeholder x := by
    rw [hrun]
    simp [Memory.placeholder, Memory.constant]
  exact ⟨_, _, _, hrun, hentry, hreads, hfootprint.1 _ hentry, hfootprint.2 _ hreads⟩

end Expr
end AddressExpr
