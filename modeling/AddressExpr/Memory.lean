/-
# Reading memory

The memory that an expression looks into is given from outside: asked for an address, it
answers with the number stored there or says why it cannot be read (`Memory`). What was
asked is a part of what happened, whether the evaluation then succeeds or fails, so a
computation that reads is a result together with the addresses that were read, in order
(`Run`).

Key definitions: `Memory`, `Run`, `Run.read`.
Key theorems: `Run.reads_bind`, `Run.bind_of_result_eq_ok`, `Run.bind_of_result_eq_error`.
-/
import AddressExpr.Address

namespace AddressExpr

/-- What stands at each address, or why it cannot be read. -/
abbrev Memory := Address → Except String Address

/-- The memory that holds the same number everywhere. -/
def Memory.constant (value : Address) : Memory := fun _ => .ok value

/-- The memory that is used where none is given. -/
def Memory.placeholder : Memory := .constant 0xCE

/-- The result of a computation and the addresses it read, in order. -/
structure Run (ε α : Type) where
  result : Except ε α
  reads : List Address

namespace Run

variable {ε ε' α β : Type}

/-- A result for which nothing was read. -/
def ofExcept (result : Except ε α) : Run ε α := ⟨result, []⟩

/-- One read. -/
def read (mem : Memory) (address : Address) : Run String Address := ⟨mem address, [address]⟩

/-- The same computation with another wording of its error. -/
def mapError (f : ε → ε') (run : Run ε α) : Run ε' α := ⟨run.result.mapError f, run.reads⟩

/-- One computation and, if it has a value, the next one. What was read before a failure
stays read. -/
protected def bind (run : Run ε α) (f : α → Run ε β) : Run ε β :=
  match run.result with
  | .ok a =>
    let next := f a
    ⟨next.result, run.reads ++ next.reads⟩
  | .error e => ⟨.error e, run.reads⟩

instance : Monad (Run ε) where
  pure a := ofExcept (.ok a)
  bind := Run.bind

/-- What the second computation reads comes after what the first one read. -/
theorem reads_bind (run : Run ε α) (f : α → Run ε β) :
    (run >>= f).reads =
      run.reads ++ match run.result with
        | .ok a => (f a).reads
        | .error _ => [] := by
  show (run.bind f).reads = _
  unfold Run.bind
  split <;> simp [*]

theorem result_bind (run : Run ε α) (f : α → Run ε β) :
    (run >>= f).result = run.result.bind fun a => (f a).result := by
  show (run.bind f).result = _
  unfold Run.bind Except.bind
  split <;> simp [*]

/-- A sequence has a value if both computations have one. -/
theorem result_bind_eq_ok_iff {run : Run ε α} {f : α → Run ε β} {b : β} :
    (run >>= f).result = .ok b ↔ ∃ a, run.result = .ok a ∧ (f a).result = .ok b := by
  rw [result_bind]
  cases run.result with
  | ok a => simp [Except.bind]
  | error e => simp [Except.bind]

/-- After a computation with a value the next one goes on. -/
theorem bind_of_result_eq_ok {run : Run ε α} {a : α} (h : run.result = .ok a)
    (next : α → Run ε β) : run >>= next = ⟨(next a).result, run.reads ++ (next a).reads⟩ := by
  obtain ⟨result, reads⟩ := run
  obtain rfl : result = .ok a := h
  rfl

/-- A computation without a value ends the sequence. -/
theorem bind_of_result_eq_error {run : Run ε α} {e : ε} (h : run.result = .error e)
    (next : α → Run ε β) : run >>= next = ⟨.error e, run.reads⟩ := by
  obtain ⟨result, reads⟩ := run
  obtain rfl : result = .error e := h
  rfl

/-- Sequences are the same if they start alike and go on alike from what they start with. -/
theorem bind_congr {run run' : Run ε α} {f g : α → Run ε β} (hrun : run' = run)
    (h : ∀ a, run.result = .ok a → g a = f a) : run' >>= g = run >>= f := by
  subst hrun
  cases hresult : run'.result with
  | ok a => rw [bind_of_result_eq_ok hresult, bind_of_result_eq_ok hresult, h a hresult]
  | error e => rw [bind_of_result_eq_error hresult, bind_of_result_eq_error hresult]

/-- What is read in a sequence is what is read in its parts, the second one only from a value on. -/
theorem forall_reads_bind_iff {run : Run ε α} {f : α → Run ε β} {P : Address → Prop} :
    (∀ x ∈ (run >>= f).reads, P x) ↔
      (∀ x ∈ run.reads, P x) ∧ ∀ a, run.result = .ok a → ∀ x ∈ (f a).reads, P x := by
  rw [reads_bind]
  cases run.result with
  | ok a => simp [or_imp, forall_and]
  | error e => simp

theorem ofExcept_ok_bind (a : α) (next : α → Run ε β) : ofExcept (.ok a) >>= next = next a := rfl

/-- One read, and a value made of what it answers. -/
theorem read_bind_pure (mem : Memory) (address : Address) (g : String → ε) (next : Address → β) :
    ((read mem address).mapError g >>= fun value => pure (next value)) =
      ⟨((mem address).mapError g).bind fun value => .ok (next value), [address]⟩ := by
  show Run.bind ⟨(mem address).mapError g, [address]⟩ _ = _
  cases mem address with
  | ok value => rfl
  | error reason => rfl

theorem result_mapError_eq_ok_iff {f : ε → ε'} {run : Run ε α} {a : α} :
    (run.mapError f).result = .ok a ↔ run.result = .ok a := by
  obtain ⟨result, reads⟩ := run
  cases result with
  | ok b => exact Iff.intro (Except.ok.inj · ▸ rfl) (Except.ok.inj · ▸ rfl)
  | error e => exact Iff.intro (nomatch ·) (nomatch ·)

theorem result_mapError_eq_error_iff {f : ε → ε'} {run : Run ε α} {e' : ε'} :
    (run.mapError f).result = .error e' ↔ ∃ e, run.result = .error e ∧ f e = e' := by
  obtain ⟨result, reads⟩ := run
  cases result with
  | ok a => exact ⟨nofun, fun ⟨e, he, _⟩ => nomatch he⟩
  | error e =>
    constructor
    · intro h
      exact ⟨e, rfl, Except.error.inj h⟩
    · rintro ⟨e₀, he, rfl⟩
      rw [← Except.error.inj he]
      rfl

end Run
end AddressExpr
