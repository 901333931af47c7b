/-
# A machine that computes in registers

`Expr.eval` computes with integers and looks afterwards whether they fit. A machine has registers of
128 bits with a sign and no other integers (`Register`). Its checked instructions say whether there
is a result that a register can hold. The others crash if there is none: the remainder, the one that
puts an integer into a register, and the difference of two counts.

`Register.eval` is the evaluation by such a machine. It crashes for no expression, and gives what
`Expr.eval` gives after the same reads (`Register.interpret_eq`): the only divisor of a remainder is
two, a path has one name or more, and all that is put into a register was found to fit before.

Key definitions: `Register`, `Register.power`, `Register.eval`, `Register.interpret`,
`Run.Realizes`.
Key theorems: `Register.map_apply`, `Register.realizes_eval`, `Register.interpret_eq`.
-/
import AddressExpr.Proofs.Arithmetic
import AddressExpr.Proofs.Machine.Cursor

namespace AddressExpr

/-- An integer of 128 bits with a sign. -/
def Register : Type := { n : Int // Value.Fits n }

namespace Register

/-- The integer in the register. -/
def toInt (a : Register) : Int := a.val

/-! ### Instructions -/

/-- The register with the integer, if one can hold it. -/
def ofInt? (n : Int) : Option Register :=
  if h : Value.Fits n then some ⟨n, h⟩ else none

def zero : Register := ⟨0, by decide⟩

def one : Register := ⟨1, by decide⟩

def two : Register := ⟨2, by decide⟩

def minusOne : Register := ⟨-1, by decide⟩

/-- The opposite, if it can be held. -/
def neg? (a : Register) : Option Register := ofInt? (-a.toInt)

/-- The sum, if it can be held. -/
def add? (a b : Register) : Option Register := ofInt? (a.toInt + b.toInt)

/-- The difference, if it can be held. -/
def sub? (a b : Register) : Option Register := ofInt? (a.toInt - b.toInt)

/-- The product, if it can be held. -/
def mul? (a b : Register) : Option Register := ofInt? (a.toInt * b.toInt)

/-- The quotient, if there is one and it can be held. -/
def div? (a b : Register) : Option Register :=
  if b.toInt = 0 then none else ofInt? (a.toInt.tdiv b.toInt)

/-- The power, if it can be held. -/
def pow? (a : Register) (n : Nat) : Option Register := ofInt? (Int.pow a.toInt n)

/-- The exponent as a number of 32 bits without a sign, if it is one. -/
def exponent? (a : Register) : Option Nat :=
  if 0 ≤ a.toInt ∧ a.toInt < 0x100000000 then some a.toInt.toNat else none

section

variable {ε : Type}

/-- The integer in a register, which has to be able to hold it. -/
def hold (n : Int) : Except (Halt ε) Register :=
  match ofInt? n with
  | some a => .ok a
  | none => .error .crash

/-- The remainder of a division, which has to have a quotient. -/
def rem (a b : Register) : Except (Halt ε) Register :=
  match a.div? b with
  | some _ => hold (a.toInt.tmod b.toInt)
  | none => .error .crash

/-- The outcome in a register, which has to be able to hold it. -/
def held : Except ε Int → Except (Halt ε) Register
  | .ok n => hold n
  | .error e => .error (.failed e)

end

/-! ### Operators -/

/-- The result of a checked instruction, or else an overflow. -/
def orOverflow : Option Register → Except (Halt Value.Fault) Register
  | some a => .ok a
  | none => .error (.failed .overflow)

/-- The quotient of two registers. -/
def divide (a b : Register) : Except (Halt Value.Fault) Register :=
  if b.toInt = 0 then .error (.failed .divisionByZero) else orOverflow (a.div? b)

/-- One register raised to another. -/
def power (base exponent : Register) : Except (Halt Value.Fault) Register := do
  let parity ← exponent.rem two
  if base.toInt = 0 then
    if exponent.toInt < 0 then .error (.failed .divisionByZero)
    else if exponent.toInt = 0 then .ok one
    else .ok zero
  else if base.toInt = 1 then .ok one
  else if base.toInt = -1 then .ok (if parity.toInt ≠ 0 then minusOne else one)
  else if exponent.toInt < 0 then .ok zero
  else orOverflow (exponent.exponent?.bind base.pow?)

/-- The result of the operator on two registers. -/
def apply : BinaryOp → Register → Register → Except (Halt Value.Fault) Register
  | .add, a, b => orOverflow (a.add? b)
  | .sub, a, b => orOverflow (a.sub? b)
  | .mul, a, b => orOverflow (a.mul? b)
  | .div, a, b => a.divide b
  | .pow, a, b => a.power b

/-- The result of the sign on a register. -/
def applySign : Sign → Register → Except (Halt Value.Fault) Register
  | .plus, a => .ok a
  | .minus, a => orOverflow a.neg?

/-! ### Evaluation -/

/-- The names of a path but the last one. A path of one name has no such part. -/
def qualifier {ε : Type} (p : Path) : Except (Halt ε) (Option String) :=
  if p.rest = [] then .ok none
  else do
    let count ← difference (1 + p.rest.length) 1
    .ok (some (Path.join ((p.segments.take count).map (·.name))))

/-- The value of a path. -/
def resolve (dir : Directory) (p : Path) : Except (Halt EvalError) Register := do
  match ← qualifier p with
  | none => held (Expr.resolveName dir p.last)
  | some owner =>
    match dir.export? owner p.last.name with
    | some address => hold (Address.toInt address)
    | none =>
      match dir.base? (owner ++ "." ++ p.last.name) with
      | some address => hold (Address.toInt address)
      | none => .error (.failed ⟨.notFound (owner ++ "." ++ p.last.name), p.span⟩)

end Register

/-- The same halt with another wording of its error. -/
def Halt.map {ε ε' : Type} (f : ε → ε') : Halt ε → Halt ε'
  | crash => crash
  | unfinished => unfinished
  | failed e => failed (f e)

namespace Register

/-- The value of an expression, and the addresses read for it. -/
def eval (dir : Directory) (mem : Memory) : Expr → Run (Halt EvalError) Register
  | .literal text s => .ofExcept (held (Expr.numeralValue text (Expr.literalDigits text) s))
  | .path p => .ofExcept (resolve dir p)
  | .signed sign signSpan operand => do
    let a ← eval dir mem operand
    (Run.ofExcept (applySign sign a)).mapError (.map fun _ => ⟨.overflow (.unary sign), signSpan⟩)
  | .binary op opSpan left right => do
    let a ← eval dir mem left
    let b ← eval dir mem right
    (Run.ofExcept (apply op a b)).mapError (.map (Expr.faultError op opSpan right.span))
  | .deref openSpan address closeSpan => do
    let a ← eval dir mem address
    let a ← .ofExcept ((Expr.toAddress address.span a.toInt).mapError .failed)
    let value ← (Run.read mem a).mapError fun reason =>
      .failed ⟨.unreadable a reason, openSpan.cover closeSpan⟩
    .ofExcept (hold (Address.toInt value))

/-- The value of an expression as an address, and the addresses read for it. -/
def interpret (dir : Directory) (mem : Memory) (e : Expr) : Run (Halt EvalError) Address := do
  let value ← eval dir mem e
  .ofExcept ((Expr.toAddress e.span value.toInt).mapError .failed)

end Register

/-! ### What a machine does for what is specified -/

namespace Run

variable {ε α α' β β' : Type} {f : α → β} {g : α' → β'}

/-- The run of a machine reads what is specified, and ends with a result that stands for the one
that is specified, or with the error that is. -/
structure Realizes (f : α → β) (run : Run (Halt ε) α) (spec : Run ε β) : Prop where
  reads_eq : run.reads = spec.reads
  map_result : run.result.map f = spec.result.mapError .failed

theorem realizes_ofExcept {r : Except (Halt ε) α} {r' : Except ε β}
    (h : r.map f = r'.mapError .failed) : Realizes f (.ofExcept r) (.ofExcept r') := ⟨rfl, h⟩

theorem Realizes.mapError {ε' : Type} {run : Run (Halt ε) α} {spec : Run ε β}
    (h : Realizes f run spec) (g : ε → ε') :
    Realizes f (run.mapError (.map g)) (spec.mapError g) := by
  obtain ⟨result, reads⟩ := run
  obtain ⟨result', reads'⟩ := spec
  obtain ⟨hreads, hresult⟩ := h
  refine ⟨hreads, ?_⟩
  cases result with
  | ok a =>
    cases result' with
    | ok b => exact congrArg Except.ok (Except.ok.inj hresult)
    | error e => cases hresult
  | error halt =>
    cases result' with
    | ok b => cases hresult
    | error e =>
      obtain rfl := Except.error.inj hresult
      rfl

/-- Where the machine ends with what is specified itself, its run is the one that is specified. -/
theorem Realizes.eq_mapError {run : Run (Halt ε) α} {spec : Run ε α} (h : Realizes id run spec) :
    run = spec.mapError .failed := by
  obtain ⟨result, reads⟩ := run
  obtain ⟨hreads, hresult⟩ := h
  have hid : result.map id = result := by cases result <;> rfl
  obtain rfl : reads = spec.reads := hreads
  obtain rfl : result = spec.result.mapError .failed := hid.symm.trans hresult
  rfl

theorem Realizes.bind {run : Run (Halt ε) α} {spec : Run ε β} {k : α → Run (Halt ε) α'}
    {k' : β → Run ε β'} (h : Realizes f run spec)
    (hk : ∀ a, run.result = .ok a → Realizes g (k a) (k' (f a))) :
    Realizes g (run >>= k) (spec >>= k') := by
  obtain ⟨hreads, hresult⟩ := h
  cases hrun : run.result with
  | ok a =>
    have hspec : spec.result = .ok (f a) := by
      rw [hrun] at hresult
      cases hspec : spec.result with
      | ok b =>
        rw [hspec] at hresult
        exact congrArg _ (Except.ok.inj hresult).symm
      | error e =>
        rw [hspec] at hresult
        cases hresult
    obtain ⟨hreads', hresult'⟩ := hk a hrun
    rw [bind_of_result_eq_ok hrun, bind_of_result_eq_ok hspec]
    exact ⟨by rw [hreads, hreads'], hresult'⟩
  | error halt =>
    rw [hrun] at hresult
    cases hspec : spec.result with
    | ok b =>
      rw [hspec] at hresult
      cases hresult
    | error e =>
      rw [hspec] at hresult
      obtain rfl := Except.error.inj hresult
      rw [bind_of_result_eq_error hrun, bind_of_result_eq_error hspec]
      exact ⟨hreads, rfl⟩

end Run

namespace Register

/-! ### Instructions give what is specified -/

theorem ofInt?_of_fits {n : Int} (h : Value.Fits n) : ofInt? n = some ⟨n, h⟩ := dif_pos h

theorem ofInt?_of_not_fits {n : Int} (h : ¬ Value.Fits n) : ofInt? n = none := dif_neg h

theorem hold_of_fits {ε : Type} {n : Int} (h : Value.Fits n) :
    (hold n : Except (Halt ε) Register) = .ok ⟨n, h⟩ := by
  rw [hold, ofInt?_of_fits h]

/-- A register can hold every address. -/
theorem map_hold_toInt {ε : Type} (x : Address) :
    (hold (Address.toInt x)).map toInt = (.ok (Address.toInt x) : Except (Halt ε) Int) := by
  rw [hold_of_fits (Expr.fits_toInt x)]
  rfl

theorem map_held {ε : Type} {r : Except ε Int} (h : ∀ n, r = .ok n → Value.Fits n) :
    (held r).map toInt = r.mapError .failed := by
  cases r with
  | ok n => rw [held, hold_of_fits (h n rfl)]; rfl
  | error e => rfl

theorem map_orOverflow_ofInt? (n : Int) :
    (orOverflow (ofInt? n)).map toInt = (Value.checked n).mapError .failed := by
  by_cases h : Value.Fits n
  · rw [ofInt?_of_fits h, Value.checked_of_fits h]
    rfl
  · rw [ofInt?_of_not_fits h, Value.checked_of_not_fits h]
    rfl

theorem map_divide (a b : Register) :
    (a.divide b).map toInt = (Value.div a.toInt b.toInt).mapError .failed := by
  unfold divide Value.div div?
  by_cases h : b.toInt = 0
  · rw [if_pos h, if_pos h]
    rfl
  · rw [if_neg h, if_neg h, if_neg h, map_orOverflow_ofInt?]

/-- The remainder by two tells whether the integer is even. -/
theorem exists_rem_two {ε : Type} (a : Register) :
    ∃ r : Register, (a.rem two : Except (Halt ε) Register) = .ok r ∧
      (r.toInt = 0 ↔ a.toInt % 2 = 0) := by
  have hfits : Value.Fits a.toInt := a.2
  have hdivAbs : (a.toInt.tdiv 2).natAbs = a.toInt.natAbs / 2 := Int.natAbs_tdiv a.toInt 2
  have hmodAbs : (a.toInt.tmod 2).natAbs = a.toInt.natAbs % 2 := Int.natAbs_tmod a.toInt 2
  have hquotient : Value.Fits (a.toInt.tdiv 2) := by
    unfold Value.Fits Value.limit at *
    omega
  have hrem : Value.Fits (a.toInt.tmod 2) := by
    unfold Value.Fits Value.limit
    omega
  have hdiv : a.div? two = some ⟨a.toInt.tdiv 2, hquotient⟩ := by
    have htwo : two.toInt ≠ 0 := by decide
    rw [div?, if_neg htwo]
    exact ofInt?_of_fits hquotient
  refine ⟨⟨a.toInt.tmod 2, hrem⟩, ?_, ?_⟩
  · rw [rem, hdiv]
    exact hold_of_fits hrem
  · show a.toInt.tmod 2 = 0 ↔ _
    omega

/-- An exponent that is too large for 32 bits is too large for a base of two or more in size. -/
theorem map_pow? {base exponent : Register} (hbase : 2 ≤ base.toInt.natAbs)
    (hexponent : 0 ≤ exponent.toInt) :
    (orOverflow (exponent.exponent?.bind base.pow?)).map toInt =
      (if exponent.toInt < 128 then Value.checked (Int.pow base.toInt exponent.toInt.toNat)
        else .error .overflow).mapError .failed := by
  unfold exponent?
  by_cases hlarge : exponent.toInt < 128
  · rw [if_pos hlarge, if_pos ⟨hexponent, by omega⟩, Option.bind_some, pow?,
      map_orOverflow_ofInt?]
  · rw [if_neg hlarge]
    split
    · have hnot : ¬ Value.Fits (Int.pow base.toInt exponent.toInt.toNat) := by
        rw [Value.pow_eq_product]
        exact Value.not_fits_product hbase (by omega)
      rw [Option.bind_some, pow?, ofInt?_of_not_fits hnot]
      rfl
    · rfl

theorem map_power (base exponent : Register) :
    (base.power exponent).map toInt =
      (Value.pow base.toInt exponent.toInt).mapError .failed := by
  obtain ⟨r, hr, hparity⟩ := @exists_rem_two Value.Fault exponent
  have hpower : base.power exponent =
      if base.toInt = 0 then
        if exponent.toInt < 0 then .error (.failed .divisionByZero)
        else if exponent.toInt = 0 then .ok one
        else .ok zero
      else if base.toInt = 1 then .ok one
      else if base.toInt = -1 then .ok (if r.toInt ≠ 0 then minusOne else one)
      else if exponent.toInt < 0 then .ok zero
      else orOverflow (exponent.exponent?.bind base.pow?) := by
    rw [power, hr]
    rfl
  rw [hpower]
  unfold Value.pow
  by_cases hzero : base.toInt = 0
  · rw [if_pos hzero, if_pos hzero]
    by_cases hneg : exponent.toInt < 0
    · rw [if_pos hneg, if_pos hneg]
      rfl
    · rw [if_neg hneg, if_neg hneg]
      by_cases hexp : exponent.toInt = 0
      · rw [if_pos hexp, if_pos hexp]
        rfl
      · rw [if_neg hexp, if_neg hexp]
        rfl
  rw [if_neg hzero, if_neg hzero]
  by_cases hone : base.toInt = 1
  · rw [if_pos hone, if_pos hone]
    rfl
  rw [if_neg hone, if_neg hone]
  by_cases hminus : base.toInt = -1
  · rw [if_pos hminus, if_pos hminus]
    by_cases heven : exponent.toInt % 2 = 0
    · rw [if_neg (not_not_intro (hparity.mpr heven)), if_pos heven]
      rfl
    · rw [if_pos (mt hparity.mp heven), if_neg heven]
      rfl
  rw [if_neg hminus, if_neg hminus]
  by_cases hneg : exponent.toInt < 0
  · rw [if_pos hneg, if_pos hneg]
    rfl
  · rw [if_neg hneg, if_neg hneg, map_pow? (by omega) (by omega)]

/-- **The operators on registers are those on integers.** -/
theorem map_apply (op : BinaryOp) (a b : Register) :
    (apply op a b).map toInt = (op.apply a.toInt b.toInt).mapError .failed := by
  cases op with
  | add => exact map_orOverflow_ofInt? _
  | sub => exact map_orOverflow_ofInt? _
  | mul => exact map_orOverflow_ofInt? _
  | div => exact map_divide a b
  | pow => exact map_power a b

theorem map_applySign (sign : Sign) (a : Register) :
    (applySign sign a).map toInt = (sign.apply a.toInt).mapError .failed := by
  cases sign with
  | plus => rfl
  | minus => exact map_orOverflow_ofInt? _

/-! ### Evaluation gives what is specified -/

/-- A path of more names than one has a qualifier, and the count of its names is above zero. -/
theorem qualifier_eq {ε : Type} (p : Path) :
    (qualifier p : Except (Halt ε) (Option String)) = .ok p.qualifier? := by
  unfold qualifier Path.qualifier?
  by_cases h : p.rest = []
  · rw [if_pos h, if_pos h]
  · have htake : p.segments.take (1 + p.rest.length - 1) = p.segments.dropLast := by
      rw [List.dropLast_eq_take, Path.segments, List.length_cons, Nat.add_comm]
    rw [if_neg h, if_neg h, difference_eq (Nat.le_add_right 1 _), ← htake]
    rfl

theorem resolve_eq (dir : Directory) (p : Path) :
    resolve dir p = match p.qualifier? with
      | none => held (Expr.resolveName dir p.last)
      | some owner =>
        match dir.export? owner p.last.name with
        | some address => hold (Address.toInt address)
        | none =>
          match dir.base? (owner ++ "." ++ p.last.name) with
          | some address => hold (Address.toInt address)
          | none => .error (.failed ⟨.notFound (owner ++ "." ++ p.last.name), p.span⟩) := by
  rw [resolve, qualifier_eq]
  rfl

theorem map_resolve (dir : Directory) (p : Path) :
    (resolve dir p).map toInt = (Expr.resolve dir p).mapError .failed := by
  have hfits : ∀ n, Expr.resolve dir p = .ok n → Value.Fits n := fun n => Expr.fits_of_resolve
  unfold Expr.resolve at *
  rw [resolve_eq]
  cases hqualifier : p.qualifier? with
  | none =>
    rw [hqualifier] at hfits
    exact map_held hfits
  | some owner =>
    simp only [← Path.text_eq_of_qualifier? hqualifier]
    cases dir.export? owner p.last.name with
    | some address => exact map_hold_toInt address
    | none =>
      cases dir.base? p.text with
      | some address => exact map_hold_toInt address
      | none => rfl

variable {dir : Directory} {mem : Memory}

/-- Reading in a machine: what is read is held in a register. -/
theorem realizes_deref (x : Address) (problem : String → EvalError) :
    Run.Realizes toInt
      ((Run.read mem x).mapError (fun reason => .failed (problem reason)) >>= fun value =>
        .ofExcept (hold (Address.toInt value)))
      ((Run.read mem x).mapError problem >>= fun value => pure (Address.toInt value)) := by
  have hread : Run.Realizes id
      ((Run.read mem x).mapError fun reason => .failed (problem reason))
      ((Run.read mem x).mapError problem) := by
    refine ⟨rfl, ?_⟩
    show Except.map id ((mem x).mapError _) = ((mem x).mapError problem).mapError _
    cases mem x <;> rfl
  exact hread.bind fun value _ => Run.realizes_ofExcept (map_hold_toInt value)

theorem realizes_toAddress (s : Span) (n : Int) :
    Run.Realizes id (.ofExcept ((Expr.toAddress s n).mapError .failed))
      (.ofExcept (Expr.toAddress s n)) := by
  apply Run.realizes_ofExcept
  cases Expr.toAddress s n <;> rfl

/-- A machine with registers evaluates an expression node by node as it is specified. -/
theorem realizes_eval (e : Expr) : (eval dir mem e).Realizes toInt (e.eval dir mem) := by
  induction e with
  | literal text s =>
    exact Run.realizes_ofExcept (map_held fun n => Expr.fits_of_numeralValue)
  | path p => exact Run.realizes_ofExcept (map_resolve dir p)
  | signed sign s operand ih =>
    exact ih.bind fun a _ => (Run.realizes_ofExcept (map_applySign sign a)).mapError _
  | binary op s left right ihl ihr =>
    exact ihl.bind fun a _ => ihr.bind fun b _ =>
      (Run.realizes_ofExcept (map_apply op a b)).mapError _
  | deref s address s' ih =>
    exact ih.bind fun a _ => (realizes_toAddress address.span a.toInt).bind fun x _ =>
      realizes_deref x _

/-- **A machine with registers computes what is specified, and does not crash.** -/
theorem interpret_eq (dir : Directory) (mem : Memory) (e : Expr) :
    interpret dir mem e = (e.evalAddress dir mem).mapError .failed :=
  ((realizes_eval e).bind fun a _ => realizes_toAddress e.span a.toInt).eq_mapError

end Register
end AddressExpr
