/-
# The value of an expression

An expression is evaluated operand by operand, from left to right, and the first failure
ends the evaluation. A name alone is a symbol, else a number if it has only hexadecimal
digits, else an export of any module; a longer path is an export of the module before its
last dot, else the base of the module file with that whole path. What is in brackets has
to be an address, and so has the value of the whole expression; every other value only
has to fit.

Key definitions: `Expr.resolve`, `Expr.eval`, `Expr.evalAddress`.
Key theorems: `Expr.fits_of_eval`, `Expr.eval_signed_of_eval`, `Expr.eval_binary_of_eval`,
`Expr.eval_deref_of_eval`.
-/
import AddressExpr.Directory
import AddressExpr.Expr.Basic
import AddressExpr.Memory
import AddressExpr.Value

namespace AddressExpr

/-- An operator with one operand or two. -/
inductive Operator
  | unary (sign : Sign)
  | binary (op : BinaryOp)
deriving DecidableEq, Inhabited

/-- How the operator is written. -/
def Operator.symbol : Operator → String
  | .unary sign => sign.symbol
  | .binary op => op.symbol

/-- Why an expression has no value. -/
inductive EvalProblem
  | undefinedSymbol (name : String)
  | notFound (path : String)
  | divisionByZero (op : BinaryOp) (opSpan : Span)
  | overflow (op : Operator)
  | literalOutOfRange (text : String)
  | negativeAddress (value : Int)
  | addressOutOfRange (value : Int)
  | unreadable (address : Address) (reason : String)
deriving DecidableEq, Inhabited

/-- A problem and the part of the text that has it. For a division by zero this is the
divisor, for an overflow the operator. -/
structure EvalError where
  problem : EvalProblem
  span : Span
deriving DecidableEq, Inhabited

namespace EvalError

/-- What a report says about the error. -/
def message (e : EvalError) : String :=
  match e.problem with
  | .undefinedSymbol name => "undefined symbol '" ++ name ++ "'"
  | .notFound path => "'" ++ path ++ "' not found"
  | .divisionByZero _ _ => "division by zero"
  | .overflow _ => "arithmetic overflow"
  | .literalOutOfRange text => "hex literal '" ++ text ++ "' is out of range"
  | .negativeAddress _ => "address must not be negative"
  | .addressOutOfRange value => "address " ++ Hex.render value.natAbs ++ " is out of range"
  | .unreadable address reason =>
    "failed to read memory at " ++ Address.render address ++ ": " ++ reason

/-- The parts of the text that a report marks, with a note on each. -/
def labels (e : EvalError) : List (Span × String) :=
  match e.problem with
  | .undefinedSymbol _ => [(e.span, "not a symbol, hex number or export")]
  | .notFound _ => [(e.span, "no such module export or module")]
  | .divisionByZero op opSpan =>
    [(e.span, "this is zero"), (opSpan, "in this '" ++ op.symbol ++ "'")]
  | .overflow op => [(e.span, "'" ++ op.symbol ++ "' overflowed")]
  | .literalOutOfRange _ => [(e.span, "too many digits")]
  | .negativeAddress value => [(e.span, "evaluates to -" ++ Hex.render value.natAbs)]
  | .addressOutOfRange _ => [(e.span, "does not fit in 64 bits")]
  | .unreadable _ _ => [(e.span, "dereferenced here")]

end EvalError

/-- The result of the operator on two values. -/
def BinaryOp.apply : BinaryOp → Int → Int → Except Value.Fault Int
  | .add => Value.add
  | .sub => Value.sub
  | .mul => Value.mul
  | .div => Value.div
  | .pow => Value.pow

/-- The result of the sign on a value. -/
def Sign.apply : Sign → Int → Except Value.Fault Int
  | .plus, a => .ok a
  | .minus, a => Value.neg a

namespace Expr

/-! ### Literals, names and addresses -/

/-- The value of the digits of a literal whose whole text is `text`. -/
def numeralValue (text : String) (digits : List Char) (s : Span) : Except EvalError Int :=
  match Value.ofNumeral? digits with
  | some n => .ok n
  | none => .error ⟨.literalOutOfRange text, s⟩

/-- Whether the name has no other characters than hexadecimal digits. -/
def isNumeralName (name : String) : Bool := name.toList.all Hex.isDigit

/-- The value of a name that stands alone. -/
def resolveName (dir : Directory) (s : Segment) : Except EvalError Int :=
  match dir.symbol? s.name with
  | some value => .ok (Address.toInt value)
  | none =>
    if isNumeralName s.name then numeralValue s.name s.name.toList s.span
    else match dir.anyExport? s.name with
      | some address => .ok (Address.toInt address)
      | none => .error ⟨.undefinedSymbol s.name, s.span⟩

/-- The value of a path. -/
def resolve (dir : Directory) (p : Path) : Except EvalError Int :=
  match p.qualifier? with
  | none => resolveName dir p.last
  | some owner =>
    match dir.export? owner p.last.name with
    | some address => .ok (Address.toInt address)
    | none =>
      match dir.base? p.text with
      | some address => .ok (Address.toInt address)
      | none => .error ⟨.notFound p.text, p.span⟩

/-- The value as an address; `s` is where it comes from. -/
def toAddress (s : Span) (value : Int) : Except EvalError Address :=
  match Address.ofInt? value with
  | some address => .ok address
  | none => .error ⟨if value < 0 then .negativeAddress value else .addressOutOfRange value, s⟩

/-! ### Evaluation -/

/-- The error for a fault of an operator; `rightSpan` is where its right operand is. -/
def faultError (op : BinaryOp) (opSpan rightSpan : Span) : Value.Fault → EvalError
  | .overflow => ⟨.overflow (.binary op), opSpan⟩
  | .divisionByZero => ⟨.divisionByZero op opSpan, rightSpan⟩

/-- The value of an expression and the addresses read for it. -/
def eval (dir : Directory) (mem : Memory) : Expr → Run EvalError Int
  | literal text s => .ofExcept (numeralValue text (literalDigits text) s)
  | path p => .ofExcept (resolve dir p)
  | signed sign signSpan operand => do
    let a ← operand.eval dir mem
    (Run.ofExcept (sign.apply a)).mapError fun _ => ⟨.overflow (.unary sign), signSpan⟩
  | binary op opSpan left right => do
    let a ← left.eval dir mem
    let b ← right.eval dir mem
    (Run.ofExcept (op.apply a b)).mapError (faultError op opSpan right.span)
  | deref openSpan address closeSpan => do
    let a ← address.eval dir mem
    let a ← .ofExcept (toAddress address.span a)
    let value ← (Run.read mem a).mapError fun reason =>
      ⟨.unreadable a reason, openSpan.cover closeSpan⟩
    pure (Address.toInt value)

theorem fits_toInt (a : Address) : Value.Fits (Address.toInt a) := by
  have := Address.toInt_nonneg a
  have := Address.toInt_lt a
  unfold Address.limit at *
  unfold Value.Fits Value.limit
  omega

theorem fits_of_numeralValue {text : String} {digits : List Char} {s : Span} {n : Int}
    (h : numeralValue text digits s = .ok n) : Value.Fits n := by
  unfold numeralValue at h
  split at h
  · next hn => exact Except.ok.inj h ▸ Value.fits_of_ofNumeral? hn
  · simp at h

theorem fits_of_resolve {dir : Directory} {p : Path} {n : Int} (h : resolve dir p = .ok n) :
    Value.Fits n := by
  unfold resolve resolveName at h
  repeat' split at h
  all_goals grind [fits_toInt, fits_of_numeralValue]

theorem fits_of_apply {op : BinaryOp} {a b n : Int} (h : op.apply a b = .ok n) :
    Value.Fits n := by
  cases op
  · exact Value.fits_of_checked h
  · exact Value.fits_of_checked h
  · exact Value.fits_of_checked h
  · exact Value.fits_of_div h
  · exact Value.fits_of_pow h

/-- Every value that an evaluation passes through fits. -/
theorem fits_of_eval {dir : Directory} {mem : Memory} : ∀ {e : Expr} {n : Int},
    (e.eval dir mem).result = .ok n → Value.Fits n
  | literal .., _, h => fits_of_numeralValue h
  | path _, _, h => fits_of_resolve h
  | signed sign _ operand, n, h => by
    obtain ⟨a, ha, h⟩ := Run.result_bind_eq_ok_iff.mp h
    have h := Run.result_mapError_eq_ok_iff.mp h
    cases sign with
    | plus => exact Except.ok.inj h ▸ fits_of_eval ha
    | minus => exact Value.fits_of_checked h
  | binary _ _ _ _, n, h => by
    obtain ⟨a, -, h⟩ := Run.result_bind_eq_ok_iff.mp h
    obtain ⟨b, -, h⟩ := Run.result_bind_eq_ok_iff.mp h
    exact fits_of_apply (Run.result_mapError_eq_ok_iff.mp h)
  | deref _ _ _, n, h => by
    obtain ⟨a, -, h⟩ := Run.result_bind_eq_ok_iff.mp h
    obtain ⟨b, -, h⟩ := Run.result_bind_eq_ok_iff.mp h
    obtain ⟨c, -, h⟩ := Run.result_bind_eq_ok_iff.mp h
    exact Except.ok.inj h ▸ fits_toInt c

/-- The value of an expression as an address, and the addresses read for it. -/
def evalAddress (dir : Directory) (mem : Memory) (e : Expr) : Run EvalError Address := do
  let value ← e.eval dir mem
  .ofExcept (toAddress e.span value)

/-! ### Operators whose operands have values -/

section

variable {dir : Directory} {mem : Memory}

theorem eval_signed_of_eval (sign : Sign) (s : Span) {operand : Expr} {n : Int}
    (h : (operand.eval dir mem).result = .ok n) :
    (signed sign s operand).eval dir mem =
      ⟨(sign.apply n).mapError fun _ => ⟨.overflow (.unary sign), s⟩,
        (operand.eval dir mem).reads⟩ := by
  rw [eval, Run.bind_of_result_eq_ok h]
  exact congrArg _ (List.append_nil _)

theorem eval_binary_of_eval (op : BinaryOp) (s : Span) {l r : Expr} {m n : Int}
    (hl : (l.eval dir mem).result = .ok m) (hr : (r.eval dir mem).result = .ok n) :
    (binary op s l r).eval dir mem =
      ⟨(op.apply m n).mapError (faultError op s r.span),
        (l.eval dir mem).reads ++ (r.eval dir mem).reads⟩ := by
  rw [eval, Run.bind_of_result_eq_ok hl, Run.bind_of_result_eq_ok hr]
  show Run.mk _ (_ ++ (_ ++ [])) = _
  rw [List.append_nil]
  rfl

theorem eval_deref_of_eval (s s' : Span) {e : Expr} {n : Int} {x : Address}
    (he : (e.eval dir mem).result = .ok n) (hx : toAddress e.span n = .ok x) :
    (deref s e s').eval dir mem =
      ⟨((mem x).mapError fun reason => ⟨.unreadable x reason, s.cover s'⟩).bind fun value =>
          .ok (Address.toInt value),
        (e.eval dir mem).reads ++ [x]⟩ := by
  rw [eval, Run.bind_of_result_eq_ok he, hx, Run.ofExcept_ok_bind, Run.read_bind_pure]

end

end Expr
end AddressExpr
