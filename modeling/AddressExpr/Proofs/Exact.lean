/-
# An expression has its exact value or the first fault in it

The exact value of an expression is computed over the integers, which have no bounds
(`Expr.exact`). A numeral has the value that is written, digit by digit in base 16. Where an
operator, a name or a read has no value there is one put in its place, which is never seen: the
expression has an address only if every node meets its conditions (`Expr.nodeConditions`).
The numerals are numerals and the names are known, nothing is divided by zero, every value fits,
what is in brackets is an address and can be read, and the whole is an address too.

The conditions stand in the order of the nodes, operands before their operator and left before
right (`Expr.postorder`). If one is not met, the error is that of the first
(`result_evalAddress_iff`). For this it is shown of every step that it settles its own
conditions, and that two steps one after the other settle the conditions of both
(`Settles.bind`).

Key definitions: `Requirement`, `FirstFailure`, `Expr.postorder`, `Expr.exact`,
`Expr.conditions`, `Settles`.
Key theorems: `Expr.settles_eval`, `Expr.result_evalAddress_iff`.
-/
import AddressExpr.Proofs.Arithmetic
import AddressExpr.Proofs.Positional

namespace AddressExpr

/-! ### Conditions and the first that fails -/

/-- Something that has to hold, and the error if it does not. -/
structure Requirement where
  holds : Prop
  error : EvalError

/-- The first requirement of the list that does not hold is `r`. -/
inductive FirstFailure : List Requirement → Requirement → Prop
  | here {r : Requirement} {rs : List Requirement} (h : ¬ r.holds) : FirstFailure (r :: rs) r
  | later {q r : Requirement} {rs : List Requirement} (hq : q.holds) (h : FirstFailure rs r) :
      FirstFailure (q :: rs) r

namespace FirstFailure

variable {r r' : Requirement} {rs rs' : List Requirement}

theorem mem (h : FirstFailure rs r) : r ∈ rs := by
  induction h with
  | here h => exact List.mem_cons_self
  | later hq h ih => exact List.mem_cons_of_mem _ ih

theorem not_holds (h : FirstFailure rs r) : ¬ r.holds := by
  induction h with
  | here h => exact h
  | later hq h ih => exact ih

theorem unique (h : FirstFailure rs r) (h' : FirstFailure rs r') : r = r' := by
  induction h with
  | here h =>
    cases h' with
    | here h' => rfl
    | later hq h' => exact absurd hq h
  | later hq h ih =>
    cases h' with
    | here h' => exact absurd hq h'
    | later hq' h' => exact ih h'

theorem append_right (h : FirstFailure rs r) (rs' : List Requirement) :
    FirstFailure (rs ++ rs') r := by
  induction h with
  | here h => exact here h
  | later hq h ih => exact later hq ih

theorem append_left (hrs : ∀ q ∈ rs, q.holds) (h : FirstFailure rs' r) :
    FirstFailure (rs ++ rs') r := by
  induction rs with
  | nil => exact h
  | cons q rs ih =>
    exact later (hrs q List.mem_cons_self) (ih fun p hp => hrs p (List.mem_cons_of_mem _ hp))

end FirstFailure

/-- The result is `x` if the requirements all hold, and else the error of the first that does
not. -/
def Settles {α : Type} (rs : List Requirement) (x : α) (result : Except EvalError α) : Prop :=
  ((∀ r ∈ rs, r.holds) ∧ result = .ok x) ∨ ∃ r, FirstFailure rs r ∧ result = .error r.error

namespace Settles

variable {α β : Type} {rs rs' : List Requirement} {x : α} {y : β} {result : Except EvalError α}

/-- One requirement decides between a value and its error. -/
theorem single {r : Requirement} (hok : r.holds → result = .ok x)
    (herror : ¬ r.holds → result = .error r.error) : Settles [r] x result := by
  by_cases h : r.holds
  · refine .inl ⟨fun q hq => ?_, hok h⟩
    rwa [List.mem_singleton.mp hq]
  · exact .inr ⟨r, .here h, herror h⟩

/-- The requirements of the second step come after those of the first. -/
theorem bind {f : α → Except EvalError β} (h : Settles rs x result)
    (hnext : result = .ok x → Settles rs' y (f x)) : Settles (rs ++ rs') y (result.bind f) := by
  rcases h with ⟨hrs, hresult⟩ | ⟨r, hr, hresult⟩
  · rw [hresult]
    rcases hnext hresult with ⟨hrs', hf⟩ | ⟨r, hr, hf⟩
    · refine .inl ⟨fun r hr => ?_, hf⟩
      rcases List.mem_append.mp hr with hr | hr
      · exact hrs r hr
      · exact hrs' r hr
    · exact .inr ⟨r, .append_left hrs hr, hf⟩
  · rw [hresult]
    exact .inr ⟨r, hr.append_right rs', rfl⟩

theorem eq_ok_iff (h : Settles rs x result) {a : α} :
    result = .ok a ↔ (∀ r ∈ rs, r.holds) ∧ a = x := by
  rcases h with ⟨hrs, rfl⟩ | ⟨r, hr, rfl⟩
  · constructor
    · intro h
      exact ⟨hrs, (Except.ok.inj h).symm⟩
    · rintro ⟨-, rfl⟩
      rfl
  · constructor
    · nofun
    · rintro ⟨hrs, -⟩
      exact absurd (hrs r hr.mem) hr.not_holds

theorem eq_error_iff (h : Settles rs x result) {err : EvalError} :
    result = .error err ↔ ∃ r, FirstFailure rs r ∧ r.error = err := by
  rcases h with ⟨hrs, rfl⟩ | ⟨r, hr, rfl⟩
  · constructor
    · nofun
    · rintro ⟨r, hr, -⟩
      exact absurd (hrs r hr.mem) hr.not_holds
  · constructor
    · intro h
      exact ⟨r, hr, Except.error.inj h⟩
    · rintro ⟨r', hr', rfl⟩
      rw [hr.unique hr']

end Settles

/-! ### What a path stands for -/

namespace Path

/-- The path is read as a numeral: one name that is no symbol and has hexadecimal digits only. -/
def IsNumeral (dir : Directory) (p : Path) : Prop :=
  p.rest = [] ∧ dir.symbol? p.first.name = none ∧ Hex.IsDigits p.first.name.toList

instance (dir : Directory) (p : Path) : Decidable (p.IsNumeral dir) :=
  inferInstanceAs (Decidable (_ ∧ _ ∧ _))

/-- What the directory has for the path: a symbol or an export for one name, and for more an
export or a module file. -/
def entry? (dir : Directory) (p : Path) : Option Address :=
  match p.qualifier? with
  | none => (dir.symbol? p.first.name).or (dir.anyExport? p.first.name)
  | some owner => (dir.export? owner p.last.name).or (dir.base? p.text)

theorem last_eq_first {p : Path} (h : p.rest = []) : p.last = p.first := by
  rw [last, h]
  rfl

end Path

namespace Expr

/-- All nodes of the expression, operands before their operator and left before right. -/
def postorder : Expr → List Expr
  | e@(literal ..) => [e]
  | e@(path _) => [e]
  | e@(signed _ _ operand) => operand.postorder ++ [e]
  | e@(binary _ _ left right) => left.postorder ++ right.postorder ++ [e]
  | e@(deref _ address _) => address.postorder ++ [e]

/-! ### The exact value -/

/-- The numeral that a literal is: what stands behind `0x`, if the literal starts with that. -/
def literalNumeral (text : String) : List Char :=
  if text.toList.take 2 = ['0', 'x'] then text.toList.drop 2 else text.toList

/-- The integer that is written, with a sign before its digits or without one. -/
def exactNumeral : List Char → Int
  | '+' :: digits => Hex.positional digits
  | '-' :: digits => -(Hex.positional digits : Int)
  | digits => Hex.positional digits

/-- The value that a path stands for, if it stands for one. -/
def exactPath (dir : Directory) (p : Path) : Int :=
  if p.IsNumeral dir then exactNumeral p.first.name.toList
  else ((p.entry? dir).map Address.toInt).getD 0

/-- The address with this number, if there is one. -/
def exactAddress (n : Int) : Address := UInt64.ofNat n.toNat

/-- What is read at the address, if it can be read. -/
def exactRead (mem : Memory) (address : Address) : Int :=
  match mem address with
  | .ok value => Address.toInt value
  | .error _ => 0

/-- The value of the expression over the integers. -/
def exact (dir : Directory) (mem : Memory) : Expr → Int
  | literal text _ => exactNumeral (literalNumeral text)
  | path p => exactPath dir p
  | signed sign _ operand => sign.exact (operand.exact dir mem)
  | binary op _ left right => op.exact (left.exact dir mem) (right.exact dir mem)
  | deref _ address _ => exactRead mem (exactAddress (address.exact dir mem))

/-! ### The conditions -/

/-- The digits are a numeral, and its value fits. -/
def numeralCondition (text : String) (digits : List Char) (s : Span) : Requirement :=
  ⟨∃ n, Hex.Numeral digits n ∧ Value.Fits n, ⟨.literalOutOfRange text, s⟩⟩

/-- The path is a numeral that fits, or the directory has an entry for it. -/
def pathCondition (dir : Directory) (p : Path) : Requirement :=
  if p.IsNumeral dir then numeralCondition p.first.name p.first.name.toList p.first.span
  else
    ⟨∃ address, p.entry? dir = some address,
      if p.rest = [] then ⟨.undefinedSymbol p.first.name, p.first.span⟩
      else ⟨.notFound p.text, p.span⟩⟩

/-- The value is neither below zero nor too large for an address. -/
def addressConditions (s : Span) (n : Int) : List Requirement :=
  [⟨0 ≤ n, ⟨.negativeAddress n, s⟩⟩, ⟨n < Address.limit, ⟨.addressOutOfRange n, s⟩⟩]

/-- Why a read fails, if it does. -/
def refusal : Except String Address → String
  | .ok _ => ""
  | .error reason => reason

/-- The address can be read. -/
def readCondition (mem : Memory) (address : Address) (s : Span) : Requirement :=
  ⟨∃ value, mem address = .ok value, ⟨.unreadable address (refusal (mem address)), s⟩⟩

/-- The conditions that the node adds to those of its operands. -/
def nodeConditions (dir : Directory) (mem : Memory) : Expr → List Requirement
  | literal text s => [numeralCondition text (literalNumeral text) s]
  | path p => [pathCondition dir p]
  | signed sign s operand =>
    [⟨Value.Fits (sign.exact (operand.exact dir mem)), ⟨.overflow (.unary sign), s⟩⟩]
  | binary op s left right =>
    [⟨¬ op.DividesByZero (left.exact dir mem) (right.exact dir mem),
        ⟨.divisionByZero op s, right.span⟩⟩,
      ⟨Value.Fits (op.exact (left.exact dir mem) (right.exact dir mem)),
        ⟨.overflow (.binary op), s⟩⟩]
  | deref s address s' =>
    addressConditions address.span (address.exact dir mem) ++
      [readCondition mem (exactAddress (address.exact dir mem)) (s.cover s')]

/-- The conditions for the expression to have a value, in the order they are looked at. -/
def conditions (dir : Directory) (mem : Memory) (e : Expr) : List Requirement :=
  e.postorder.flatMap (nodeConditions dir mem)

/-- The conditions for the expression to have an address: those for its value, and then that the
value is an address. -/
def addressable (dir : Directory) (mem : Memory) (e : Expr) : List Requirement :=
  e.conditions dir mem ++ addressConditions e.span (e.exact dir mem)

/-! ### Every step settles its conditions -/

/-- The digits of a literal are taken from its numeral. -/
theorem literalDigits_eq_literalNumeral (text : String) :
    literalDigits text = literalNumeral text := by
  unfold literalDigits literalNumeral
  split
  · next digits h =>
    rw [h]
    rfl
  · next h =>
    rw [if_neg]
    intro htake
    refine h (text.toList.drop 2) ?_
    calc text.toList = text.toList.take 2 ++ text.toList.drop 2 := (List.take_append_drop 2 _).symm
      _ = '0' :: 'x' :: text.toList.drop 2 := by rw [htake]; rfl

/-- A numeral of an integer is written for that one. -/
theorem exactNumeral_eq {digits : List Char} {n : Int} (h : Hex.Numeral digits n) :
    exactNumeral digits = n := by
  cases h with
  | unsigned hne hdigits =>
    unfold exactNumeral
    split
    · exact absurd (hdigits '+' List.mem_cons_self) (by decide)
    · exact absurd (hdigits '-' List.mem_cons_self) (by decide)
    · rfl
  | plus hne hdigits => rfl
  | minus hne hdigits => rfl

theorem settles_numeralValue (text : String) (digits : List Char) (s : Span) :
    Settles [numeralCondition text digits s] (exactNumeral digits)
      (numeralValue text digits s) := by
  unfold numeralValue
  refine .single ?_ ?_
  · rintro ⟨n, hn, hfits⟩
    rw [Value.ofNumeral?_eq_some_iff.mpr ⟨hn, hfits⟩, exactNumeral_eq hn]
  · intro h
    cases hn : Value.ofNumeral? digits with
    | none => rfl
    | some n => exact absurd ⟨n, Value.ofNumeral?_eq_some_iff.mp hn⟩ h

/-- An entry for a path is its value, and without one the path has the error `err`. -/
theorem settles_entry (entry : Option Address) (err : EvalError) :
    Settles [⟨∃ address, entry = some address, err⟩] ((entry.map Address.toInt).getD 0)
      (match entry with
        | some address => .ok (Address.toInt address)
        | none => .error err) := by
  refine .single ?_ ?_
  · rintro ⟨address, rfl⟩
    rfl
  · intro h
    cases entry with
    | none => rfl
    | some address => exact absurd ⟨address, rfl⟩ h

theorem resolve_of_isNumeral {dir : Directory} {p : Path} (h : p.IsNumeral dir) :
    resolve dir p = numeralValue p.first.name p.first.name.toList p.first.span := by
  obtain ⟨hrest, hsymbol, hdigits⟩ := h
  have hname : isNumeralName p.first.name = true := Hex.all_isDigit_iff.mpr hdigits
  rw [resolve, Path.qualifier?_eq_none_iff.mpr hrest, Path.last_eq_first hrest]
  simp only [resolveName, hsymbol, hname, if_true]

theorem resolve_of_not_isNumeral {dir : Directory} {p : Path} (h : ¬ p.IsNumeral dir) :
    resolve dir p =
      match p.entry? dir with
      | some address => .ok (Address.toInt address)
      | none => .error (if p.rest = [] then ⟨.undefinedSymbol p.first.name, p.first.span⟩
          else ⟨.notFound p.text, p.span⟩) := by
  by_cases hrest : p.rest = []
  · have hqual := Path.qualifier?_eq_none_iff.mpr hrest
    rw [resolve, Path.entry?, hqual, if_pos hrest, Path.last_eq_first hrest]
    simp only [resolveName]
    cases hsymbol : dir.symbol? p.first.name with
    | some value => rfl
    | none =>
      have hname : ¬ isNumeralName p.first.name = true :=
        fun hname => h ⟨hrest, hsymbol, Hex.all_isDigit_iff.mp hname⟩
      cases dir.anyExport? p.first.name with
      | some address => exact if_neg hname
      | none => exact if_neg hname
  · obtain ⟨owner, hqual⟩ := Option.ne_none_iff_exists'.mp
      (fun hqual => hrest (Path.qualifier?_eq_none_iff.mp hqual))
    rw [resolve, Path.entry?, hqual, if_neg hrest]
    simp only
    cases dir.export? owner p.last.name with
    | some address => rfl
    | none => rfl

theorem settles_resolve (dir : Directory) (p : Path) :
    Settles [pathCondition dir p] (exactPath dir p) (resolve dir p) := by
  unfold pathCondition exactPath
  by_cases h : p.IsNumeral dir
  · rw [if_pos h, if_pos h, resolve_of_isNumeral h]
    exact settles_numeralValue _ _ _
  · rw [if_neg h, if_neg h, resolve_of_not_isNumeral h]
    exact settles_entry _ _

theorem toAddress_of_neg (s : Span) {n : Int} (h : n < 0) :
    toAddress s n = .error ⟨.negativeAddress n, s⟩ := by
  have hnone : Address.ofInt? n = none := Address.ofInt?_eq_none_iff.mpr (.inl h)
  rw [toAddress, hnone, if_pos h]

theorem toAddress_of_limit_le (s : Span) {n : Int} (h : Address.limit ≤ n) :
    toAddress s n = .error ⟨.addressOutOfRange n, s⟩ := by
  have hnone : Address.ofInt? n = none := Address.ofInt?_eq_none_iff.mpr (.inr h)
  have hpos : 0 ≤ Address.limit := by decide
  rw [toAddress, hnone, if_neg (by omega)]

theorem ofInt?_exactAddress {n : Int} (hneg : 0 ≤ n) (hlarge : n < Address.limit) :
    Address.ofInt? n = some (exactAddress n) :=
  if_pos ⟨hneg, hlarge⟩

theorem toInt_exactAddress {n : Int} (hneg : 0 ≤ n) (hlarge : n < Address.limit) :
    Address.toInt (exactAddress n) = n :=
  (Address.ofInt?_eq_some_iff.mp (ofInt?_exactAddress hneg hlarge)).symm

theorem exactAddress_toInt (a : Address) : exactAddress (Address.toInt a) = a := by
  have hexact := ofInt?_exactAddress (Address.toInt_nonneg a) (Address.toInt_lt a)
  rw [Address.ofInt?_eq_some_iff.mpr rfl, Option.some_inj] at hexact
  exact hexact.symm

theorem toAddress_of_lt (s : Span) {n : Int} (hneg : 0 ≤ n) (hlarge : n < Address.limit) :
    toAddress s n = .ok (exactAddress n) := by
  rw [toAddress, ofInt?_exactAddress hneg hlarge]

theorem toAddress_eq_ok_iff {s : Span} {n : Int} {a : Address} :
    toAddress s n = .ok a ↔ n = Address.toInt a := by
  rw [← Address.ofInt?_eq_some_iff]
  unfold toAddress
  cases Address.ofInt? n with
  | some address => exact ⟨fun h => congrArg some (Except.ok.inj h), fun h => by cases h; rfl⟩
  | none => exact ⟨nofun, nofun⟩

theorem toAddress_toInt (s : Span) (a : Address) : toAddress s (Address.toInt a) = .ok a := by
  rw [toAddress_eq_ok_iff]

theorem settles_toAddress (s : Span) (n : Int) :
    Settles (addressConditions s n) (exactAddress n) (toAddress s n) := by
  by_cases hneg : 0 ≤ n
  · by_cases hlarge : n < Address.limit
    · rw [toAddress_of_lt s hneg hlarge]
      refine .inl ⟨?_, rfl⟩
      simpa [addressConditions] using ⟨hneg, hlarge⟩
    · rw [toAddress_of_limit_le s (Int.not_lt.mp hlarge)]
      exact .inr ⟨_, .later hneg (.here hlarge), rfl⟩
  · rw [toAddress_of_neg s (Int.not_le.mp hneg)]
    exact .inr ⟨_, .here hneg, rfl⟩

theorem settles_apply (op : BinaryOp) (s s' : Span) (a b : Int) :
    Settles
      [⟨¬ op.DividesByZero a b, ⟨.divisionByZero op s, s'⟩⟩,
        ⟨Value.Fits (op.exact a b), ⟨.overflow (.binary op), s⟩⟩]
      (op.exact a b) ((op.apply a b).mapError (faultError op s s')) := by
  rw [op.apply_eq]
  by_cases hzero : op.DividesByZero a b
  · rw [if_pos hzero]
    exact .inr ⟨_, .here (not_not_intro hzero), rfl⟩
  rw [if_neg hzero]
  by_cases hfits : Value.Fits (op.exact a b)
  · rw [Value.checked_of_fits hfits]
    refine .inl ⟨?_, rfl⟩
    simpa using ⟨hzero, hfits⟩
  · rw [Value.checked_of_not_fits hfits]
    exact .inr ⟨_, .later hzero (.here hfits), rfl⟩

theorem settles_read (mem : Memory) (address : Address) (s : Span) :
    Settles [readCondition mem address s] (exactRead mem address)
      (((Run.read mem address).mapError fun reason =>
        (⟨.unreadable address reason, s⟩ : EvalError)).result.bind fun value =>
          .ok (Address.toInt value)) := by
  show Settles _ _ (((mem address).mapError _).bind _)
  unfold exactRead
  refine .single ?_ ?_
  · rintro ⟨value, hvalue⟩
    rw [hvalue]
    rfl
  · intro h
    show _ = Except.error (⟨.unreadable address (refusal (mem address)), s⟩ : EvalError)
    cases hread : mem address with
    | ok value => exact absurd ⟨value, hread⟩ h
    | error reason => rfl

/-- **The evaluation of an expression settles its conditions.** -/
theorem settles_eval (dir : Directory) (mem : Memory) (e : Expr) :
    Settles (e.conditions dir mem) (e.exact dir mem) (e.eval dir mem).result := by
  unfold conditions
  induction e with
  | literal text s =>
    rw [eval, literalDigits_eq_literalNumeral]
    exact settles_numeralValue text (literalNumeral text) s
  | path p => exact settles_resolve dir p
  | signed sign s operand ih =>
    rw [postorder, List.flatMap_append, List.flatMap_singleton, eval, Run.result_bind]
    refine ih.bind fun h => ?_
    have hfits := fits_of_eval h
    show Settles _ _ ((sign.apply _).mapError _)
    rw [sign.apply_eq hfits]
    refine .single (fun h => ?_) (fun h => ?_)
    · rw [Value.checked_of_fits h]
      rfl
    · rw [Value.checked_of_not_fits h]
      rfl
  | binary op s left right ihl ihr =>
    rw [postorder, List.flatMap_append, List.flatMap_append, List.flatMap_singleton, eval,
      Run.result_bind, List.append_assoc]
    refine ihl.bind fun _ => ?_
    rw [Run.result_bind]
    exact ihr.bind fun _ => settles_apply op s right.span _ _
  | deref s address s' ih =>
    rw [postorder, List.flatMap_append, List.flatMap_singleton, eval, Run.result_bind]
    refine ih.bind fun _ => ?_
    rw [Run.result_bind]
    refine (settles_toAddress address.span _).bind fun _ => ?_
    rw [Run.result_bind]
    exact settles_read mem _ (s.cover s')

/-- The nodes below a node come before it. -/
theorem postorder_subset {d : Expr} : ∀ {e : Expr}, d ∈ e.postorder → d.postorder ⊆ e.postorder
  | literal .., h => by rw [List.mem_singleton.mp h]; exact fun _ => id
  | path _, h => by rw [List.mem_singleton.mp h]; exact fun _ => id
  | signed _ _ operand, h => by
    rcases List.mem_append.mp h with h | h
    · exact fun _ hx => List.mem_append_left _ (postorder_subset h hx)
    · rw [List.mem_singleton.mp h]
      exact fun _ => id
  | binary _ _ left right, h => by
    rcases List.mem_append.mp h with h | h
    · rcases List.mem_append.mp h with h | h
      · exact fun _ hx => List.mem_append_left _ (List.mem_append_left _ (postorder_subset h hx))
      · exact fun _ hx => List.mem_append_left _ (List.mem_append_right _ (postorder_subset h hx))
    · rw [List.mem_singleton.mp h]
      exact fun _ => id
  | deref _ address _, h => by
    rcases List.mem_append.mp h with h | h
    · exact fun _ hx => List.mem_append_left _ (postorder_subset h hx)
    · rw [List.mem_singleton.mp h]
      exact fun _ => id

/-- If the conditions of an expression hold, the value of every node is exact. -/
theorem eval_of_mem_postorder {dir : Directory} {mem : Memory} {d e : Expr}
    (h : ∀ r ∈ e.conditions dir mem, r.holds) (hd : d ∈ e.postorder) :
    (d.eval dir mem).result = .ok (d.exact dir mem) := by
  refine (settles_eval dir mem d).eq_ok_iff.mpr ⟨fun r hr => h r ?_, rfl⟩
  obtain ⟨node, hnode, hr⟩ := List.mem_flatMap.mp hr
  exact List.mem_flatMap.mpr ⟨node, postorder_subset hd hnode, hr⟩

/-- Nothing is read for the check that a value is an address. -/
theorem reads_evalAddress (dir : Directory) (mem : Memory) (e : Expr) :
    (e.evalAddress dir mem).reads = (e.eval dir mem).reads := by
  rw [evalAddress, Run.reads_bind]
  cases (e.eval dir mem).result with
  | ok n => exact List.append_nil _
  | error err => exact List.append_nil _

theorem result_eval_of_evalAddress {dir : Directory} {mem : Memory} {e : Expr} {a : Address}
    (h : (e.evalAddress dir mem).result = .ok a) :
    (e.eval dir mem).result = .ok (Address.toInt a) := by
  obtain ⟨n, hn, haddress⟩ := Run.result_bind_eq_ok_iff.mp h
  rw [hn, toAddress_eq_ok_iff.mp haddress]

theorem settles_evalAddress (dir : Directory) (mem : Memory) (e : Expr) :
    Settles (e.addressable dir mem) (exactAddress (e.exact dir mem))
      (e.evalAddress dir mem).result := by
  rw [addressable, evalAddress, Run.result_bind]
  exact (settles_eval dir mem e).bind fun _ => settles_toAddress e.span _

/-- **An expression has its exact value as its address if every condition holds, and else the
error of the first that does not.** The conditions are those of the nodes, operands first and
left before right, and then that the value of the whole is an address. -/
theorem result_evalAddress_iff (dir : Directory) (mem : Memory) (e : Expr) :
    (∀ a, (e.evalAddress dir mem).result = .ok a ↔
      (∀ r ∈ e.addressable dir mem, r.holds) ∧
      (∀ d ∈ e.postorder, Value.Fits (d.exact dir mem)) ∧
      Address.toInt a = e.exact dir mem) ∧
    ∀ err, (e.evalAddress dir mem).result = .error err ↔
      ∃ r, FirstFailure (e.addressable dir mem) r ∧ r.error = err := by
  have hsettles := settles_evalAddress dir mem e
  refine ⟨fun a => ?_, fun err => hsettles.eq_error_iff⟩
  rw [hsettles.eq_ok_iff]
  constructor
  · rintro ⟨h, rfl⟩
    have hconditions : ∀ r ∈ e.conditions dir mem, r.holds :=
      fun r hr => h r (List.mem_append_left _ hr)
    have haddress : ∀ r ∈ addressConditions e.span (e.exact dir mem), r.holds :=
      fun r hr => h r (List.mem_append_right _ hr)
    simp only [addressConditions, List.forall_mem_cons] at haddress
    exact ⟨h, fun d hd => fits_of_eval (eval_of_mem_postorder hconditions hd),
      toInt_exactAddress haddress.1 haddress.2.1⟩
  · rintro ⟨h, -, ha⟩
    exact ⟨h, by rw [← ha, exactAddress_toInt]⟩

end Expr
end AddressExpr
