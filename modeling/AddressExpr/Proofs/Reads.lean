/-
# What is read, and in which order

Only a dereference reads, and it reads once, at the value of what stands in its brackets. So the
addresses that are read for an expression are those values, one for each dereference, in the order
of the nodes, operands before their operator and left before right (`AreReads`).

If the expression fails, it does so at one node (`FailsAt`), and the nodes behind it are not looked
at. What was read is then what the dereferences before that node read (`ReadsUpTo`). Only if the
node is itself a dereference whose address cannot be read is its own address the last one that was
asked for (`EvalError.refused?`).

For the induction over the expression, the nodes that are evaluated one after the other have a
trace, which goes through all of them or stops at one (`Traces`). What holds of one node is put
together along the evaluation (`Traces.bind`).

Key definitions: `Expr.operand?`, `AreReads`, `EvalError.refused?`, `FailsAt`, `ReadsUpTo`,
`Traces`.
Key theorems: `Traces.bind`, `Expr.traces_eval`, `Expr.areReads_evalAddress`.
-/
import AddressExpr.Evaluation
import AddressExpr.Proofs.Exact

namespace AddressExpr

namespace Expr

/-- What stands in the brackets of a dereference. -/
def operand? : Expr → Option Expr
  | deref _ address _ => some address
  | _ => none

/-- The expression has a value. -/
def HasValue (dir : Directory) (mem : Memory) (e : Expr) : Prop :=
  ∃ n, (e.eval dir mem).result = .ok n

end Expr

/-- The addresses are the values of what stands in the brackets of the dereferences among the
nodes, one for each of them and in their order. -/
def AreReads (dir : Directory) (mem : Memory) (nodes : List Expr) (reads : List Address) : Prop :=
  (nodes.filterMap (·.operand?)).map (fun operand => (operand.eval dir mem).result) =
    reads.map fun x => .ok (Address.toInt x)

/-- The address that was asked for and could not be read, if this is the error. -/
def EvalError.refused? (err : EvalError) : Option Address :=
  match err.problem with
  | .unreadable address _ => some address
  | _ => none

/-- The evaluation of `e` fails at the node `d`, the first without a value. If there is none, it
fails at `e` itself, whose value is no address. -/
structure FailsAt (dir : Directory) (mem : Memory) (e : Expr) (err : EvalError)
    (before : List Expr) (d : Expr) (after : List Expr) : Prop where
  postorder_eq : e.postorder = before ++ d :: after
  hasValue : ∀ b ∈ before, b.HasValue dir mem
  fault : (d.eval dir mem).result = .error err ∨
    d = e ∧ (e.evalAddress dir mem).result = .error err

/-- What was read is what the dereferences before the node `d` read, and the address at which `d`
could not be read, if that is its error. -/
structure ReadsUpTo (dir : Directory) (mem : Memory) (before : List Expr) (d : Expr)
    (err : EvalError) (reads : List Address) : Prop where
  reads_eq : ∃ xs, AreReads dir mem before xs ∧ reads = xs ++ err.refused?.toList
  refused : ∀ x ∈ err.refused?, ∃ s a s', d = .deref s a s' ∧
    (a.eval dir mem).result = .ok (Address.toInt x)

/-- The computation goes through the nodes, or up to the first of them without a value. -/
inductive Traces {α : Type} (dir : Directory) (mem : Memory) (nodes : List Expr)
    (run : Run EvalError α) : Prop
  | done {a : α} (result_eq : run.result = .ok a) (hasValue : ∀ b ∈ nodes, b.HasValue dir mem)
      (areReads : AreReads dir mem nodes run.reads)
  | stopped {err : EvalError} {before : List Expr} {d : Expr} {after : List Expr}
      (result_eq : run.result = .error err) (nodes_eq : nodes = before ++ d :: after)
      (hasValue : ∀ b ∈ before, b.HasValue dir mem) (fault : (d.eval dir mem).result = .error err)
      (readsUpTo : ReadsUpTo dir mem before d err run.reads)

/-! ### One trace after the other -/

section

variable {dir : Directory} {mem : Memory} {nodes nodes' : List Expr} {reads reads' : List Address}

theorem AreReads.append (h : AreReads dir mem nodes reads) (h' : AreReads dir mem nodes' reads') :
    AreReads dir mem (nodes ++ nodes') (reads ++ reads') := by
  unfold AreReads at *
  rw [List.filterMap_append, List.map_append, List.map_append, h, h']

/-- Nothing is read for a node that is no dereference. -/
theorem areReads_nil {e : Expr} (h : e.operand? = none) : AreReads dir mem [e] [] := by
  rw [AreReads, List.filterMap_cons_none h]
  rfl

theorem areReads_singleton (s s' : Span) {a : Expr} {x : Address}
    (h : (a.eval dir mem).result = .ok (Address.toInt x)) :
    AreReads dir mem [.deref s a s'] [x] :=
  congrArg (· :: []) h

/-- What is read is the value of an operand. -/
theorem AreReads.exists_deref (h : AreReads dir mem nodes reads) {x : Address} (hx : x ∈ reads) :
    ∃ s a s', .deref s a s' ∈ nodes ∧ (a.eval dir mem).result = .ok (Address.toInt x) := by
  have hmem : Except.ok (Address.toInt x) ∈
      (nodes.filterMap (·.operand?)).map fun operand => (operand.eval dir mem).result := by
    rw [h]
    exact List.mem_map_of_mem hx
  obtain ⟨a, ha, hvalue⟩ := List.mem_map.mp hmem
  obtain ⟨d, hd, hoperand⟩ := List.mem_filterMap.mp ha
  cases d with
  | deref s address s' =>
    obtain rfl : address = a := Option.some.inj hoperand
    exact ⟨s, address, s', hd, hvalue⟩
  | _ => cases hoperand

variable {α β : Type} {run : Run EvalError α} {f : α → Run EvalError β}

/-- **The trace of a sequence is made of those of its parts.** The second one is gone through only
if the first one has a value. -/
theorem Traces.bind (h : Traces dir mem nodes run)
    (hnext : ∀ a, run.result = .ok a → Traces dir mem nodes' (f a)) :
    Traces dir mem (nodes ++ nodes') (run >>= f) := by
  cases h with
  | @done a hresult hvalues hreads =>
    rw [Run.bind_of_result_eq_ok hresult]
    cases hnext a hresult with
    | done hresult' hvalues' hreads' =>
      exact .done hresult' (List.forall_mem_append.mpr ⟨hvalues, hvalues'⟩) (hreads.append hreads')
    | @stopped err before d after hresult' hnodes' hvalues' hfault hupto =>
      obtain ⟨xs, hxs, hreads'⟩ := hupto.reads_eq
      have hnodes : nodes ++ nodes' = (nodes ++ before) ++ d :: after := by
        rw [hnodes', List.append_assoc]
      have hall : run.reads ++ (f a).reads = (run.reads ++ xs) ++ err.refused?.toList := by
        rw [hreads', List.append_assoc]
      exact .stopped hresult' hnodes (List.forall_mem_append.mpr ⟨hvalues, hvalues'⟩) hfault
        ⟨⟨_, hreads.append hxs, hall⟩, hupto.refused⟩
  | @stopped err before d after hresult hnodes hvalues hfault hupto =>
    rw [Run.bind_of_result_eq_error hresult]
    have hnodes : nodes ++ nodes' = before ++ d :: (after ++ nodes') := by
      rw [hnodes, List.append_assoc, List.cons_append]
    exact .stopped rfl hnodes hvalues hfault hupto

/-- All that is read is the value of an operand, also where the computation stops. -/
theorem Traces.exists_deref (h : Traces dir mem nodes run) {x : Address} (hx : x ∈ run.reads) :
    ∃ s a s', .deref s a s' ∈ nodes ∧ (a.eval dir mem).result = .ok (Address.toInt x) := by
  cases h with
  | done hresult hvalues hreads => exact hreads.exists_deref hx
  | stopped hresult hnodes hvalues hfault hupto =>
    obtain ⟨xs, hxs, hreads⟩ := hupto.reads_eq
    rw [hreads, List.mem_append, Option.mem_toList] at hx
    rcases hx with hx | hx
    · obtain ⟨s, a, s', hmem, hvalue⟩ := hxs.exists_deref hx
      exact ⟨s, a, s', by simp [hnodes, hmem], hvalue⟩
    · obtain ⟨s, a, s', rfl, hvalue⟩ := hupto.refused x hx
      exact ⟨s, a, s', by simp [hnodes], hvalue⟩

/-- A node that has no value, though the nodes before it have theirs. -/
theorem Traces.fault {d : Expr} {err : EvalError} (hresult : run.result = .error err)
    (hfault : (d.eval dir mem).result = .error err) (hreads : run.reads = err.refused?.toList)
    (hrefused : ∀ x ∈ err.refused?, ∃ s a s', d = .deref s a s' ∧
      (a.eval dir mem).result = .ok (Address.toInt x)) :
    Traces dir mem [d] run :=
  @Traces.stopped α dir mem [d] run err [] d [] hresult rfl nofun hfault
    ⟨⟨[], rfl, hreads⟩, hrefused⟩

theorem Traces.value {d : Expr} {a : α} {n : Int} (hresult : run.result = .ok a)
    (hvalue : (d.eval dir mem).result = .ok n) (hreads : AreReads dir mem [d] run.reads) :
    Traces dir mem [d] run := by
  refine .done hresult (fun d' hd' => ?_) hreads
  rw [List.mem_singleton.mp hd']
  exact ⟨n, hvalue⟩

/-- A node that is no dereference reads nothing, and its error is not that of a read. -/
theorem Traces.silent {d : Expr} {result : Except EvalError Int}
    (hresult : (d.eval dir mem).result = result) (hoperand : d.operand? = none)
    (hrefused : ∀ err, result = .error err → err.refused? = none) :
    Traces dir mem [d] (.ofExcept result) := by
  cases result with
  | ok n => exact .value rfl hresult (areReads_nil hoperand)
  | error err =>
    have hnone := hrefused err rfl
    refine .fault rfl hresult ?_ ?_
    · rw [hnone]
      rfl
    · simp [hnone]

end

/-! ### The trace of an expression -/

namespace Expr

variable {dir : Directory} {mem : Memory}

theorem refused?_of_numeralValue {text : String} {digits : List Char} {s : Span} {err : EvalError}
    (h : numeralValue text digits s = .error err) : err.refused? = none := by
  unfold numeralValue at h
  split at h
  · cases h
  · cases h
    rfl

theorem refused?_of_resolve {p : Path} {err : EvalError} (h : resolve dir p = .error err) :
    err.refused? = none := by
  by_cases hnumeral : p.IsNumeral dir
  · rw [resolve_of_isNumeral hnumeral] at h
    exact refused?_of_numeralValue h
  · rw [resolve_of_not_isNumeral hnumeral] at h
    split at h
    · cases h
    · cases h
      split
      · rfl
      · rfl

theorem refused?_of_toAddress {s : Span} {n : Int} {err : EvalError}
    (h : toAddress s n = .error err) : err.refused? = none := by
  unfold toAddress at h
  split at h
  · cases h
  · cases h
    by_cases hneg : n < 0
    · simp only [EvalError.refused?, if_pos hneg]
    · simp only [EvalError.refused?, if_neg hneg]

theorem refused?_faultError (op : BinaryOp) (s s' : Span) (fault : Value.Fault) :
    (faultError op s s' fault).refused? = none := by
  cases fault <;> rfl

/-- No error of an operator is that of a read. -/
theorem refused?_of_mapError {f : Value.Fault → EvalError} (hf : ∀ fault, (f fault).refused? = none)
    {result : Except Value.Fault Int} {err : EvalError} (h : result.mapError f = .error err) :
    err.refused? = none := by
  cases result with
  | ok n => cases h
  | error fault =>
    cases h
    exact hf fault

/-- The check of the address in brackets, and the read. -/
theorem traces_read (s s' : Span) {a : Expr} {n : Int} (h : (a.eval dir mem).result = .ok n) :
    Traces dir mem [deref s a s']
      (.ofExcept (toAddress a.span n) >>= fun x =>
        (Run.read mem x).mapError (fun reason => ⟨.unreadable x reason, s.cover s'⟩) >>=
          fun value => pure (Address.toInt value)) := by
  cases haddress : toAddress a.span n with
  | error err =>
    have hnone := refused?_of_toAddress haddress
    refine .fault rfl ?_ ?_ ?_
    · rw [eval, Run.bind_of_result_eq_ok h, haddress]
      rfl
    · rw [hnone]
      rfl
    · simp [hnone]
  | ok x =>
    have hdot := eval_deref_of_eval s s' h haddress
    rw [Run.ofExcept_ok_bind, Run.read_bind_pure]
    rw [toAddress_eq_ok_iff.mp haddress] at h
    cases hread : mem x with
    | ok value =>
      rw [hread] at hdot
      exact .value rfl (congrArg Run.result hdot) (areReads_singleton s s' h)
    | error reason =>
      rw [hread] at hdot
      refine .fault rfl (congrArg Run.result hdot) rfl fun y hy => ?_
      obtain rfl : x = y := Option.some.inj hy
      exact ⟨s, a, s', rfl, h⟩

/-- **An evaluation goes through the nodes, operands first and left before right, up to the first
without a value.** -/
theorem traces_eval (dir : Directory) (mem : Memory) (e : Expr) :
    Traces dir mem e.postorder (e.eval dir mem) := by
  induction e with
  | literal text s => exact .silent rfl rfl fun _ => refused?_of_numeralValue
  | path p => exact .silent rfl rfl fun _ => refused?_of_resolve
  | signed sign s operand ih =>
    refine ih.bind fun a ha => .silent ?_ rfl fun err => refused?_of_mapError fun _ => rfl
    rw [eval_signed_of_eval sign s ha]
    rfl
  | binary op s left right ihl ihr =>
    rw [postorder, List.append_assoc]
    refine ihl.bind fun a ha => ihr.bind fun b hb => .silent ?_ rfl fun err =>
      refused?_of_mapError (refused?_faultError op s right.span)
    rw [eval_binary_of_eval op s ha hb]
    rfl
  | deref s address s' ih => exact ih.bind fun n hn => traces_read s s' hn

/-! ### The check of the whole -/

/-- The last of the nodes is the expression itself. -/
theorem exists_postorder_eq (e : Expr) : ∃ before, e.postorder = before ++ [e] := by
  cases e with
  | literal text s => exact ⟨[], rfl⟩
  | path p => exact ⟨[], rfl⟩
  | signed sign s operand => exact ⟨_, rfl⟩
  | binary op s left right => exact ⟨_, rfl⟩
  | deref s address s' => exact ⟨_, rfl⟩

/-- What is read is an address. -/
theorem exists_eq_toInt_of_deref {s s' : Span} {a : Expr} {n : Int}
    (h : ((deref s a s').eval dir mem).result = .ok n) : ∃ x, n = Address.toInt x := by
  obtain ⟨m, -, h⟩ := Run.result_bind_eq_ok_iff.mp h
  obtain ⟨x, -, h⟩ := Run.result_bind_eq_ok_iff.mp h
  obtain ⟨value, -, h⟩ := Run.result_bind_eq_ok_iff.mp h
  exact ⟨value, (Except.ok.inj h).symm⟩

/-- What a dereference has as its value passes the check of the whole. -/
theorem operand?_of_toAddress {e : Expr} {n : Int} {s : Span} {err : EvalError}
    (h : (e.eval dir mem).result = .ok n) (haddress : toAddress s n = .error err) :
    e.operand? = none := by
  cases e with
  | deref s' a s'' =>
    obtain ⟨x, rfl⟩ := exists_eq_toInt_of_deref h
    rw [toAddress_toInt] at haddress
    cases haddress
  | _ => rfl

/-- The whole fails at its own node if its value is no address. -/
theorem failsAt_of_toAddress {e : Expr} {n : Int} {err : EvalError} {reads : List Address}
    (h : (e.eval dir mem).result = .ok n) (haddress : toAddress e.span n = .error err)
    (hvalues : ∀ b ∈ e.postorder, b.HasValue dir mem)
    (hreads : AreReads dir mem e.postorder reads) :
    ∃ before, FailsAt dir mem e err before e [] ∧ ReadsUpTo dir mem before e err reads := by
  obtain ⟨before, hbefore⟩ := exists_postorder_eq e
  have hfault : (e.evalAddress dir mem).result = .error err := by
    rw [evalAddress, Run.bind_of_result_eq_ok h, haddress]
    rfl
  have hnone := refused?_of_toAddress haddress
  rw [hbefore] at hvalues hreads
  refine ⟨before, ⟨hbefore, (List.forall_mem_append.mp hvalues).1, .inr ⟨rfl, hfault⟩⟩,
    ⟨⟨reads, ?_, ?_⟩, ?_⟩⟩
  · unfold AreReads at *
    rwa [List.filterMap_append, List.filterMap_cons_none (operand?_of_toAddress h haddress),
      List.filterMap_nil, List.append_nil] at hreads
  · simp [hnone]
  · simp [hnone]

/-- **Memory is read once for each dereference, in the order of the nodes, up to the first fault.**
If the expression has an address, what was read are the values of all that stands in brackets. If
not, what was read are those before the node that fails, and its own address if that is what could
not be read. A value that is no address is never asked for, and a text that is no expression reads
nothing. -/
theorem areReads_evalAddress (dir : Directory) (mem : Memory) (e : Expr) :
    (∀ a, (e.evalAddress dir mem).result = .ok a →
      AreReads dir mem e.postorder (e.evalAddress dir mem).reads) ∧
    (∀ err, (e.evalAddress dir mem).result = .error err →
      ∃ before d after, FailsAt dir mem e err before d after ∧
        ReadsUpTo dir mem before d err (e.evalAddress dir mem).reads) ∧
    (∀ x ∈ (e.evalAddress dir mem).reads, ∃ s a s' n, deref s a s' ∈ e.postorder ∧
      (a.eval dir mem).result = .ok n ∧ 0 ≤ n ∧ n < Address.limit ∧ Address.toInt x = n) ∧
    ∀ source f, parse source = .error f → (evaluate dir mem source).reads = [] := by
  rw [reads_evalAddress]
  refine ⟨?_, ?_, ?_, fun source f => reads_evaluate_of_parse_eq_error⟩
  · intro a ha
    have hvalue := result_eval_of_evalAddress ha
    cases traces_eval dir mem e with
    | done hresult hvalues hreads => exact hreads
    | stopped hresult =>
      rw [hvalue] at hresult
      cases hresult
  · intro err herr
    cases traces_eval dir mem e with
    | done hresult hvalues hreads =>
      rw [evalAddress, Run.bind_of_result_eq_ok hresult] at herr
      obtain ⟨before, hfails, hupto⟩ := failsAt_of_toAddress hresult herr hvalues hreads
      exact ⟨before, e, [], hfails, hupto⟩
    | stopped hresult hnodes hvalues hfault hupto =>
      rw [evalAddress, Run.bind_of_result_eq_error hresult] at herr
      obtain rfl := Except.error.inj herr
      exact ⟨_, _, _, ⟨hnodes, hvalues, .inl hfault⟩, hupto⟩
  · intro x hx
    obtain ⟨s, a, s', hmem, hvalue⟩ := (traces_eval dir mem e).exists_deref hx
    exact ⟨s, a, s', _, hmem, hvalue, Address.toInt_nonneg x, Address.toInt_lt x, rfl⟩

/-- Of three dereferences in a sum the second one is refused, and the third one is not looked at. -/
theorem areReads_evalAddress_refused :
    ∃ (e : Expr) (mem : Memory) (err : EvalError),
      (e.postorder.filterMap operand?).length = 3 ∧
      (e.evalAddress .empty mem).result = .error err ∧
      (e.evalAddress .empty mem).reads = [1, 2] ∧
      ∃ before d after, FailsAt .empty mem e err before d after ∧
        ReadsUpTo .empty mem before d err (e.evalAddress .empty mem).reads := by
  have hresult : ((binary .add default
      (binary .add default (deref default (literal "1" default) default)
        (deref default (literal "2" default) default))
      (deref default (literal "3" default) default)).evalAddress .empty fun x =>
        if x = 2 then .error "hole" else .ok x).result =
      .error ⟨.unreadable 2 "hole", default⟩ := by
    with_unfolding_all rfl
  have hreads := (areReads_evalAddress _ _ _).2.1 _ hresult
  exact ⟨_, _, _, rfl, hresult, by with_unfolding_all rfl, hreads⟩

end Expr
end AddressExpr
