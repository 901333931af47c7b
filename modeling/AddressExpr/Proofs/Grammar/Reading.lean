/-
# Reading follows the grammar

`Expr.climb` has one loop for the operators of all strengths, where the grammar has one
stratum for each. That the two agree is shown in both directions.

A phrase of a stratum, read with a weaker power, is an operand from which `Expr.fold` goes on
with what follows, and the levels of its spine stay taken (`climb_of_derives`). So the left part
of a chain needs no end of its own, and the induction is on the derivation. If there is no room
for the cost of the phrase, the reading ends inside it (`climb_of_room_lt_cost`).

Conversely, what `Expr.climb` reads is a phrase that costs no more than the room
(`derives_of_climb`). Between two operators of its loop, what was read so far is a phrase of a
stratum that the next operator does not reach.

Key definitions: `Stops`.
Key theorems: `climb_of_derives`, `climb_of_room_lt_cost`, `derives_of_climb`.
-/
import AddressExpr.Proofs.Grammar.Basic

namespace AddressExpr
namespace Expr

variable {fin : Token} {room power : Nat} {left : Expr} {rest : List Token}

/-- What follows is no further part of a phrase that was read with `power`: neither a dot nor a
stronger operator. -/
def Stops (fin : Token) (power : Nat) (rest : List Token) : Prop :=
  (rest.headD fin).kind ≠ .dot ∧
    ∀ op : BinaryOp, (rest.headD fin).kind = op.kind → op.strength ≤ power

theorem Stops.mono {p q : Nat} (h : Stops fin p rest) (hpq : p ≤ q) : Stops fin q rest :=
  ⟨h.1, fun op hop => Nat.le_trans (h.2 op hop) hpq⟩

theorem stops_closeParen (s : Span) (rest : List Token) :
    Stops fin power (⟨.closeParen, s⟩ :: rest) :=
  ⟨nofun, fun op h => by cases op <;> cases h⟩

theorem stops_closeBracket (s : Span) (rest : List Token) :
    Stops fin power (⟨.closeBracket, s⟩ :: rest) :=
  ⟨nofun, fun op h => by cases op <;> cases h⟩

theorem stops_op (op : BinaryOp) (s : Span) (rest : List Token) :
    Stops fin op.strength (⟨op.kind, s⟩ :: rest) := by
  refine ⟨?_, fun op' h => ?_⟩
  · cases op <;> exact nofun
  · cases op <;> cases op' <;> first | exact Nat.le_refl _ | cases h

/-! ### Single steps -/

theorem fold_of_ops
    (h : ∀ op : BinaryOp, (rest.headD fin).kind = op.kind → op.strength ≤ power) :
    fold fin room power left rest = .ok (left, rest) := by
  have hnone : (rest.headD fin).kind.binaryOp?.filter (power < ·.strength) = none := by
    rw [Option.filter_eq_none_iff]
    intro op hop
    have := h op (Token.Kind.binaryOp?_eq_some_iff.mp hop)
    simpa using this
  rw [fold, hnone]

theorem fold_of_stops (h : Stops fin power rest) :
    fold fin room power left rest = .ok (left, rest) :=
  fold_of_ops h.2

theorem fold_op {op : BinaryOp} (s : Span) (h : power < op.strength) (ts : List Token) :
    fold fin (room + 1) power left (⟨op.kind, s⟩ :: ts) = (do
      let (right, rest) ← climb fin room op.strength ts
      fold fin room power (.binary op s left right) rest) := by
  have hop : op.kind.binaryOp?.filter (power < ·.strength) = some op := by
    rw [Token.Kind.binaryOp?_eq_some_iff.mpr rfl, Option.filter_some, if_pos (by simpa using h)]
  rw [fold, List.headD_cons, hop]
  rfl

theorem fold_zero_op {op : BinaryOp} (s : Span) (h : power < op.strength) (ts : List Token) :
    fold fin 0 power left (⟨op.kind, s⟩ :: ts) = .error ⟨.tooDeep, ⟨op.kind, s⟩⟩ := by
  have hop : op.kind.binaryOp?.filter (power < ·.strength) = some op := by
    rw [Token.Kind.binaryOp?_eq_some_iff.mpr rfl, Option.filter_some, if_pos (by simpa using h)]
  rw [fold, List.headD_cons, hop]

theorem climb_sign (sign : Sign) (s : Span) (ts : List Token) :
    climb fin (room + 1) power (⟨sign.kind, s⟩ :: ts) = (do
      let (operand, rest) ← atom fin room ts
      fold fin room power (.signed sign s operand) rest) := by
  rw [climb, List.headD_cons, Token.Kind.sign?_eq_some_iff.mpr rfl]
  rfl

theorem climb_zero_sign (sign : Sign) (s : Span) (ts : List Token) :
    climb fin 0 power (⟨sign.kind, s⟩ :: ts) = .error ⟨.tooDeep, ⟨sign.kind, s⟩⟩ := by
  rw [climb, List.headD_cons, Token.Kind.sign?_eq_some_iff.mpr rfl]

theorem climb_of_sign?_eq_none {ts : List Token} (h : (ts.headD fin).kind.sign? = none) :
    climb fin room power ts = (do
      let (operand, rest) ← atom fin room ts
      fold fin room power operand rest) := by
  rw [climb, h]

theorem dottedNames_of_dotted {more : List Segment} {w : List Token} (h : Dotted more w)
    (hrest : (rest.headD fin).kind ≠ .dot) : dottedNames fin (w ++ rest) = .ok (more, rest) := by
  induction h with
  | nil =>
    cases rest with
    | nil => rfl
    | cons t ts =>
      obtain ⟨k, s⟩ := t
      cases k <;> first | rfl | exact absurd rfl hrest
  | cons dotSpan name s h ih =>
    show dottedNames fin (_ :: _ :: (_ ++ rest)) = _
    rw [dottedNames, ih]
    rfl

theorem expect_cons (k : Token.Kind) (s : Span) (problem : SyntaxProblem) (ts : List Token) :
    expect fin k problem (⟨k, s⟩ :: ts) = .ok (⟨k, s⟩, ts) := by
  rw [expect, List.headD_cons, if_pos rfl, List.tail_cons]

/-! ### Phrases are read -/

theorem atom_group {room : Nat} {c : Expr} {ts : List Token} (s s' : Span)
    (h : climb fin room 0 ts = .ok (c, ⟨.closeParen, s'⟩ :: rest)) :
    atom fin (room + 1) (⟨.openParen, s⟩ :: ts) = .ok (c, rest) := by
  rw [atom, h]
  show (expect fin .closeParen (.unmatchedParenthesis s) (⟨.closeParen, s'⟩ :: rest) >>=
    fun x => Except.ok (c, x.2)) = _
  rw [expect_cons]
  rfl

theorem atom_deref {room : Nat} {c : Expr} {ts : List Token} (s s' : Span)
    (h : climb fin room 0 ts = .ok (c, ⟨.closeBracket, s'⟩ :: rest)) :
    atom fin (room + 1) (⟨.openBracket, s⟩ :: ts) = .ok (.deref s c s', rest) := by
  rw [atom, h]
  show (expect fin .closeBracket (.unmatchedBracket s) (⟨.closeBracket, s'⟩ :: rest) >>=
    fun x => Except.ok (Expr.deref s c x.1.span, x.2)) = _
  rw [expect_cons]
  rfl

/-- An operand that starts with no sign is an atom, and the loop goes on after it. -/
theorem climb_of_atom {c : Expr} {ts : List Token} (hsign : (ts.headD fin).kind.sign? = none)
    (h : atom fin room ts = .ok (c, rest)) :
    climb fin room power ts = fold fin room power c rest := by
  rw [climb_of_sign?_eq_none hsign, h]
  rfl

theorem climb_of_atom_error {problem : SyntaxProblem} {ts : List Token}
    (hsign : (ts.headD fin).kind.sign? = none)
    (h : ∃ t, atom fin room ts = .error ⟨problem, t⟩) :
    ∃ t, climb fin room power ts = .error ⟨problem, t⟩ := by
  obtain ⟨t, ht⟩ := h
  exact ⟨t, by rw [climb_of_sign?_eq_none hsign, ht]; rfl⟩

/-- A phrase is read as one operand if there is room for its cost. What follows may go on with
operators of its own stratum: the loop does then, with the room that the spine leaves. -/
theorem reads_of_derives {s : Stratum} {c : ParseTree} {w : List Token} (h : Derives s c w) :
    ∀ (room : Nat) (rest : List Token), c.cost ≤ room → Stops fin s.strength rest →
      (s = .atom → atom fin room (w ++ rest) = .ok (c.expr, rest)) ∧
      ∀ power < s.strength,
        climb fin room power (w ++ rest) = fold fin (room - c.spine) power c.expr rest := by
  induction h with
  | hex text s =>
    intro room rest _ _
    have hatom : atom fin room (⟨.hex text, s⟩ :: rest) = .ok (.literal text s, rest) := by
      rw [atom]
    exact ⟨fun _ => hatom, fun _ _ => climb_of_atom rfl hatom⟩
  | @path name s more w h =>
    intro room rest _ hrest
    have hatom : atom fin room (⟨.ident name, s⟩ :: (w ++ rest)) =
        .ok (.path ⟨⟨name, s⟩, more⟩, rest) := by
      rw [atom, dottedNames_of_dotted h hrest.1]
      rfl
    exact ⟨fun _ => hatom, fun _ _ => climb_of_atom rfl hatom⟩
  | @group s s' c w h ih =>
    intro room rest hcost _
    obtain ⟨room, rfl⟩ := Nat.exists_eq_add_one.mpr (Nat.lt_of_lt_of_le (Nat.succ_pos _) hcost)
    have hin := (ih room _ (Nat.le_of_succ_le_succ hcost)
      (stops_closeParen s' rest)).2 0 (by decide)
    rw [fold_of_stops (stops_closeParen s' rest)] at hin
    have hatom := atom_group s s' hin
    rw [List.cons_append, List.append_assoc]
    exact ⟨fun _ => hatom, fun _ _ => climb_of_atom rfl hatom⟩
  | @deref s s' c w h ih =>
    intro room rest hcost _
    obtain ⟨room, rfl⟩ := Nat.exists_eq_add_one.mpr (Nat.lt_of_lt_of_le (Nat.succ_pos _) hcost)
    have hin := (ih room _ (Nat.le_of_succ_le_succ hcost)
      (stops_closeBracket s' rest)).2 0 (by decide)
    rw [fold_of_stops (stops_closeBracket s' rest)] at hin
    have hatom := atom_deref s s' hin
    rw [List.cons_append, List.append_assoc]
    exact ⟨fun _ => hatom, fun _ _ => climb_of_atom rfl hatom⟩
  | @signed sign s c w h ih =>
    intro room rest hcost hrest
    obtain ⟨room, rfl⟩ := Nat.exists_eq_add_one.mpr (Nat.lt_of_lt_of_le (Nat.succ_pos _) hcost)
    have hin := (ih room _ (Nat.le_of_succ_le_succ hcost) (hrest.mono (by decide))).1 rfl
    refine ⟨fun h => absurd h (by decide), fun power _ => ?_⟩
    rw [List.cons_append, climb_sign, hin]
    rfl
  | @fold op s left right u v hl hr ihl ihr =>
    intro room rest hcost hrest
    rw [BinaryOp.strength_stratum] at hrest
    obtain ⟨hcl, hcr⟩ : left.cost ≤ room ∧ left.spine + 1 + right.cost ≤ room :=
      Nat.max_le.mp hcost
    refine ⟨fun h => absurd h op.stratum_ne_atom, fun power hpower => ?_⟩
    rw [BinaryOp.strength_stratum] at hpower
    have hleft := (ihl room _ hcl (op.strength_stratum ▸ stops_op op s (v ++ rest))).2 power
      (by rwa [BinaryOp.strength_stratum])
    -- one level of what the spine of the left part leaves goes to the operator
    obtain ⟨n, hn⟩ : ∃ n, room - left.spine = n + 1 := ⟨room - left.spine - 1, by omega⟩
    have hright := (ihr n rest (by omega)
      (hrest.mono (Nat.le_of_lt op.strength_lt_strength_tighter))).2 op.strength
      op.strength_lt_strength_tighter
    rw [fold_of_stops hrest] at hright
    have hspine : room - (ParseTree.binary op s left right).spine = n := by
      simp only [ParseTree.spine]
      omega
    rw [List.append_assoc, List.cons_append, hleft, hn, fold_op s hpower, hright, hspine]
    rfl
  | @lift s c w h ih =>
    intro room rest hcost hrest
    have hin := ih room rest hcost (hrest.mono s.strength_le_strength_tighter)
    refine ⟨fun hs => ?_, fun power hpower => ?_⟩
    · subst hs
      exact hin.1 rfl
    · exact hin.2 power (Nat.lt_of_lt_of_le hpower s.strength_le_strength_tighter)

/-- A phrase is read as far as it goes, and the loop goes on with what follows. -/
theorem climb_of_derives {s : Stratum} {c : ParseTree} {w : List Token} (h : Derives s c w)
    (hcost : c.cost ≤ room) (hrest : Stops fin s.strength rest) (hpower : power < s.strength) :
    climb fin room power (w ++ rest) = fold fin (room - c.spine) power c.expr rest :=
  (reads_of_derives h room rest hcost hrest).2 power hpower

/-- Parentheses are too deep if there is no level for them, or if what is in them is. -/
theorem atom_group_error (s : Span) {ts : List Token}
    (h : ∀ n, room = n + 1 → ∃ t, climb fin n 0 ts = .error ⟨.tooDeep, t⟩) :
    ∃ t, atom fin room (⟨.openParen, s⟩ :: ts) = .error ⟨.tooDeep, t⟩ := by
  cases room with
  | zero => exact ⟨⟨.openParen, s⟩, by rw [atom]⟩
  | succ n =>
    obtain ⟨t, ht⟩ := h n rfl
    exact ⟨t, by rw [atom, ht]; rfl⟩

theorem atom_deref_error (s : Span) {ts : List Token}
    (h : ∀ n, room = n + 1 → ∃ t, climb fin n 0 ts = .error ⟨.tooDeep, t⟩) :
    ∃ t, atom fin room (⟨.openBracket, s⟩ :: ts) = .error ⟨.tooDeep, t⟩ := by
  cases room with
  | zero => exact ⟨⟨.openBracket, s⟩, by rw [atom]⟩
  | succ n =>
    obtain ⟨t, ht⟩ := h n rfl
    exact ⟨t, by rw [atom, ht]; rfl⟩

/-- A phrase that costs more than the room is not read to its end. -/
theorem overruns_of_derives {s : Stratum} {c : ParseTree} {w : List Token} (h : Derives s c w) :
    ∀ (room : Nat) (rest : List Token), room < c.cost →
      (s = .atom → ∃ t, atom fin room (w ++ rest) = .error ⟨.tooDeep, t⟩) ∧
      ∀ power < s.strength, ∃ t, climb fin room power (w ++ rest) = .error ⟨.tooDeep, t⟩ := by
  induction h with
  | hex text s => exact fun _ _ h => absurd h (Nat.not_lt_zero _)
  | path name s h => exact fun _ _ h => absurd h (Nat.not_lt_zero _)
  | @group s s' c w h ih =>
    intro room rest hcost
    have hin : ∀ n, room = n + 1 →
        ∃ t, climb fin n 0 (w ++ ⟨.closeParen, s'⟩ :: rest) = .error ⟨.tooDeep, t⟩ := by
      rintro n rfl
      exact (ih n (⟨.closeParen, s'⟩ :: rest) (Nat.lt_of_succ_lt_succ hcost)).2 0 (by decide)
    have hatom := atom_group_error s hin
    rw [List.cons_append, List.append_assoc]
    exact ⟨fun _ => hatom, fun _ _ => climb_of_atom_error rfl hatom⟩
  | @deref s s' c w h ih =>
    intro room rest hcost
    have hin : ∀ n, room = n + 1 →
        ∃ t, climb fin n 0 (w ++ ⟨.closeBracket, s'⟩ :: rest) = .error ⟨.tooDeep, t⟩ := by
      rintro n rfl
      exact (ih n (⟨.closeBracket, s'⟩ :: rest) (Nat.lt_of_succ_lt_succ hcost)).2 0 (by decide)
    have hatom := atom_deref_error s hin
    rw [List.cons_append, List.append_assoc]
    exact ⟨fun _ => hatom, fun _ _ => climb_of_atom_error rfl hatom⟩
  | @signed sign s c w h ih =>
    intro room rest hcost
    refine ⟨fun h => absurd h (by decide), fun power _ => ?_⟩
    cases room with
    | zero => exact ⟨_, climb_zero_sign sign s _⟩
    | succ room =>
      obtain ⟨t, ht⟩ := (ih room rest (Nat.lt_of_succ_lt_succ hcost)).1 rfl
      exact ⟨t, by rw [List.cons_append, climb_sign, ht]; rfl⟩
  | @fold op s left right u v hl hr ihl ihr =>
    intro room rest hcost
    refine ⟨fun h => absurd h op.stratum_ne_atom, fun power hpower => ?_⟩
    rw [List.append_assoc, List.cons_append]
    rcases Nat.lt_or_ge room left.cost with hleft | hleft
    · exact (ihl room _ hleft).2 power hpower
    · have hright : room < left.spine + 1 + right.cost := by
        simp only [ParseTree.cost] at hcost
        omega
      have hspine := left.spine_le_cost
      rw [climb_of_derives hl hleft (op.strength_stratum ▸ stops_op op s (v ++ rest)) hpower]
      rw [BinaryOp.strength_stratum] at hpower
      cases hn : room - left.spine with
      | zero => exact ⟨_, fold_zero_op s hpower _⟩
      | succ n =>
        obtain ⟨t, ht⟩ := (ihr n rest (by omega)).2 op.strength
          op.strength_lt_strength_tighter
        exact ⟨t, by rw [fold_op s hpower, ht]; rfl⟩
  | @lift s c w h ih =>
    intro room rest hcost
    refine ⟨fun hs => ?_, fun power hpower => ?_⟩
    · subst hs
      exact (ih room rest hcost).1 rfl
    · exact (ih room rest hcost).2 power
        (Nat.lt_of_lt_of_le hpower s.strength_le_strength_tighter)

/-- Where there is no room for the cost of a phrase, reading it fails. -/
theorem climb_of_room_lt_cost (fin : Token) (rest : List Token) {s : Stratum} {c : ParseTree}
    {w : List Token} (h : Derives s c w) (hcost : room < c.cost) (power : Nat)
    (hpower : power < s.strength) :
    ∃ t, climb fin room power (w ++ rest) = .error ⟨.tooDeep, t⟩ :=
  (overruns_of_derives h room rest hcost).2 power hpower

/-! ### What is read is a phrase -/

theorem bind_eq_ok_iff {ε α β : Type} {x : Except ε α} {f : α → Except ε β} {b : β} :
    (x >>= f) = .ok b ↔ ∃ a, x = .ok a ∧ f a = .ok b := by
  cases x with
  | ok a => exact ⟨fun h => ⟨a, rfl, h⟩, fun ⟨_, ha, h⟩ => Except.ok.inj ha ▸ h⟩
  | error e => exact ⟨nofun, nofun⟩

theorem dotted_of_dottedNames {ts rest : List Token} {more : List Segment}
    (h : dottedNames fin ts = .ok (more, rest)) : ∃ w, ts = w ++ rest ∧ Dotted more w := by
  fun_induction dottedNames fin ts generalizing more with
  | case1 dotSpan name s ts ih =>
    obtain ⟨⟨more', rest'⟩, h', h⟩ := bind_eq_ok_iff.mp h
    obtain ⟨rfl, rfl⟩ := Prod.mk.inj (Except.ok.inj h)
    obtain ⟨w, rfl, hw⟩ := ih h'
    exact ⟨_, rfl, .cons dotSpan name s hw⟩
  | case2 => cases h
  | case3 =>
    obtain ⟨rfl, rfl⟩ := Prod.mk.inj (Except.ok.inj h)
    exact ⟨[], rfl, .nil⟩

/-- A first token that is not the end is a token of the list. -/
theorem eq_cons_of_headD {k : Token.Kind} {ts : List Token} (hfin : fin.kind = .eof)
    (h : (ts.headD fin).kind = k) (hk : k ≠ .eof) : ∃ s ts', ts = ⟨k, s⟩ :: ts' := by
  cases ts with
  | nil => exact absurd (h.symm.trans hfin) hk
  | cons t ts => exact ⟨t.span, ts, h ▸ rfl⟩

theorem expect_eq_ok {k : Token.Kind} {problem : SyntaxProblem} {t : Token} {ts : List Token}
    (hfin : fin.kind = .eof) (hk : k ≠ .eof) (h : expect fin k problem ts = .ok (t, rest)) :
    t = ⟨k, t.span⟩ ∧ ts = t :: rest := by
  unfold expect at h
  split at h
  · next hkind =>
    obtain ⟨s, ts, rfl⟩ := eq_cons_of_headD hfin hkind hk
    obtain ⟨rfl, rfl⟩ := Prod.mk.inj (Except.ok.inj h)
    exact ⟨rfl, rfl⟩
  · cases h

mutual

theorem derives_of_atom (hfin : fin.kind = .eof) (room : Nat) {ts rest : List Token} {e : Expr}
    (h : atom fin room ts = .ok (e, rest)) :
    ∃ c w, ts = w ++ rest ∧ Derives .atom c w ∧ c.expr = e ∧ c.spine = 0 ∧ c.cost ≤ room := by
  unfold atom at h
  split at h
  · next text s ts =>
    obtain ⟨rfl, rfl⟩ := Prod.mk.inj (Except.ok.inj h)
    exact ⟨_, _, rfl, .hex text s, rfl, rfl, Nat.zero_le _⟩
  · next name s ts =>
    obtain ⟨⟨more, rest'⟩, hmore, h⟩ := bind_eq_ok_iff.mp h
    obtain ⟨rfl, rfl⟩ := Prod.mk.inj (Except.ok.inj h)
    obtain ⟨w, rfl, hw⟩ := dotted_of_dottedNames hmore
    exact ⟨_, _, rfl, .path name s hw, rfl, rfl, Nat.zero_le _⟩
  · next s ts =>
    cases room with
    | zero => cases h
    | succ room =>
      obtain ⟨⟨inner, rest₁⟩, hin, h⟩ := bind_eq_ok_iff.mp h
      obtain ⟨⟨t, rest₂⟩, hclose, h⟩ := bind_eq_ok_iff.mp h
      obtain ⟨rfl, rfl⟩ := Prod.mk.inj (Except.ok.inj h)
      obtain ⟨ht, rfl⟩ := expect_eq_ok hfin (by decide) hclose
      obtain ⟨c, w, rfl, hw, rfl, hcost, -⟩ := derives_of_climb hfin room (by decide) hin
      exact ⟨_, _, by rw [ht]; simp, .group s t.span hw, rfl, rfl, Nat.succ_le_succ hcost⟩
  · next s ts =>
    cases room with
    | zero => cases h
    | succ room =>
      obtain ⟨⟨address, rest₁⟩, hin, h⟩ := bind_eq_ok_iff.mp h
      obtain ⟨⟨t, rest₂⟩, hclose, h⟩ := bind_eq_ok_iff.mp h
      obtain ⟨rfl, rfl⟩ := Prod.mk.inj (Except.ok.inj h)
      obtain ⟨ht, rfl⟩ := expect_eq_ok hfin (by decide) hclose
      obtain ⟨c, w, rfl, hw, rfl, hcost, -⟩ := derives_of_climb hfin room (by decide) hin
      exact ⟨_, _, by rw [ht]; simp, .deref s t.span hw, rfl, rfl, Nat.succ_le_succ hcost⟩
  · cases h
termination_by 2 * room

/-- What is read as an operand with its operators is a phrase of the stratum above `power`, it
costs no more than the room, and no stronger operator follows. -/
theorem derives_of_climb (hfin : fin.kind = .eof) (room : Nat) {power : Nat}
    {ts rest : List Token} {e : Expr} (hpower : power ≤ 3)
    (h : climb fin room power ts = .ok (e, rest)) :
    ∃ c w, ts = w ++ rest ∧ Derives (.above power) c w ∧ c.expr = e ∧ c.cost ≤ room ∧
      ∀ op : BinaryOp, (rest.headD fin).kind = op.kind → op.strength ≤ power := by
  have hunary : power < Stratum.unary.strength := Nat.lt_succ_of_le hpower
  have hops : ∀ (ts : List Token) (op : BinaryOp), (ts.headD fin).kind = op.kind →
      op.strength ≤ Stratum.unary.strength := fun _ op _ =>
    Nat.le_succ_of_le op.strength_le_three
  cases hsign : (ts.headD fin).kind.sign? with
  | some sign =>
    have hkind := Token.Kind.sign?_eq_some_iff.mp hsign
    obtain ⟨s, ts, rfl⟩ := eq_cons_of_headD hfin hkind sign.kind_ne_eof
    cases room with
    | zero => rw [climb_zero_sign] at h; cases h
    | succ room =>
      rw [climb_sign] at h
      obtain ⟨⟨operand, rest'⟩, hin, h⟩ := bind_eq_ok_iff.mp h
      obtain ⟨c, w, rfl, hw, rfl, hspine, hcost⟩ := derives_of_atom hfin room hin
      obtain ⟨c', w', rfl, hw', he, hcost', hrest⟩ :=
        derives_of_fold hfin room hpower (.signed sign s hw) hunary (hops _)
          (by simp only [ParseTree.cost, ParseTree.spine]; omega) h
      refine ⟨c', _, ?_, hw', he, ?_, hrest⟩
      · simp
      · simp only [ParseTree.spine] at hcost'; omega
  | none =>
    rw [climb_of_sign?_eq_none hsign] at h
    obtain ⟨⟨operand, rest'⟩, hin, h⟩ := bind_eq_ok_iff.mp h
    obtain ⟨c, w, rfl, hw, rfl, hspine, hcost⟩ := derives_of_atom hfin room hin
    have hw : Derives .unary c w := .lift hw
    obtain ⟨c', w', rfl, hw', he, hcost', hrest⟩ :=
      derives_of_fold hfin room hpower hw hunary (hops _) (by omega) h
    refine ⟨c', _, ?_, hw', he, ?_, hrest⟩
    · simp
    · omega
termination_by 2 * room + 1

/-- What was read so far, with what the loop adds to it, is a phrase. -/
theorem derives_of_fold (hfin : fin.kind = .eof) (room : Nat) {power : Nat}
    {s : Stratum} {left : ParseTree} {u ts rest : List Token} {e : Expr} (hp : power ≤ 3)
    (hl : Derives s left u) (hpower : power < s.strength)
    (hops : ∀ op : BinaryOp, (ts.headD fin).kind = op.kind → op.strength ≤ s.strength)
    (hcost : left.cost ≤ left.spine + room)
    (h : fold fin room power left.expr ts = .ok (e, rest)) :
    ∃ c w, ts = w ++ rest ∧ Derives (.above power) c (u ++ w) ∧ c.expr = e ∧
      c.cost ≤ left.spine + room ∧
      ∀ op : BinaryOp, (rest.headD fin).kind = op.kind → op.strength ≤ power := by
  by_cases hstop : ∀ op : BinaryOp, (ts.headD fin).kind = op.kind → op.strength ≤ power
  · have hloose : (Stratum.above power).strength ≤ s.strength := by
      rw [Stratum.strength_above hp]
      exact hpower
    rw [fold_of_ops hstop] at h
    obtain ⟨rfl, rfl⟩ := Prod.mk.inj (Except.ok.inj h)
    exact ⟨left, [], rfl, by simpa using hl.loosen hloose, rfl, hcost, hstop⟩
  · have hgoes : ∃ op : BinaryOp, (ts.headD fin).kind = op.kind ∧ power < op.strength := by
      simpa using hstop
    obtain ⟨op, hkind, hop⟩ := hgoes
    have hle := hops op hkind
    obtain ⟨s', ts, rfl⟩ := eq_cons_of_headD hfin hkind op.kind_ne_eof
    cases room with
    | zero => rw [fold_zero_op s' hop] at h; cases h
    | succ room =>
      rw [fold_op s' hop] at h
      obtain ⟨⟨right, rest'⟩, hin, h⟩ := bind_eq_ok_iff.mp h
      obtain ⟨cr, v, rfl, hr, rfl, hcr, hstops⟩ :=
        derives_of_climb hfin room op.strength_le_three hin
      rw [BinaryOp.above_strength] at hr
      -- the chain up to here is a phrase of the stratum of the operator
      have hl' : Derives op.stratum left u := hl.loosen (by rwa [op.strength_stratum])
      have hfold := Derives.fold op s' hl' hr
      rw [← op.strength_stratum] at hop hstops
      obtain ⟨c, w, rfl, hw, he, hcost', hrest⟩ :=
        derives_of_fold hfin room hp hfold hop hstops
          (by simp only [ParseTree.cost, ParseTree.spine]; omega) h
      refine ⟨c, ⟨op.kind, s'⟩ :: (v ++ w), by simp, by simpa using hw, he, ?_, hrest⟩
      simp only [ParseTree.spine] at hcost'
      omega
termination_by 2 * room

end

end Expr
end AddressExpr
