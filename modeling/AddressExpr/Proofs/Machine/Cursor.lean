/-
# A machine that reads by a cursor

`Expr.climb` is given the words that are left and hands on those that it leaves. A machine keeps the
whole list, with an end of the text behind it, and moves a cursor over it; it counts the levels that
it has taken and gives them back (`Cursor`). It could go wrong where `Expr.climb` cannot: it may
look for a token that is not in the list, it may count below zero, and its loops may not end. Here
a list is read just so, and each of these is an outcome of its own: the first two are a
`Halt.crash`, and a run that makes more calls inside one another than it was granted is
`Halt.unfinished`. The machine is given over any monad in which single steps can be done and calls
can be told apart (`Cursor.Calling`); what is said of it here is about the steps themselves.

None of them happens, whatever the list is, once as many calls are granted as the list has tokens
and twice as many as there are levels. Up to the cursor stands what was read, and behind it what
`Expr.climb` has left (`Cursor.At`). The cursor is never behind the first end of the text, as it
stays where it is there, so there is always a token at it. The levels that are taken and the room
that is left are always `maxLevels` together, so what was taken can be given back. Step by step the
machine then does what `Expr.climb` does (`Cursor.Simulates`), and it ends as `Expr.ofTokens` says
(`Cursor.parse_eq`).

Key definitions: `Halt`, `Cursor.Steps`, `Cursor.Calling`, `Cursor.binaryExpr`, `Cursor.parse`,
`Cursor.At`, `Cursor.Simulates`.
Key theorems: `Cursor.simulates_binaryExpr`, `Cursor.parse_eq`.
-/
import AddressExpr.Proofs.Earliest

namespace AddressExpr

/-- Why a machine stops before it has a result: it was to do what it cannot do, it has no calls
left, or what it was given has an error. -/
inductive Halt (ε : Type)
  | crash
  | unfinished
  | failed (e : ε)

/-- The difference of two numbers, which a machine cannot hold if it is below zero. -/
def difference {ε : Type} (m n : Nat) : Except (Halt ε) Nat :=
  if n ≤ m then .ok (m - n) else .error .crash

theorem difference_eq {ε : Type} {m n : Nat} (h : n ≤ m) :
    difference m n = (.ok (m - n) : Except (Halt ε) Nat) := if_pos h

/-- The index of the next token, and the number of levels that are taken. -/
structure Cursor where
  current : Nat
  depth : Nat

namespace Cursor

/-! ### The machine -/

/-- A computation that moves the cursor. -/
abbrev Steps (α : Type) := StateT Cursor (Except (Halt SyntaxError)) α

/-- The difference of two numbers, as a step. -/
def subtract (m n : Nat) : Steps Nat :=
  StateT.lift (difference m n)

/-- One level more is taken, for the token `t`. -/
def descend (t : Token) : Steps Unit := do
  modify fun c => { c with depth := c.depth + 1 }
  if maxLevels < (← get).depth then throw (.failed ⟨.tooDeep, t⟩)

/-- One level is given back. -/
def ascend : Steps Unit := do
  let depth ← subtract (← get).depth 1
  modify fun c => { c with depth }

/-- The literal that the token is, if it is one. -/
def literal? : Token → Option Expr
  | ⟨.hex text, s⟩ => some (.literal text s)
  | _ => none

/-- The name that the token is, if it is one. -/
def name? : Token → Option Segment
  | ⟨.ident name, s⟩ => some ⟨name, s⟩
  | _ => none

/-- The power with which a sign holds its operand. -/
def prefixPower : Nat := 17

/-- The operator that the token is, if it is one, and the power with which it holds its operands. -/
def operator? : Token.Kind → Option (BinaryOp × Nat)
  | .power => some (.pow, 16)
  | .times => some (.mul, 15)
  | .divide => some (.div, 15)
  | .plus => some (.add, 14)
  | .minus => some (.sub, 14)
  | _ => none

section

variable (tokens : List Token)

/-- The token with the index `i`, or the last one if there are not so many. -/
def tokenAt (i : Nat) : Steps Token := do
  let last ← subtract tokens.length 1
  match tokens[min i last]? with
  | some t => return t
  | none => throw .crash

/-- The token at the cursor. -/
def peek : Steps Token := do
  tokenAt tokens (← get).current

/-- The cursor moves to the next token, except from an end of the text. -/
def advance : Steps Unit := do
  if (← peek tokens).kind ≠ .eof then
    modify fun c => { c with current := c.current + 1 }

/-- What `check` makes of the token at the cursor, which is read if that is something. -/
def consumeMatch {α : Type} (check : Token → Option α) : Steps (Option α) := do
  match check (← peek tokens) with
  | none => return none
  | some a =>
    advance tokens
    return some a

/-- The token at the cursor, which is read if it is of the kind. -/
def consume (kind : Token.Kind) : Steps (Option Token) := do
  if (← peek tokens).kind = kind then
    let c ← get
    advance tokens
    return some (← tokenAt tokens c.current)
  else
    return none

/-- The token at the cursor, which has to be of the kind. -/
def consumeOrFail (kind : Token.Kind) (error : Token → SyntaxError) : Steps Token := do
  if (← peek tokens).kind = kind then
    let c ← get
    advance tokens
    tokenAt tokens c.current
  else
    throw (.failed (error (← peek tokens)))

/-- There is no operand at the index `i`. -/
def invalidTokenAt {α : Type} (i : Nat) : Steps α := do
  throw (.failed ⟨.invalidToken, ← tokenAt tokens i⟩)

/-- The path `p` with the names that follow, each after a dot. -/
def pathFrom : Nat → Path → Steps Path
  | 0, _ => throw .unfinished
  | calls + 1, p => do
    match ← consume tokens .dot with
    | none => return p
    | some _ =>
      match ← consumeMatch tokens name? with
      | some name => pathFrom calls { p with rest := p.rest ++ [name] }
      | none => throw (.failed ⟨.expectedIdentifier, ← peek tokens⟩)

end

/-- The two functions of the machine that call each other. -/
inductive Routine
  | binaryExpr
  | atom
deriving DecidableEq

/-- Computations in which a call of one of these functions can be told from its body. -/
class Calling (m : Type → Type) where
  call {α : Type} (routine : Routine) (body : m α) : m α

/-- For the steps themselves a call is its body. -/
instance : Calling Steps := ⟨fun _ body => body⟩

section

variable {m : Type → Type} [Monad m] [MonadLiftT Steps m] [Calling m] (tokens : List Token)

open Calling (call)

mutual

/-- An operand, with a sign or not, and the operators after it of a power above `minPower`. -/
def binaryExpr : Nat → Nat → m Expr
  | 0, _ => call .binaryExpr (liftM (throw .unfinished : Steps Expr))
  | calls + 1, minPower => call .binaryExpr do
    let entry ← (get : Steps Cursor)
    match ← consumeMatch tokens fun t => t.kind.sign?.map fun sign => (sign, t) with
    | some (sign, t) =>
      if minPower < prefixPower then
        descend t
        let operand ← atom calls
        operators calls entry.depth minPower (.signed sign t.span operand)
      else
        invalidTokenAt tokens (← subtract (← (get : Steps Cursor)).current 1)
    | none =>
      let operand ← atom calls
      operators calls entry.depth minPower operand

/-- The operators after `left` of a power above `minPower`. Behind the last one all levels above
`entryDepth` are given back. This is the loop of `binaryExpr` and no call. -/
def operators : Nat → Nat → Nat → Expr → m Expr
  | 0, _, _, _ => liftM (throw .unfinished : Steps Expr)
  | calls + 1, entryDepth, minPower, left => do
    match ← consumeMatch tokens fun t =>
        ((operator? t.kind).filter fun op => minPower < op.2).map fun op => (op, t) with
    | some ((op, power), t) =>
      descend t
      let right ← binaryExpr calls power
      operators calls entryDepth minPower (.binary op t.span left right)
    | none =>
      (modify fun c => { c with depth := entryDepth } : Steps Unit)
      return left

/-- A literal, a path, a group or a dereference. -/
def atom : Nat → m Expr
  | 0 => call .atom (liftM (throw .unfinished : Steps Expr))
  | calls + 1 => call .atom do
    match ← consumeMatch tokens literal? with
    | some e => return e
    | none =>
      match ← consumeMatch tokens name? with
      | some first => return .path (← pathFrom tokens calls ⟨first, []⟩)
      | none =>
        match ← consume tokens .openParen with
        | some opener =>
          descend opener
          let inner ← binaryExpr calls 0
          ascend
          let _ ← consumeOrFail tokens .closeParen (⟨.unmatchedParenthesis opener.span, ·⟩)
          return inner
        | none =>
          match ← consume tokens .openBracket with
          | some opener =>
            descend opener
            let address ← binaryExpr calls 0
            ascend
            let close ← consumeOrFail tokens .closeBracket (⟨.unmatchedBracket opener.span, ·⟩)
            return .deref opener.span address close.span
          | none => invalidTokenAt tokens (← (get : Steps Cursor)).current

end

/-- An expression, and nothing behind it but the end of the text. -/
def wholeExpr (calls : Nat) : m Expr := do
  let e ← binaryExpr tokens calls 0
  let t ← peek tokens
  if t.kind = .eof then
    return e
  else
    (throw (.failed ⟨.trailingInput, t⟩) : Steps Expr)

end

/-- The list with an end of the text as its last token. If there is none, it is put where the last
token stops. -/
def complete (ts : List Token) : List Token :=
  if ts.getLast?.any (·.kind.isEof) then ts
  else ts ++ [.eofAt ((ts.getLast?.map (·.span.stop)).getD .origin)]

/-- The expression that the list is. -/
def parse (calls : Nat) (ts : List Token) : Except (Halt SyntaxError) Expr :=
  (wholeExpr (complete ts) calls : Steps Expr).run' ⟨0, 0⟩

/-! ### Runs -/

/-- The computation ends with a result, and with the cursor `c'`. -/
def Runs {α : Type} (m : Steps α) (c : Cursor) (a : α) (c' : Cursor) : Prop :=
  m.run c = .ok (a, c')

/-- The computation stops without a result. -/
def Halts {α : Type} (m : Steps α) (c : Cursor) (h : Halt SyntaxError) : Prop :=
  m.run c = .error h

section

variable {α β : Type} {m : Steps α} {f : α → Steps β} {c c' c'' : Cursor} {a : α} {b : β}
  {h : Halt SyntaxError}

theorem Runs.bind (hm : Runs m c a c') (hf : Runs (f a) c' b c'') : Runs (m >>= f) c b c'' := by
  show (m.run c >>= fun x => (f x.1).run x.2) = _
  rw [show m.run c = _ from hm]
  exact hf

theorem Runs.halts_bind (hm : Runs m c a c') (hf : Halts (f a) c' h) : Halts (m >>= f) c h := by
  show (m.run c >>= fun x => (f x.1).run x.2) = _
  rw [show m.run c = _ from hm]
  exact hf

theorem Halts.bind (hm : Halts m c h) : Halts (m >>= f) c h := by
  show (m.run c >>= fun x => (f x.1).run x.2) = _
  rw [show m.run c = _ from hm]
  rfl

theorem Runs.run'_eq (hm : Runs m c a c') : m.run' c = .ok a := by
  show Prod.fst <$> m.run c = _
  rw [show m.run c = _ from hm]
  rfl

theorem Halts.run'_eq (hm : Halts m c h) : m.run' c = .error h := by
  show Prod.fst <$> m.run c = _
  rw [show m.run c = _ from hm]
  rfl

theorem runs_pure (a : α) (c : Cursor) : Runs (pure a) c a c := rfl

theorem runs_get (c : Cursor) : Runs get c c c := rfl

theorem runs_modify (g : Cursor → Cursor) (c : Cursor) : Runs (modify g) c () (g c) := rfl

theorem halts_throw (h : Halt SyntaxError) (c : Cursor) : Halts (throw h : Steps α) c h := rfl

theorem runs_subtract {m n : Nat} (h : n ≤ m) (c : Cursor) : Runs (subtract m n) c (m - n) c := by
  rw [subtract, difference_eq h]
  exact runs_pure _ c

end

/-! ### Where the cursor stands -/

/-- The tokens `tokens` are the words `ws`, then an end of the text `fin`, and then any others. -/
structure Ended (tokens ws : List Token) (fin : Token) : Prop where
  exists_post : ∃ post, tokens = ws ++ fin :: post
  word : ∀ t ∈ ws, t.kind ≠ .eof
  kind_fin : fin.kind = .eof

/-- Behind the cursor the words `rest` of `ws` are left, and `depth` levels are taken. -/
structure At (ws rest : List Token) (depth : Nat) (c : Cursor) : Prop where
  exists_done : ∃ done, ws = done ++ rest ∧ c.current = done.length
  depth_eq : c.depth = depth

/-- The cursor at the next token. -/
def next (c : Cursor) : Cursor := { c with current := c.current + 1 }

/-- The cursor with one level more taken. -/
def deeper (c : Cursor) : Cursor := { c with depth := c.depth + 1 }

section

variable {tokens ws rest : List Token} {fin t : Token} {depth : Nat} {c : Cursor} {α : Type}

theorem At.next (h : c.At ws (t :: rest) depth) : c.next.At ws rest depth := by
  obtain ⟨⟨done, hws, hcurrent⟩, hdepth⟩ := h
  refine ⟨⟨done ++ [t], ?_, ?_⟩, hdepth⟩
  · rw [hws, List.append_assoc]
    rfl
  · rw [List.length_append, ← hcurrent]
    rfl

theorem At.deeper (h : c.At ws rest depth) : c.deeper.At ws rest (depth + 1) :=
  ⟨h.exists_done, congrArg (· + 1) h.depth_eq⟩

theorem At.withDepth (h : c.At ws rest depth) (depth' : Nat) :
    Cursor.At ws rest depth' { c with depth := depth' } :=
  ⟨h.exists_done, rfl⟩

theorem At.mem (h : c.At ws (t :: rest) depth) : t ∈ ws := by
  obtain ⟨⟨done, rfl, -⟩, -⟩ := h
  exact List.mem_append_right done List.mem_cons_self

theorem At.length_le (h : c.At ws rest depth) : rest.length ≤ ws.length := by
  obtain ⟨⟨done, rfl, -⟩, -⟩ := h
  rw [List.length_append]
  exact Nat.le_add_left _ _

/-! ### Single steps -/

/-- There is a token at every index up to that of the first end of the text. -/
theorem runs_tokenAt (h : Ended tokens ws fin) (hat : c.At ws rest depth) (c' : Cursor) :
    Runs (tokenAt tokens c.current) c' (rest.headD fin) c' := by
  obtain ⟨post, rfl⟩ := h.exists_post
  obtain ⟨⟨done, rfl, hcurrent⟩, -⟩ := hat
  have hlength : (done ++ rest ++ fin :: post).length =
      done.length + rest.length + post.length + 1 := by
    simp only [List.length_append, List.length_cons]
    omega
  have hmin : min c.current ((done ++ rest ++ fin :: post).length - 1) = done.length := by
    rw [hlength, hcurrent]
    omega
  have hget : (done ++ rest ++ fin :: post)[done.length]? = some (rest.headD fin) := by
    rw [List.append_assoc, List.getElem?_append_right (Nat.le_refl _), Nat.sub_self]
    cases rest <;> rfl
  refine (runs_subtract (by omega) c').bind ?_
  rw [hmin, hget]
  exact runs_pure _ c'

theorem runs_peek (h : Ended tokens ws fin) (hat : c.At ws rest depth) :
    Runs (peek tokens) c (rest.headD fin) c :=
  (runs_get c).bind (runs_tokenAt h hat c)

theorem runs_advance (h : Ended tokens ws fin) (hat : c.At ws (t :: rest) depth) :
    Runs (advance tokens) c () c.next := by
  refine (runs_peek h hat).bind ?_
  rw [List.headD_cons, if_pos (h.word t hat.mem)]
  exact runs_modify _ c

variable {check : Token → Option α} {a : α}

theorem runs_consumeMatch_none (h : Ended tokens ws fin) (hat : c.At ws rest depth)
    (hcheck : check (rest.headD fin) = none) : Runs (consumeMatch tokens check) c none c := by
  refine (runs_peek h hat).bind ?_
  rw [hcheck]
  exact runs_pure _ c

theorem runs_consumeMatch_some (h : Ended tokens ws fin) (hat : c.At ws (t :: rest) depth)
    (hcheck : check t = some a) : Runs (consumeMatch tokens check) c (some a) c.next := by
  refine (runs_peek h hat).bind ?_
  rw [List.headD_cons, hcheck]
  exact (runs_advance h hat).bind (runs_pure _ _)

theorem runs_consume_none (h : Ended tokens ws fin) (hat : c.At ws rest depth) {kind : Token.Kind}
    (hkind : (rest.headD fin).kind ≠ kind) : Runs (consume tokens kind) c none c := by
  refine (runs_peek h hat).bind ?_
  rw [if_neg hkind]
  exact runs_pure _ c

theorem runs_consume_some (h : Ended tokens ws fin) (hat : c.At ws (t :: rest) depth) :
    Runs (consume tokens t.kind) c (some t) c.next := by
  refine (runs_peek h hat).bind ?_
  rw [List.headD_cons, if_pos rfl]
  exact (runs_get c).bind ((runs_advance h hat).bind ((runs_tokenAt h hat _).bind (runs_pure _ _)))

theorem halts_invalidTokenAt (h : Ended tokens ws fin) (hat : c.At ws rest depth) :
    Halts (invalidTokenAt tokens c.current : Steps α) c
      (.failed ⟨.invalidToken, rest.headD fin⟩) :=
  (runs_tokenAt h hat c).halts_bind (halts_throw _ c)

theorem runs_descend (h : c.depth < maxLevels) (t : Token) : Runs (descend t) c () c.deeper := by
  refine (runs_modify _ c).bind ((runs_get c.deeper).bind ?_)
  have hroom : ¬ maxLevels < c.deeper.depth := Nat.not_lt.mpr h
  rw [if_neg hroom]
  exact runs_pure _ _

theorem halts_descend (h : c.depth = maxLevels) (t : Token) :
    Halts (descend t) c (.failed ⟨.tooDeep, t⟩) := by
  refine (runs_modify _ c).halts_bind ((runs_get c.deeper).halts_bind ?_)
  have hdeep : maxLevels < c.deeper.depth := by
    rw [← h]
    exact Nat.lt_succ_self _
  rw [if_pos hdeep]
  exact halts_throw _ _

theorem runs_ascend (h : c.depth = depth + 1) : Runs ascend c () { c with depth } := by
  have hle : 1 ≤ c.depth := by omega
  have hsub : c.depth - 1 = depth := by omega
  refine (runs_get c).bind ((runs_subtract hle c).bind ?_)
  rw [hsub]
  exact runs_modify _ c

end

/-! ### What a step does to the words that are left -/

/-- From the cursor `c` on, the machine does what a reader of lists does whose outcome is `r`. If
this is a result, the cursor is then before the words that the reader leaves, and `depth` levels are
taken. -/
inductive Simulates {α : Type} (ws : List Token) (m : Steps α) (c : Cursor) (depth : Nat) :
    Except SyntaxError (α × List Token) → Prop
  | ok {a : α} {rest : List Token} {c' : Cursor} (h : Runs m c a c') (hat : c'.At ws rest depth) :
      Simulates ws m c depth (.ok (a, rest))
  | error {e : SyntaxError} (h : Halts m c (.failed e)) : Simulates ws m c depth (.error e)

namespace Simulates

variable {α β : Type} {ws : List Token} {m : Steps α} {f : α → Steps β} {c c' : Cursor}
  {depth depth' : Nat} {a : α}

/-- A step for which the reader has no counterpart. -/
theorem step {r : Except SyntaxError (β × List Token)} (hm : Runs m c a c')
    (hf : Simulates ws (f a) c' depth r) : Simulates ws (m >>= f) c depth r := by
  cases hf with
  | ok h hat => exact .ok (hm.bind h) hat
  | error h => exact .error (hm.halts_bind h)

/-- One step after the other. -/
theorem bind {r : Except SyntaxError (α × List Token)}
    {g : α × List Token → Except SyntaxError (β × List Token)} (hm : Simulates ws m c depth r)
    (hf : ∀ {a rest c'}, c'.At ws rest depth → Simulates ws (f a) c' depth' (g (a, rest))) :
    Simulates ws (m >>= f) c depth' (r >>= g) := by
  cases hm with
  | ok h hat => exact step h (hf hat)
  | error h => exact .error h.bind

end Simulates

/-! ### Tokens that are not there -/

theorem literal?_of_eof : ∀ t : Token, t.kind = .eof → literal? t = none := by
  rintro ⟨kind, s⟩ rfl
  rfl

theorem name?_of_eof : ∀ t : Token, t.kind = .eof → name? t = none := by
  rintro ⟨kind, s⟩ rfl
  rfl

section

variable {rest : List Token} {fin : Token} (hfin : fin.kind = .eof)
include hfin

theorem literal?_eq_none (h : ∀ text s ts, rest = ⟨.hex text, s⟩ :: ts → False) :
    literal? (rest.headD fin) = none := by
  cases rest with
  | nil => exact literal?_of_eof fin hfin
  | cons t ts =>
    obtain ⟨kind, s⟩ := t
    cases kind with
    | hex text => exact (h text s ts rfl).elim
    | _ => rfl

theorem name?_eq_none (h : ∀ name s ts, rest = ⟨.ident name, s⟩ :: ts → False) :
    name? (rest.headD fin) = none := by
  cases rest with
  | nil => exact name?_of_eof fin hfin
  | cons t ts =>
    obtain ⟨kind, s⟩ := t
    cases kind with
    | ident name => exact (h name s ts rfl).elim
    | _ => rfl

theorem kind_headD_ne {kind : Token.Kind} (hkind : kind ≠ .eof)
    (h : ∀ s ts, rest = ⟨kind, s⟩ :: ts → False) : (rest.headD fin).kind ≠ kind := by
  intro heq
  obtain ⟨s, ts, rfl⟩ := Expr.eq_cons_of_headD hfin heq hkind
  exact h s ts rfl

end

/-! ### Powers -/

/-- The power of the operators of a strength. -/
def powerOf : Nat → Nat
  | 0 => 0
  | strength + 1 => strength + 14

theorem powerOf_lt_iff {m n : Nat} : powerOf m < powerOf n ↔ m < n := by
  cases m <;> cases n <;> simp only [powerOf] <;> omega

theorem powerOf_lt_prefixPower {power : Nat} (h : power ≤ 3) : powerOf power < prefixPower := by
  have := powerOf_lt_iff.mpr (Nat.lt_succ_of_le h)
  exact this

theorem operator?_eq (k : Token.Kind) :
    operator? k = k.binaryOp?.map fun op => (op, powerOf op.strength) := by
  cases k <;> rfl

/-- The operators above a power are those above its strength. -/
theorem filter_operator? (k : Token.Kind) (power : Nat) :
    ((operator? k).filter fun op => powerOf power < op.2) =
      (k.binaryOp?.filter (power < ·.strength)).map fun op => (op, powerOf op.strength) := by
  rw [operator?_eq]
  cases k.binaryOp? with
  | none => rfl
  | some op => simp only [Option.map_some, Option.filter_some, powerOf_lt_iff]; split <;> rfl

/-! ### The machine does what the reader does -/

section

variable {tokens ws rest : List Token} {fin : Token} {depth calls : Nat} {c : Cursor}

theorem simulates_consumeOrFail (h : Ended tokens ws fin) (hat : c.At ws rest depth)
    {kind : Token.Kind} (hkind : kind ≠ .eof) (problem : SyntaxProblem) :
    Simulates ws (consumeOrFail tokens kind (⟨problem, ·⟩)) c depth
      (Expr.expect fin kind problem rest) := by
  unfold Expr.expect
  refine .step (runs_peek h hat) ?_
  by_cases heq : (rest.headD fin).kind = kind
  · obtain ⟨s, ts, rfl⟩ := Expr.eq_cons_of_headD h.kind_fin heq hkind
    rw [if_pos heq, if_pos heq]
    exact .step (runs_get c) (.step (runs_advance h hat) (.ok (runs_tokenAt h hat _) hat.next))
  · rw [if_neg heq, if_neg heq]
    exact .error ((runs_peek h hat).halts_bind (halts_throw _ c))

/-- A part between brackets, read by `m`: the level that is taken for it is given back. -/
theorem simulates_enclosed (h : Ended tokens ws fin) (hdepth : c.depth < maxLevels)
    {m : Steps Expr} {r : Except SyntaxError (Expr × List Token)}
    (hm : Simulates ws m c.deeper (c.depth + 1) r) {kind : Token.Kind} (hkind : kind ≠ .eof)
    (problem : SyntaxProblem) (opener : Token) (result : Expr → Token → Expr) :
    Simulates ws
      (descend opener >>= fun _ => m >>= fun inner => ascend >>= fun _ =>
        consumeOrFail tokens kind (⟨problem, ·⟩) >>= fun close => pure (result inner close))
      c c.depth
      (r >>= fun x => Expr.expect fin kind problem x.2 >>= fun y =>
        .ok (result x.1 y.1, y.2)) := by
  refine .step (runs_descend hdepth opener) (hm.bind fun hat => ?_)
  refine .step (runs_ascend hat.depth_eq) ?_
  exact (simulates_consumeOrFail h (hat.withDepth c.depth) hkind problem).bind
    fun hat' => .ok (runs_pure _ _) hat'

theorem simulates_pathFrom (h : Ended tokens ws fin) (hat : c.At ws rest depth)
    (hcalls : rest.length < calls) (p : Path) :
    Simulates ws (pathFrom tokens calls p) c depth
      ((Expr.dottedNames fin rest).map fun x => (⟨p.first, p.rest ++ x.1⟩, x.2)) := by
  obtain ⟨calls, rfl⟩ := Nat.exists_eq_add_one.mpr (Nat.zero_lt_of_lt hcalls)
  rw [pathFrom]
  fun_induction Expr.dottedNames fin rest generalizing c p calls with
  | case1 dotSpan name s ts ih =>
    simp only [List.length_cons] at hcalls
    obtain ⟨calls, rfl⟩ : ∃ n, calls = n + 1 := ⟨calls - 1, by omega⟩
    refine .step (runs_consume_some h hat) (.step (runs_consumeMatch_some h hat.next rfl) ?_)
    have hrest := ih hat.next.next ⟨p.first, p.rest ++ [⟨name, s⟩]⟩ calls (by omega)
    show Simulates ws (pathFrom tokens (calls + 1) ⟨p.first, p.rest ++ [⟨name, s⟩]⟩) _ depth _
    rw [pathFrom]
    cases hnames : Expr.dottedNames fin ts with
    | ok x =>
      rw [hnames] at hrest
      simpa [Except.map, bind, Except.bind] using hrest
    | error e =>
      rw [hnames] at hrest
      exact hrest
  | case2 dotSpan ts hnone =>
    refine .step (runs_consume_some h hat) (.step (runs_consumeMatch_none h hat.next ?_) ?_)
    · exact name?_eq_none h.kind_fin hnone
    · exact .error ((runs_peek h hat.next).halts_bind (halts_throw _ _))
  | case3 ts hname hdot =>
    have hkind : (ts.headD fin).kind ≠ .dot := kind_headD_ne h.kind_fin (by decide) hdot
    refine .step (runs_consume_none h hat hkind) ?_
    have hp : p = ⟨p.first, p.rest ++ []⟩ := by rw [List.append_nil]
    exact .ok (hp ▸ runs_pure p c) hat

mutual

theorem simulates_atom (h : Ended tokens ws fin) {calls room depth : Nat}
    (hcalls : ws.length + 2 * room + 1 ≤ calls) (hdepth : depth + room = maxLevels) {c : Cursor}
    {rest : List Token} (hat : c.At ws rest depth) :
    Simulates ws (atom tokens calls) c depth (Expr.atom fin room rest) := by
  obtain ⟨calls, rfl⟩ := Nat.exists_eq_add_one.mpr (Nat.zero_lt_of_lt hcalls)
  obtain rfl : c.depth = depth := hat.depth_eq
  -- What stands between brackets is read with one call and one level less.
  have hinside {room' : Nat} {ts : List Token} (hroom : room = room' + 1)
      (hat' : c.next.At ws ts c.depth) : c.next.depth < maxLevels ∧
        Simulates ws (binaryExpr tokens calls 0) c.next.deeper (c.depth + 1)
          (Expr.climb fin room' 0 ts) := by
    have hlevel : c.depth < maxLevels := by omega
    exact ⟨hlevel, simulates_binaryExpr h (by omega) (by omega) (Nat.zero_le 3) hat'.deeper⟩
  unfold Expr.atom
  rw [atom]
  split
  · exact .step (runs_consumeMatch_some h hat rfl) (.ok (runs_pure _ _) hat.next)
  · next name s ts =>
    refine .step (runs_consumeMatch_none h hat rfl) (.step (runs_consumeMatch_some h hat rfl) ?_)
    have hlength : ts.length < calls := by
      have := hat.length_le
      rw [List.length_cons] at this
      omega
    have hpath := (simulates_pathFrom h hat.next hlength ⟨⟨name, s⟩, []⟩).bind
      (g := fun x => .ok (Expr.path x.1, x.2)) fun hat' => .ok (runs_pure _ _) hat'
    cases hnames : Expr.dottedNames fin ts with
    | ok x =>
      rw [hnames] at hpath
      exact hpath
    | error e =>
      rw [hnames] at hpath
      exact hpath
  · next s ts =>
    refine .step (runs_consumeMatch_none h hat rfl) (.step (runs_consumeMatch_none h hat rfl)
      (.step (runs_consume_some h hat) ?_))
    cases room with
    | zero => exact .error (halts_descend (c := c.next) hdepth _).bind
    | succ room =>
      obtain ⟨hlevel, hinner⟩ := hinside rfl hat.next
      exact simulates_enclosed h hlevel hinner (by decide) (.unmatchedParenthesis s)
        ⟨.openParen, s⟩ fun inner _ => inner
  · next s ts =>
    have hparen : Runs (consume tokens .openParen) c none c := runs_consume_none h hat nofun
    refine .step (runs_consumeMatch_none h hat rfl) (.step (runs_consumeMatch_none h hat rfl)
      (.step hparen (.step (runs_consume_some h hat) ?_)))
    cases room with
    | zero => exact .error (halts_descend (c := c.next) hdepth _).bind
    | succ room =>
      obtain ⟨hlevel, hinner⟩ := hinside rfl hat.next
      exact simulates_enclosed h hlevel hinner (by decide) (.unmatchedBracket s)
        ⟨.openBracket, s⟩ fun address close => .deref s address close.span
  · next hhex hident hparen hbracket =>
    have hparen := runs_consume_none h hat (kind_headD_ne h.kind_fin (by decide) hparen)
    have hbracket := runs_consume_none h hat (kind_headD_ne h.kind_fin (by decide) hbracket)
    refine .step (runs_consumeMatch_none h hat (literal?_eq_none h.kind_fin hhex)) ?_
    refine .step (runs_consumeMatch_none h hat (name?_eq_none h.kind_fin hident)) ?_
    refine .step hparen (.step hbracket (.step (runs_get c) ?_))
    exact .error (halts_invalidTokenAt h hat)
termination_by calls

theorem simulates_binaryExpr (h : Ended tokens ws fin) {calls room depth power : Nat}
    (hcalls : ws.length + 2 * room + 2 ≤ calls) (hdepth : depth + room = maxLevels)
    (hpower : power ≤ 3) {c : Cursor} {rest : List Token} (hat : c.At ws rest depth) :
    Simulates ws (binaryExpr tokens calls (powerOf power)) c depth
      (Expr.climb fin room power rest) := by
  obtain ⟨calls, rfl⟩ := Nat.exists_eq_add_one.mpr (Nat.zero_lt_of_lt hcalls)
  obtain rfl : c.depth = depth := hat.depth_eq
  rw [binaryExpr]
  refine .step (runs_get c) ?_
  cases hsign : (rest.headD fin).kind.sign? with
  | some sign =>
    have hkind := Token.Kind.sign?_eq_some_iff.mp hsign
    obtain ⟨s, ts, rfl⟩ := Expr.eq_cons_of_headD h.kind_fin hkind sign.kind_ne_eof
    have hcheck : (sign.kind.sign?.map fun sign' => (sign', Token.mk sign.kind s)) =
        some (sign, ⟨sign.kind, s⟩) := by
      rw [hkind] at hsign
      rw [hsign, Option.map_some]
    refine .step (runs_consumeMatch_some h hat hcheck) ?_
    show Simulates ws (if powerOf power < prefixPower then _ else _) _ _ _
    rw [if_pos (powerOf_lt_prefixPower hpower)]
    cases room with
    | zero =>
      rw [Expr.climb_zero_sign]
      exact .error (halts_descend (c := c.next) hdepth _).bind
    | succ room =>
      rw [Expr.climb_sign]
      refine .step (runs_descend (c := c.next) (by show c.depth < _; omega) _) ?_
      refine (simulates_atom h (by omega) (by omega) hat.next.deeper).bind fun hat' => ?_
      exact simulates_operators h (by omega) (by omega) hpower hat' _ _
  | none =>
    rw [Expr.climb_of_sign?_eq_none hsign]
    have hcheck : ((rest.headD fin).kind.sign?.map fun sign => (sign, rest.headD fin)) = none := by
      rw [hsign, Option.map_none]
    refine .step (runs_consumeMatch_none h hat hcheck) ?_
    refine (simulates_atom h (by omega) hdepth hat).bind fun hat' => ?_
    exact simulates_operators h (by omega) hdepth hpower hat' _ _
termination_by calls

theorem simulates_operators (h : Ended tokens ws fin) {calls room depth power : Nat}
    (hcalls : ws.length + 2 * room + 1 ≤ calls) (hdepth : depth + room = maxLevels)
    (hpower : power ≤ 3) {c : Cursor} {rest : List Token} (hat : c.At ws rest depth)
    (left : Expr) (entry : Nat) :
    Simulates ws (operators tokens calls entry (powerOf power) left) c entry
      (Expr.fold fin room power left rest) := by
  obtain ⟨calls, rfl⟩ := Nat.exists_eq_add_one.mpr (Nat.zero_lt_of_lt hcalls)
  obtain rfl : c.depth = depth := hat.depth_eq
  rw [operators]
  by_cases hstop : ∀ op : BinaryOp, (rest.headD fin).kind = op.kind → op.strength ≤ power
  · rw [Expr.fold_of_ops hstop]
    have hnone : (rest.headD fin).kind.binaryOp?.filter (power < ·.strength) = none := by
      rw [Option.filter_eq_none_iff]
      intro op hop
      have := hstop op (Token.Kind.binaryOp?_eq_some_iff.mp hop)
      simpa using this
    refine .step (runs_consumeMatch_none h hat ?_) ?_
    · rw [filter_operator?, hnone, Option.map_none, Option.map_none]
    · exact .step (runs_modify _ c) (.ok (runs_pure _ _) (hat.withDepth entry))
  · have hgoes : ∃ op : BinaryOp, (rest.headD fin).kind = op.kind ∧ power < op.strength := by
      simpa using hstop
    obtain ⟨op, hkind, hop⟩ := hgoes
    obtain ⟨s, ts, rfl⟩ := Expr.eq_cons_of_headD h.kind_fin hkind op.kind_ne_eof
    have hsome : op.kind.binaryOp?.filter (power < ·.strength) = some op := by
      rw [Token.Kind.binaryOp?_eq_some_iff.mpr rfl, Option.filter_some, if_pos (by simpa using hop)]
    refine .step (runs_consumeMatch_some (a := ((op, powerOf op.strength), ⟨op.kind, s⟩)) h hat ?_)
      ?_
    · rw [filter_operator?, hsome, Option.map_some, Option.map_some]
    cases room with
    | zero =>
      rw [Expr.fold_zero_op s hop]
      exact .error (halts_descend (c := c.next) hdepth _).bind
    | succ room =>
      rw [Expr.fold_op s hop]
      refine .step (runs_descend (c := c.next) (by show c.depth < _; omega) _) ?_
      refine (simulates_binaryExpr h (by omega) (by omega) op.strength_le_three
        hat.next.deeper).bind fun hat' => ?_
      exact simulates_operators h (by omega) (by omega) hpower hat' _ _
termination_by calls

end

end

/-! ### Whole lists -/

/-- A completed list has an end of the text behind its words. -/
theorem ended_complete (ts : List Token) :
    Ended (complete ts) (Expr.words ts) (Expr.endOf ts) := by
  have hword : ∀ t ∈ Expr.words ts, t.kind.isEof = false := fun t =>
    Expr.isEof_eq_false_of_mem_words
  refine ⟨?_, fun t => Expr.kind_ne_eof_of_mem_words, Expr.kind_endOf ts⟩
  rcases Expr.words_eq_or_append_endOf ts with hall | ⟨post, hpost⟩
  · rw [hall] at hword
    have hlast : ts.getLast?.any (·.kind.isEof) = false := by
      rw [Option.any_eq_false]
      intro t ht
      exact hword t (List.mem_of_getLast? ht)
    have hnone : ts.find? (·.kind.isEof) = none := by
      rw [List.find?_eq_none]
      intro t ht
      rw [hword t ht]
      exact Bool.false_ne_true
    refine ⟨[], ?_⟩
    rw [complete, hlast, hall, Expr.endOf, hnone]
    rfl
  · unfold complete
    split
    · exact ⟨post, hpost⟩
    · exact ⟨post ++ [.eofAt ((ts.getLast?.map (·.span.stop)).getD .origin)], by
        rw [← List.cons_append, ← List.append_assoc, ← hpost]⟩

/-- **The machine ends as the reader of lists says, whatever the list is.** It does not crash, and
it takes no more calls inside one another than the list has tokens and twice the levels. -/
theorem parse_eq (ts : List Token) {calls : Nat} (hcalls : ts.length + 2 * maxLevels + 2 ≤ calls) :
    parse calls ts = (Expr.ofTokens ts).mapError .failed := by
  have hended := ended_complete ts
  have hlength : (Expr.words ts).length ≤ ts.length := (List.takeWhile_sublist _).length_le
  have hstart : Cursor.At (Expr.words ts) (Expr.words ts) 0 ⟨0, 0⟩ := ⟨⟨[], rfl, rfl⟩, rfl⟩
  have hread : Simulates (Expr.words ts) (binaryExpr (complete ts) calls 0) ⟨0, 0⟩ 0
      (Expr.climb (Expr.endOf ts) maxLevels 0 (Expr.words ts)) :=
    simulates_binaryExpr hended (by omega) (Nat.zero_add _) (Nat.zero_le 3) hstart
  unfold Expr.ofTokens
  generalize Expr.climb (Expr.endOf ts) maxLevels 0 (Expr.words ts) = r at hread
  cases hread with
  | error h => exact (show Halts (wholeExpr (complete ts) calls) ⟨0, 0⟩ _ from h.bind).run'_eq
  | @ok e rest c' h hat =>
    cases rest with
    | nil =>
      have hend : Runs (wholeExpr (complete ts) calls) ⟨0, 0⟩ e c' := by
        refine h.bind ((runs_peek hended hat).bind ?_)
        rw [List.headD_nil, if_pos hended.kind_fin]
        exact runs_pure e c'
      exact hend.run'_eq
    | cons t rest =>
      refine Halts.run'_eq (h.halts_bind ((runs_peek hended hat).halts_bind ?_))
      rw [List.headD_cons, if_neg (hended.word t hat.mem)]
      exact halts_throw _ c'

end Cursor
end AddressExpr
