/-
# The calls of a machine that reads by a cursor

Two functions of the machine call each other, `binaryExpr` and `atom`. How many calls of them are
active inside one another is counted nowhere. The machine counts the levels that are taken, and the
limit for these has to keep the calls within bounds as well. The count goes up at every bracket,
sign and operator. It goes down by one behind what is in brackets, and back to what it was at the
start behind the last operator of a `binaryExpr`.

So that something can be said of every call, also in a run that ends with an error, the machine runs
here in a monad that keeps a record of its calls (`Cursor.Recorded`). Without the record it does the
same steps (`Recorded.steps_wholeExpr`). In every call the levels that are taken cover the
calls of `binaryExpr` that are active (`Cursor.Covers`): between one such call and the next within
it a level is taken, and none is given back that was taken before. And every call with a result
gives back what it took and has read a token (`Cursor.Balanced`). Each of the two needs the other,
so they are shown together, by an induction over the calls (`Recorded.keeps_binaryExpr`).

Key definitions: `Cursor.Call`, `Cursor.Recorded`, `Cursor.callsOf`, `Cursor.Call.IsSound`.
Key theorems: `Recorded.steps_wholeExpr`, `Recorded.keeps_binaryExpr`, `Cursor.isSound_callsOf`.
-/
import AddressExpr.Proofs.Machine.Cursor

namespace AddressExpr
namespace Cursor

/-! ### Calls and their record -/

/-- A call of a function: the functions whose calls were active then, the innermost first, and the
cursor at the start of the call and, if it ended with a result, at its end. -/
structure Call where
  routine : Routine
  callers : List Routine
  entry : Cursor
  exit? : Option Cursor

/-- The cursor with which the computation ends from `c` on, if it has a result. -/
def exit? {α : Type} (m : Steps α) (c : Cursor) : Option Cursor :=
  match m.run c with
  | .ok (_, c') => some c'
  | .error _ => none

/-- A computation, and the record of the calls in it, given the functions that are active and the
cursor at the start. -/
structure Recorded (α : Type) where
  steps : Steps α
  record : List Routine → Cursor → List Call

namespace Recorded

instance : Monad Recorded where
  pure a := ⟨pure a, fun _ _ => []⟩
  bind m f := ⟨m.steps >>= fun a => (f a).steps, fun callers c =>
    m.record callers c ++
      match m.steps.run c with
      | .ok (a, c') => (f a).record callers c'
      | .error _ => []⟩

/-- In a single step nothing is called. -/
instance : MonadLift Steps Recorded where
  monadLift m := ⟨m, fun _ _ => []⟩

/-- The computation as the body of a call of the function `routine`. -/
def called {α : Type} (routine : Routine) (body : Recorded α) : Recorded α where
  steps := body.steps
  record callers c :=
    ⟨routine, callers, c, Cursor.exit? body.steps c⟩ :: body.record (routine :: callers) c

instance : Calling Recorded := ⟨called⟩

end Recorded

/-- The calls that are made for the list. -/
def callsOf (calls : Nat) (ts : List Token) : List Call :=
  (wholeExpr (complete ts) calls : Recorded Expr).record [] ⟨0, 0⟩

/-! ### Without the record -/

namespace Recorded

section

variable {tokens : List Token} {α β : Type}

theorem steps_bind {m : Recorded α} {m' : Steps α} {f : α → Recorded β} {f' : α → Steps β}
    (hm : m.steps = m') (hf : ∀ a, (f a).steps = f' a) : (m >>= f).steps = m' >>= f' := by
  show (m.steps >>= fun a => (f a).steps) = _
  rw [hm, funext hf]

mutual

theorem steps_binaryExpr : ∀ calls minPower : Nat,
    (binaryExpr tokens calls minPower : Recorded Expr).steps = binaryExpr tokens calls minPower
  | 0, minPower => by
    rw [binaryExpr, binaryExpr]
    rfl
  | calls + 1, minPower => by
    rw [binaryExpr, binaryExpr]
    refine steps_bind rfl fun entry => steps_bind rfl fun sign => ?_
    cases sign with
    | none => exact steps_bind (steps_atom calls) fun operand => steps_operators calls _ _ _
    | some sign =>
      show (if minPower < prefixPower then _ else _ : Recorded Expr).steps = ite _ _ _
      by_cases hpower : minPower < prefixPower
      · rw [if_pos hpower, if_pos hpower]
        exact steps_bind rfl fun _ =>
          steps_bind (steps_atom calls) fun operand => steps_operators calls _ _ _
      · rw [if_neg hpower, if_neg hpower]
        rfl

theorem steps_operators : ∀ (calls entryDepth minPower : Nat) (left : Expr),
    (operators tokens calls entryDepth minPower left : Recorded Expr).steps =
      operators tokens calls entryDepth minPower left
  | 0, entryDepth, minPower, left => by
    rw [operators, operators]
    rfl
  | calls + 1, entryDepth, minPower, left => by
    rw [operators, operators]
    refine steps_bind rfl fun op => ?_
    cases op with
    | none => rfl
    | some op =>
      exact steps_bind rfl fun _ =>
        steps_bind (steps_binaryExpr calls _) fun right => steps_operators calls _ _ _

theorem steps_atom : ∀ calls : Nat,
    (atom tokens calls : Recorded Expr).steps = atom tokens calls
  | 0 => by
    rw [atom, atom]
    rfl
  | calls + 1 => by
    rw [atom, atom]
    refine steps_bind rfl fun literal => ?_
    cases literal with
    | some e => rfl
    | none =>
      refine steps_bind rfl fun name => ?_
      cases name with
      | some first => rfl
      | none =>
        refine steps_bind rfl fun opener => ?_
        cases opener with
        | some opener =>
          exact steps_bind rfl fun _ => steps_bind (steps_binaryExpr calls 0) fun inner => rfl
        | none =>
          refine steps_bind rfl fun opener => ?_
          cases opener with
          | some opener =>
            exact steps_bind rfl fun _ => steps_bind (steps_binaryExpr calls 0) fun inner => rfl
          | none => rfl

end

theorem steps_wholeExpr (calls : Nat) :
    (wholeExpr tokens calls : Recorded Expr).steps = wholeExpr tokens calls := by
  refine steps_bind (steps_binaryExpr calls 0) fun e => steps_bind rfl fun t => ?_
  by_cases ht : t.kind = .eof
  · rw [if_pos ht, if_pos ht]
    rfl
  · rw [if_neg ht, if_neg ht]
    rfl

end

end Recorded

/-! ### Steps that have a result -/

/-- If the computation has a result from `c` on, this and the cursor at its end are as `post`
says. -/
def Ends {α : Type} (m : Steps α) (c : Cursor) (post : α → Cursor → Prop) : Prop :=
  ∀ a c', Runs m c a c' → post a c'

/-- The cursor behind a token that may have been read. -/
def behind {α : Type} (c : Cursor) : Option α → Cursor
  | none => c
  | some _ => c.next

section

variable {α β : Type} {m : Steps α} {f : α → Steps β} {c : Cursor} {post : α → Cursor → Prop}
  {post' : β → Cursor → Prop}

theorem Runs.exists_of_bind {b : β} {c'' : Cursor} (h : Runs (m >>= f) c b c'') :
    ∃ a c', Runs m c a c' ∧ Runs (f a) c' b c'' := by
  change (m.run c >>= fun x => (f x.1).run x.2) = _ at h
  cases hm : m.run c with
  | error halt =>
    rw [hm] at h
    cases h
  | ok x =>
    rw [hm] at h
    exact ⟨x.1, x.2, hm, h⟩

theorem exists_of_exit? {c' : Cursor} (h : exit? m c = some c') : ∃ a, Runs m c a c' := by
  unfold exit? at h
  cases hm : m.run c with
  | ok x =>
    rw [hm] at h
    obtain rfl := Option.some.inj h
    exact ⟨x.1, hm⟩
  | error halt =>
    rw [hm] at h
    cases h

theorem Runs.unique {a a' : α} {c' c'' : Cursor} (h : Runs m c a c') (h' : Runs m c a' c'') :
    a = a' ∧ c' = c'' :=
  Prod.mk.inj (Except.ok.inj ((show m.run c = _ from h).symm.trans h'))

theorem Ends.bind (hm : Ends m c post) (hf : ∀ a c', post a c' → Ends (f a) c' post') :
    Ends (m >>= f) c post' := by
  intro b c'' h
  obtain ⟨a, c', ha, hb⟩ := h.exists_of_bind
  exact hf a c' (hm a c' ha) b c'' hb

theorem Ends.mono {post' : α → Cursor → Prop} (hm : Ends m c post)
    (h : ∀ a c', post a c' → post' a c') : Ends m c post' :=
  fun a c' ha => h a c' (hm a c' ha)

theorem ends_pure {a : α} (h : post a c) : Ends (pure a) c post := by
  intro a' c' ha
  obtain ⟨rfl, rfl⟩ := (runs_pure a c).unique ha
  exact h

theorem ends_throw (halt : Halt SyntaxError) : Ends (throw halt) c post := by
  intro a c' ha
  cases ha

theorem ends_get : Ends get c fun a c' => a = c ∧ c' = c := by
  intro a c' ha
  obtain ⟨rfl, rfl⟩ := (runs_get c).unique ha
  exact ⟨rfl, rfl⟩

theorem ends_modify (g : Cursor → Cursor) : Ends (modify g) c fun _ c' => c' = g c := by
  intro a c' ha
  exact ((runs_modify g c).unique ha).2.symm

theorem ends_subtract (m n : Nat) : Ends (subtract m n) c fun k c' => k = m - n ∧ c' = c := by
  intro k c' hk
  by_cases h : n ≤ m
  · obtain ⟨rfl, rfl⟩ := (runs_subtract h c).unique hk
    exact ⟨rfl, rfl⟩
  · rw [subtract, difference, if_neg h] at hk
    cases hk

theorem ends_descend (t : Token) :
    Ends (descend t) c fun _ c' => c' = c.deeper ∧ c.depth < maxLevels := by
  refine (ends_modify _).bind fun _ c' hc' => ends_get.bind fun d c'' hd => ?_
  rw [hd.1, hd.2, hc']
  change Ends (if maxLevels < c.deeper.depth then _ else _) c.deeper _
  by_cases hdeep : maxLevels < c.deeper.depth
  · rw [if_pos hdeep]
    exact ends_throw _
  · rw [if_neg hdeep]
    exact ends_pure ⟨rfl, Nat.not_lt.mp hdeep⟩

theorem ends_ascend :
    Ends ascend c fun _ c' => c'.depth = c.depth - 1 ∧ c'.current = c.current := by
  refine ends_get.bind fun d c' hd => ?_
  obtain ⟨rfl, rfl⟩ := hd
  refine (ends_subtract _ _).bind fun k c'' hk => ?_
  obtain ⟨rfl, rfl⟩ := hk
  exact (ends_modify _).mono fun _ c' hc' => hc' ▸ ⟨rfl, rfl⟩

variable {tokens : List Token}

theorem ends_tokenAt (i : Nat) : Ends (tokenAt tokens i) c fun _ c' => c' = c := by
  refine (ends_subtract _ _).bind fun last c' hlast => ?_
  obtain ⟨-, rfl⟩ := hlast
  cases tokens[min i last]? with
  | some t => exact ends_pure rfl
  | none => exact ends_throw _

theorem ends_peek : Ends (peek tokens) c fun t c' => c' = c ∧ Runs (peek tokens) c t c := by
  intro t c' h
  obtain ⟨d, c'', hd, ht⟩ := h.exists_of_bind
  obtain ⟨rfl, rfl⟩ := ends_get d c'' hd
  obtain rfl := ends_tokenAt _ t c' ht
  exact ⟨rfl, h⟩

/-- From a token that is no end of the text the cursor moves on. -/
theorem ends_advance {t : Token} (hpeek : Runs (peek tokens) c t c) (ht : t.kind ≠ .eof) :
    Ends (advance tokens) c fun _ c' => c' = c.next := by
  intro _ c' h
  obtain ⟨t', c'', ht', hmove⟩ := h.exists_of_bind
  obtain ⟨rfl, rfl⟩ := hpeek.unique ht'
  rw [if_pos ht] at hmove
  exact ends_modify _ _ _ hmove

theorem ends_consumeMatch {check : Token → Option α}
    (hcheck : ∀ t, t.kind = .eof → check t = none) :
    Ends (consumeMatch tokens check) c fun a c' => c' = c.behind a := by
  refine ends_peek.bind fun t c' ht => ?_
  obtain ⟨rfl, hpeek⟩ := ht
  cases ha : check t with
  | none => exact ends_pure rfl
  | some a =>
    have hkind : t.kind ≠ .eof := by
      intro heof
      rw [hcheck t heof] at ha
      cases ha
    exact (ends_advance hpeek hkind).bind fun _ c'' hc'' => ends_pure hc''

theorem ends_consume {kind : Token.Kind} (hkind : kind ≠ .eof) :
    Ends (consume tokens kind) c fun t c' => c' = c.behind t := by
  refine ends_peek.bind fun t c' ht => ?_
  obtain ⟨rfl, hpeek⟩ := ht
  by_cases heq : t.kind = kind
  · rw [if_pos heq]
    refine ends_get.bind fun d c'' hd => ?_
    obtain ⟨rfl, rfl⟩ := hd
    refine (ends_advance hpeek (heq ▸ hkind)).bind fun _ c' hc' => ?_
    exact (ends_tokenAt _).bind fun t c'' hc'' => ends_pure (hc''.trans hc')
  · rw [if_neg heq]
    exact ends_pure rfl

theorem ends_consumeOrFail {kind : Token.Kind} (hkind : kind ≠ .eof)
    (error : Token → SyntaxError) :
    Ends (consumeOrFail tokens kind error) c fun _ c' => c' = c.next := by
  refine ends_peek.bind fun t c' ht => ?_
  obtain ⟨rfl, hpeek⟩ := ht
  by_cases heq : t.kind = kind
  · rw [if_pos heq]
    refine ends_get.bind fun d c'' hd => ?_
    obtain ⟨rfl, rfl⟩ := hd
    refine (ends_advance hpeek (heq ▸ hkind)).bind fun _ c' hc' => ?_
    exact (ends_tokenAt _).mono fun t c'' hc'' => hc''.trans hc'
  · rw [if_neg heq]
    exact ends_peek.bind fun _ _ _ => ends_throw _

/-- The names of a path take no level. -/
theorem ends_pathFrom : ∀ (calls : Nat) (p : Path) {c : Cursor},
    Ends (pathFrom tokens calls p) c fun _ c' => c'.depth = c.depth ∧ c.current ≤ c'.current
  | 0, p, c => by
    rw [pathFrom]
    exact ends_throw _
  | calls + 1, p, c => by
    rw [pathFrom]
    refine (ends_consume (by decide)).bind fun dot c1 h1 => ?_
    cases dot with
    | none =>
      obtain rfl : c1 = c := h1
      exact ends_pure ⟨rfl, Nat.le_refl _⟩
    | some dot =>
      obtain rfl : c1 = c.next := h1
      refine (ends_consumeMatch name?_of_eof).bind fun name c2 h2 => ?_
      cases name with
      | none => exact ends_peek.bind fun _ _ _ => ends_throw _
      | some name =>
        obtain rfl : c2 = c.next.next := h2
        refine (ends_pathFrom calls _).mono fun _ c3 h3 => ⟨h3.1, ?_⟩
        exact Nat.le_trans (Nat.le_add_right _ 2) h3.2

theorem ends_invalidTokenAt (i : Nat) : Ends (invalidTokenAt tokens i) c post :=
  (ends_tokenAt i).bind fun _ _ _ => ends_throw _

end

/-! ### The levels bound the calls -/

/-- From `c` to `c'` a token was read at least, and the levels taken on the way were given back. -/
structure Balanced (c c' : Cursor) : Prop where
  depth_eq : c'.depth = c.depth
  current_lt : c.current < c'.current

/-- Of the functions that are active, `binaryExpr` is there at most once more than levels are taken,
and no more levels are taken than there may be. -/
structure Covers (c : Cursor) (active : List Routine) : Prop where
  count_le : active.count .binaryExpr ≤ c.depth + 1
  depth_le : c.depth ≤ maxLevels

/-- What holds of every call. -/
structure Call.IsSound (call : Call) : Prop where
  /-- A call with a result has read a token at least, and gives back the levels it took. -/
  balanced : ∀ c', call.exit? = some c' → Balanced call.entry c'
  /-- Where `binaryExpr` is called, there are at least as many levels taken as other calls of it are
  active. -/
  callers_le : call.routine = .binaryExpr → call.callers.count .binaryExpr ≤ call.entry.depth
  /-- Where `binaryExpr` is called, no more levels are taken than there may be. -/
  depth_le : call.routine = .binaryExpr → call.entry.depth ≤ maxLevels
  /-- The calls of `binaryExpr` that are active in the call are at most one more than the levels
  that there may be. If it is a call of `binaryExpr`, it is one of them. -/
  active_le : (call.routine :: call.callers).count .binaryExpr ≤ maxLevels + 1

/-- A token was read before the rest. -/
theorem Balanced.of_next {c c' : Cursor} (h : Balanced c.next c') : Balanced c c' :=
  ⟨h.depth_eq, Nat.lt_of_succ_lt h.current_lt⟩

namespace Covers

variable {c c' : Cursor} {active : List Routine}

theorem of_depth_eq (h : c.Covers active) (hdepth : c'.depth = c.depth) : c'.Covers active :=
  ⟨hdepth ▸ h.count_le, hdepth ▸ h.depth_le⟩

theorem atom (h : c.Covers active) : c.Covers (.atom :: active) := by
  refine ⟨?_, h.depth_le⟩
  rw [List.count_cons_of_ne (by decide)]
  exact h.count_le

theorem deeper (h : c.Covers active) (hroom : c.depth < maxLevels) : c.deeper.Covers active :=
  ⟨Nat.le_succ_of_le h.count_le, hroom⟩

/-- A level that is taken covers one call more. -/
theorem binaryExpr (h : c.Covers active) (hroom : c.depth < maxLevels) :
    c.deeper.Covers (.binaryExpr :: active) := by
  refine ⟨?_, hroom⟩
  rw [List.count_cons_self]
  exact Nat.succ_le_succ h.count_le

end Covers

namespace Recorded

/-- From `c` on, while the functions `active` are active, every call that is made is sound, and if
there is a result, this and the cursor at its end are as `post` says. -/
structure Keeps {α : Type} (m : Recorded α) (active : List Routine) (c : Cursor)
    (post : α → Cursor → Prop) : Prop where
  sound : ∀ call ∈ m.record active c, call.IsSound
  ends : Ends m.steps c post

section

variable {α β : Type} {active : List Routine} {c : Cursor} {post : α → Cursor → Prop}
  {post' : β → Cursor → Prop}

theorem keeps_lift {m : Steps α} (h : Ends m c post) :
    Keeps (liftM m : Recorded α) active c post :=
  ⟨nofun, h⟩

theorem keeps_pure {a : α} (h : post a c) : Keeps (pure a) active c post := ⟨nofun, ends_pure h⟩

theorem Keeps.bind {m : Recorded α} {f : α → Recorded β} (hm : Keeps m active c post)
    (hf : ∀ a c', post a c' → Keeps (f a) active c' post') : Keeps (m >>= f) active c post' := by
  refine ⟨fun call hcall => ?_, hm.ends.bind fun a c' ha => (hf a c' ha).ends⟩
  rcases List.mem_append.mp hcall with hcall | hcall
  · exact hm.sound call hcall
  · cases hrun : m.steps.run c with
    | ok x =>
      rw [hrun] at hcall
      exact (hf x.1 x.2 (hm.ends x.1 x.2 hrun)).sound call hcall
    | error halt =>
      rw [hrun] at hcall
      cases hcall

theorem Keeps.mono {m : Recorded α} {post' : α → Cursor → Prop} (hm : Keeps m active c post)
    (h : ∀ a c', post a c' → post' a c') : Keeps m active c post' :=
  ⟨hm.sound, hm.ends.mono h⟩

/-- A function keeps what its body keeps, if this is balanced. -/
theorem Keeps.called {routine : Routine} {body : Recorded α}
    (hbody : Keeps body (routine :: active) c fun _ c' => Balanced c c')
    (hcovers : c.Covers (routine :: active)) :
    Keeps (called routine body) active c fun _ c' => Balanced c c' := by
  refine ⟨fun call hcall => ?_, hbody.ends⟩
  rcases List.mem_cons.mp hcall with rfl | hcall
  · have hcount := hcovers.count_le
    refine ⟨fun c' hexit => ?_, fun hroutine => ?_, fun _ => hcovers.depth_le, ?_⟩
    · obtain ⟨a, ha⟩ := exists_of_exit? hexit
      exact hbody.ends a c' ha
    · obtain rfl : routine = .binaryExpr := hroutine
      rw [List.count_cons_self] at hcount
      exact Nat.le_of_succ_le_succ hcount
    · exact Nat.le_trans hcount (Nat.succ_le_succ hcovers.depth_le)
  · exact hbody.sound call hcall

end

section

variable {tokens : List Token} {active : List Routine} {c : Cursor}

/-- A part between brackets, read by `m`: the level that is taken for it is given back. -/
theorem keeps_enclosed {m : Recorded Expr} (hcovers : c.Covers active)
    (hm : c.deeper.Covers (.binaryExpr :: active) →
      Keeps m active c.deeper fun _ c' => Balanced c.deeper c')
    {kind : Token.Kind} (hkind : kind ≠ .eof) (opener : Token) (error : Token → SyntaxError)
    (result : Expr → Token → Expr) :
    Keeps
      (liftM (descend opener) >>= fun _ => m >>= fun inner => liftM ascend >>= fun _ =>
        liftM (consumeOrFail tokens kind error) >>= fun close => pure (result inner close))
      active c fun _ c' => Balanced c c' := by
  refine Keeps.bind (keeps_lift (ends_descend opener)) fun _ c1 h1 => ?_
  obtain ⟨rfl, hroom⟩ := h1
  refine Keeps.bind (hm (hcovers.binaryExpr hroom)) fun inner c2 h2 => ?_
  refine Keeps.bind (keeps_lift ends_ascend) fun _ c3 h3 => ?_
  refine Keeps.bind (keeps_lift (ends_consumeOrFail hkind error)) fun close c4 h4 => ?_
  have hdepth : c2.depth = c.depth + 1 := h2.depth_eq
  have hcurrent : c.current < c2.current := h2.current_lt
  subst h4
  refine keeps_pure ⟨?_, ?_⟩
  · show c3.depth = c.depth
    omega
  · show c.current < c3.current + 1
    omega

/-- An operand, read by `m`, and what `k` makes of the operators after it. -/
theorem keeps_operand {m : Recorded Expr} {k : Expr → Recorded Expr} {entryDepth : Nat}
    (hcovers : c.Covers active) (hm : Keeps m active c fun _ c' => Balanced c c')
    (hk : ∀ e c', c'.Covers active → Keeps (k e) active c' fun _ c'' =>
      c''.depth = entryDepth ∧ c'.current ≤ c''.current) :
    Keeps (m >>= k) active c fun _ c' => c'.depth = entryDepth ∧ c.current < c'.current :=
  hm.bind fun e c1 h1 => (hk e c1 (hcovers.of_depth_eq h1.depth_eq)).mono fun _ _ h2 =>
    ⟨h2.1, Nat.lt_of_lt_of_le h1.current_lt h2.2⟩

mutual

/-- If the levels cover a call of `binaryExpr`, they cover all calls in it, and it is balanced. -/
theorem keeps_binaryExpr : ∀ (calls minPower : Nat) {active : List Routine} {c : Cursor},
    c.Covers (.binaryExpr :: active) →
    Keeps (binaryExpr tokens calls minPower) active c fun _ c' => Balanced c c'
  | 0, minPower, active, c, hcovers => by
    rw [binaryExpr]
    exact (keeps_lift (ends_throw _)).called hcovers
  | calls + 1, minPower, active, c, hcovers => by
    rw [binaryExpr]
    refine Keeps.called ?_ hcovers
    refine Keeps.bind (keeps_lift ends_get) fun entry c' hentry => ?_
    obtain ⟨rfl, rfl⟩ := hentry
    have hsign : ∀ t : Token, t.kind = .eof → (t.kind.sign?.map fun sign => (sign, t)) = none := by
      intro t ht
      rw [ht]
      rfl
    refine Keeps.bind (keeps_lift (ends_consumeMatch hsign)) fun sign c1 h1 => ?_
    cases sign with
    | none =>
      obtain rfl : c1 = c' := h1
      refine (keeps_operand hcovers (keeps_atom calls hcovers.atom) fun e c2 h2 =>
        keeps_operators calls _ _ _ h2).mono fun _ _ h => ⟨h.1, h.2⟩
    | some sign =>
      obtain rfl : c1 = c'.next := h1
      show Keeps (if minPower < prefixPower then _ else _) _ _ _
      by_cases hpower : minPower < prefixPower
      · rw [if_pos hpower]
        refine Keeps.bind (keeps_lift (ends_descend _)) fun _ c2 h2 => ?_
        obtain ⟨rfl, hroom⟩ := h2
        have hnext : c'.next.Covers (.binaryExpr :: active) := hcovers.of_depth_eq rfl
        have hcovers' := hnext.deeper hroom
        refine (keeps_operand hcovers' (keeps_atom calls hcovers'.atom) fun e c3 h3 =>
          keeps_operators calls _ _ _ h3).mono fun _ _ h => ⟨h.1, Nat.lt_of_succ_lt h.2⟩
      · -- No power is above that of a sign, but this need not be known: the branch has no result.
        rw [if_neg hpower]
        refine Keeps.bind (keeps_lift ends_get) fun _ c2 _ => ?_
        refine Keeps.bind (keeps_lift (ends_subtract _ _)) fun _ c3 _ => ?_
        exact keeps_lift (ends_invalidTokenAt _)

/-- Every operator takes a level, which covers the call for its right operand. Behind the last one
all above `entryDepth` are given back. -/
theorem keeps_operators : ∀ (calls entryDepth minPower : Nat) (left : Expr)
    {active : List Routine} {c : Cursor}, c.Covers active →
    Keeps (operators tokens calls entryDepth minPower left) active c fun _ c' =>
      c'.depth = entryDepth ∧ c.current ≤ c'.current
  | 0, entryDepth, minPower, left, active, c, hcovers => by
    rw [operators]
    exact keeps_lift (ends_throw _)
  | calls + 1, entryDepth, minPower, left, active, c, hcovers => by
    rw [operators]
    have hop : ∀ t : Token, t.kind = .eof →
        (((operator? t.kind).filter fun op => minPower < op.2).map fun op => (op, t)) = none := by
      intro t ht
      rw [ht]
      rfl
    refine Keeps.bind (keeps_lift (ends_consumeMatch hop)) fun op c1 h1 => ?_
    cases op with
    | none =>
      obtain rfl : c1 = c := h1
      refine Keeps.bind (keeps_lift (ends_modify _)) fun _ c2 h2 => ?_
      subst h2
      exact keeps_pure ⟨rfl, Nat.le_refl _⟩
    | some op =>
      obtain rfl : c1 = c.next := h1
      refine Keeps.bind (keeps_lift (ends_descend _)) fun _ c2 h2 => ?_
      obtain ⟨rfl, hroom⟩ := h2
      have hcovers' : c.next.Covers active := hcovers.of_depth_eq rfl
      refine (keeps_operand (hcovers'.deeper hroom)
        (keeps_binaryExpr calls _ (hcovers'.binaryExpr hroom)) fun e c3 h3 =>
          keeps_operators calls _ _ _ h3).mono fun _ _ h => ⟨h.1, ?_⟩
      exact Nat.le_trans (Nat.le_succ _) (Nat.le_of_lt h.2)

theorem keeps_atom : ∀ (calls : Nat) {active : List Routine} {c : Cursor},
    c.Covers (.atom :: active) → Keeps (atom tokens calls) active c fun _ c' => Balanced c c'
  | 0, active, c, hcovers => by
    rw [atom]
    exact (keeps_lift (ends_throw _)).called hcovers
  | calls + 1, active, c, hcovers => by
    rw [atom]
    refine Keeps.called ?_ hcovers
    have hnext : c.next.Covers (.atom :: active) := hcovers.of_depth_eq rfl
    refine Keeps.bind (keeps_lift (ends_consumeMatch literal?_of_eof)) fun literal c1 h1 => ?_
    cases literal with
    | some e =>
      obtain rfl : c1 = c.next := h1
      exact keeps_pure ⟨rfl, Nat.lt_succ_self _⟩
    | none =>
      obtain rfl : c1 = c := h1
      refine Keeps.bind (keeps_lift (ends_consumeMatch name?_of_eof)) fun name c2 h2 => ?_
      cases name with
      | some first =>
        obtain rfl : c2 = c1.next := h2
        refine Keeps.bind (keeps_lift (ends_pathFrom _ _)) fun p c3 h3 => ?_
        exact keeps_pure ⟨h3.1, h3.2⟩
      | none =>
        obtain rfl : c2 = c1 := h2
        refine Keeps.bind (keeps_lift (ends_consume (by decide))) fun opener c3 h3 => ?_
        cases opener with
        | some opener =>
          obtain rfl : c3 = c2.next := h3
          exact (keeps_enclosed hnext (keeps_binaryExpr calls 0) (by decide) opener _
            fun inner _ => inner).mono fun _ _ => Balanced.of_next
        | none =>
          obtain rfl : c3 = c2 := h3
          refine Keeps.bind (keeps_lift (ends_consume (by decide))) fun opener c4 h4 => ?_
          cases opener with
          | some opener =>
            obtain rfl : c4 = c3.next := h4
            exact (keeps_enclosed hnext (keeps_binaryExpr calls 0) (by decide) opener _
              fun address close => .deref opener.span address close.span).mono
                fun _ _ => Balanced.of_next
          | none =>
            refine Keeps.bind (keeps_lift ends_get) fun _ c5 _ => ?_
            exact keeps_lift (ends_invalidTokenAt _)

end

end

end Recorded

/-! ### Whole lists -/

/-- **The calls are bounded and balanced, whatever the list is.** The calls on record are those of
the machine, and each of them is sound, however many the machine is granted and also where the run
ends with an error. Granted enough for the list, the machine ends, and does so as the reader of
lists says. -/
theorem isSound_callsOf (ts : List Token) :
    (∀ calls,
      (wholeExpr (complete ts) calls : Recorded Expr).steps = wholeExpr (complete ts) calls ∧
      ∀ call ∈ callsOf calls ts, call.IsSound) ∧
    ∀ calls, ts.length + 2 * maxLevels + 2 ≤ calls →
      parse calls ts = (Expr.ofTokens ts).mapError .failed := by
  refine ⟨fun calls => ⟨Recorded.steps_wholeExpr calls, ?_⟩, fun calls => parse_eq ts⟩
  have hstart : Cursor.Covers ⟨0, 0⟩ [.binaryExpr] := ⟨Nat.le_refl 1, Nat.zero_le maxLevels⟩
  have hwhole : Recorded.Keeps (wholeExpr (complete ts) calls) [] ⟨0, 0⟩
      fun _ _ => True := by
    refine (Recorded.keeps_binaryExpr calls 0 hstart).bind fun e c _ => ?_
    refine Recorded.Keeps.bind (Recorded.keeps_lift ends_peek) fun t c' _ => ?_
    by_cases ht : t.kind = .eof
    · rw [if_pos ht]
      exact Recorded.keeps_pure trivial
    · rw [if_neg ht]
      exact Recorded.keeps_lift (ends_throw _)
  exact hwhole.sound

/-- A bracket that is not closed. The call for what is in it is within another call of `binaryExpr`
and one of `atom`, which have no result, and has one itself. -/
theorem isSound_callsOf_unclosed :
    (⟨.binaryExpr, [.atom, .binaryExpr], ⟨1, 1⟩, some ⟨2, 1⟩⟩ ∈
        callsOf 5 [⟨.openBracket, .point .origin⟩, ⟨.hex "1", .point .origin⟩] ∧
      Call.IsSound ⟨.binaryExpr, [.atom, .binaryExpr], ⟨1, 1⟩, some ⟨2, 1⟩⟩) ∧
    2 + 2 * maxLevels + 2 ≤ 516 ∧
      parse 516 [⟨.openBracket, .point .origin⟩, ⟨.hex "1", .point .origin⟩] =
        (Expr.ofTokens [⟨.openBracket, .point .origin⟩, ⟨.hex "1", .point .origin⟩]).mapError
          .failed := by
  have hcalls : callsOf 5 [⟨.openBracket, .point .origin⟩, ⟨.hex "1", .point .origin⟩] =
      [⟨.binaryExpr, [], ⟨0, 0⟩, none⟩, ⟨.atom, [.binaryExpr], ⟨0, 0⟩, none⟩,
        ⟨.binaryExpr, [.atom, .binaryExpr], ⟨1, 1⟩, some ⟨2, 1⟩⟩,
        ⟨.atom, [.binaryExpr, .atom, .binaryExpr], ⟨1, 1⟩, some ⟨2, 1⟩⟩] := rfl
  have hmem : ⟨.binaryExpr, [.atom, .binaryExpr], ⟨1, 1⟩, some ⟨2, 1⟩⟩ ∈
      callsOf 5 [⟨.openBracket, .point .origin⟩, ⟨.hex "1", .point .origin⟩] := by
    rw [hcalls]
    exact List.mem_cons_of_mem _ (List.mem_cons_of_mem _ List.mem_cons_self)
  have hsound := isSound_callsOf [⟨.openBracket, .point .origin⟩, ⟨.hex "1", .point .origin⟩]
  exact ⟨⟨hmem, (hsound.1 5).2 _ hmem⟩, Nat.le_refl 516, hsound.2 516 (Nat.le_refl 516)⟩

end Cursor
end AddressExpr
