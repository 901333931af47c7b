/-
# Errors are found as early as they can be

A list that is no expression fails at one of its tokens, or at its end, and nothing behind has a
part in it (`SyntaxError.IsEarliest`): whatever is put there, the list fails with the same error.
And what stands before the token is the start of an expression still, so that no reader could have
failed earlier.

Both are shown for each part of the reader. What a part makes of a list is decided by the words that
it takes and the one behind them (`Expr.Decided`), and where it fails there are words with which it
would not have. They are always at hand: a numeral where an operand is missing, a name behind a dot,
and the closing bracket of what was opened. A closing bracket and the end of the text take no room
(`Token.Kind.Closes`), so that what would be too deep can be closed instead.

Parts of the reader are put together (`Expr.Decided.bind`). The words that would have helped the
second part stand right behind what the first one took, and must not make it take more. So
`Expr.Refuses` says what the first of them can be if the part has taken nothing: behind an operand
it closes, and where an operand begins it is no sign.

Key definitions: `Expr.Accepts`, `Expr.Refuses`, `Expr.Decided`, `SyntaxError.IsEarliest`.
Key theorems: `Expr.Decided.bind`, `Expr.isPrompt_climb`, `Expr.exists_isEarliest_of_ofTokens`.
-/
import AddressExpr.Proofs.Origins

namespace AddressExpr

namespace Token

/-- The kind of a closing bracket or of the end of the text. No operand goes on with it. -/
def Kind.Closes (k : Kind) : Prop := k = .closeParen ∨ k = .closeBracket ∨ k = .eof

/-- The kind of a token that is no sign before an operand. -/
def Kind.IsUnsigned (k : Kind) : Prop := k.sign? = none

/-- The token `t` can stand where `next` does, behind what is read: it is the same, or it closes. -/
def CanReplace (t next : Token) : Prop := t = next ∨ t.kind.Closes

variable {k : Kind} {t t' t'' : Token}

theorem Kind.Closes.isUnsigned (h : k.Closes) : k.IsUnsigned := by
  rcases h with rfl | rfl | rfl
  all_goals rfl

theorem Kind.Closes.ne_dot (h : k.Closes) : k ≠ .dot := by
  rcases h with rfl | rfl | rfl
  all_goals nofun

theorem Kind.Closes.ne_op (h : k.Closes) (op : BinaryOp) : k ≠ op.kind := by
  rcases h with rfl | rfl | rfl
  all_goals cases op <;> nofun

theorem CanReplace.trans (h : t''.CanReplace t') (h' : t'.CanReplace t) : t''.CanReplace t := by
  rcases h with rfl | h
  · exact h'
  · exact .inr h

/-- What holds of a token and of all that close holds of those that can replace it. -/
theorem CanReplace.of_closes {P : Kind → Prop} (hcloses : ∀ k, k.Closes → P k)
    (h : t'.CanReplace t) (ht : P t.kind) : P t'.kind := by
  rcases h with rfl | h
  · exact ht
  · exact hcloses _ h

theorem CanReplace.ne_dot (h : t'.CanReplace t) (ht : t.kind ≠ .dot) : t'.kind ≠ .dot :=
  h.of_closes (P := (· ≠ .dot)) (fun _ hk => hk.ne_dot) ht

end Token

namespace Expr

/-! ### Lists and their ends -/

variable {fin t : Token} {ts w v : List Token}

theorem headD_append (w ts : List Token) : (w ++ ts).headD fin = w.headD (ts.headD fin) := by
  cases w <;> rfl

theorem prefix_of_headD (ts : List Token) : [ts.headD fin] <+: ts ++ [fin] := by
  cases ts with
  | nil => exact List.prefix_rfl
  | cons t ts => exact List.prefix_append [t] (ts ++ [fin])

/-- The first of some tokens with which a list and its end begin. -/
theorem headD_eq_of_isPrefix (h : v ++ [t] <+: ts ++ [fin]) : ts.headD fin = v.headD t := by
  cases v <;> cases ts <;> exact (List.cons_prefix_cons.mp h).1.symm

theorem exists_eq_append_of_isPrefix (h : w ++ v ++ [t] <+: ts ++ [fin]) :
    ∃ ts', ts = w ++ ts' ∧ v ++ [t] <+: ts' ++ [fin] := by
  induction w generalizing ts with
  | nil => exact ⟨ts, rfl, h⟩
  | cons t' w ih =>
    cases ts with
    | nil =>
      have hnil := List.prefix_nil.mp (List.cons_prefix_cons.mp h).2
      simp at hnil
    | cons t'' ts =>
      obtain ⟨rfl, htail⟩ := List.cons_prefix_cons.mp h
      obtain ⟨ts', rfl, hv⟩ := ih htail
      exact ⟨ts', rfl, hv⟩

theorem exists_eq_append_of_isPrefix_singleton (h : w ++ [t] <+: ts ++ [fin]) :
    ∃ ts', ts = w ++ ts' ∧ ts'.headD fin = t := by
  have hnil : w ++ [] ++ [t] <+: ts ++ [fin] := by rwa [List.append_nil]
  obtain ⟨ts', hts, hhead⟩ := exists_eq_append_of_isPrefix hnil
  exact ⟨ts', hts, headD_eq_of_isPrefix hhead⟩

/-! ### What is decided by the next token -/

/-- A part of the reader: what it makes of the tokens before `fin`, and which of them it leaves. -/
abbrev Reading (α : Type) := Token → List Token → Except SyntaxError (α × List Token)

variable {α β : Type}

/-- One part of the reader, and after it another one that depends on what was read. -/
abbrev Reading.andThen (read : Reading α) (next : α → Reading β) : Reading β :=
  fun fin ts => read fin ts >>= fun x => next x.1 fin x.2

/-- The end of a text that has nothing before it. -/
def bareEnd : Token := .eofAt .origin

theorem closes_bareEnd : bareEnd.kind.Closes := .inr (.inr rfl)

theorem closes_of_canReplace (h : t.CanReplace bareEnd) : t.kind.Closes :=
  h.of_closes (fun _ hk => hk) closes_bareEnd

/-- The words `w` are read as `a` if `next` is behind them, or what can replace it. -/
def Accepts (read : Reading α) (w : List Token) (a : α) (next : Token) : Prop :=
  ∀ fin rest, fin.kind = .eof → (rest.headD fin).CanReplace next →
    read fin (w ++ rest) = .ok (a, rest)

/-- The words `pre` can be continued so that they are read, but not with the token of the error. If
they are none, they are continued with a token of a kind that may be the first. -/
structure Refuses (First : Token.Kind → Prop) (read : Reading α) (pre : List Token)
    (err : SyntaxError) : Prop where
  viable : ∃ more a, Accepts read (pre ++ more) a bareEnd ∧
    (pre = [] → First (more.headD bareEnd).kind)
  fails : ∀ fin ts, fin.kind = .eof → pre ++ [err.found] <+: ts ++ [fin] →
    read fin ts = .error err

/-- The result of a reading is due to the tokens up to the one that was not taken. -/
inductive Decided (First : Token.Kind → Prop) (read : Reading α) (fin : Token) (ts : List Token) :
    Except SyntaxError (α × List Token) → Prop
  | ok (w : List Token) {rest : List Token} {a : α} (hts : ts = w ++ rest)
      (h : Accepts read w a (rest.headD fin)) : Decided First read fin ts (.ok (a, rest))
  | error (pre : List Token) {err : SyntaxError} (hpre : pre ++ [err.found] <+: ts ++ [fin])
      (h : Refuses First read pre err) : Decided First read fin ts (.error err)

/-- All results of the reading are due to the tokens up to the one that was not taken. -/
def IsPrompt (First : Token.Kind → Prop) (read : Reading α) : Prop :=
  ∀ fin ts, fin.kind = .eof → Decided First read fin ts (read fin ts)

section

variable {First First' : Token.Kind → Prop} {read read' : Reading α} {next : α → Reading β}
  {pre : List Token} {err : SyntaxError} {r : Except SyntaxError (α × List Token)}

theorem Accepts.at_end {a : α} (h : Accepts read w a t) : Accepts read w a bareEnd := by
  intro fin rest hfin hrest
  exact h fin rest hfin (.inr (closes_of_canReplace hrest))

/-- What the second part accepts stands behind what the first one does. -/
theorem Accepts.bind {a : α} {b : β} {t' : Token} (h : Accepts read w a t)
    (h' : Accepts (next a) v b t') (hv : (v.headD t').CanReplace t) :
    Accepts (Reading.andThen read next) (w ++ v) b t' := by
  intro fin rest hfin hrest
  have hmid : ((v ++ rest).headD fin).CanReplace t := by
    rw [headD_append]
    cases v with
    | nil => exact hrest.trans hv
    | cons => exact hv
  show read fin (w ++ v ++ rest) >>= _ = _
  rw [List.append_assoc, h fin (v ++ rest) hfin hmid]
  exact h' fin rest hfin hrest

/-- What can be read although there is nothing to read yet. -/
theorem IsPrompt.exists_accepts (h : IsPrompt Token.Kind.Closes read) :
    ∃ w a, Accepts read w a bareEnd ∧ (w.headD bareEnd).kind.Closes := by
  have hnil := h bareEnd [] rfl
  cases hr : read bareEnd [] with
  | ok x =>
    rw [hr] at hnil
    cases hnil with
    | ok w hts h =>
      obtain ⟨rfl, rfl⟩ := List.nil_eq_append_iff.mp hts
      exact ⟨[], _, h, closes_bareEnd⟩
  | error err =>
    rw [hr] at hnil
    cases hnil with
    | error pre hpre h =>
      obtain ⟨more, a, hmore, hfirst⟩ := h.viable
      have hpre : pre = [] := by
        have hlen := hpre.length_le
        rw [List.length_append] at hlen
        exact List.length_eq_zero_iff.mp (by simpa using hlen)
      subst hpre
      exact ⟨more, a, hmore, hfirst rfl⟩

/-- A failure at the first token, whatever is behind it. -/
theorem Decided.of_headD {problem : SyntaxProblem} {a : α} {more : List Token}
    (hmore : Accepts read more a bareEnd) (hfirst : First (more.headD bareEnd).kind)
    (hfails : ∀ fin' ts', fin'.kind = .eof → ts'.headD fin' = ts.headD fin →
      read fin' ts' = .error ⟨problem, ts.headD fin⟩) :
    Decided First read fin ts (.error ⟨problem, ts.headD fin⟩) :=
  .error [] (prefix_of_headD ts) ⟨⟨more, a, hmore, fun _ => hfirst⟩, fun fin' ts' hfin' hpre =>
    hfails fin' ts' hfin' (headD_eq_of_isPrefix (v := []) hpre)⟩

/-- A failure at a token of the list, whatever is behind it. -/
theorem Decided.of_cons {problem : SyntaxProblem} {a : α} {more : List Token} {k : Token.Kind}
    {s : Span} (hk : k ≠ .eof) (hmore : Accepts read more a bareEnd)
    (hfirst : First (more.headD bareEnd).kind)
    (hfails : ∀ fin ts, read fin (⟨k, s⟩ :: ts) = .error ⟨problem, ⟨k, s⟩⟩) :
    Decided First read fin (⟨k, s⟩ :: ts) (.error ⟨problem, ⟨k, s⟩⟩) := by
  show Decided First read fin (⟨k, s⟩ :: ts) (.error ⟨problem, (⟨k, s⟩ :: ts).headD fin⟩)
  refine .of_headD hmore hfirst fun fin' ts' hfin' hhead => ?_
  cases ts' with
  | nil => exact absurd (congrArg Token.kind hhead) (hfin' ▸ hk.symm)
  | cons t ts' =>
    obtain rfl : t = ⟨k, s⟩ := hhead
    exact hfails fin' ts'

/-- A token that is taken without a look at what is behind it. -/
theorem Decided.cons (hread : ∀ fin ts, read fin (t :: ts) = read' fin ts)
    (h : Decided First' read' fin ts r) : Decided First read fin (t :: ts) r := by
  cases h with
  | ok w hts h =>
    refine .ok (t :: w) (congrArg (t :: ·) hts) fun fin rest hfin hrest => ?_
    rw [List.cons_append, hread]
    exact h fin rest hfin hrest
  | error pre hpre h =>
    obtain ⟨more, a, hmore, -⟩ := h.viable
    refine .error (t :: pre) (List.cons_prefix_cons.mpr ⟨rfl, hpre⟩) ⟨⟨more, a, ?_, nofun⟩, ?_⟩
    · intro fin rest hfin hrest
      rw [List.cons_append, List.cons_append, hread]
      exact hmore fin rest hfin hrest
    · intro fin ts hfin hpre
      obtain ⟨ts', rfl, hpre'⟩ := exists_eq_append_of_isPrefix (w := [t]) hpre
      rw [List.singleton_append, hread]
      exact h.fails fin ts' hfin hpre'

/-- Two readings that are the same where the first token is of a kind that may be the first. -/
theorem Decided.congr (hcloses : ∀ k : Token.Kind, k.Closes → First k)
    (hread : ∀ fin ts, First (ts.headD fin).kind → read fin ts = read' fin ts)
    (hts : First (ts.headD fin).kind) (h : Decided First read' fin ts r) :
    Decided First read fin ts r := by
  cases h with
  | ok w hts' h =>
    subst hts'
    refine .ok w rfl fun fin' rest' hfin hrest => ?_
    rw [hread]
    · exact h fin' rest' hfin hrest
    · rw [headD_append] at hts ⊢
      cases w with
      | nil => exact hrest.of_closes hcloses hts
      | cons => exact hts
  | error pre hpre h =>
    have hhead := headD_eq_of_isPrefix hpre
    obtain ⟨more, a, hmore, hfirst⟩ := h.viable
    refine .error pre hpre ⟨⟨more, a, fun fin' rest hfin hrest => ?_, hfirst⟩, ?_⟩
    · rw [hread]
      · exact hmore fin' rest hfin hrest
      · rw [List.append_assoc, headD_append, headD_append]
        cases pre with
        | nil =>
          cases more with
          | nil => exact hrest.of_closes hcloses (hfirst rfl)
          | cons => exact hfirst rfl
        | cons => exact hhead ▸ hts
    · intro fin' ts' hfin hpre'
      rw [hread]
      · exact h.fails fin' ts' hfin hpre'
      · rwa [headD_eq_of_isPrefix hpre', ← hhead]

/-- Where the first part fails, something to close the second one can be put behind what would have
helped the first. -/
theorem Refuses.bind (hcloses : ∀ k : Token.Kind, k.Closes → First k)
    (h : Refuses First read pre err) (hnext : ∀ a, IsPrompt Token.Kind.Closes (next a)) :
    Refuses First (Reading.andThen read next) pre err := by
  obtain ⟨more, a, hmore, hfirst⟩ := h.viable
  obtain ⟨more', b, hmore', hclose⟩ := (hnext a).exists_accepts
  refine ⟨⟨more ++ more', b, ?_, fun hnil => ?_⟩, fun fin ts hfin hpre => ?_⟩
  · rw [← List.append_assoc]
    exact hmore.bind hmore' (.inr hclose)
  · rw [headD_append]
    cases more with
    | nil => exact hcloses _ hclose
    | cons => exact hfirst hnil
  · show read fin ts >>= _ = _
    rw [h.fails fin ts hfin hpre]
    rfl

/-- Where the second part fails, the first one has accepted what is before. -/
theorem Accepts.bind_refuses {a : α} (hcloses : ∀ k : Token.Kind, k.Closes → First k)
    (h : Accepts read w a (pre.headD err.found))
    (h' : Refuses Token.Kind.Closes (next a) pre err) :
    Refuses First (Reading.andThen read next) (w ++ pre) err := by
  obtain ⟨more, b, hmore, hfirst⟩ := h'.viable
  refine ⟨⟨more, b, ?_, fun hnil => ?_⟩, fun fin ts hfin hpre => ?_⟩
  · rw [List.append_assoc]
    refine h.bind hmore ?_
    cases pre with
    | nil => exact .inr (hfirst rfl)
    | cons => exact .inl rfl
  -- if neither part has taken anything, what is put first closes
  · exact hcloses _ (hfirst (List.append_eq_nil_iff.mp hnil).2)
  · obtain ⟨rest, rfl, hrest⟩ := exists_eq_append_of_isPrefix hpre
    show read fin (w ++ rest) >>= _ = _
    rw [h fin rest hfin (.inl (headD_eq_of_isPrefix hrest))]
    exact h'.fails fin rest hfin hrest

/-- **One part of the reader after another** is decided by the next token if both are. -/
theorem Decided.bind (hcloses : ∀ k : Token.Kind, k.Closes → First k) (hfin : fin.kind = .eof)
    (h : Decided First read fin ts (read fin ts))
    (hnext : ∀ a, IsPrompt Token.Kind.Closes (next a)) :
    Decided First (Reading.andThen read next) fin ts (Reading.andThen read next fin ts) := by
  unfold Reading.andThen
  cases hr : read fin ts with
  | error err =>
    rw [hr] at h
    cases h with
    | error pre hpre h => exact .error pre hpre (h.bind hcloses hnext)
  | ok x =>
    obtain ⟨a, rest⟩ := x
    rw [hr] at h
    cases h with
    | ok w hts hw =>
      subst hts
      have h' := hnext a fin rest hfin
      show Decided First _ fin (w ++ rest) (next a fin rest)
      cases hr' : next a fin rest with
      | ok y =>
        obtain ⟨b, rest'⟩ := y
        rw [hr'] at h'
        cases h' with
        | ok v hrest hv =>
          subst hrest
          refine .ok (w ++ v) (List.append_assoc w v rest').symm (hw.bind hv (.inl ?_))
          exact (headD_append v rest').symm
      | error err =>
        rw [hr'] at h'
        cases h' with
        | error pre hpre h' =>
          rw [headD_eq_of_isPrefix hpre] at hw
          refine .error (w ++ pre) ?_ (hw.bind_refuses hcloses h')
          rw [List.append_assoc, List.append_assoc]
          exact (List.prefix_append_right_inj w).mpr hpre

theorem isPrompt_ok (a : α) : IsPrompt First fun _ ts => .ok (a, ts) :=
  fun _ _ _ => .ok [] rfl fun _ _ _ _ => rfl

end

/-! ### The parts of the reader -/

/-- A numeral to put where an operand is missing. -/
def zero : Token := ⟨.hex "0", .point .origin⟩

theorem accepts_zero_atom (room : Nat) :
    Accepts (atom · room) [zero] (.literal "0" (.point .origin)) bareEnd := by
  intro fin rest hfin hrest
  show atom fin room (⟨.hex "0", .point .origin⟩ :: rest) = _
  rw [atom]

theorem fold_of_closes {room power : Nat} {left : Expr} (h : (ts.headD fin).kind.Closes) :
    fold fin room power left ts = .ok (left, ts) :=
  fold_of_ops fun op hop => absurd hop (h.ne_op op)

theorem accepts_zero_climb (room power : Nat) :
    Accepts (climb · room power) [zero] (.literal "0" (.point .origin)) bareEnd := by
  intro fin rest hfin hrest
  have hatom := accepts_zero_atom room fin rest hfin hrest
  exact (climb_of_atom rfl hatom).trans (fold_of_closes (closes_of_canReplace hrest))

theorem atom_of_kind {room : Nat} (hhex : ∀ text, (ts.headD fin).kind ≠ .hex text)
    (hname : ∀ name, (ts.headD fin).kind ≠ .ident name) (hparen : (ts.headD fin).kind ≠ .openParen)
    (hbracket : (ts.headD fin).kind ≠ .openBracket) :
    atom fin room ts = .error ⟨.invalidToken, ts.headD fin⟩ := by
  fun_cases atom fin room ts with
  | case1 room text => exact absurd rfl (hhex text)
  | case2 room name => exact absurd rfl (hname name)
  | case3 | case4 => exact absurd rfl hparen
  | case5 | case6 => exact absurd rfl hbracket
  | case7 => rfl

theorem dottedNames_dot_of_ne {s : Span} (h : ∀ name, (ts.headD fin).kind ≠ .ident name) :
    dottedNames fin (⟨.dot, s⟩ :: ts) = .error ⟨.expectedIdentifier, ts.headD fin⟩ := by
  cases ts with
  | nil => rfl
  | cons t ts =>
    obtain ⟨k, s'⟩ := t
    cases k <;> first | rfl | exact absurd rfl (h _)

/-- A path goes on with names as far as there are dots. -/
theorem decided_dottedNames (hfin : fin.kind = .eof) (ts : List Token) :
    Decided Token.Kind.Closes dottedNames fin ts (dottedNames fin ts) := by
  fun_induction dottedNames fin ts with
  | case1 dotSpan name s ts ih =>
    have hmore := Decided.bind (fun _ h => h) hfin ih
      fun more => isPrompt_ok (⟨name, s⟩ :: more : List Segment)
    have hname : Decided Token.Kind.Closes
        (fun fin ts => dottedNames fin (⟨.dot, dotSpan⟩ :: ts)) fin (⟨.ident name, s⟩ :: ts) _ :=
      hmore.cons fun _ _ => rfl
    exact hname.cons fun _ _ => rfl
  | case2 dotSpan ts hne =>
    have hkind : ∀ name, (ts.headD fin).kind ≠ .ident name := by
      intro name hkind
      obtain ⟨s, ts', rfl⟩ := eq_cons_of_headD hfin hkind (by simp)
      exact hne name s ts' rfl
    have hname : Accepts (fun fin ts => dottedNames fin (⟨.dot, dotSpan⟩ :: ts))
        [⟨.ident "", .point .origin⟩] [⟨"", .point .origin⟩] bareEnd := by
      intro fin rest hfin hrest
      exact dottedNames_of_dotted (.cons dotSpan "" _ .nil)
        (hrest.ne_dot (by decide))
    have hfails : Decided Token.Kind.IsUnsigned
        (fun fin ts => dottedNames fin (⟨.dot, dotSpan⟩ :: ts)) fin ts
        (.error ⟨.expectedIdentifier, ts.headD fin⟩) := by
      refine .of_headD hname rfl fun fin' ts' _ hhead => ?_
      rw [← hhead] at hkind ⊢
      exact dottedNames_dot_of_ne hkind
    exact hfails.cons fun _ _ => rfl
  | case3 ts hne hne' =>
    have hkind : (ts.headD fin).kind ≠ .dot := by
      intro hkind
      obtain ⟨s, ts', rfl⟩ := eq_cons_of_headD hfin hkind (by decide)
      exact hne' s ts' rfl
    refine .ok [] rfl fun fin' rest hfin' hrest => ?_
    exact dottedNames_of_dotted .nil (hrest.ne_dot hkind)

/-- A bracket closes, or it is put where it is missing. -/
theorem isPrompt_expect {kind : Token.Kind} (problem : SyntaxProblem) (hkind : kind.Closes)
    (hne : kind ≠ .eof) : IsPrompt Token.Kind.Closes (expect · kind problem) := by
  intro fin ts hfin
  show Decided _ _ fin ts (expect fin kind problem ts)
  by_cases hhead : (ts.headD fin).kind = kind
  · obtain ⟨s, ts, rfl⟩ := eq_cons_of_headD hfin hhead hne
    rw [expect_cons]
    exact .ok [⟨kind, s⟩] rfl fun _ rest _ _ => expect_cons kind s problem rest
  · rw [expect, if_neg hhead]
    have hclose : Accepts (expect · kind problem) [⟨kind, .point .origin⟩]
        ⟨kind, .point .origin⟩ bareEnd := fun fin rest _ _ => expect_cons kind _ problem rest
    refine .of_headD hclose hkind fun fin' ts' _ hhead' => ?_
    rw [expect, hhead', if_neg hhead]

/-- What stands in brackets, whatever is made of it. -/
theorem isPrompt_enclosed {room : Nat} {kind : Token.Kind} (problem : SyntaxProblem)
    (hkind : kind.Closes) (hne : kind ≠ .eof) (next : Expr → Token → Expr)
    (hclimb : IsPrompt Token.Kind.IsUnsigned (climb · room 0)) :
    IsPrompt Token.Kind.IsUnsigned fun fin ts => climb fin room 0 ts >>= fun x =>
      expect fin kind problem x.2 >>= fun y => .ok (next x.1 y.1, y.2) := by
  have hclose (inner : Expr) : IsPrompt Token.Kind.Closes fun fin ts =>
      expect fin kind problem ts >>= fun y => .ok (next inner y.1, y.2) := fun fin ts hfin =>
    Decided.bind (fun _ h => h) hfin (isPrompt_expect problem hkind hne fin ts hfin)
      fun t => isPrompt_ok (next inner t)
  exact fun fin ts hfin =>
    Decided.bind (fun _ h => h.isUnsigned) hfin (hclimb fin ts hfin) hclose

/-- An operand and the operators behind it. -/
theorem isPrompt_operators {room power : Nat} (operand : Expr → Expr)
    (hatom : IsPrompt Token.Kind.IsUnsigned (atom · room))
    (hfold : ∀ left, IsPrompt Token.Kind.Closes (fold · room power left)) :
    IsPrompt Token.Kind.IsUnsigned fun fin ts => atom fin room ts >>= fun x =>
      fold fin room power (operand x.1) x.2 :=
  fun fin ts hfin => Decided.bind (fun _ h => h.isUnsigned) hfin (hatom fin ts hfin)
    fun a => hfold (operand a)

mutual

theorem isPrompt_atom (room : Nat) : IsPrompt Token.Kind.IsUnsigned (atom · room) := by
  intro fin ts hfin
  show Decided _ _ fin ts (atom fin room ts)
  fun_cases atom fin room ts with
  | case1 room text s ts =>
    exact .ok [⟨.hex text, s⟩] rfl fun fin rest _ _ => by
      show atom fin room (⟨.hex text, s⟩ :: rest) = _
      rw [atom]
  | case2 room name s ts =>
    have hpath := Decided.bind (fun _ h => h) hfin (decided_dottedNames hfin ts)
      fun more => isPrompt_ok (Expr.path ⟨⟨name, s⟩, more⟩)
    exact hpath.cons fun _ _ => by rw [atom]
  | case3 s ts =>
    exact .of_cons nofun (accepts_zero_atom 0) rfl fun _ _ => by rw [atom]
  | case4 s ts room =>
    have hinner := isPrompt_enclosed (.unmatchedParenthesis s) (.inl rfl) nofun
      (fun inner _ => inner) (isPrompt_climb room 0) fin ts hfin
    exact hinner.cons fun _ _ => by rw [atom]
  | case5 s ts =>
    exact .of_cons nofun (accepts_zero_atom 0) rfl fun _ _ => by rw [atom]
  | case6 s ts room =>
    have hinner := isPrompt_enclosed (.unmatchedBracket s) (.inr (.inl rfl)) nofun
      (fun address t => .deref s address t.span) (isPrompt_climb room 0) fin ts hfin
    exact hinner.cons fun _ _ => by rw [atom]
  | case7 room ts hhex hname hparen hbracket =>
    have hne {k : Token.Kind} (hk : k ≠ .eof) (h : ∀ s ts', ts = ⟨k, s⟩ :: ts' → False) :
        (ts.headD fin).kind ≠ k := by
      intro hkind
      obtain ⟨s, ts', hts⟩ := eq_cons_of_headD hfin hkind hk
      exact h s ts' hts
    refine .of_headD (accepts_zero_atom room) rfl fun fin' ts' hfin' hhead => ?_
    rw [← hhead] at hne ⊢
    exact atom_of_kind (fun text => hne nofun (hhex text)) (fun name => hne nofun (hname name))
      (hne nofun hparen) (hne nofun hbracket)
termination_by 2 * room

/-- What is read as an operand with its operators, and every failure to read one, is due to the
tokens up to the next one, however little room there is. -/
theorem isPrompt_climb (room power : Nat) :
    IsPrompt Token.Kind.IsUnsigned (climb · room power) := by
  intro fin ts hfin
  show Decided _ _ fin ts (climb fin room power ts)
  cases hsign : (ts.headD fin).kind.sign? with
  | some sign =>
    have hkind := Token.Kind.sign?_eq_some_iff.mp hsign
    obtain ⟨s, ts, rfl⟩ := eq_cons_of_headD hfin hkind sign.kind_ne_eof
    cases room with
    | zero =>
      rw [climb_zero_sign]
      exact .of_cons sign.kind_ne_eof (accepts_zero_climb 0 power) rfl
        fun _ _ => climb_zero_sign sign s _
    | succ room =>
      rw [climb_sign]
      have hoperand := isPrompt_operators (.signed sign s) (isPrompt_atom room)
        (isPrompt_fold room power) fin ts hfin
      exact hoperand.cons fun _ _ => climb_sign sign s _
  | none =>
    rw [climb_of_sign?_eq_none hsign]
    refine Decided.congr (fun _ h => h.isUnsigned) (fun _ _ h => climb_of_sign?_eq_none h) hsign ?_
    exact isPrompt_operators id (isPrompt_atom room) (isPrompt_fold room power) fin ts hfin
termination_by 2 * room + 1

theorem isPrompt_fold (room power : Nat) (left : Expr) :
    IsPrompt Token.Kind.Closes (fold · room power left) := by
  intro fin ts hfin
  show Decided _ _ fin ts (fold fin room power left ts)
  by_cases hstop : ∀ op : BinaryOp, (ts.headD fin).kind = op.kind → op.strength ≤ power
  · rw [fold_of_ops hstop]
    refine .ok [] rfl fun fin' rest hfin' hrest => fold_of_ops ?_
    exact hrest.of_closes (P := fun k => ∀ op : BinaryOp, k = op.kind → op.strength ≤ power)
      (fun _ h op hop => absurd hop (h.ne_op op)) hstop
  · have hgoes : ∃ op : BinaryOp, (ts.headD fin).kind = op.kind ∧ power < op.strength := by
      simpa using hstop
    obtain ⟨op, hkind, hop⟩ := hgoes
    obtain ⟨s, ts, rfl⟩ := eq_cons_of_headD hfin hkind op.kind_ne_eof
    cases room with
    | zero =>
      rw [fold_zero_op s hop]
      -- without the operator the operand is complete, and no room is needed to end here
      have hleft : Accepts (fold · 0 power left) [] left bareEnd := fun fin rest _ hrest =>
        fold_of_closes (closes_of_canReplace hrest)
      exact .of_cons op.kind_ne_eof hleft closes_bareEnd fun _ _ => fold_zero_op s hop _
    | succ room =>
      rw [fold_op s hop]
      have hright := Decided.bind (fun _ h => h.isUnsigned) hfin
        (isPrompt_climb room op.strength fin ts hfin)
        fun right => isPrompt_fold room power (.binary op s left right)
      exact hright.cons fun _ _ => fold_op s hop _
termination_by 2 * room

end

/-! ### Whole lists -/

/-- What is accepted with nothing behind it is an expression. -/
theorem ofTokens_of_accepts {e : Expr} (h : Accepts (climb · maxLevels 0) w e bareEnd) :
    ofTokens w = .ok e := by
  have hread : climb bareEnd maxLevels 0 (w ++ []) = .ok (e, []) := h bareEnd [] rfl (.inl rfl)
  obtain ⟨c, w', hw, hc, rfl, hcost, -⟩ := derives_of_climb rfl maxLevels (by decide) hread
  rw [List.append_nil, List.append_nil] at hw
  subst hw
  exact ofTokens_of_derives (hc.words_eq.symm ▸ hc) hcost

theorem words_append_cons {pre : List Token} (hpre : ∀ x ∈ pre, x.kind.isEof = false)
    (ht : t.kind.isEof = false) (more : List Token) :
    words (pre ++ t :: more) = pre ++ t :: words more := by
  unfold words
  rw [List.takeWhile_append_of_pos (by simpa using hpre), List.takeWhile_cons, ht]
  rfl

/-- The words of a list up to the token behind `pre`, whatever is behind that one. -/
theorem prefix_words_append {pre : List Token} (h : pre ++ [t] <+: words ts ++ [endOf ts])
    (more : List Token) :
    pre ++ [t] <+: words (pre ++ t :: more) ++ [endOf (pre ++ t :: more)] := by
  obtain ⟨rest, hwords, -⟩ := exists_eq_append_of_isPrefix_singleton h
  have hpre : ∀ x ∈ pre, x.kind.isEof = false := fun x hx =>
    isEof_eq_false_of_mem_words (hwords ▸ List.mem_append_left rest hx)
  have hnone : pre.find? (·.kind.isEof) = none := by simpa using hpre
  cases ht : t.kind.isEof with
  | true =>
    have heof : t.kind = .eof := by simpa [Token.Kind.isEof] using ht
    rw [words_append_eof pre more heof, words_of_isEof_eq_false hpre,
      endOf_append_eof pre more heof, hnone]
    exact List.prefix_rfl
  | false =>
    rw [words_append_cons hpre ht, List.append_cons pre t (words more),
      List.append_assoc (pre ++ [t])]
    exact List.prefix_append _ _

/-- A word behind a whole expression is too much. -/
theorem ofTokens_trailing {e : Expr} {rest : List Token}
    (h : Accepts (climb · maxLevels 0) w e t) (hwords : words ts = w ++ t :: rest) :
    ofTokens ts = .error ⟨.trailingInput, t⟩ := by
  have hread : climb (endOf ts) maxLevels 0 (words ts) = .ok (e, t :: rest) :=
    hwords ▸ h (endOf ts) (t :: rest) (kind_endOf ts) (.inl rfl)
  rw [ofTokens, hread]
  rfl

/-- The token behind the words `pre` is in the list, or the list has no end and no more words. -/
theorem exists_eq_append_of_words {pre : List Token}
    (h : pre ++ [t] <+: words ts ++ [endOf ts]) :
    ∃ post, ts = pre ++ post ∧
      (post.head? = some t ∨ post = [] ∧ words ts = ts ∧ t = endOf ts) := by
  obtain ⟨rest, hwords, hhead⟩ := exists_eq_append_of_isPrefix_singleton h
  rcases words_eq_or_append_endOf ts with hall | ⟨post, hpost⟩
  · refine ⟨rest, hall.symm.trans hwords, ?_⟩
    cases rest with
    | nil => exact .inr ⟨rfl, hall, hhead.symm⟩
    | cons => exact .inl (congrArg some hhead)
  · refine ⟨rest ++ endOf ts :: post, ?_, .inl ?_⟩
    · rw [← List.append_assoc, ← hwords]
      exact hpost
    · cases rest <;> exact congrArg some hhead

end Expr

/-- The list fails with the error at its token number `i`, or behind the last one if it has no end
of the text. What stands before is the start of an expression, and with what was found behind it
nothing is. -/
structure SyntaxError.IsEarliest (ts : List Token) (i : Nat) (err : SyntaxError) : Prop where
  le_length : i ≤ ts.length
  found : ts[i]? = some err.found ∨
    i = ts.length ∧ Expr.words ts = ts ∧ err.found = Expr.endOf ts
  viable : ∃ more e, Expr.ofTokens (ts.take i ++ more) = .ok e
  fails : ∀ more, Expr.ofTokens (ts.take i ++ err.found :: more) = .error err

/-- An error at the token behind words that are the start of an expression. -/
theorem SyntaxError.IsEarliest.of_isPrefix {ts pre : List Token} {err : SyntaxError}
    (hpre : pre ++ [err.found] <+: Expr.words ts ++ [Expr.endOf ts])
    (hviable : ∃ more e, Expr.ofTokens (pre ++ more) = .ok e)
    (hfails : ∀ more, Expr.ofTokens (pre ++ err.found :: more) = .error err) :
    err.IsEarliest ts pre.length := by
  obtain ⟨post, hts, hfound⟩ := Expr.exists_eq_append_of_words hpre
  have htake : ts.take pre.length = pre := by rw [hts, List.take_left]
  refine ⟨by rw [hts]; simp, ?_, htake.symm ▸ hviable, htake.symm ▸ hfails⟩
  rcases hfound with hhead | ⟨rfl, hall, hend⟩
  · left
    rw [hts, List.getElem?_append_right (Nat.le_refl _), Nat.sub_self, ← List.head?_eq_getElem?]
    exact hhead
  · exact .inr ⟨by rw [hts, List.append_nil], hall, hend⟩

namespace Expr

/-- **An error is found as early as it can be.** A list that is no expression fails at one of its
tokens or at its end: before it there is the start of an expression, and with it, whatever is
behind, there is this very error. -/
theorem exists_isEarliest_of_ofTokens {ts : List Token} {err : SyntaxError}
    (h : ofTokens ts = .error err) : ∃ i, err.IsEarliest ts i := by
  have hclimb : Decided _ (climb · maxLevels 0) (endOf ts) (words ts)
      (climb (endOf ts) maxLevels 0 (words ts)) :=
    isPrompt_climb maxLevels 0 (endOf ts) (words ts) (kind_endOf ts)
  unfold ofTokens at h
  rcases bind_eq_error_iff.mp h with hfail | ⟨⟨e, rest⟩, hread, hnext⟩
  · rw [hfail] at hclimb
    cases hclimb with
    | error pre hpre hrefuses =>
      obtain ⟨more, e, hmore, -⟩ := hrefuses.viable
      refine ⟨pre.length, .of_isPrefix hpre ⟨more, e, ofTokens_of_accepts hmore⟩ fun more => ?_⟩
      exact ofTokens_of_climb_error
        (hrefuses.fails _ _ (kind_endOf _) (prefix_words_append hpre more))
  · rw [hread] at hclimb
    cases rest with
    | nil => cases hnext
    | cons t rest =>
      obtain rfl := Except.error.inj hnext
      cases hclimb with
      | ok w hwords haccepts =>
        have hpre : w ++ [t] <+: words ts ++ [endOf ts] := by
          rw [hwords, List.append_cons w t rest, List.append_assoc (w ++ [t])]
          exact List.prefix_append _ _
        have hword : ∀ x ∈ w ++ t :: rest, x.kind.isEof = false := fun x hx =>
          isEof_eq_false_of_mem_words (hwords ▸ hx)
        obtain ⟨hw, ht, -⟩ : _ ∧ _ ∧ _ := by
          rwa [List.forall_mem_append, List.forall_mem_cons] at hword
        refine ⟨w.length, .of_isPrefix hpre ⟨[], e, ?_⟩ fun more => ?_⟩
        · rw [List.append_nil]
          exact ofTokens_of_accepts haccepts.at_end
        · exact ofTokens_trailing haccepts (words_append_cons hw ht more)

/-- A dot with nothing behind it: what is missing is missed at the end. -/
theorem exists_isEarliest_of_ofTokens_dot :
    ofTokens [⟨.ident "a", .point .origin⟩, ⟨.dot, .point .origin⟩] =
        .error ⟨.expectedIdentifier, bareEnd⟩ ∧
      ∃ i, SyntaxError.IsEarliest [⟨.ident "a", .point .origin⟩, ⟨.dot, .point .origin⟩] i
        ⟨.expectedIdentifier, bareEnd⟩ := by
  have hatom : atom bareEnd maxLevels [⟨.ident "a", .point .origin⟩, ⟨.dot, .point .origin⟩] =
      .error ⟨.expectedIdentifier, bareEnd⟩ := by
    rw [atom]
    rfl
  have h : ofTokens [⟨.ident "a", .point .origin⟩, ⟨.dot, .point .origin⟩] =
      .error ⟨.expectedIdentifier, bareEnd⟩ := by
    refine ofTokens_of_climb_error ((climb_of_sign?_eq_none rfl).trans ?_)
    show (atom bareEnd maxLevels [⟨.ident "a", .point .origin⟩, ⟨.dot, .point .origin⟩] >>= _) = _
    rw [hatom]
    rfl
  exact ⟨h, exists_isEarliest_of_ofTokens h⟩

end Expr
end AddressExpr
