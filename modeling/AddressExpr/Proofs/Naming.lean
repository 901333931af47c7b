/-
# What names in quotes stand for

A text of names in double quotes, with dots between them, has the address that the entries of the
directory say (`evaluate_quotedText`). One name is a symbol, or else a numeral if it looks like one,
or else an export of the first module that has one of this name. More names are an export of the
module that all but the last of them name, or else a module file. Of several entries about the same
thing the last one counts, and their order does not matter otherwise.

Between quotes a name goes on up to the next dot or quote, whatever blanks and brackets are in it
(`Lexer.exists_scans_names`). The names are read as one path, and the path is looked up as the
entries say (`Directory.Resolves`).

Key definitions: `quotedText`, `IsQuotable`, `Directory.Resolves`.
Key theorems: `Lexer.exists_scans_quotedText`, `exists_evaluate_quotedText_eq`,
`evaluate_quotedText`.
-/
import AddressExpr.Proofs.Composition
import AddressExpr.Proofs.Lookup

namespace AddressExpr

/-- The text of the names between double quotes, with dots between them. -/
def quotedText (names : List String) : String := "\x22" ++ Path.join names ++ "\x22"

/-- The name can stand between double quotes. -/
structure IsQuotable (name : String) : Prop where
  ne_empty : name ≠ ""
  isQuotedIdentChar : ∀ c ∈ name.toList, Lexer.isQuotedIdentChar c = true

/-- What the names stand for by the entries of a directory, or why they stand for nothing. -/
inductive Directory.Resolves (entries : List Directory.Entry) :
    List String → Except EvalProblem Address → Prop
  /-- A symbol comes first. -/
  | symbol {name : String} {a : Address} (h : lastAddress? entries (.symbol name) = some a) :
      Resolves entries [name] (.ok a)
  /-- A name of hexadecimal digits is a numeral of the number that these are written for. -/
  | numeral {name : String} {a : Address}
      (hsymbol : lastAddress? entries (.symbol name) = none) (hdigits : Hex.IsDigits name.toList)
      (h : Hex.positional name.toList = a.toNat) : Resolves entries [name] (.ok a)
  | tooLarge {name : String} (hsymbol : lastAddress? entries (.symbol name) = none)
      (hdigits : Hex.IsDigits name.toList) (hlarge : Address.limit ≤ Hex.positional name.toList)
      (hfits : Hex.positional name.toList < Value.limit) :
      Resolves entries [name] (.error (.addressOutOfRange (Hex.positional name.toList)))
  | outOfRange {name : String} (hsymbol : lastAddress? entries (.symbol name) = none)
      (hdigits : Hex.IsDigits name.toList) (hlarge : Value.limit ≤ Hex.positional name.toList) :
      Resolves entries [name] (.error (.literalOutOfRange name))
  /-- Another name is an export of the least module that has one. -/
  | leastOwner {name owner : String} {a : Address}
      (hsymbol : lastAddress? entries (.symbol name) = none) (hdigits : ¬ Hex.IsDigits name.toList)
      (h : lastAddress? entries (.exported owner name) = some a)
      (hleast : ∀ o, o < owner → lastAddress? entries (.exported o name) = none) :
      Resolves entries [name] (.ok a)
  | undefined {name : String} (hsymbol : lastAddress? entries (.symbol name) = none)
      (hdigits : ¬ Hex.IsDigits name.toList)
      (h : ∀ owner, lastAddress? entries (.exported owner name) = none) :
      Resolves entries [name] (.error (.undefinedSymbol name))
  /-- Of several names the last one is an export of the module that the others name. -/
  | qualified {init : List String} {name : String} {a : Address} (hinit : init ≠ [])
      (h : lastAddress? entries (.exported (Path.join init) name) = some a) :
      Resolves entries (init ++ [name]) (.ok a)
  /-- Otherwise they are the name of a module file. -/
  | base {init : List String} {name : String} {a : Address} (hinit : init ≠ [])
      (hexport : lastAddress? entries (.exported (Path.join init) name) = none)
      (h : lastAddress? entries (.base (Path.join (init ++ [name]))) = some a) :
      Resolves entries (init ++ [name]) (.ok a)
  | notFound {init : List String} {name : String} (hinit : init ≠ [])
      (hexport : lastAddress? entries (.exported (Path.join init) name) = none)
      (h : lastAddress? entries (.base (Path.join (init ++ [name]))) = none) :
      Resolves entries (init ++ [name]) (.error (.notFound (Path.join (init ++ [name]))))

/-! ### The names are tokens -/

namespace Path

theorem join_singleton (name : String) : join [name] = name := String.intercalate_singleton

theorem toList_join_cons_cons (name name' : String) (names : List String) :
    (join (name :: name' :: names)).toList =
      name.toList ++ '.' :: (join (name' :: names)).toList := by
  rw [join, String.intercalate_cons_cons]
  simp [String.toList_append, join]

end Path

namespace Lexer

/-- A name between quotes goes on up to the first character that can be in no name there. -/
theorem front_quoted {c : Char} {cs more : List Char}
    (hname : ∀ c' ∈ c :: cs, isQuotedIdentChar c' = true)
    (hmore : ∀ d ∈ more.head?, isQuotedIdentChar d = false) :
    front true c (cs ++ more) = ⟨.token (.ident (.ofList (c :: cs))), c :: cs, more⟩ := by
  obtain ⟨hc, hcs⟩ := List.forall_mem_cons.mp hname
  have hquote : c ≠ '\x22' := by
    rintro rfl
    exact absurd hc (by decide)
  have hdot : c ≠ '.' := by
    rintro rfl
    exact absurd hc (by decide)
  rw [front, if_neg hquote, if_neg hdot, if_pos rfl, quotedFront, if_pos hc,
    run_append_of_forall hcs hmore]
  rfl

/-- A name between quotes is a token if no name goes on behind it. -/
theorem Scans.name {name : String} (hname : IsQuotable name) {d : Char} {more : List Char}
    (hd : isQuotedIdentChar d = false) {opening here : Position} {ts : List Token}
    (h : Scans (some opening) (here.advanceBy name.toList) (d :: more) ts) :
    Scans (some opening) here (name.toList ++ d :: more)
      (⟨.ident name, ⟨here, here.advanceBy name.toList⟩⟩ :: ts) := by
  obtain ⟨c, cs, hcs⟩ : ∃ c cs, name.toList = c :: cs :=
    List.exists_cons_of_ne_nil fun hnil => hname.ne_empty (String.toList_eq_nil_iff.mp hnil)
  have hchars := hname.isQuotedIdentChar
  rw [hcs] at hchars h ⊢
  have hfront : front true c (cs ++ d :: more) =
      ⟨.token (.ident (.ofList (c :: cs))), c :: cs, d :: more⟩ :=
    front_quoted hchars fun e he => Option.some.inj he ▸ hd
  have hlit : String.ofList (c :: cs) = name := by rw [← hcs, String.ofList_toList]
  rw [hlit] at hfront
  have htoken := @Scans.token (some opening) here c (cs ++ d :: more) ts (.ident name)
  rw [Option.isSome_some, hfront] at htoken
  exact htoken rfl (.inl (by simp)) h

/-- The names up to the closing quote are the tokens of a path. -/
theorem exists_scans_names {names : List String} (hne : names ≠ [])
    (hnames : ∀ name ∈ names, IsQuotable name) (opening here : Position) :
    ∃ (p : Path) (w : List Token), p.segments.map (·.name) = names ∧ Dotted p.rest w ∧
      Scans (some opening) here ((Path.join names).toList ++ ['\x22'])
        (⟨.ident p.first.name, p.first.span⟩ :: w) := by
  induction names generalizing here with
  | nil => exact absurd rfl hne
  | cons name names ih =>
    obtain ⟨hname, hnames⟩ := List.forall_mem_cons.mp hnames
    cases names with
    | nil =>
      have hclose : Scans (some opening) (here.advanceBy name.toList) ['\x22'] [] :=
        .quote rfl (.nil _)
      rw [Path.join_singleton]
      exact ⟨⟨⟨name, _⟩, []⟩, [], rfl, .nil, .name hname (by decide) hclose⟩
    | cons name' names =>
      obtain ⟨p, w, hp, hdotted, hscans⟩ :=
        ih (List.cons_ne_nil _ _) hnames ((here.advanceBy name.toList).advanceBy ['.'])
      have hmore : (Path.join (name' :: names)).toList ++ ['\x22'] ≠ [] := by simp
      have hdot := @Scans.token (some opening) (here.advanceBy name.toList) '.'
        ((Path.join (name' :: names)).toList ++ ['\x22']) _ .dot rfl (.inl hmore) hscans
      have hwhole := Scans.name hname (by decide) hdot
      rw [Path.toList_join_cons_cons, List.append_assoc, List.cons_append]
      refine ⟨⟨⟨name, _⟩, p.segments⟩, _, ?_, .cons _ _ _ hdotted, hwhole⟩
      rw [← hp]
      rfl

theorem toList_quotedText (names : List String) :
    (quotedText names).toList = '\x22' :: ((Path.join names).toList ++ ['\x22']) := by
  simp [quotedText, String.toList_append]

/-- The tokens of names in quotes are those of a path of these names. -/
theorem exists_scans_quotedText {names : List String} (hne : names ≠ [])
    (hnames : ∀ name ∈ names, IsQuotable name) :
    ∃ (p : Path) (w : List Token), p.segments.map (·.name) = names ∧ Dotted p.rest w ∧
      Scans none .origin (quotedText names).toList
        (⟨.ident p.first.name, p.first.span⟩ :: w) := by
  obtain ⟨p, w, hp, hdotted, hscans⟩ :=
    exists_scans_names hne hnames .origin (Position.origin.advanceBy ['\x22'])
  rw [toList_quotedText]
  exact ⟨p, w, hp, hdotted, .quote rfl hscans⟩

end Lexer

/-! ### The names are one path -/

/-- The value of names in quotes is that of their path, and nothing is read for it. -/
theorem exists_evaluate_quotedText_eq {names : List String} (hne : names ≠ [])
    (hnames : ∀ name ∈ names, IsQuotable name) :
    ∃ p : Path, p.segments.map (·.name) = names ∧ ∀ dir mem,
      evaluate dir mem (quotedText names) =
        ⟨((Expr.resolve dir p).bind (Expr.toAddress p.span)).mapError .evaluating, []⟩ := by
  obtain ⟨p, w, hp, hdotted, hscans⟩ := Lexer.exists_scans_quotedText hne hnames
  have hatom : Derives .atom (.path p) (⟨.ident p.first.name, p.first.span⟩ :: w) :=
    .path _ _ hdotted
  have hderives : Derives .sum (.path p) _ := hatom.loosen (by decide)
  refine ⟨p, hp, fun dir mem => ?_⟩
  rw [evaluate_of_derives_of_cost_le hscans hderives (Nat.zero_le _)]
  have hresult := Expr.result_mapError_evalAddress dir mem (.path p)
  have hreads := Expr.reads_evalAddress dir mem (.path p)
  show Run.mk (((Expr.path p).evalAddress dir mem).mapError Failure.evaluating).result
    ((Expr.path p).evalAddress dir mem).reads = _
  rw [hresult, hreads, Expr.eval]
  rfl

/-! ### The path is looked up -/

namespace Path

variable {p : Path} {name : String}

/-- The qualifier of several names is all of them but the last. -/
theorem qualifier?_of_names {init : List String} (hinit : init ≠ [])
    (hp : p.segments.map (·.name) = init ++ [name]) :
    p.qualifier? = some (join init) ∧ p.last.name = name := by
  rw [segments_eq, List.map_append] at hp
  obtain ⟨hfront, hlast⟩ := List.append_inj' hp rfl
  have hrest : p.rest ≠ [] := by
    intro hrest
    rw [segments, hrest] at hfront
    exact hinit hfront.symm
  rw [qualifier?, if_neg hrest, hfront]
  exact ⟨rfl, (List.cons.inj hlast).1⟩

end Path

/-- The value of digits without a sign. -/
theorem Value.ofNumeral?_of_isDigits {cs : List Char} (hne : cs ≠ []) (hcs : Hex.IsDigits cs) :
    Value.ofNumeral? cs =
      if (Hex.positional cs : Int) < limit then some (Hex.positional cs : Int) else none := by
  have hint : Hex.int? cs = some (Hex.positional cs : Int) :=
    Hex.int?_eq_some_iff.mpr (.unsigned hne hcs)
  have hfits : Fits (Hex.positional cs) ↔ (Hex.positional cs : Int) < limit := by
    unfold Fits limit
    omega
  rw [ofNumeral?, hint, Option.filter_some]
  simp only [hfits, decide_eq_true_eq]

namespace Expr

variable {dir : Directory} {p : Path} {a : Address}

/-- A path that has the value of an address has that address. -/
theorem bind_resolve_of_eq_ok (h : resolve dir p = .ok (Address.toInt a)) :
    (resolve dir p).bind (toAddress p.span) = .ok a := by
  rw [h, Except.bind, toAddress_toInt]

theorem bind_resolve_of_eq_error {err : EvalError} (h : resolve dir p = .error err) :
    (resolve dir p).bind (toAddress p.span) = .error err := by
  rw [h]
  rfl

theorem resolve_of_singleton {name : String} (hp : p.segments.map (·.name) = [name]) :
    resolve dir p = resolveName dir ⟨name, p.first.span⟩ := by
  obtain ⟨rfl, hmap⟩ := List.cons.inj hp
  have hrest : p.rest = [] := List.map_eq_nil_iff.mp hmap
  rw [resolve, Path.qualifier?_eq_none_iff.mpr hrest, Path.last_eq_first hrest]

theorem resolve_of_append {init : List String} {name : String} (hinit : init ≠ [])
    (hp : p.segments.map (·.name) = init ++ [name]) :
    resolve dir p =
      match dir.export? (Path.join init) name with
      | some address => .ok (Address.toInt address)
      | none =>
        match dir.base? (Path.join (init ++ [name])) with
        | some address => .ok (Address.toInt address)
        | none => .error ⟨.notFound (Path.join (init ++ [name])), p.span⟩ := by
  obtain ⟨hqual, rfl⟩ := Path.qualifier?_of_names hinit hp
  have htext : p.text = Path.join (init ++ [p.last.name]) := by rw [Path.text, hp]
  cases hexport : dir.export? (Path.join init) p.last.name with
  | some address => simp only [resolve, hqual, hexport]
  | none =>
    cases hbase : dir.base? (Path.join (init ++ [p.last.name])) with
    | some address => simp only [resolve, hqual, htext, hexport, hbase]
    | none => simp only [resolve, hqual, htext, hexport, hbase]

variable {name : String} {s : Span}

theorem resolveName_of_symbol (h : dir.symbol? name = some a) :
    resolveName dir ⟨name, s⟩ = .ok (Address.toInt a) := by
  simp only [resolveName, h]

theorem numeralValue_of_isDigits (text : String) {digits : List Char} (hne : digits ≠ [])
    (hdigits : Hex.IsDigits digits) :
    numeralValue text digits s =
      if (Hex.positional digits : Int) < Value.limit then .ok (Hex.positional digits : Int)
      else .error ⟨.literalOutOfRange text, s⟩ := by
  rw [numeralValue, Value.ofNumeral?_of_isDigits hne hdigits]
  by_cases hfits : (Hex.positional digits : Int) < Value.limit
  · simp only [if_pos hfits]
  · simp only [if_neg hfits]

/-- A name of digits that is no symbol. -/
theorem resolveName_of_isDigits (hne : name ≠ "") (hsymbol : dir.symbol? name = none)
    (hdigits : Hex.IsDigits name.toList) :
    resolveName dir ⟨name, s⟩ =
      if (Hex.positional name.toList : Int) < Value.limit then
        .ok (Hex.positional name.toList : Int)
      else .error ⟨.literalOutOfRange name, s⟩ := by
  have hname : isNumeralName name = true := Hex.all_isDigit_iff.mpr hdigits
  have hchars : name.toList ≠ [] := fun hnil => hne (String.toList_eq_nil_iff.mp hnil)
  rw [← numeralValue_of_isDigits name hchars hdigits]
  simp only [resolveName, hsymbol, hname, if_true]

/-- A name that is neither a symbol nor of digits. -/
theorem resolveName_of_not_isDigits (hsymbol : dir.symbol? name = none)
    (hdigits : ¬ Hex.IsDigits name.toList) :
    resolveName dir ⟨name, s⟩ =
      match dir.anyExport? name with
      | some address => .ok (Address.toInt address)
      | none => .error ⟨.undefinedSymbol name, s⟩ := by
  have hname : ¬ isNumeralName name = true := fun hname => hdigits (Hex.all_isDigit_iff.mp hname)
  simp only [resolveName, hsymbol, hname]
  rfl

end Expr

namespace Directory.Resolves

variable {entries : List Entry} {names : List String} {r : Except EvalProblem Address}

/-- The path of the names has what the names stand for. -/
theorem exists_bind_resolve_eq (h : Resolves entries names r) (hnames : ∀ name ∈ names, name ≠ "")
    {p : Path} (hp : p.segments.map (·.name) = names) :
    ∃ s, (Expr.resolve (.ofEntries entries) p).bind (Expr.toAddress p.span) =
      r.mapError fun problem => ⟨problem, s⟩ := by
  have hfind := find?_ofEntries entries
  cases h with
  | @symbol name a h =>
    have hsymbol : (ofEntries entries).symbol? name = some a := (hfind _).trans h
    refine ⟨p.span, Expr.bind_resolve_of_eq_ok ?_⟩
    rw [Expr.resolve_of_singleton hp, Expr.resolveName_of_symbol hsymbol]
  | @numeral name a hsymbol hdigits h =>
    have hne : name ≠ "" := hnames name List.mem_cons_self
    have hsymbol : (ofEntries entries).symbol? name = none := (hfind _).trans hsymbol
    have hfits : Address.toInt a < Value.limit := (Expr.fits_toInt a).2
    refine ⟨p.span, Expr.bind_resolve_of_eq_ok ?_⟩
    rw [Expr.resolve_of_singleton hp, Expr.resolveName_of_isDigits hne hsymbol hdigits, h]
    exact if_pos hfits
  | @tooLarge name hsymbol hdigits hlarge hfits =>
    have hne : name ≠ "" := hnames name List.mem_cons_self
    have hsymbol : (ofEntries entries).symbol? name = none := (hfind _).trans hsymbol
    refine ⟨p.span, ?_⟩
    rw [Expr.resolve_of_singleton hp, Expr.resolveName_of_isDigits hne hsymbol hdigits,
      if_pos hfits, Except.bind, Expr.toAddress_of_limit_le p.span hlarge]
    rfl
  | @outOfRange name hsymbol hdigits hlarge =>
    have hne : name ≠ "" := hnames name List.mem_cons_self
    have hsymbol : (ofEntries entries).symbol? name = none := (hfind _).trans hsymbol
    refine ⟨p.first.span, Expr.bind_resolve_of_eq_error ?_⟩
    rw [Expr.resolve_of_singleton hp, Expr.resolveName_of_isDigits hne hsymbol hdigits,
      if_neg (Int.not_lt.mpr hlarge)]
  | @leastOwner name owner a hsymbol hdigits h hleast =>
    have hsymbol : (ofEntries entries).symbol? name = none := (hfind _).trans hsymbol
    have hexport : (ofEntries entries).anyExport? name = some a := by
      refine anyExport?_eq_some_iff.mpr ⟨owner, (hfind _).trans h, fun o ho => ?_⟩
      exact (hfind _).trans (hleast o ho)
    refine ⟨p.span, Expr.bind_resolve_of_eq_ok ?_⟩
    rw [Expr.resolve_of_singleton hp, Expr.resolveName_of_not_isDigits hsymbol hdigits, hexport]
  | @undefined name hsymbol hdigits h =>
    have hsymbol : (ofEntries entries).symbol? name = none := (hfind _).trans hsymbol
    have hexport : (ofEntries entries).anyExport? name = none :=
      anyExport?_eq_none_iff.mpr fun owner => (hfind _).trans (h owner)
    refine ⟨p.first.span, Expr.bind_resolve_of_eq_error ?_⟩
    rw [Expr.resolve_of_singleton hp, Expr.resolveName_of_not_isDigits hsymbol hdigits, hexport]
  | @qualified init name a hinit h =>
    have hexport : (ofEntries entries).export? (Path.join init) name = some a := (hfind _).trans h
    refine ⟨p.span, Expr.bind_resolve_of_eq_ok ?_⟩
    rw [Expr.resolve_of_append hinit hp, hexport]
  | @base init name a hinit hexport h =>
    have hexport : (ofEntries entries).export? (Path.join init) name = none :=
      (hfind _).trans hexport
    have hbase : (ofEntries entries).base? (Path.join (init ++ [name])) = some a :=
      (hfind _).trans h
    refine ⟨p.span, Expr.bind_resolve_of_eq_ok ?_⟩
    rw [Expr.resolve_of_append hinit hp, hexport, hbase]
  | @notFound init name hinit hexport h =>
    have hexport : (ofEntries entries).export? (Path.join init) name = none :=
      (hfind _).trans hexport
    have hbase : (ofEntries entries).base? (Path.join (init ++ [name])) = none :=
      (hfind _).trans h
    refine ⟨p.span, Expr.bind_resolve_of_eq_error ?_⟩
    rw [Expr.resolve_of_append hinit hp, hexport, hbase]

/-- One name stands for something, or there is a reason why not. -/
theorem exists_resolves_singleton (entries : List Entry) (name : String) :
    ∃ r, Resolves entries [name] r := by
  cases hsymbol : lastAddress? entries (.symbol name) with
  | some a => exact ⟨_, .symbol hsymbol⟩
  | none =>
    by_cases hdigits : Hex.IsDigits name.toList
    · by_cases hfits : (Hex.positional name.toList : Int) < Value.limit
      · by_cases hlarge : Address.limit ≤ (Hex.positional name.toList : Int)
        · exact ⟨_, .tooLarge hsymbol hdigits hlarge hfits⟩
        · have hvalue := Expr.toInt_exactAddress (Int.natCast_nonneg _) (Int.not_le.mp hlarge)
          exact ⟨_, .numeral hsymbol hdigits (Int.ofNat.inj hvalue).symm⟩
      · exact ⟨_, .outOfRange hsymbol hdigits (Int.not_lt.mp hfits)⟩
    · -- The directory itself finds the least module, if there is one.
      have hfind := find?_ofEntries entries
      cases hexport : (ofEntries entries).anyExport? name with
      | some a =>
        obtain ⟨owner, h, hleast⟩ := anyExport?_eq_some_iff.mp hexport
        exact ⟨_, .leastOwner hsymbol hdigits ((hfind _).symm.trans h)
          fun o ho => (hfind _).symm.trans (hleast o ho)⟩
      | none =>
        have hnone := anyExport?_eq_none_iff.mp hexport
        exact ⟨_, .undefined hsymbol hdigits fun owner => (hfind _).symm.trans (hnone owner)⟩

theorem exists_resolves (entries : List Entry) (hne : names ≠ []) :
    ∃ r, Resolves entries names r := by
  obtain ⟨init, name, rfl⟩ : ∃ init name, names = init ++ [name] :=
    ⟨_, _, (List.dropLast_concat_getLast hne).symm⟩
  by_cases hinit : init = []
  · rw [hinit]
    exact exists_resolves_singleton entries name
  cases hexport : lastAddress? entries (.exported (Path.join init) name) with
  | some a => exact ⟨_, .qualified hinit hexport⟩
  | none =>
    cases hbase : lastAddress? entries (.base (Path.join (init ++ [name]))) with
    | some a => exact ⟨_, .base hinit hexport hbase⟩
    | none => exact ⟨_, .notFound hinit hexport hbase⟩

end Directory.Resolves

/-- **Names in quotes have the address that the last entries about them say,** or the error that
says why there is none, and nothing is read for it. Entries about different things may change
places: no text has another value then. -/
theorem evaluate_quotedText (entries : List Directory.Entry) :
    (∀ names, names ≠ [] → (∀ name ∈ names, IsQuotable name) →
      (∃ r, Directory.Resolves entries names r) ∧
      ∀ r, Directory.Resolves entries names r → ∃ s, ∀ mem,
        evaluate (.ofEntries entries) mem (quotedText names) =
          ⟨r.mapError fun problem => .evaluating ⟨problem, s⟩, []⟩) ∧
    ∀ before e e' behind, entries = before ++ e :: e' :: behind → e.key ≠ e'.key →
      ∀ mem source, evaluate (.ofEntries (before ++ e' :: e :: behind)) mem source =
        evaluate (.ofEntries entries) mem source := by
  refine ⟨fun names hne hnames => ?_, ?_⟩
  · refine ⟨Directory.Resolves.exists_resolves entries hne, fun r hr => ?_⟩
    obtain ⟨p, hp, heval⟩ := exists_evaluate_quotedText_eq hne hnames
    obtain ⟨s, hs⟩ := hr.exists_bind_resolve_eq (fun name h => (hnames name h).ne_empty) hp
    refine ⟨s, fun mem => ?_⟩
    rw [heval, hs]
    cases r with
    | ok a => rfl
    | error problem => rfl
  · rintro before e e' behind rfl hkey mem source
    exact Directory.evaluate_swap hkey before behind mem source

/-- The base of a module file with a blank in its name is given twice, and a symbol in between. -/
theorem evaluate_quotedText_game :
    evaluate (.ofEntries [.base "my game.exe" 1, .symbol "s1" 2, .base "my game.exe" 3])
        .placeholder (quotedText ["my game", "exe"]) = ⟨.ok 3, []⟩ ∧
    evaluate (.ofEntries [.base "my game.exe" 1, .base "my game.exe" 3, .symbol "s1" 2])
        .placeholder (quotedText ["s1"]) =
      evaluate (.ofEntries [.base "my game.exe" 1, .symbol "s1" 2, .base "my game.exe" 3])
        .placeholder (quotedText ["s1"]) := by
  have hquotable : ∀ name ∈ ["my game", "exe"], IsQuotable name := by
    simp only [List.forall_mem_cons]
    exact ⟨⟨by decide, List.all_eq_true.mp rfl⟩, ⟨by decide, List.all_eq_true.mp rfl⟩, nofun⟩
  have hresolves : Directory.Resolves
      [.base "my game.exe" 1, .symbol "s1" 2, .base "my game.exe" 3]
      (["my game"] ++ ["exe"]) (.ok 3) := .base (List.cons_ne_nil _ _) rfl rfl
  obtain ⟨hnames, hswap⟩ := evaluate_quotedText
    [.base "my game.exe" 1, .symbol "s1" 2, .base "my game.exe" 3]
  constructor
  · obtain ⟨s, hs⟩ := (hnames _ (List.cons_ne_nil _ _) hquotable).2 _ hresolves
    exact hs .placeholder
  · exact hswap [.base "my game.exe" 1] (.symbol "s1" 2) (.base "my game.exe" 3) [] rfl
      (by decide) .placeholder (quotedText ["s1"])

end AddressExpr
