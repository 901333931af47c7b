/-
# A directory is what its last entries say

A directory is built entry by entry, and each entry is about something: a symbol, a module file, or
an export of a module (`Directory.Entry.Key`). What a directory has for a key is what the last entry
about it says (`Directory.find?_ofEntries`), and for the name of an export alone it is what the
first module says that has such an export (`Directory.anyExport?_eq_some_iff`). Nothing else of a
directory is ever looked at, and an expression looks only at the keys that its paths ask for
(`Path.Consults`, `Directory.eval_congr`). So directories with the same entries for every key give
every text the same value, and two neighbours in a list of entries may change places if they are
about different keys (`Directory.evaluate_swap`).

Key definitions: `Directory.Entry.key`, `Directory.lastAddress?`, `Directory.find?`,
`Path.Consults`.
Key theorems: `Directory.find?_ofEntries`, `Directory.anyExport?_eq_some_iff`,
`Directory.eval_congr`, `Directory.evaluate_congr`, `Directory.evaluate_swap`.
-/
import AddressExpr.Evaluation
import AddressExpr.Proofs.Exact

namespace AddressExpr
namespace Directory

/-! ### What entries are about -/

/-- What an entry is about. -/
inductive Entry.Key
  | symbol (name : String)
  | base (file : String)
  | exported (owner name : String)
deriving DecidableEq, Inhabited

namespace Entry

/-- What the entry is about. -/
def key : Entry → Key
  | symbol name _ => .symbol name
  | base file _ => .base file
  | exported owner name _ => .exported owner name

/-- The address that the entry gives. -/
def address : Entry → Address
  | symbol _ value => value
  | base _ address => address
  | exported _ _ address => address

end Entry

/-- The address that the last entry about the key gives, if there is one. -/
def lastAddress? (entries : List Entry) (k : Entry.Key) : Option Address :=
  (entries.filter (·.key = k)).getLast?.map (·.address)

/-- What the directory has for the key. -/
def find? (d : Directory) : Entry.Key → Option Address
  | .symbol name => d.symbol? name
  | .base file => d.base? file
  | .exported owner name => d.export? owner name

/-- A new entry is found for its key, and what is found for the others stays. -/
theorem find?_insert (d : Directory) (e : Entry) (k : Entry.Key) :
    (d.insert e).find? k = if e.key = k then some e.address else d.find? k := by
  cases e with
  | symbol name value =>
    cases k with
    | symbol name' => simp [find?, symbol?_insert_symbol, Entry.key, Entry.address]
    | base file => rfl
    | exported owner name => rfl
  | base file address =>
    cases k with
    | symbol name => rfl
    | base file' => simp [find?, base?_insert_base, Entry.key, Entry.address]
    | exported owner name => rfl
  | exported owner name address =>
    cases k with
    | symbol name => rfl
    | base file => rfl
    | exported owner' name' => simp [find?, export?_insert_export, Entry.key, Entry.address]

theorem find?_empty (k : Entry.Key) : empty.find? k = none := by
  cases k <;> rfl

theorem lastAddress?_cons (e : Entry) (entries : List Entry) (k : Entry.Key) :
    lastAddress? (e :: entries) k =
      (lastAddress? entries k).or (if e.key = k then some e.address else none) := by
  unfold lastAddress?
  by_cases h : e.key = k
  · rw [List.filter_cons_of_pos (by simpa using h), List.getLast?_cons, if_pos h]
    cases (entries.filter (·.key = k)).getLast? <;> rfl
  · rw [List.filter_cons_of_neg (by simpa using h), if_neg h, Option.or_none]

/-- **A directory has what the last entry about the key says.** -/
theorem find?_ofEntries (entries : List Entry) (k : Entry.Key) :
    (ofEntries entries).find? k = lastAddress? entries k := by
  -- From any directory on, the entries that follow come before what it has.
  have hfrom (d : Directory) :
      (entries.foldl insert d).find? k = (lastAddress? entries k).or (d.find? k) := by
    induction entries generalizing d with
    | nil => rfl
    | cons e entries ih =>
      rw [List.foldl_cons, ih, find?_insert, lastAddress?_cons, Option.or_assoc]
      split
      · rfl
      · rfl
  rw [ofEntries, hfrom, find?_empty, Option.or_none]

/-! ### The first module that has an export -/

/-- In the list of a map, what is before a key is what the map has for the smaller keys. -/
theorem mem_before_iff {α : Type} {m : Std.TreeMap String α} {before behind : List (String × α)}
    {k k' : String} {x x' : α} (hlist : m.toList = before ++ (k, x) :: behind) :
    (k', x') ∈ before ↔ m[k']? = some x' ∧ k' < k := by
  have hsorted : m.toList.Pairwise fun y z => y.1 < z.1 := by
    refine Std.TreeMap.ordered_keys_toList.imp fun h => ?_
    exact compareOfLessAndEq_eq_lt.mp h
  rw [hlist, List.pairwise_append, List.pairwise_cons] at hsorted
  obtain ⟨-, ⟨hbehind, -⟩, hbefore⟩ := hsorted
  rw [← Std.TreeMap.mem_toList_iff_getElem?_eq_some, hlist, List.mem_append, List.mem_cons]
  constructor
  · intro h
    exact ⟨.inl h, hbefore _ h _ List.mem_cons_self⟩
  · rintro ⟨h | heq | h, hlt⟩
    · exact h
    · rw [(Prod.mk.inj heq).1] at hlt
      exact absurd hlt (String.lt_irrefl k)
    · exact absurd hlt (String.lt_asymm (hbehind _ h))

theorem export?_eq_some_iff {d : Directory} {owner name : String} {a : Address} :
    d.export? owner name = some a ↔
      ∃ exports, d.exports[owner]? = some exports ∧ exports[name]? = some a := by
  rw [export?, Option.bind_eq_some_iff]

theorem export?_eq_none_iff {d : Directory} {owner name : String} :
    d.export? owner name = none ↔
      ∀ exports, d.exports[owner]? = some exports → exports[name]? = none := by
  rw [export?, Option.bind_eq_none_iff]

/-- **The export of a name alone is that of the first module that has one,** in the order of the
characters of the module names. -/
theorem anyExport?_eq_some_iff {d : Directory} {name : String} {a : Address} :
    d.anyExport? name = some a ↔ ∃ owner, d.export? owner name = some a ∧
      ∀ o, o < owner → d.export? o name = none := by
  unfold anyExport?
  rw [List.findSome?_eq_some_iff]
  constructor
  · rintro ⟨before, ⟨owner, exports⟩, behind, hlist, ha, hbefore⟩
    have hmem : (owner, exports) ∈ d.exports.toList := by simp [hlist]
    have howner := Std.TreeMap.mem_toList_iff_getElem?_eq_some.mp hmem
    refine ⟨owner, export?_eq_some_iff.mpr ⟨exports, howner, ha⟩, fun o ho => ?_⟩
    rw [export?_eq_none_iff]
    intro exports' hexports'
    exact hbefore _ ((mem_before_iff hlist).mpr ⟨hexports', ho⟩)
  · rintro ⟨owner, ha, hleast⟩
    obtain ⟨exports, howner, ha⟩ := export?_eq_some_iff.mp ha
    have hmem := Std.TreeMap.mem_toList_iff_getElem?_eq_some.mpr howner
    obtain ⟨before, behind, hlist⟩ := List.append_of_mem hmem
    refine ⟨before, (owner, exports), behind, hlist, ha, fun ⟨o, exports'⟩ hbefore => ?_⟩
    obtain ⟨hexports', ho⟩ := (mem_before_iff hlist).mp hbefore
    exact export?_eq_none_iff.mp (hleast o ho) exports' hexports'

theorem anyExport?_eq_none_iff {d : Directory} {name : String} :
    d.anyExport? name = none ↔ ∀ owner, d.export? owner name = none := by
  simp only [anyExport?, List.findSome?_eq_none_iff, export?_eq_none_iff]
  constructor
  · intro h owner exports howner
    exact h _ (Std.TreeMap.mem_toList_iff_getElem?_eq_some.mpr howner)
  · intro h ⟨owner, exports⟩ hmem
    exact h owner exports (Std.TreeMap.mem_toList_iff_getElem?_eq_some.mp hmem)

/-! ### What an expression is looked up for -/

end Directory

/-- The key is asked for when the path is resolved. One name is asked for as a symbol, and if it is
none and no numeral either, as an export of any module. More names are asked for as an export of the
module before the last dot and as a module file. -/
def Path.Consults (dir : Directory) (p : Path) : Directory.Entry.Key → Prop
  | .symbol name => p.rest = [] ∧ p.first.name = name
  | .base file => p.rest ≠ [] ∧ p.text = file
  | .exported owner name =>
    p.qualifier? = some owner ∧ p.last.name = name ∨
      p.rest = [] ∧ p.first.name = name ∧ dir.symbol? name = none ∧ ¬ Hex.IsDigits name.toList

namespace Directory

section

variable {d d' : Directory}

theorem anyExport?_congr {name : String}
    (h : ∀ owner, d.export? owner name = d'.export? owner name) :
    d.anyExport? name = d'.anyExport? name := by
  apply Option.ext
  intro a
  simp only [anyExport?_eq_some_iff, h]

/-- What a path stands for is settled by the keys that are asked for. -/
theorem resolve_congr {p : Path} (h : ∀ k, p.Consults d k → d.find? k = d'.find? k) :
    Expr.resolve d p = Expr.resolve d' p := by
  by_cases hrest : p.rest = []
  · have hqual := Path.qualifier?_eq_none_iff.mpr hrest
    have hsymbol : d.symbol? p.first.name = d'.symbol? p.first.name :=
      h (.symbol p.first.name) ⟨hrest, rfl⟩
    simp only [Expr.resolve, hqual, Path.last_eq_first hrest, Expr.resolveName, hsymbol]
    cases hnone : d'.symbol? p.first.name with
    | some value => rfl
    | none =>
      by_cases hname : Expr.isNumeralName p.first.name = true
      · simp only [if_pos hname]
      · have hexport (owner : String) :
            d.export? owner p.first.name = d'.export? owner p.first.name := by
          refine h (.exported owner p.first.name) (.inr ⟨hrest, rfl, hsymbol.trans hnone, ?_⟩)
          exact fun hdigits => hname (Hex.all_isDigit_iff.mpr hdigits)
        simp only [anyExport?_congr hexport]
  · obtain ⟨owner, hqual⟩ := Option.ne_none_iff_exists'.mp
      (fun hqual => hrest (Path.qualifier?_eq_none_iff.mp hqual))
    have hexport : d.export? owner p.last.name = d'.export? owner p.last.name :=
      h (.exported owner p.last.name) (.inl ⟨hqual, rfl⟩)
    have hbase : d.base? p.text = d'.base? p.text := h (.base p.text) ⟨hrest, rfl⟩
    simp only [Expr.resolve, hqual, hexport, hbase]

/-- **The value of an expression is settled by the keys that its paths ask for.** -/
theorem eval_congr {e : Expr}
    (h : ∀ p, .path p ∈ e.postorder → ∀ k, p.Consults d k → d.find? k = d'.find? k)
    (mem : Memory) : e.eval d mem = e.eval d' mem := by
  induction e with
  | literal text s => rfl
  | path p => rw [Expr.eval, resolve_congr (h p List.mem_cons_self), Expr.eval]
  | signed sign s operand ih =>
    rw [Expr.eval, ih fun p hp => h p (List.mem_append_left _ hp), Expr.eval]
  | binary op s left right ihl ihr =>
    have hl := ihl fun p hp => h p (List.mem_append_left _ (List.mem_append_left _ hp))
    have hr := ihr fun p hp => h p (List.mem_append_left _ (List.mem_append_right _ hp))
    rw [Expr.eval, hl, hr, Expr.eval]
  | deref s address s' ih =>
    rw [Expr.eval, ih fun p hp => h p (List.mem_append_left _ hp), Expr.eval]

/-- Directories with the same entries for every key give every text the same value. -/
theorem evaluate_congr (h : d.find? = d'.find?) (mem : Memory) (source : String) :
    evaluate d mem source = evaluate d' mem source := by
  unfold evaluate
  cases parse source with
  | error f => rfl
  | ok e => simp only [Expr.evalAddress, eval_congr fun _ _ k _ => congrFun h k]

end

/-- Of two entries about different keys one at most is about any key. -/
theorem lastAddress?_swap {e e' : Entry} (h : e.key ≠ e'.key) (before behind : List Entry) :
    lastAddress? (before ++ e' :: e :: behind) = lastAddress? (before ++ e :: e' :: behind) := by
  funext k
  unfold lastAddress?
  by_cases hk : e.key = k
  · have hk' : ¬ e'.key = k := fun hk' => h (hk.trans hk'.symm)
    simp [List.filter_append, hk, hk']
  · simp [List.filter_append, List.filter_cons, hk]

/-- **Neighbours about different keys may change places.** -/
theorem evaluate_swap {e e' : Entry} (h : e.key ≠ e'.key) (before behind : List Entry)
    (mem : Memory) (source : String) :
    evaluate (.ofEntries (before ++ e' :: e :: behind)) mem source =
      evaluate (.ofEntries (before ++ e :: e' :: behind)) mem source := by
  apply evaluate_congr
  funext k
  rw [find?_ofEntries, find?_ofEntries, lastAddress?_swap h]

end Directory
end AddressExpr
