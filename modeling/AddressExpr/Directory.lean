/-
# The directory of names

A directory says where the names of an expression are: the values of symbols, the base
addresses of modules by their file name, and the exports of each module by its short
name. It is built entry by entry, and a later entry for the same name takes the place of
the earlier one. Names are ordered by their characters.

Key definitions: `Directory.Entry`, `Directory.insert`, `Directory.ofEntries`,
`Directory.symbol?`, `Directory.base?`, `Directory.export?`, `Directory.anyExport?`.
Key theorems: `Directory.symbol?_insert_symbol`, `Directory.base?_insert_base`,
`Directory.export?_insert_export`.
-/
import AddressExpr.Address
import Std.Data.TreeMap

namespace AddressExpr

/-- Where the names of expressions are. -/
structure Directory where
  symbols : Std.TreeMap String Address
  bases : Std.TreeMap String Address
  exports : Std.TreeMap String (Std.TreeMap String Address)

namespace Directory

/-- One line of a directory: the value of a symbol, the base of a module file, or the
address of an export of a module. -/
inductive Entry
  | symbol (name : String) (value : Address)
  | base (file : String) (address : Address)
  | exported (owner name : String) (address : Address)
deriving DecidableEq, Inhabited

/-- The directory without entries. -/
def empty : Directory := ⟨∅, ∅, ∅⟩

/-- The exports of a module; a module without entries has none. -/
def exportsOf (d : Directory) (owner : String) : Std.TreeMap String Address :=
  d.exports[owner]?.getD ∅

/-- The directory with one more entry. -/
def insert (d : Directory) : Entry → Directory
  | .symbol name value => { d with symbols := d.symbols.insert name value }
  | .base file address => { d with bases := d.bases.insert file address }
  | .exported owner name address =>
    { d with exports := d.exports.insert owner ((d.exportsOf owner).insert name address) }

/-- The directory of a list of entries, the last of which counts most. -/
def ofEntries (entries : List Entry) : Directory := entries.foldl insert empty

/-! ### Looking up -/

/-- The value of a symbol. -/
def symbol? (d : Directory) (name : String) : Option Address := d.symbols[name]?

/-- The base address of a module file. -/
def base? (d : Directory) (file : String) : Option Address := d.bases[file]?

/-- The address of an export of a module. -/
def export? (d : Directory) (owner name : String) : Option Address :=
  d.exports[owner]?.bind (·[name]?)

/-- The address of the export `name` of the first module that has one. -/
def anyExport? (d : Directory) (name : String) : Option Address :=
  d.exports.toList.findSome? fun (_, exports) => exports[name]?

theorem symbol?_insert_symbol (d : Directory) (name name' : String) (value : Address) :
    (d.insert (.symbol name value)).symbol? name' =
      if name = name' then some value else d.symbol? name' := by
  simp [insert, symbol?, Std.TreeMap.getElem?_insert]

theorem base?_insert_base (d : Directory) (file file' : String) (address : Address) :
    (d.insert (.base file address)).base? file' =
      if file = file' then some address else d.base? file' := by
  simp [insert, base?, Std.TreeMap.getElem?_insert]

theorem export?_insert_export (d : Directory) (owner owner' name name' : String)
    (address : Address) :
    (d.insert (.exported owner name address)).export? owner' name' =
      if owner = owner' ∧ name = name' then some address else d.export? owner' name' := by
  by_cases ho : owner = owner'
  · subst ho
    by_cases hn : name = name'
    · simp [insert, export?, hn]
    · cases h : d.exports[owner]? <;>
        simp [insert, export?, exportsOf, Std.TreeMap.getElem?_insert, hn, h]
  · simp [insert, export?, Std.TreeMap.getElem?_insert, ho]

/-- The directory that the command line answers from. -/
def sample : Directory :=
  ofEntries
    [.symbol "s1" 0x222, .symbol "s2" 0x333, .symbol "生命值" 0x64,
      .base "game.exe" 0x00400000, .base "my game.exe" 0x10000000,
      .base "user32.dll" 0x763b0000, .base "kernel32.dll" 0x75a00000,
      .exported "user32" "MessageBoxA" 0x1, .exported "user32" "MessageBoxW" 0x2,
      .exported "kernel32" "GetProcAddress" 0x75a1b2c0, .exported "kernel32" "Sleep" 0x75a10aa0]

end Directory
end AddressExpr
