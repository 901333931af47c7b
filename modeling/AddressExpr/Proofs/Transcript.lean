/-
# Lines are answered one by one

What a run prints is made of blocks, one for every line that is not blank: the line itself, its
expression, and its address or the report of its failure (`CommandLine.Block`). From a file the
whole block is printed and from the input all but the line, and the expression is printed only if it
is asked for. Nothing else depends on where the text comes from and on what is asked for, and no
block depends on the other lines (`CommandLine.linewise_runWith`).

The lines of a text stand before its line feeds, and a carriage return before a line feed is not
part of the line; what stands behind the last line feed is a line only if it is not empty
(`Text.AreLines`). A text has one list of lines, and it is the one that is computed
(`Text.areLines_iff`). A text can be cut behind any of its line feeds, and its lines with it
(`Text.lines_append`). If a line is no expression, its block is the report of this and no more: the
parse that comes first where the expression is asked for fails as the evaluation does
(`CommandLine.answer_eq_print`).

The editor that hands over the lines of the input is any that hands over those of the text, up to
its end.

Key definitions: `Text.AreLines`, `Text.EndsLine`, `CommandLine.Block`, `CommandLine.IsTranscript`,
`CommandLine.Linewise`.
Key theorems: `Text.areLines_iff`, `Text.lines_append`, `CommandLine.answer_eq_print`,
`CommandLine.linewise_runWith`.
-/
import AddressExpr.CommandLine
import AddressExpr.Proofs.Blame
import AddressExpr.Proofs.Naming

namespace AddressExpr
namespace Text

/-! ### The lines of a text -/

/-- The lines of a text. A line stands before a line feed, or before a carriage return and a line
feed, and what is behind the last of these is a line if there is anything. -/
inductive AreLines : List Char → List (List Char) → Prop
  | nil : AreLines [] []
  | last {line : List Char} (hne : line ≠ []) (h : '\n' ∉ line) : AreLines line [line]
  | lineFeed {line text : List Char} {ls : List (List Char)} (h : '\n' ∉ line)
      (hreturn : line.getLast? ≠ some '\r') (hrest : AreLines text ls) :
      AreLines (line ++ '\n' :: text) (line :: ls)
  | returnLineFeed {line text : List Char} {ls : List (List Char)} (h : '\n' ∉ line)
      (hrest : AreLines text ls) : AreLines (line ++ '\r' :: '\n' :: text) (line :: ls)

/-- The text is empty, or a line feed ends it. -/
def EndsLine (text : List Char) : Prop := ∀ c ∈ text.getLast?, c = '\n'

theorem linesOfRows_append (rs : List (List Char)) {rs' : List (List Char)} (h : rs' ≠ []) :
    linesOfRows (rs ++ rs') = rs.map dropReturn ++ linesOfRows rs' := by
  induction rs with
  | nil => rfl
  | cons row rs ih =>
    have hne : rs ++ rs' ≠ [] := List.append_ne_nil_of_right_ne_nil rs h
    obtain ⟨next, rest, hrest⟩ := List.exists_cons_of_ne_nil hne
    rw [List.cons_append, List.map_cons, List.cons_append, ← ih, hrest, linesOfRows]

/-- Behind a line feed the lines are those of the rest. -/
theorem lines_append_newline (text more : List Char) :
    lines (text ++ '\n' :: more) = (rows text).map dropReturn ++ lines more := by
  rw [lines, rows_append_newline, linesOfRows_append _ (rows_ne_nil more), lines]

/-- A text can be cut behind a line feed, and its lines with it. -/
theorem lines_append {text : List Char} (h : EndsLine text) (more : List Char) :
    lines (text ++ more) = lines text ++ lines more := by
  rcases List.eq_nil_or_concat text with rfl | ⟨front, c, rfl⟩
  · rfl
  · obtain rfl : c = '\n' := h c (by simp)
    have hends : lines (front ++ ['\n']) = (rows front).map dropReturn := by
      rw [lines_append_newline, show lines [] = [] from rfl, List.append_nil]
    rw [List.concat_eq_append, List.append_assoc, List.singleton_append, lines_append_newline,
      hends]

theorem not_mem_of_mem_rows {row text : List Char} (h : row ∈ rows text) : '\n' ∉ row := by
  induction text generalizing row with
  | nil =>
    obtain rfl := List.mem_singleton.mp h
    exact List.not_mem_nil
  | cons c text ih =>
    rw [rows] at h
    split at h
    · rcases List.mem_cons.mp h with rfl | h
      · exact List.not_mem_nil
      · exact ih h
    · next hc =>
      cases hrows : rows text with
      | nil => exact absurd hrows (rows_ne_nil text)
      | cons first rest =>
        rw [hrows] at h ih
        rcases List.mem_cons.mp h with rfl | h
        · rw [List.mem_cons, not_or]
          exact ⟨Ne.symm hc, ih List.mem_cons_self⟩
        · exact ih (List.mem_cons_of_mem _ h)

theorem rows_of_not_mem {row : List Char} (h : '\n' ∉ row) : rows row = [row] := by
  induction row with
  | nil => rfl
  | cons c row ih =>
    rw [List.mem_cons, not_or] at h
    rw [rows, if_neg (Ne.symm h.1), ih h.2]
    rfl

theorem lines_append_newline_of_not_mem {row : List Char} (h : '\n' ∉ row) (more : List Char) :
    lines (row ++ '\n' :: more) = dropReturn row :: lines more := by
  rw [lines_append_newline, rows_of_not_mem h]
  rfl

/-- A text has no other lines than those that are computed. -/
theorem AreLines.lines_eq {text : List Char} {ls : List (List Char)} (h : AreLines text ls) :
    lines text = ls := by
  induction h with
  | nil => rfl
  | last hne h =>
    rw [lines, rows_of_not_mem h, linesOfRows, if_neg hne]
  | lineFeed h hreturn hrest ih =>
    rw [lines_append_newline_of_not_mem h, dropReturn_of_ne hreturn, ih]
  | @returnLineFeed line text ls h hrest ih =>
    have hrow : '\n' ∉ line ++ ['\r'] := by simp [h]
    have hcut : line ++ '\r' :: '\n' :: text = (line ++ ['\r']) ++ '\n' :: text := by simp
    rw [hcut, lines_append_newline_of_not_mem hrow, dropReturn_concat, ih]

/-- A row and a line feed before a text are one line more. -/
theorem AreLines.cons {text : List Char} {ls : List (List Char)} (hls : AreLines text ls)
    {row : List Char} (h : '\n' ∉ row) :
    AreLines (row ++ '\n' :: text) (dropReturn row :: ls) := by
  by_cases hreturn : row.getLast? = some '\r'
  · obtain ⟨line, rfl⟩ := List.getLast?_eq_some_iff.mp hreturn
    rw [dropReturn_concat, List.append_assoc]
    exact .returnLineFeed (fun hmem => h (List.mem_append_left _ hmem)) hls
  · rw [dropReturn_of_ne hreturn]
    exact .lineFeed h hreturn hls

/-- The rows of a text, with line feeds between them, make the lines that are computed. -/
theorem areLines_linesOfRows : ∀ {rs : List (List Char)}, (∀ row ∈ rs, '\n' ∉ row) →
    AreLines (['\n'].intercalate rs) (linesOfRows rs)
  | [], _ => .nil
  | [last], h => by
    rw [List.intercalate_singleton, linesOfRows]
    by_cases hlast : last = []
    · rw [if_pos hlast, hlast]
      exact .nil
    · rw [if_neg hlast]
      exact .last hlast (h last List.mem_cons_self)
  | row :: next :: rest, h => by
    obtain ⟨hrow, hrest⟩ := List.forall_mem_cons.mp h
    rw [List.intercalate_cons_cons, List.append_assoc, linesOfRows]
    exact (areLines_linesOfRows hrest).cons hrow

/-- **The lines that are computed are the lines of the text.** -/
theorem areLines_iff {text : List Char} {ls : List (List Char)} :
    AreLines text ls ↔ ls = lines text := by
  constructor
  · exact fun h => h.lines_eq.symm
  · rintro rfl
    have hrows := areLines_linesOfRows fun row (h : row ∈ rows text) => not_mem_of_mem_rows h
    rwa [intercalate_rows] at hrows

/-- There is no line feed in a line. -/
theorem AreLines.not_mem {text : List Char} {ls : List (List Char)} (h : AreLines text ls) :
    ∀ line ∈ ls, '\n' ∉ line := by
  induction h with
  | nil => exact nofun
  | last hne h => exact List.forall_mem_singleton.mpr h
  | lineFeed h hreturn hrest ih => exact List.forall_mem_cons.mpr ⟨h, ih⟩
  | returnLineFeed h hrest ih => exact List.forall_mem_cons.mpr ⟨h, ih⟩

end Text

/-! ### The expression of a line -/

/-- Every word of a text is made of its characters. -/
theorem Token.IsWord.mem {text : List Char} {t : Token} (h : t.IsWord text) {c : Char}
    (hc : c ∈ t.kind.chars) : c ∈ text := by
  obtain ⟨pre, post, rfl, -⟩ := h.1
  simp [hc]

theorem Path.newline_not_mem_join {names : List String} (h : ∀ name ∈ names, '\n' ∉ name.toList) :
    '\n' ∉ (Path.join names).toList := by
  induction names with
  | nil => exact List.not_mem_nil
  | cons name names ih =>
    obtain ⟨hname, hnames⟩ := List.forall_mem_cons.mp h
    cases names with
    | nil => rwa [join_singleton]
    | cons name' names =>
      have hdot : '\n' ≠ '.' := by decide
      rw [toList_join_cons_cons, List.mem_append, List.mem_cons]
      exact not_or.mpr ⟨hname, not_or.mpr ⟨hdot, ih hnames⟩⟩

/-- No line feed is written between the words of an expression. -/
theorem Expr.newline_not_mem_render : ∀ {e : Expr},
    e.AllTokens (fun t => '\n' ∉ t.kind.chars) → '\n' ∉ e.render.toList
  | literal text s, h => h
  | path p, h => by
    refine Path.newline_not_mem_join fun name hname => ?_
    obtain ⟨segment, hsegment, rfl⟩ := List.mem_map.mp hname
    exact h segment hsegment
  | signed sign s operand, h => by
    have hoperand := newline_not_mem_render h.2
    cases sign <;> simp [render, Sign.symbol, hoperand]
  | binary op s left right, h => by
    have hleft := newline_not_mem_render h.2.1
    have hright := newline_not_mem_render h.2.2
    cases op <;> simp [render, BinaryOp.symbol, hleft, hright]
  | deref s address s', h => by
    have haddress := newline_not_mem_render h.2.1
    simp [render, haddress]

/-- The rendering of the expression of a line is one line. -/
theorem newline_not_mem_render_of_parse {line : String} (h : '\n' ∉ line.toList) {e : Expr}
    (hparse : parse line = .ok e) : '\n' ∉ e.render.toList := by
  obtain ⟨ts, htokens, hexpr⟩ := parse_eq_ok_iff.mp hparse
  obtain ⟨-, hwords⟩ := Lexer.words_of_tokenize htokens
  refine Expr.newline_not_mem_render (Expr.allTokens_of_ofTokens hexpr fun t ht hmem => ?_)
  exact h ((hwords t ht).mem hmem)

namespace CommandLine

/-! ### Blocks -/

/-- What there is to print about a line. -/
structure Block where
  line : String
  tree : String
  result : String

namespace Block

/-- What the block says is so. The tree is one line, and a line that has none is reported once. -/
inductive IsSound : Block → Prop
  | address {line : String} {e : Expr} {address : Address} (hparse : parse line = .ok e)
      (htree : '\n' ∉ e.render.toList)
      (hresult : (evaluate Directory.sample Memory.placeholder line).result = .ok address) :
      IsSound ⟨line, "ast: " ++ e.render ++ "\n", "==> " ++ Address.render address ++ "\n"⟩
  | failure {line : String} {e : Expr} {f : Failure} (hparse : parse line = .ok e)
      (htree : '\n' ∉ e.render.toList)
      (hresult : (evaluate Directory.sample Memory.placeholder line).result = .error f) :
      IsSound ⟨line, "ast: " ++ e.render ++ "\n", f.report line ++ "\n"⟩
  | noExpression {line : String} {f : Failure} (hparse : parse line = .error f) :
      IsSound ⟨line, "", f.report line ++ "\n"⟩

/-- The block as it is printed, with the line if `echo` is set and with the tree if it is wanted. -/
def print (echo showTree : Bool) (b : Block) : String :=
  (if echo then b.line ++ "\n" else "") ++ (if showTree then b.tree else "") ++ b.result

/-- The block of a line. -/
def ofLine (line : String) : Block :=
  { line
    tree := match parse line with
      | .ok e => "ast: " ++ e.render ++ "\n"
      | .error _ => ""
    result := match (evaluate Directory.sample Memory.placeholder line).result with
      | .ok address => "==> " ++ Address.render address ++ "\n"
      | .error f => f.report line ++ "\n" }

theorem isSound_ofLine {line : String} (h : '\n' ∉ line.toList) : (ofLine line).IsSound := by
  cases hparse : parse line with
  | error f =>
    rw [ofLine, hparse, result_evaluate_of_parse_eq_error hparse]
    exact .noExpression hparse
  | ok e =>
    have htree := newline_not_mem_render_of_parse h hparse
    rw [ofLine, hparse]
    cases hresult : (evaluate Directory.sample Memory.placeholder line).result with
    | ok address => exact .address hparse htree hresult
    | error f => exact .failure hparse htree hresult

end Block

/-- What is printed plain for a line is the result in its block, at any terminal. -/
theorem resultText_eq (terminal : Terminal) (showTree : Bool) (line : String) :
    resultText terminal ⟨showTree, true⟩ line = (Block.ofLine line).result := by
  rw [resultText, Block.ofLine]
  cases (evaluate Directory.sample Memory.placeholder line).result with
  | ok address => rfl
  | error f => rfl

/-- The answer to a line is its block. The parse for the tree ends it only where the evaluation
fails in the same way. -/
theorem answer_eq_print (terminal : Terminal) (showTree : Bool) (line : String) :
    answer terminal ⟨showTree, true⟩ line = (Block.ofLine line).print false showTree := by
  unfold answer
  rw [resultText_eq]
  cases showTree with
  | false => simp [Block.print]
  | true =>
    cases hparse : parse line with
    | ok e => simp [Block.ofLine, Block.print, hparse]
    | error f =>
      -- the evaluation parses the line as well and fails there, so the report is the same
      simp [Block.ofLine, Block.print, failureText, hparse,
        result_evaluate_of_parse_eq_error hparse]

/-! ### Transcripts -/

/-- Those of the lines that are answered. -/
def answeredLines (ls : List (List Char)) : List String :=
  (ls.filter fun line => !line.all Text.isBlank).map String.ofList

/-- The blocks are those of the lines of the text that are answered, and what they say is so. -/
structure IsTranscript (text : String) (bs : List Block) : Prop where
  exists_lines : ∃ ls, Text.AreLines text.toList ls ∧ bs.map (·.line) = answeredLines ls
  sound : ∀ b ∈ bs, b.IsSound

/-- The blocks as they are printed, one after another. -/
def printAll (echo showTree : Bool) (bs : List Block) : String :=
  String.join (bs.map (Block.print echo showTree))

theorem printAll_append (echo showTree : Bool) (bs bs' : List Block) :
    printAll echo showTree (bs ++ bs') =
      printAll echo showTree bs ++ printAll echo showTree bs' := by
  rw [printAll, List.map_append, String.join_append, printAll, printAll]

/-- The blocks of lines. -/
def blocks (ls : List (List Char)) : List Block := (answeredLines ls).map Block.ofLine

theorem isTranscript_blocks {text : String} {ls : List (List Char)}
    (h : Text.AreLines text.toList ls) : IsTranscript text (blocks ls) := by
  refine ⟨⟨ls, h, ?_⟩, ?_⟩
  · rw [blocks, List.map_map]
    exact List.map_id _
  · rw [blocks, List.forall_mem_map, answeredLines, List.forall_mem_map]
    intro line hline
    refine Block.isSound_ofLine ?_
    rw [String.toList_ofList]
    exact h.not_mem line (List.mem_filter.mp hline).1

theorem blocks_append (ls ls' : List (List Char)) :
    blocks (ls ++ ls') = blocks ls ++ blocks ls' := by
  simp only [blocks, answeredLines, List.filter_append, List.map_append]

section

variable {terminal : Terminal}

theorem entry_of_isBlank {opts : Options} {echo : Bool} {line : List Char}
    (h : line.all Text.isBlank = true) : entry terminal opts echo line = "" := by
  rw [entry, if_pos h]

theorem entry_eq_print (showTree echo : Bool) {line : List Char}
    (h : line.all Text.isBlank = false) :
    entry terminal ⟨showTree, true⟩ echo line =
      (Block.ofLine (.ofList line)).print echo showTree := by
  rw [entry, if_neg (by rw [h]; exact Bool.false_ne_true), answer_eq_print]
  cases echo with
  | false => rfl
  | true => simp [Block.print, Block.ofLine, String.append_assoc]

/-- What is printed for lines is their blocks. -/
theorem transcript_eq_printAll (showTree echo : Bool) (ls : List (List Char)) :
    transcript terminal ⟨showTree, true⟩ echo ls = printAll echo showTree (blocks ls) := by
  unfold transcript printAll blocks answeredLines
  -- blank lines print nothing, and are not among the lines that have a block
  induction ls with
  | nil => rfl
  | cons line ls ih =>
    rw [List.map_cons, String.join_cons, ih]
    cases hblank : line.all Text.isBlank with
    | true =>
      rw [entry_of_isBlank hblank, String.empty_append, List.filter_cons, hblank]
      rfl
    | false =>
      rw [entry_eq_print showTree echo hblank, List.filter_cons, hblank]
      simp only [Bool.not_false, if_true, List.map_cons, String.join_cons]

end

/-! ### Runs -/

/-- The files if the one of the name `name` holds the text. -/
def holding (files : String → Option ByteArray) (name text : String) : String → Option ByteArray :=
  fun other => if other = name then some text.toUTF8 else files other

/-- The editor of the terminal hands over the lines of the input, up to its end. -/
structure HandsOver (terminal : Terminal) (input : String) : Prop where
  areLines : Text.AreLines input.toList (terminal.editor input).lines
  stop_eq : (terminal.editor input).stop = .ended

theorem handsOver_bare (input : String) : HandsOver .bare input :=
  ⟨Text.areLines_iff.mpr rfl, rfl⟩

section

variable {terminal : Terminal} {args : List String} {showTree : Bool}
  (files : String → Option ByteArray)

theorem runFile_toUTF8 (opts : Options) (name text : String) :
    runFile terminal opts name (some text.toUTF8) =
      ⟨0, transcript terminal opts true (Text.lines text.toList), ""⟩ := by
  have hutf8 : String.fromUTF8? text.toUTF8 = some text := by
    have hvalid : text.toUTF8.IsValidUTF8 := text.isValidUTF8
    rw [String.fromUTF8?, dif_pos hvalid]
    rfl
  rw [runFile, Option.bind_some, hutf8]

/-- A run on a file prints the blocks of its lines, and the lines with them. -/
theorem runWith_holding {name : String}
    (hargs : Request.ofArgs args = ⟨⟨showTree, true⟩, some name, []⟩) (text input : String) :
    runWith terminal args (holding files name text) input =
      ⟨0, printAll true showTree (blocks (Text.lines text.toList)), ""⟩ := by
  rw [runWith, hargs, Outcome.ofRequest, if_neg (fun h => h rfl), ← transcript_eq_printAll]
  show runFile terminal _ name (holding files name text name) = _
  rw [holding, if_pos rfl, runFile_toUTF8]

/-- A run on an input prints the blocks of the lines that are handed over. -/
theorem runWith_of_handsOver {input : String}
    (hargs : Request.ofArgs args = ⟨⟨showTree, true⟩, none, []⟩)
    (heditor : HandsOver terminal input) :
    runWith terminal args files input =
      ⟨0, printAll false showTree (blocks (Text.lines input.toList)), ""⟩ := by
  rw [runWith, hargs, Outcome.ofRequest, if_neg (fun h => h rfl), ← transcript_eq_printAll,
    heditor.areLines.lines_eq]
  show answerHanded terminal _ (terminal.editor input) = _
  rw [answerHanded, heditor.stop_eq]

end

/-- The arguments with `--ast` between them, if the tree is wanted. -/
def wanting (showTree : Bool) (pre post : List String) : List String :=
  if showTree then pre ++ "--ast" :: post else pre ++ post

/-- Wherever `--ast` stands, it asks for the tree and for nothing else. -/
theorem ofArgs_insert_ast (pre post : List String) :
    Request.ofArgs (pre ++ "--ast" :: post) =
      { Request.ofArgs (pre ++ post) with
        options := ⟨true, (Request.ofArgs (pre ++ post)).options.plain⟩ } := by
  simp [Request.ofArgs, List.filter_append]

theorem ofArgs_wanting {pre post : List String} {plain : Bool} {file? : Option String}
    (h : Request.ofArgs (pre ++ post) = ⟨⟨false, plain⟩, file?, []⟩) (showTree : Bool) :
    Request.ofArgs (wanting showTree pre post) = ⟨⟨showTree, plain⟩, file?, []⟩ := by
  cases showTree with
  | false => exact h
  | true => exact (ofArgs_insert_ast pre post).trans (by rw [h])

/-- Four runs on a text in two parts, and the blocks they print: three on a file with the one part,
the other, and both, and one with both for the input. None fails, and the lines are repeated only
from the file. -/
structure Linewise (terminal : Terminal) (args args' : List String)
    (files : String → Option ByteArray) (name input f₁ f₂ : String) (showTree : Bool)
    (bs₁ bs₂ : List Block) : Prop where
  first : runWith terminal args (holding files name f₁) input =
    ⟨0, printAll true showTree bs₁, ""⟩
  second : runWith terminal args (holding files name f₂) input =
    ⟨0, printAll true showTree bs₂, ""⟩
  both : runWith terminal args (holding files name (f₁ ++ f₂)) input =
    ⟨0, printAll true showTree bs₁ ++ printAll true showTree bs₂, ""⟩
  prompt : runWith terminal args' files (f₁ ++ f₂) =
    ⟨0, printAll false showTree bs₁ ++ printAll false showTree bs₂, ""⟩

/-- **Lines are answered one by one, and alike from a file and from the input.** If the first part
of a text ends a line, then what is printed for the whole is what is printed for the parts. The
blocks are the same for a file and for an input that comes from the editor line by line, and the
same whether or not the trees are printed with them. -/
theorem linewise_runWith {terminal : Terminal} {pre post pre' post' : List String}
    {name f₁ f₂ : String}
    (hfile : Request.ofArgs (pre ++ post) = ⟨⟨false, true⟩, some name, []⟩)
    (hprompt : Request.ofArgs (pre' ++ post') = ⟨⟨false, true⟩, none, []⟩)
    (hends : Text.EndsLine f₁.toList) (heditor : HandsOver terminal (f₁ ++ f₂))
    (files : String → Option ByteArray) (input : String) :
    ∃ bs₁ bs₂, IsTranscript f₁ bs₁ ∧ IsTranscript f₂ bs₂ ∧
      ∀ showTree, Linewise terminal (wanting showTree pre post) (wanting showTree pre' post') files
        name input f₁ f₂ showTree bs₁ bs₂ := by
  have hparts : blocks (Text.lines (f₁ ++ f₂).toList) =
      blocks (Text.lines f₁.toList) ++ blocks (Text.lines f₂.toList) := by
    rw [String.toList_append, Text.lines_append hends, blocks_append]
  refine ⟨blocks (Text.lines f₁.toList), blocks (Text.lines f₂.toList),
    isTranscript_blocks (Text.areLines_iff.mpr rfl),
    isTranscript_blocks (Text.areLines_iff.mpr rfl), fun showTree => ?_⟩
  have hfile := ofArgs_wanting hfile showTree
  have hprompt := ofArgs_wanting hprompt showTree
  constructor
  case first => rw [runWith_holding files hfile]
  case second => rw [runWith_holding files hfile]
  case both => rw [runWith_holding files hfile, hparts, printAll_append]
  case prompt => rw [runWith_of_handsOver files hprompt heditor, hparts, printAll_append]

/-- A line that is no expression and a blank one, before a line that the end of the text ends. -/
theorem linewise_runWith_bare :
    Request.ofArgs (["--plain"] ++ ["lines"]) = ⟨⟨false, true⟩, some "lines", []⟩ ∧
      Request.ofArgs ([] ++ ["--plain"]) = ⟨⟨false, true⟩, none, []⟩ ∧
      Text.EndsLine "(1\r\n\t\n".toList ∧ HandsOver .bare ("(1\r\n\t\n" ++ "0x10 + 2") ∧
      ∃ bs₁ bs₂, IsTranscript "(1\r\n\t\n" bs₁ ∧ IsTranscript "0x10 + 2" bs₂ ∧
        ∀ showTree, Linewise .bare (wanting showTree ["--plain"] ["lines"])
          (wanting showTree [] ["--plain"]) (fun _ => none) "lines" "" "(1\r\n\t\n" "0x10 + 2"
          showTree bs₁ bs₂ := by
  have hfile : Request.ofArgs (["--plain"] ++ ["lines"]) =
      ⟨⟨false, true⟩, some "lines", []⟩ := by decide
  have hprompt : Request.ofArgs ([] ++ ["--plain"]) = ⟨⟨false, true⟩, none, []⟩ := by decide
  have hends : Text.EndsLine "(1\r\n\t\n".toList := by simp [Text.EndsLine]
  exact ⟨hfile, hprompt, hends, handsOver_bare _,
    linewise_runWith hfile hprompt hends (handsOver_bare _) (fun _ => none) ""⟩

end CommandLine
end AddressExpr
