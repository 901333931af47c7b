/-
# The command line

A run answers the lines of a file or, if no file is named, of its input, each line on its
own. A line of blanks is passed over. For every other line the run prints its address, or
the report of its failure, after the expression if that is wanted; the lines of a file are
repeated before their answers. The names in the lines are looked up in `Directory.sample`.

Two things are those of the terminal the run is made at (`Terminal`): the lines of the input
are handed over by its editor, and a report that is not wanted plain is drawn by it.

Key definitions: `Request.ofArgs`, `Terminal`, `CommandLine.answer`, `CommandLine.transcript`,
`CommandLine.runWith`.
-/
import AddressExpr.Evaluation
import AddressExpr.Text.CharClass

namespace AddressExpr

/-- How answers are printed. -/
structure Options where
  showTree : Bool
  plain : Bool
deriving DecidableEq, Inhabited

/-- What the arguments ask for. -/
structure Request where
  options : Options
  file? : Option String
  unknown : List String
deriving DecidableEq, Inhabited

namespace Request

/-- Whether the argument is written as an option. -/
def isOption (arg : String) : Bool := "--".toList.isPrefixOf arg.toList

/-- The request that arguments make. The two options may stand anywhere and more than
once; of the other arguments the first that is not written as an option names the file, and
the rest are unknown. -/
def ofArgs (args : List String) : Request :=
  let others := args.filter fun arg => arg != "--ast" && arg != "--plain"
  { options := ⟨args.contains "--ast", args.contains "--plain"⟩
    file? := others.find? fun arg => !isOption arg
    unknown := others.eraseP fun arg => !isOption arg }

end Request

/-- Why an editor hands over no more lines. -/
inductive Stop
  /-- The input has come to its end. -/
  | ended
  | interrupted
  | failed (reason : String)
  | crashed
deriving DecidableEq, Inhabited

/-- What an editor makes of an input: the lines that it hands over, and why it stops then. -/
structure Handed where
  lines : List (List Char)
  stop : Stop
deriving DecidableEq, Inhabited

/-- The terminal of a run. Its editor reads the input, and it draws the report of the failure of a
text for those who do not want it plain. -/
structure Terminal where
  editor : String → Handed
  draw : String → Failure → String

/-- The terminal that has nothing to edit and to draw with. The lines are handed over as they are,
and every report is plain. -/
def Terminal.bare : Terminal where
  editor input := ⟨Text.lines input.toList, .ended⟩
  draw line f := f.report line

namespace CommandLine

/-- What a run leaves behind: its exit status, what it prints, and its complaint. -/
structure Outcome where
  status : UInt32
  output : String
  complaint : String
deriving DecidableEq, Inhabited

section

variable (terminal : Terminal) (opts : Options)

/-- The text printed for a failure of a line. -/
def failureText (line : String) (f : Failure) : String :=
  (if opts.plain then f.report line else terminal.draw line f) ++ "\n"

/-- The text printed for the address of a line, or for its failure. -/
def resultText (line : String) : String :=
  match (evaluate Directory.sample Memory.placeholder line).result with
  | .ok address => "==> " ++ Address.render address ++ "\n"
  | .error f => failureText terminal opts line f

/-- The answer to a line. Where its expression is wanted it is parsed for that first, and a
line that is none is answered with that failure. -/
def answer (line : String) : String :=
  if opts.showTree then
    match parse line with
    | .ok e => "ast: " ++ e.render ++ "\n" ++ resultText terminal opts line
    | .error f => failureText terminal opts line f
  else resultText terminal opts line

/-- What is printed for one line, which is repeated before its answer if `echo` is set. -/
def entry (echo : Bool) (line : List Char) : String :=
  if line.all Text.isBlank then ""
  else (if echo then String.ofList line ++ "\n" else "") ++
    answer terminal opts (String.ofList line)

/-- What is printed for lines, one after another. -/
def transcript (echo : Bool) (lines : List (List Char)) : String :=
  String.join (lines.map (entry terminal opts echo))

/-- The outcome for a file, given what is in it if it is there. -/
def runFile (name : String) (contents? : Option ByteArray) : Outcome :=
  match contents?.bind String.fromUTF8? with
  | some text => ⟨0, transcript terminal opts true (Text.lines text.toList), ""⟩
  | none => ⟨1, "", "cannot read " ++ Text.quote name ++ "\n"⟩

/-- The outcome for the lines that an editor hands over. If it stops otherwise than at the end of
the input or by an interrupt, the run fails with it. -/
def answerHanded (handed : Handed) : Outcome :=
  let output := transcript terminal opts false handed.lines
  match handed.stop with
  | .ended | .interrupted => ⟨0, output, ""⟩
  | .failed reason => ⟨1, output, "cannot read the input: " ++ reason ++ "\n"⟩
  | .crashed => ⟨101, output, "the editor crashed\n"⟩

end

/-- The outcome for arguments that are not understood. -/
def refusal (unknown : List String) : Outcome :=
  { status := 1
    output := ""
    complaint := "Unrecognized arguments: " ++ Text.quoteList unknown ++
      "\nUsage: address-string [--ast] [--plain] [file]\n" }

/-- The outcome for a request, given the files that are there and the input. -/
def Outcome.ofRequest (terminal : Terminal) (request : Request)
    (files : String → Option ByteArray) (input : String) : Outcome :=
  if request.unknown ≠ [] then refusal request.unknown
  else match request.file? with
    | some name => runFile terminal request.options name (files name)
    | none => answerHanded terminal request.options (terminal.editor input)

/-- The outcome of a run with the arguments `args` at a terminal. -/
def runWith (terminal : Terminal) (args : List String) (files : String → Option ByteArray)
    (input : String) : Outcome :=
  Outcome.ofRequest terminal (Request.ofArgs args) files input

end CommandLine
end AddressExpr
