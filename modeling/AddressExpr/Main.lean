/-
# The program

Reads the file that the arguments name and prints what `CommandLine.runWith` makes of it at the
bare terminal. Without a file the input is answered line by line as it comes, which prints the same
as answering all of it at its end, as every line is answered on its own.
-/
import AddressExpr.CommandLine

namespace AddressExpr
namespace CommandLine

/-- What is in the file, if it can be read. -/
def contentsOf? (name : String) : IO (Option ByteArray) := do
  try
    return some (← IO.FS.readBinFile name)
  catch _ =>
    return none

/-- Answers every line that is still to come. -/
partial def answerInput (opts : Options) (input output : IO.FS.Stream) : IO Unit := do
  let line ← input.getLine
  if line.isEmpty then
    return
  output.putStr (answerHanded .bare opts (Terminal.bare.editor line)).output
  output.flush
  answerInput opts input output

end CommandLine
end AddressExpr

/-- Runs the command line. -/
def main (args : List String) : IO UInt32 := do
  let request := AddressExpr.Request.ofArgs args
  if request.unknown = [] ∧ request.file? = none then
    AddressExpr.CommandLine.answerInput request.options (← IO.getStdin) (← IO.getStdout)
    return 0
  let contents? ← match request.file? with
    | some name => AddressExpr.CommandLine.contentsOf? name
    | none => pure none
  let outcome := AddressExpr.CommandLine.runWith .bare args (fun _ => contents?) ""
  IO.print outcome.output
  IO.eprint outcome.complaint
  return outcome.status
