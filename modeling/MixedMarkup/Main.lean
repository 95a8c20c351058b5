import MixedMarkup.CommandLine.Run
/-!
# The command

The outer layer: read the files that the arguments name, run the command,
and write what it answers.
-/

namespace MixedMarkup

/-- What is found under a file name. -/
def readEntry (name : String) : IO FileEntry := do
  try
    return .ofBytes (← IO.FS.readBinFile name)
  catch
    | .noFileOrDirectory .. => return .missing
    | .inappropriateType .. => return .directory
    | _ => return .missing

end MixedMarkup

open MixedMarkup in
/-- Run the command on the arguments of the process. -/
def main (args : List String) : IO UInt32 := do
  let entries ← (CommandLine.fileNames args).mapM fun name => return (name, ← readEntry name)
  let outcome := CommandLine.run (fun name => (entries.lookup name).getD .missing) args
  IO.print outcome.stdout
  IO.eprint outcome.stderr
  return outcome.exitCode.toUInt32
