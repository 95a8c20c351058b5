import MixedMarkup.CommandLine.Arguments
import MixedMarkup.Registry
import MixedMarkup.Settings.Layering
/-!
# The command line — what it does

The command highlights a document with the tokenizer of a MIME type, or
lists what it knows. What it reads and writes is given to it and taken
from it as values.
-/

namespace MixedMarkup

namespace CommandLine

/-- How a run ends. -/
structure Outcome where
  exitCode : Nat
  stdout : String
  stderr : String
  deriving DecidableEq

namespace Outcome

/-- A run that succeeds with an output. -/
def success (stdout : String) : Outcome := ⟨0, stdout, ""⟩

/-- A run that fails with a message. -/
def failure (stderr : String) : Outcome := ⟨1, "", stderr ++ "\n"⟩

end Outcome

/-- The version line. -/
def versionText : String := "htmlmixed 0.1.0\n"

/-- How the command is called. -/
def usageText : String :=
  "Highlight html documents with embedded javascript and css\n\n" ++
  "Usage: htmlmixed [OPTIONS] [path]\n\n" ++
  "Options:\n" ++
  "  -m, --mime <mime>                MIME type selecting the mode [default: text/html]\n" ++
  "  -f, --format <format>            Output format: simple or json [default: simple]\n" ++
  "  -c, --config <config>            TOML file layered over the default configuration\n" ++
  "      --indent-unit <indent-unit>  Override the indentation unit\n" ++
  "  -v, --verbose                    Log mode switches\n" ++
  "      --list-modes                 List registered modes and MIME types\n" ++
  "  -h, --help                       Print help\n" ++
  "  -V, --version                    Print version\n"

/-- The lines of a listing. -/
def unlines (lines : List String) : String := String.join (lines.map (· ++ "\n"))

/-- The MIME types of a registry, a line for each. -/
def mimeLines (r : Registry) : List String := r.mimeTypes.map fun m => s!"  {m.1} -> {m.2}"

/-- The listing of modes and MIME types. -/
def listing (r : Registry) : String :=
  unlines (["Available modes:", ""] ++ r.names.map ("  " ++ ·) ++
    ["", "MIME types:", ""] ++ mimeLines r)

/-- The layers of the configuration that the arguments ask for. -/
def layering (a : Arguments) : Except Settings.Problem Settings.Layering :=
  let base : Settings.Layering := {}
  let withConfig := match a.config with
    | some name => base.addFile name true
    | none => base
  match a.indentUnit with
  | some unit => withConfig.overrideIndentUnit unit
  | none => .ok withConfig

/-- The options that the arguments ask for. -/
def optionsOf (files : String → FileEntry) (a : Arguments) : Except Settings.Problem Options := do
  (← layering a).options files

/-- Highlight a document that has been read. -/
def highlightText (r : Registry) (a : Arguments) (source : String) : Outcome :=
  match r.highlightMime (a.mime.getD "text/html") source with
  | .ok spans => .success ((a.report.getD .simple).render spans ++ "\n")
  | .error f =>
    .failure ("\n".intercalate
      (["Highlight error: " ++ f.message, "", "Available MIME types:"] ++ mimeLines r))

/-- Highlight the document at a path. -/
def highlightFile (files : String → FileEntry) (r : Registry) (a : Arguments) (path : String) :
    Outcome :=
  let unreadable (cause : String) := Outcome.failure s!"Error reading '{path}': {cause}"
  match files path with
  | .text source => highlightText r a source
  | .missing => unreadable "No such file or directory (os error 2)"
  | .directory => unreadable "Is a directory (os error 21)"
  | .notText => unreadable "stream did not contain valid UTF-8"

/-- Do what the arguments ask for. -/
def perform (files : String → FileEntry) (a : Arguments) : Outcome :=
  match optionsOf files a with
  | .error p => .failure ("Configuration error: " ++ p.message)
  | .ok o =>
    match Registry.standard o with
    | .error f => .failure ("Mode error: " ++ f.message)
    | .ok r =>
      if a.listModes then .success (listing r)
      else highlightFile files r a (a.path.getD "")

/-- Run the command on its arguments. -/
def run (files : String → FileEntry) (args : List String) : Outcome :=
  match Arguments.read args with
  | .ok a => perform files a
  | .error .version => .success versionText
  | .error .help => .success usageText
  | .error .usage => ⟨2, "", usageText⟩

/-- The names of all files that a run may read. -/
def fileNames (args : List String) : List String :=
  match Arguments.read args with
  | .ok a =>
    a.path.toList ++ a.config.toList.flatMap Settings.Layering.candidates
  | .error _ => []

end CommandLine

end MixedMarkup
