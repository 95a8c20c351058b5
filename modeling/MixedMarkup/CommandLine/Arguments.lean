import MixedMarkup.Report
import MixedMarkup.Settings.Conversion
/-!
# The command line — arguments

Arguments are read one after the other. An option takes its value after
an equals sign, in the next argument or, in its short form, from the rest
of the same argument; short flags may be joined. Two hyphens end the
options. The first request for help or the version, and the first
mistake, ends the reading.
-/

namespace MixedMarkup

namespace CommandLine

/-- What the arguments ask for. -/
structure Arguments where
  /-- The document. -/
  path : Option String := none
  /-- The MIME type that selects the tokenizer. -/
  mime : Option String := none
  report : Option Report := none
  /-- A configuration file. -/
  config : Option String := none
  indentUnit : Option Nat := none
  verbose : Bool := false
  listModes : Bool := false

/-- Why the reading of arguments ends early. -/
inductive Stop where
  | help
  | version
  /-- The arguments are malformed. -/
  | usage
  deriving DecidableEq

/-- An option that takes a value. -/
inductive ValueOption where
  | mime
  | format
  | config
  | indentUnit
  deriving DecidableEq

/-- An option of any kind. -/
inductive Opt where
  | value (o : ValueOption)
  | verbose
  | listModes
  | stop (s : Stop)
  deriving DecidableEq

/-- The option with a long name. -/
def longOption? : String → Option Opt
  | "mime" => some (.value .mime)
  | "format" => some (.value .format)
  | "config" => some (.value .config)
  | "indent-unit" => some (.value .indentUnit)
  | "verbose" => some .verbose
  | "list-modes" => some .listModes
  | "help" => some (.stop .help)
  | "version" => some (.stop .version)
  | _ => none

/-- The option with a short name. -/
def shortOption? : Char → Option Opt
  | 'm' => some (.value .mime)
  | 'f' => some (.value .format)
  | 'c' => some (.value .config)
  | 'v' => some .verbose
  | 'h' => some (.stop .help)
  | 'V' => some (.stop .version)
  | _ => none

namespace Arguments

/-- Set something that may be set once. -/
def once {α : Type} (old : Option α) (new : α) : Except Stop (Option α) :=
  if old.isNone then .ok (some new) else .error .usage

/-- Set the value of an option. -/
def setValue (o : ValueOption) (value : String) (a : Arguments) : Except Stop Arguments :=
  match o with
  | .mime => do return { a with mime := ← once a.mime value }
  | .config => do return { a with config := ← once a.config value }
  | .format => do
    let report ← match value with
      | "simple" => .ok Report.simple
      | "json" => .ok Report.json
      | _ => .error .usage
    return { a with report := ← once a.report report }
  | .indentUnit => do
    match Settings.unsignedOfText? value with
    | some n => return { a with indentUnit := ← once a.indentUnit n }
    | none => .error .usage

/-- Set an option that takes no value. -/
def setFlag (o : Opt) (a : Arguments) : Except Stop Arguments :=
  match o with
  | .verbose => if a.verbose then .error .usage else .ok { a with verbose := true }
  | .listModes => if a.listModes then .error .usage else .ok { a with listModes := true }
  | .stop s => .error s
  | .value _ => .error .usage

/-- Take the document. -/
def setPath (path : String) (a : Arguments) : Except Stop Arguments := do
  return { a with path := ← once a.path path }

end Arguments

/-- Whether an argument is an option and cannot be a value. -/
def looksLikeOption (arg : String) : Bool := arg.toList.head? == some '-' && arg != "-"

/-- What an argument leaves to be read: the options so far, and an option that waits for its
value. -/
structure Pending where
  arguments : Arguments
  waiting : Option ValueOption

/-- Read a long option after its hyphens. -/
def readLong (text : List Char) (a : Arguments) : Except Stop Pending := do
  let name := String.ofList (text.takeWhile (· != '='))
  match longOption? name, text.dropWhile (· != '=') with
  | some (.value o), _ :: value => return ⟨← a.setValue o (String.ofList value), none⟩
  | some (.value o), [] => return ⟨a, some o⟩
  | some o, [] => return ⟨← a.setFlag o, none⟩
  | _, _ => .error .usage

/-- Read joined short options after their hyphen. -/
def readShort : List Char → Arguments → Except Stop Pending
  | [], a => .ok ⟨a, none⟩
  | c :: text, a =>
    match shortOption? c with
    | none => .error .usage
    | some (.value o) =>
      match text with
      | [] => .ok ⟨a, some o⟩
      | '=' :: value | value => do return ⟨← a.setValue o (String.ofList value), none⟩
    | some o => do readShort text (← a.setFlag o)

/-- Read arguments after those already read. -/
def readArguments : List String → Pending → Except Stop Arguments
  | [], ⟨a, none⟩ => .ok a
  | [], ⟨_, some _⟩ => .error .usage
  | arg :: args, ⟨a, some o⟩ =>
    if looksLikeOption arg then .error .usage
    else do readArguments args ⟨← a.setValue o arg, none⟩
  | arg :: args, ⟨a, none⟩ =>
    match arg.toList with
    | ['-', '-'] => args.foldlM (fun a path => a.setPath path) a
    | '-' :: '-' :: text => do readArguments args (← readLong text a)
    | '-' :: c :: text => do readArguments args (← readShort (c :: text) a)
    | _ => do readArguments args ⟨← a.setPath arg, none⟩

/-- Read all arguments. There has to be a document unless the modes are to be listed. -/
def Arguments.read (args : List String) : Except Stop Arguments := do
  let a ← readArguments args ⟨{}, none⟩
  if a.path.isNone && !a.listModes then .error .usage else return a

end CommandLine

end MixedMarkup
