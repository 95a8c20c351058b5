import MixedMarkup.FileEntry
import MixedMarkup.Settings.Conversion
import MixedMarkup.Settings.Toml
/-!
# Settings — layers

A configuration starts from the default options. Files are laid over them
in order, and overrides of single values over all files. Files are looked
up by name, first as given and then with the extension `.toml`. They are in
TOML, but nothing in the merging asks how the entries of a file are written,
so the reader of files is a parameter.
-/

namespace MixedMarkup

namespace Settings

/-- The entries that the text of a file writes; `none` if it is malformed. -/
abbrev FileReader := String → Option (List (String × Value))

/-- A file to be laid over the configuration. -/
structure Layer where
  name : String
  /-- Whether the file has to be there. -/
  required : Bool
  deriving DecidableEq

/-- The layers of a configuration over the defaults. -/
structure Layering where
  layers : List Layer := []
  overrides : List (Path × Value) := []

namespace Layering

/-- Lay a file over what is there. -/
def addFile (name : String) (required : Bool) (l : Layering) : Layering :=
  { l with layers := l.layers ++ [⟨name, required⟩] }

/-- Override the value at a path. -/
def override (path : String) (value : Value) (l : Layering) : Except Problem Layering :=
  match Path.read? path with
  | some p => .ok { l with overrides := l.overrides ++ [(p, value)] }
  | none => .error (.pathSyntax path)

/-- Override the indentation unit. -/
def overrideIndentUnit (unit : Nat) (l : Layering) : Except Problem Layering :=
  if unit ≤ maxInteger then l.override "indent.unit" (.int unit) else .error (.unitTooLarge unit)

/-- The configuration that the default options stand for. -/
def defaults : Value :=
  let o : Options := {}
  .table [
    ("indent", .table [
      ("unit", .int o.indentUnit),
      ("multiline_tag_factor", .int o.tagLineFactor),
      ("multiline_tag_past_tag", .bool o.tagLinePastName)]),
    ("script", .table [
      ("javascript_types", .text o.scriptTypes),
      ("template_types", .list (o.templateTypes.map .text))])]

/-- The file names under which a layer is looked for. -/
def candidates (name : String) : List String := [name, name ++ ".toml"]

/-- The content of the first of the files that is there. -/
def findFile? (files : String → FileEntry) (name : String) : Option FileEntry :=
  (candidates name).map files |>.find? fun
    | .text _ | .notText => true
    | .missing | .directory => false

/-- The entries of a layer; an optional file that is missing has none. -/
def layerEntries (files : String → FileEntry) (layer : Layer) (read? : FileReader := Toml.read?) :
    Except Problem (List (String × Value)) :=
  match findFile? files layer.name with
  | some (.text content) =>
    match read? content with
    | some entries => .ok entries
    | none => .error (.malformedFile layer.name)
  | some _ => .error (.malformedFile layer.name)
  | none => if layer.required then .error (.missingFile layer.name) else .ok []

/-- Lay an entry of a file over a configuration. A key that writes a path stands for it. -/
def layEntry (config : Value) (entry : String × Value) : Value :=
  let path := (Path.read? entry.1).getD [.key entry.1.toLower]
  Value.update entry.2.overlay path (some config)

/-- The configuration with all its layers. -/
def merged (files : String → FileEntry) (l : Layering) (read? : FileReader := Toml.read?) :
    Except Problem Value := do
  let layers ← l.layers.mapM fun layer => layerEntries files layer read?
  let config := layers.flatten.foldl layEntry defaults
  return l.overrides.foldl (fun config o => Value.update o.2.overlay o.1 (some config)) config

/-- The options of the configuration. -/
def options (files : String → FileEntry) (l : Layering) (read? : FileReader := Toml.read?) :
    Except Problem Options := do
  (← l.merged files read?).toOptions

end Layering

end Settings

end MixedMarkup
