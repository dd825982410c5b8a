import TypeAtlas.Config.Document
import TypeAtlas.Document.FileName
import TypeAtlas.Document.Json.Reader
import TypeAtlas.Document.Toml.Printer
import TypeAtlas.Document.Toml.Reader
import TypeAtlas.Document.Yaml.Reader

/-!
# Loading configurations

A configuration is read from TOML, YAML or JSON, and is checked right after.
It is written in TOML.
-/

namespace TypeAtlas

namespace Config

open Document (Node)

/-- Whether data are those of a variant that has none, in TOML. -/
def isTomlUnit : Node → Bool
  | .list items => items.isEmpty
  | .table entries => entries.isEmpty
  | _ => false

/-- The configuration in a document, which must be one and valid. -/
def ofNode (fault : ConfigError) (isUnit : Node → Bool)
    (node? : Option Node) : Except ConfigError Config :=
  match node?.bind (decode isUnit) with
  | some config => config.validate
  | none => .error fault

def ofToml (text : String) : Except ConfigError Config :=
  ofNode .malformedToml isTomlUnit (Document.Toml.read? text)

def ofYaml (text : String) : Except ConfigError Config :=
  ofNode .malformedYaml Node.isUnit (Document.Yaml.read? text)

def ofJson (text : String) : Except ConfigError Config :=
  ofNode .malformedJson Node.isUnit (Document.Json.read? text)

/-- The configuration in a file.  That the file cannot be read, so that it has
no text, is noticed before its format is. -/
def ofFile (path : String) (text? : Option String) :
    Except ConfigError Config :=
  match text? with
  | none => .error .unreadableFile
  | some text =>
    match Document.extensionOf path with
    | "toml" => ofToml text
    | "yaml" | "yml" => ofYaml text
    | "json" => ofJson text
    | extension => .error (.unsupportedFormat extension)

def toToml (config : Config) : String :=
  Document.Toml.print config.encode

end Config

end TypeAtlas
