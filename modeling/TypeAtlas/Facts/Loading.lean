import TypeAtlas.Document.FileName
import TypeAtlas.Document.Yaml.Reader
import TypeAtlas.Error
import TypeAtlas.Facts.Document

/-!
# Loading facts

A table takes over all facts of a document at once, or none if the document
cannot be read.  Facts of a type that is known already are replaced.
-/

namespace TypeAtlas

namespace FactsTable

/-- Takes over the facts of a document, if it is one, and tells how many types
it lists. -/
def loadNode (table : FactsTable) (fault : FactsError)
    (node? : Option Document.Node) : Except FactsError (Nat × FactsTable) :=
  match node?.bind Facts.decodeDocument with
  | some types => .ok (types.length, table.insertAll types)
  | none => .error fault

def loadJson (table : FactsTable) (text : String) :
    Except FactsError (Nat × FactsTable) :=
  table.loadNode .malformedJson (Document.Json.read? text)

def loadYaml (table : FactsTable) (text : String) :
    Except FactsError (Nat × FactsTable) :=
  table.loadNode .malformedYaml (Document.Yaml.read? text)

/-- Takes over the facts of a file.  That the file cannot be read, so that it
has no text, is noticed before its format is. -/
def loadFile (table : FactsTable) (path : String) (text? : Option String) :
    Except FactsError (Nat × FactsTable) :=
  match text? with
  | none => .error .unreadableFile
  | some text =>
    match Document.extensionOf path with
    | "json" => table.loadJson text
    | "yaml" | "yml" => table.loadYaml text
    | extension => .error (.unsupportedFormat extension)

end FactsTable

end TypeAtlas
