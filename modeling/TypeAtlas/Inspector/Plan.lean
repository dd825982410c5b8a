import TypeAtlas.Config.Loading
import TypeAtlas.Document.Json.Printer
import TypeAtlas.Facts.Loading
import TypeAtlas.Inspector.CommandLine
import TypeAtlas.Report

/-!
# What commands come to

Once the files are read that a command names, all that is left to do follows:
printing a text, or writing a file and confirming that, or failing for a
reason.
-/

namespace TypeAtlas

namespace Inspector

/-- What is left to do for a command. -/
inductive Plan where
  | print (text : String)
  /-- Writes a file; what is printed then, and how it fails. -/
  | write (path content confirmation failure : String)
  | fail (reason : String)
  deriving Repr, DecidableEq

/-- The contents of files by their paths; there are none of missing files. -/
abbrev Files := String → Option String

/-- The core types together with those of a file. -/
def loadFacts (files : Files) (path : String) : Except String FactsTable :=
  match FactsTable.ofCoreTypes.loadFile path (files path) with
  | .ok (_, table) => .ok table
  | .error _ => .error s!"Failed to load facts from {path}"

/-- The configuration of a file, or the default one. -/
def loadConfig (files : Files) (path? : Option String) : Except String Config :=
  match path? with
  | none => .ok {}
  | some path =>
    (Config.ofFile path (files path)).mapError fun _ =>
      s!"Failed to load config from {path}"

/-- Looks up a type, and once more where its assembly fails, since the failed
descriptor can be described then. -/
def lookupAgain (registry : Registry) (text : String) :
    Except Stop Descriptor × Registry :=
  match registry.run (Registry.lookup text) 0 with
  | (.error (.error (.initialization ..)), registry) =>
    registry.run (Registry.lookup text) 0
  | found => found

/-- The reports on types, in the order in which they are asked for. -/
def reportsOn (format : Format) :
    (types : List String) → Registry → Except String (List Report)
  | [], _ => .ok []
  | text :: rest, registry =>
    match lookupAgain registry text with
    | (.error _, _) => .error s!"Cannot describe '{text}'"
    | (.ok descriptor, registry) => do
      let report :=
        Report.ofBody descriptor.expr (registry.body descriptor) format
      return report :: (← reportsOn format rest registry)

/-- Reports as one document, or one after the other as text. -/
def printReports (asDocument : Bool) (reports : List Report) : String :=
  if asDocument then
    Document.Json.pretty 0 (.list (reports.map Report.encode)) ++ "\n"
  else
    String.join (reports.map Report.toText)

def describe (files : Files) (facts : String) (config? : Option String)
    (format : Format) (asDocument : Bool) (types : List String) :
    Except String String := do
  let table ← loadFacts files facts
  let config ← loadConfig files config?
  let sources : Sources := { provider := Provider.ofTable table, config }
  return printReports asDocument (← reportsOn format types { sources })

def listLine (facts : TypeFacts) : String :=
  s!"{facts.name} {facts.category.name}\n"

def list (files : Files) (facts : String) : Except String String := do
  let table ← loadFacts files facts
  return String.join (table.types.values.map listLine)

def exampleConfig : Config :=
  (({ : Config }.withImplementation "List" "ArrayList").withImplementation
    "Map" "HashMap").withNotBean "Thread"

def exampleFile : String :=
  "# typemeta registry configuration\n\n" ++ exampleConfig.toToml

def plan (files : Files) : Command → Plan
  | .describe facts config? format asDocument types =>
    match describe files facts config? format asDocument types with
    | .ok text => .print text
    | .error reason => .fail reason
  | .list facts =>
    match list files facts with
    | .ok text => .print text
    | .error reason => .fail reason
  | .generate output =>
    .write output exampleFile s!"Generated config: {output}\n"
      s!"Failed to write {output}"

end Inspector

end TypeAtlas
