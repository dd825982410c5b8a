import TypeAtlas.Inspector.Plan

/-!
# Running commands on files

A workspace is a directory with the contents of the files below it.  A command
that is run in a workspace gives an exit code, what it prints, and the
workspace that it leaves.
-/

namespace TypeAtlas

namespace Inspector

/-- A file with the parts of the path that leads to it. -/
abbrev PlacedFile := List (List Char) × String

/-- The files of a directory, with those of the directories below it. -/
structure Workspace where
  files : List PlacedFile := []

namespace Workspace

/-- The workspace with a file under each of some paths. -/
def ofFiles (files : List (String × String)) : Workspace :=
  ⟨files.map fun (path, content) => (Document.pathParts path, content)⟩

/-- Whether a path can only lead to a directory. -/
def namesDirectory (path : String) : Bool :=
  path.endsWith "/"

/-- The content of the file that a path leads to. -/
def read? (workspace : Workspace) (path : String) : Option String :=
  if namesDirectory path then none
  else workspace.files.lookup (Document.pathParts path)

/-- Whether the parts of a path lead to a directory. -/
def isDirectory (workspace : Workspace) (parts : List (List Char)) : Bool :=
  parts.isEmpty || workspace.files.any fun (place, _) =>
    parts.isPrefixOf place && parts != place

/-- The workspace with a file written.  A file can be written into a directory
that exists, and in place of no directory. -/
def write? (workspace : Workspace) (path content : String) :
    Option Workspace :=
  let parts := Document.pathParts path
  if workspace.isDirectory parts || namesDirectory path ||
      !workspace.isDirectory parts.dropLast then
    none
  else
    some ⟨(parts, content) ::
      workspace.files.filter fun (place, _) => place != parts⟩

/-- The files that another workspace does not have, by their paths. -/
def newFiles (workspace before : Workspace) : List (String × String) :=
  (workspace.files.filter fun (place, _) =>
      (before.files.lookup place).isNone).map fun (place, content) =>
    (String.ofList (['/'].intercalate place), content)

end Workspace

/-- What running a command gives. -/
structure Outcome where
  exitCode : Nat
  output : String := ""
  /-- Why the command failed, if it did. -/
  failure? : Option String := none
  workspace : Workspace

def failureCode : Nat := 1

/-- The exit code of a command line that is refused. -/
def usageCode : Nat := 2

def run (workspace : Workspace) (words : List String) : Outcome :=
  match Command.parse? words with
  | none => { exitCode := usageCode, workspace }
  | some command =>
    match plan workspace.read? command with
    | .print output => { exitCode := 0, output, workspace }
    | .fail reason =>
      { exitCode := failureCode, failure? := some reason, workspace }
    | .write path content confirmation failure =>
      match workspace.write? path content with
      | some workspace => { exitCode := 0, output := confirmation, workspace }
      | none =>
        { exitCode := failureCode, failure? := some failure, workspace }

end Inspector

end TypeAtlas
