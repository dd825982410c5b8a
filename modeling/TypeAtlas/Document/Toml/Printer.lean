import TypeAtlas.Document.Node
import TypeAtlas.Document.Toml.Quoted

/-!
# Printing TOML

A document is printed as lines of keys with their values, and then its tables
under headers.  A list of several items has one item on each line.
-/

namespace TypeAtlas

namespace Document

namespace Toml

/-- The characters before an item that stands on a line of its own. -/
def itemIndent : List Char := [' ', ' ', ' ', ' ']

def bracketed : List (List Char) → List Char
  | [] => ['[', ']']
  | [item] => '[' :: item ++ [']']
  | items =>
    '[' :: '\n' ::
      items.flatMap (fun item => itemIndent ++ item ++ [',', '\n']) ++ [']']

def keyText (key : Node) : List Char :=
  (key.text?.getD "").toList

mutual

/-- A value as it is printed behind its key. -/
def writeValue : Node → List Char
  | .text value | .quoted value | .plain value => writeText value.toList
  | .boolean value => (if value then "true" else "false").toList
  | .number literal => literal.toList
  | .list items => bracketed (writeValues items)
  | .table [] => ['{', '}']
  | .table entries =>
    '{' :: ' ' :: [',', ' '].intercalate (writePairs entries) ++ [' ', '}']
  | .tagged _ content => writeValue content
  | .null | .brokenText => writeText []

/-- The values of a list, each as it is printed. -/
def writeValues : List Node → List (List Char)
  | [] => []
  | value :: rest => writeValue value :: writeValues rest

/-- The entries of a table, each as it is printed. -/
def writePairs : List (Node × Node) → List (List Char)
  | [] => []
  | (key, value) :: rest =>
    (writeKey (keyText key) ++ [' ', '=', ' '] ++ writeValue value) ::
      writePairs rest

end

/-- The entries of a table, one on each line. -/
def writeLines (entries : List (Node × Node)) : List Char :=
  (writePairs entries).flatMap fun pair => pair ++ ['\n']

def isSection : Node × Node → Bool
  | (_, .table _) => true
  | _ => false

/-- A table with its header, behind an empty line. -/
def writeSection : Node × Node → List Char
  | (key, .table entries) =>
    '\n' :: '[' :: writeKey (keyText key) ++ [']', '\n'] ++ writeLines entries
  | _ => []

/-- A document: the plain entries of a table, and then its tables.  Other nodes
are printed as values. -/
def print : Node → String
  | .table entries =>
    String.ofList
      (writeLines (entries.filter fun entry => !isSection entry) ++
        entries.flatMap writeSection)
  | node => String.ofList (writeValue node)

end Toml

end Document

end TypeAtlas
