import TypeAtlas.Text.LetterCase

/-!
# Names of files

The format of a document is told by the extension of its file: what follows the
last point of the file's name.  A point that starts the name makes no
extension.
-/

namespace TypeAtlas

namespace Document

/-- The parts of a path that name files or directories. -/
def pathParts (path : String) : List (List Char) :=
  (path.toList.splitOn '/').filter fun part => part ≠ [] ∧ part ≠ ['.']

/-- The name of the file that a path leads to, if it names one. -/
def fileName? (path : String) : Option (List Char) :=
  (pathParts path).getLast?.filter (· ≠ ['.', '.'])

/-- The extension of a name; it is empty where there is none. -/
def extensionOfName (name : List Char) : List Char :=
  let reversed := name.reverse
  let stem := (reversed.dropWhile (· != '.')).drop 1
  if stem.isEmpty then [] else (reversed.takeWhile (· != '.')).reverse

/-- The extension of the file that a path leads to, in small letters. -/
def extensionOf (path : String) : String :=
  Text.lowerAscii <|
    String.ofList (((fileName? path).map extensionOfName).getD [])

end Document

end TypeAtlas
