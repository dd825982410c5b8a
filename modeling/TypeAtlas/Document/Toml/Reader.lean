import TypeAtlas.Document.Toml.Literal
import TypeAtlas.Document.Toml.Quoted
import TypeAtlas.Document.Toml.Table

/-!
# Reading TOML

The grammar of TOML 1.0.  A document is read line by line: a header opens a
table, and other lines add a key with its value to the open table.
-/

namespace TypeAtlas

namespace Document

namespace Toml

/-- Whether a character separates the tokens of a line. -/
def isSpace (character : Char) : Bool :=
  character == ' ' || character == '\t'

def skipSpaces (text : List Char) : List Char :=
  text.dropWhile isSpace

/-- A text with plain line breaks in place of those of two characters. -/
def plainBreaks : List Char → List Char
  | '\r' :: '\n' :: rest => '\n' :: plainBreaks rest
  | character :: rest => character :: plainBreaks rest
  | [] => []

/-- A text without the spaces, line breaks and comments that it starts with, the
start being inside of a comment or not. -/
def skipFiller : (isComment : Bool) → List Char → List Char
  | _, [] => []
  | isComment, character :: rest =>
    if character == '\n' then skipFiller false rest
    else if isComment then
      if isControl character then character :: rest else skipFiller true rest
    else if character == '#' then skipFiller true rest
    else if isSpace character then skipFiller false rest
    else character :: rest

/-- Reads the parts of a key and the points between them. -/
def readKeyParts : (rounds : Nat) → List Char →
    Option (List String × List Char)
  | 0, _ => none
  | rounds + 1, text => do
    let (part, rest) ← readKeyPart text
    match skipSpaces rest with
    | '.' :: rest =>
      let (parts, rest) ← readKeyParts rounds (skipSpaces rest)
      return (String.ofList part :: parts, rest)
    | rest => return ([String.ofList part], rest)

/-- Reads a key: the parts before its last point, and the last part. -/
def readKey (text : List Char) : Option (List String × String × List Char) := do
  let (parts, rest) ← readKeyParts (text.length + 1) text
  let last ← parts.getLast?
  return (parts.dropLast, last, rest)

/-- Reads a key, an equals sign and a value. -/
def readPair? (readValue : List Char → Option (Node × List Char))
    (text : List Char) :
    Option ((List String × String × Node) × List Char) := do
  let (path, key, rest) ← readKey text
  match skipSpaces rest with
  | '=' :: rest =>
    let (value, rest) ← readValue (skipSpaces rest)
    return ((path, key, value), rest)
  | _ => none

/-- Reads the items of a list up to its closing bracket, filler before the first
item being read.  The last item may be followed by a comma. -/
def readItems (readValue : List Char → Option (Node × List Char)) :
    (rounds : Nat) → List Char → Option (List Node × List Char)
  | 0, _ => none
  | rounds + 1, text =>
    match text with
    | ']' :: rest => some ([], rest)
    | _ => do
      let (item, rest) ← readValue text
      match skipFiller false rest with
      | ',' :: rest =>
        let (items, rest) ← readItems readValue rounds (skipFiller false rest)
        return (item :: items, rest)
      | ']' :: rest => return ([item], rest)
      | _ => none

/-- Reads the entries of a table in braces, of which there is at least one. -/
def readEntries (readValue : List Char → Option (Node × List Char)) :
    (rounds : Nat) → Entries → List Char → Option (Entries × List Char)
  | 0, _, _ => none
  | rounds + 1, entries, text => do
    let ((path, key, value), rest) ← readPair? readValue text
    let entries ← addValue path key value entries
    match skipSpaces rest with
    | ',' :: rest => readEntries readValue rounds entries (skipSpaces rest)
    | '}' :: rest => return (entries, rest)
    | _ => none

/-- Reads one value with at most `levels` levels of nesting. -/
def readValue : (levels : Nat) → List Char → Option (Node × List Char)
  | 0, _ => none
  | levels + 1, text =>
    match text with
    | '[' :: rest =>
      (readItems (readValue levels) (rest.length + 1)
        (skipFiller false rest)).map fun (items, rest) => (.list items, rest)
    | '{' :: rest =>
      match skipSpaces rest with
      | '}' :: rest => some (.table [], rest)
      | rest =>
        (readEntries (readValue levels) (rest.length + 1) [] rest).map
          fun (entries, rest) => (.table (nodesOfEntries entries), rest)
    | '"' :: _ | '\'' :: _ =>
      (readText text).map fun (content, rest) =>
        (.text (String.ofList content), rest)
    | _ => readLiteralWord text

/-- What was read of a document, and the path of the open table. -/
structure Draft where
  entries : Entries := []
  path : List String := []

def Draft.add (draft : Draft) (path : List String) (key : String)
    (value : Node) : Option Draft :=
  (alterTable false (fun _ => addValue path key value) draft.path .header
    draft.entries).map fun entries => { draft with entries }

def Draft.openAt (draft : Draft) (path : List String) (key : String)
    (open_ : String → Entries → Option Entries) : Option Draft :=
  (alterTable false (fun _ => open_ key) path .header draft.entries).map
    fun entries => { entries, path := path ++ [key] }

def readHeader (draft : Draft) (text : List Char) :
    Option (Draft × List Char) := do
  match text with
  | '[' :: text =>
    let (path, key, rest) ← readKey (skipSpaces text)
    match skipSpaces rest with
    | ']' :: ']' :: rest => return (← draft.openAt path key openListed, rest)
    | _ => none
  | text =>
    let (path, key, rest) ← readKey (skipSpaces text)
    match skipSpaces rest with
    | ']' :: rest => return (← draft.openAt path key openTable, rest)
    | _ => none

/-- The text behind a line of which only a comment may be left. -/
def finishLine (text : List Char) : Option (List Char) :=
  match skipSpaces text with
  | [] => some []
  | '\n' :: rest => some rest
  | '#' :: rest =>
    match rest.dropWhile (!isControl ·) with
    | [] => some []
    | '\n' :: rest => some rest
    | _ => none
  | _ => none

def readLine (draft : Draft) (text : List Char) :
    Option (Draft × List Char) :=
  match text with
  | '[' :: rest => readHeader draft rest
  | _ => do
    let ((path, key, value), rest) ←
      readPair? (readValue (text.length + 1)) text
    return (← draft.add path key value, rest)

def readLines : (rounds : Nat) → Draft → List Char → Option Entries
  | 0, _, _ => none
  | rounds + 1, draft, text =>
    match skipFiller false text with
    | [] => some draft.entries
    | text => do
      let (draft, rest) ← readLine draft text
      readLines rounds draft (← finishLine rest)

/-- A text without the mark of its byte order. -/
def withoutByteOrderMark : List Char → List Char
  | character :: rest =>
    if character.toNat == 0xFEFF then rest else character :: rest
  | [] => []

def read? (text : String) : Option Node :=
  let text := plainBreaks (withoutByteOrderMark text.toList)
  (readLines (text.length + 1) {} text).map fun entries =>
    .table (nodesOfEntries entries)

end Toml

end Document

end TypeAtlas
