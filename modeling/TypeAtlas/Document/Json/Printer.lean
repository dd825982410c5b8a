import TypeAtlas.Document.Node
import TypeAtlas.Numeral.Hexadecimal

/-!
# Printing JSON

A document is printed with one entry or item per line, two spaces deeper than
the brackets around it.  Only quotes, backslashes and control characters are
escaped.
-/

namespace TypeAtlas

namespace Document

namespace Json

def escape (character : Char) : List Char :=
  match character with
  | '"' => ['\\', '"']
  | '\\' => ['\\', '\\']
  | '\n' => ['\\', 'n']
  | '\r' => ['\\', 'r']
  | '\t' => ['\\', 't']
  | _ =>
    if character.toNat = 0x08 then ['\\', 'b']
    else if character.toNat = 0x0C then ['\\', 'f']
    else if character.toNat < 0x20 then
      '\\' :: 'u' :: Numeral.hexadecimal 4 character.toNat
    else [character]

def quote (text : String) : String :=
  String.ofList ('"' :: text.toList.flatMap escape ++ ['"'])

/-- A line break and the indentation of a level. -/
def lineAt (level : Nat) : String :=
  String.ofList ('\n' :: List.replicate (2 * level) ' ')

def bracketed (opening closing : Char) (level : Nat) (pieces : List String) :
    String :=
  if pieces.isEmpty then String.ofList [opening, closing]
  else
    opening.toString ++ lineAt (level + 1) ++
      String.intercalate ("," ++ lineAt (level + 1)) pieces ++
      lineAt level ++ closing.toString

mutual

def pretty (level : Nat) : Node → String
  | .null => "null"
  | .boolean value => if value then "true" else "false"
  | .number literal => literal
  | .text value | .quoted value | .plain value => quote value
  | .brokenText => quote ""
  | .list items => bracketed '[' ']' level (prettyItems (level + 1) items)
  | .table entries =>
    bracketed '{' '}' level (prettyEntries (level + 1) entries)
  | .tagged _ content => pretty level content

/-- The items of a sequence, printed at a level. -/
def prettyItems (level : Nat) : List Node → List String
  | [] => []
  | item :: rest => pretty level item :: prettyItems level rest

/-- The entries of a table, printed at a level. -/
def prettyEntries (level : Nat) : List (Node × Node) → List String
  | [] => []
  | (key, value) :: rest =>
    (pretty level key ++ ": " ++ pretty level value) ::
      prettyEntries level rest

end

end Json

end Document

end TypeAtlas
