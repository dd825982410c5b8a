import TypeAtlas.Numeral.Reading

/-!
# Document trees

Facts and configurations are read from documents in several formats.  All of
them become one tree, in which a node records no more than the format said: an
unquoted scalar stays undecided until it is known what is wanted of it, and
entries of a table keep their order and their repetitions.  What a reader wants
of a node is asked with one of the functions below, each of which refuses nodes
of another kind.
-/

namespace TypeAtlas

namespace Document

/-- A node of a document. -/
inductive Node where
  /-- The null literal. -/
  | null
  /-- A truth value. -/
  | boolean (value : Bool)
  /-- A number, or another literal that is no string and no truth value. -/
  | number (literal : String)
  /-- A string. -/
  | text (value : String)
  /-- A string literal whose escapes stand for no text. -/
  | brokenText
  /-- A quoted scalar: text, whatever it looks like. -/
  | quoted (value : String)
  /-- An unquoted scalar, whose kind depends on what is wanted of it. -/
  | plain (value : String)
  /-- A sequence of nodes. -/
  | list (items : List Node)
  /-- A sequence of keys with their values. -/
  | table (entries : List (Node × Node))
  /-- A node that carries a tag. -/
  | tagged (tag : String) (content : Node)
  deriving Repr, Inhabited

namespace Node

def record (entries : List (String × Node)) : Node :=
  .table (entries.map fun (key, value) => (.text key, value))

def texts (values : List String) : Node :=
  .list (values.map .text)

/-- The node of a value that may be missing. -/
def optional (encode : α → Node) : Option α → Node
  | some value => encode value
  | none => .null

/-- The tag of truth values in the common tag namespace. -/
def booleanTag : String := "tag:yaml.org,2002:bool"

/-- The tag of null in the common tag namespace. -/
def nullTag : String := "tag:yaml.org,2002:null"

/-- Whether an unquoted scalar is one of the words for null. -/
def isNullWord (word : String) : Bool :=
  word == "null" || word == "Null" || word == "NULL" || word == "~"

def truth? (word : String) : Option Bool :=
  if word == "true" || word == "True" || word == "TRUE" then some true
  else if word == "false" || word == "False" || word == "FALSE" then some false
  else none

def untagged : Node → Node
  | .tagged _ content => untagged content
  | node => node

/-- The node as text: a string, or any scalar of a format with plain ones. -/
def text? (node : Node) : Option String :=
  match node.untagged with
  | .text value | .quoted value | .plain value => some value
  | _ => none

def boolean? : Node → Option Bool
  | .boolean value => some value
  | .plain word => truth? word
  | .tagged tag content =>
    if tag == booleanTag then content.text?.bind truth? else none
  | _ => none

/-- The node as a value that may be left out by null. -/
def optional? (decode : Node → Option α) : Node → Option (Option α)
  | .null => some none
  | .plain word =>
    if word.isEmpty || isNullWord word then some none
    else (decode (.plain word)).map some
  | .tagged tag (.plain word) =>
    if tag == nullTag then
      if isNullWord word then some none else none
    else
      (decode (.tagged tag (.plain word))).map some
  | node => (decode node).map some

/-- The node as a sequence; an empty unquoted scalar is an empty one. -/
def items? (node : Node) : Option (List Node) :=
  match node.untagged with
  | .list items => some items
  | .plain word => if word.isEmpty then some [] else none
  | _ => none

def listOf? (decode : Node → Option α) (node : Node) : Option (List α) :=
  node.items?.bind fun items => items.mapM decode

/-- The entries of a table; an empty unquoted scalar is an empty one. -/
def entries? (node : Node) : Option (List (Node × Node)) :=
  match node.untagged with
  | .table entries => some entries
  | .plain word => if word.isEmpty then some [] else none
  | _ => none

/-- The node as a table from texts to values, repetitions kept. -/
def entriesOf? (decode : Node → Option α) (node : Node) :
    Option (List (String × α)) :=
  node.entries?.bind fun entries =>
    entries.mapM fun (key, value) => do
      return (← key.text?, ← decode value)

/-- The node as one of several named variants, with its data if it carries any.
Data are written by a table with one entry, or by a tag. -/
def variant? : Node → Option (String × Option Node)
  | .text name | .quoted name | .plain name => some (name, none)
  | .table [(.text name, content)] => some (name, some content)
  | .tagged tag content =>
    match tag.toList with
    | '!' :: name :: rest => some (String.ofList (name :: rest), some content)
    | _ => content.text?.map fun name => (name, none)
  | _ => none

/-- Whether the data of a variant are those of one that has none. -/
def isUnit : Node → Bool
  | .null => true
  | .plain word => word.isEmpty || isNullWord word
  | _ => false

/-- The node as a variant without data, found by its name; `isUnit` tells which
data stand for none. -/
def enumeratedBy? (isUnit : Node → Bool) (variants : List (String × α))
    (node : Node) : Option α := do
  let (name, content) ← node.variant?
  let chosen ← variants.lookup name
  if content.all isUnit then some chosen else none

/-- The node as a variant without data, found by its name. -/
def enumerated? (variants : List (String × α)) (node : Node) : Option α :=
  enumeratedBy? isUnit variants node

/-- The values given for the known fields of a record.  A table gives them by
name, each at most once, and its other entries are passed over; a sequence gives
them by position and must not be longer than the fields. -/
def fields? (known : List String) (node : Node) :
    Option (List (String × Node)) :=
  match node.untagged with
  | .list items =>
    if items.length ≤ known.length then some (known.zip items) else none
  | _ => do
    let entries ← node.entriesOf? some
    let given := entries.filter fun (key, _) => known.contains key
    if (given.map Prod.fst).Nodup then some given else none

def required (name : String) (decode : Node → Option α)
    (fields : List (String × Node)) : Option α :=
  (fields.lookup name).bind decode

/-- A field with a default for when it is not given. -/
def defaulted (name : String) (fallback : α) (decode : Node → Option α)
    (fields : List (String × Node)) : Option α :=
  match fields.lookup name with
  | some node => decode node
  | none => some fallback

/-- Whether an unsigned word is a number of a base, with its mark. -/
def isBasedNumber (word : List Char) : Bool :=
  let holds (isDigit : Char → Bool) (digits : List Char) : Bool :=
    !digits.isEmpty && digits.all isDigit
  match word with
  | '0' :: 'x' :: digits =>
    holds (fun digit => digit.isDigit ||
      ('a' ≤ digit && digit ≤ 'f') || ('A' ≤ digit && digit ≤ 'F')) digits
  | '0' :: 'o' :: digits =>
    holds (fun digit => '0' ≤ digit && digit ≤ '7') digits
  | '0' :: 'b' :: digits =>
    holds (fun digit => digit == '0' || digit == '1') digits
  | _ => false

/-- Whether the decimal that a word spells is below infinity. -/
def isFiniteDecimal (word : List Char) : Bool :=
  match Numeral.readDecimal word with
  | some (digits, scale) =>
    BinaryLayout.double.nearestDecimal digits scale <
      BinaryLayout.double.infinity
  | none => false

/-- Whether an unquoted scalar is a number when nothing says what it is.  Digits
behind a zero are text, so that codes keep their leading zeros. -/
def isNumberWord (word : String) : Bool :=
  let magnitude := (Numeral.readSign word.toList).2
  match magnitude with
  | '.' :: rest =>
    ["inf", "Inf", "INF"].contains (String.ofList rest) ||
      (magnitude == word.toList &&
        ["nan", "NaN", "NAN"].contains (String.ofList rest)) ||
      isFiniteDecimal magnitude
  | '0' :: next :: rest =>
    if next.isDigit && rest.all Char.isDigit then false
    else isBasedNumber magnitude || isFiniteDecimal magnitude
  | _ => isFiniteDecimal magnitude

mutual

/-- A node of which nothing is known in advance, with its unquoted scalars
decided.  There is none where a string is broken, a number is infinite, or a tag
has no common meaning. -/
def resolved? : Node → Option Node
  | .brokenText => none
  | .number literal =>
    if isFiniteDecimal (Numeral.readSign literal.toList).2 then
      some (.number literal)
    else
      none
  | .quoted value => some (.text value)
  | .plain word =>
    if word.isEmpty || isNullWord word then some .null
    else if let some value := truth? word then some (.boolean value)
    else if isNumberWord word then some (.number word)
    else some (.text word)
  | .list items => (resolvedList? items).map .list
  | .table entries => (resolvedEntries? entries).map .table
  | .tagged tag content =>
    if tag.startsWith "!" then none else resolved? content
  | node => some node

def resolvedList? : List Node → Option (List Node)
  | [] => some []
  | item :: rest => do
    return (← resolved? item) :: (← resolvedList? rest)

def resolvedEntries? : List (Node × Node) → Option (List (Node × Node))
  | [] => some []
  | (key, value) :: rest => do
    return (← resolved? key, ← resolved? value) :: (← resolvedEntries? rest)

end

end Node

end Document

end TypeAtlas
