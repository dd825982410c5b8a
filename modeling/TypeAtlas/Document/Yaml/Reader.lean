import TypeAtlas.Document.Node
import TypeAtlas.Document.Yaml.Token

/-!
# Reading YAML

A text holds one document, which may be empty.  Its nodes are read from the
tokens of the text; where a node is missing an empty plain scalar stands in its
place.  An alias becomes a copy of the node that its anchor marks; inside of
that node there is nothing to copy yet, and what the alias stands for is
broken.
-/

namespace TypeAtlas

namespace Document

namespace Yaml

/-- What reading depends on, besides the place in the text. -/
structure Reading where
  tokens : List Token
  /-- What handles of tags stand for. -/
  handles : List (String × String) := []
  /-- The marked nodes, the latest first; a node is missing until it is read. -/
  anchors : List (String × Option Node) := []

/-- A step of reading, which may find that the tokens make no document. -/
abbrev Reader := StateT Reading Option

def peek : Reader (Option Token) := do
  return (← get).tokens.head?

def skip : Reader Unit :=
  modify fun reading => { reading with tokens := reading.tokens.drop 1 }

/-- Takes the next token, which must be a given one. -/
def expect (token : Token) : Reader Unit := do
  if (← peek) == some token then skip else failure

/-- Whether the next token is one of several, or there is none. -/
def isNext (tokens : List Token) : Reader Bool := do
  return (← peek).all tokens.contains

def missing : Node := .plain ""

def commonHandles : List (String × String) :=
  [("!", "!"), ("!!", "tag:yaml.org,2002:")]

/-- The whole tag that a handle and what follows it stand for. -/
def resolveTag (handle suffix : String) : Reader String := do
  if handle.isEmpty then return suffix
  match ((← get).handles ++ commonHandles).lookup handle with
  | some expansion => return expansion ++ suffix
  | none => failure

/-- Reads the tag that comes next, if one does. -/
def readTag? : Reader (Option String) := do
  match ← peek with
  | some (.tag handle suffix) =>
    skip
    return some (← resolveTag handle suffix)
  | _ => return none

/-- Reads the anchor that comes next, if one does. -/
def readAnchor? : Reader (Option String) := do
  match ← peek with
  | some (.anchor name) =>
    skip
    return some name
  | _ => return none

/-- Reads the anchor and the tag of a node, in either order. -/
def readProperties : Reader (Option String × Option String) := do
  match ← readAnchor? with
  | some anchor => return (some anchor, ← readTag?)
  | none =>
    let tag? ← readTag?
    return (← readAnchor?, tag?)

/-- The tag that leaves a scalar as it is. -/
def plainTag : String := "!"

/-- A scalar with its tag, which may be missing. -/
def tagScalar (tag? : Option String) (node : Node) : Node :=
  match tag? with
  | some tag => if tag == plainTag then node else .tagged tag node
  | none => node

/-- A collection with its tag, which may be missing. -/
def tagCollection (tag? : Option String) (node : Node) : Node :=
  match tag? with
  | some tag => .tagged tag node
  | none => node

/-- Marks a node by an anchor, which may be missing. -/
def mark (anchor? : Option String) (node? : Option Node) : Reader Unit :=
  match anchor? with
  | some anchor => modify fun reading =>
      { reading with anchors := (anchor, node?) :: reading.anchors }
  | none => pure ()

def resolveAlias (name : String) : Reader Node := do
  match (← get).anchors.lookup name with
  | some node? => return node?.getD .brokenText
  | none => failure

mutual

/-- Reads a node.  Outside of brackets it may be a block, and as part of a table
also a list of which the items are not indented. -/
def readNode (isBlock mayBeFlush : Bool) : (rounds : Nat) → Reader Node
  | 0 => failure
  | rounds + 1 => do
    if let some (.alias name) ← peek then
      skip
      return ← resolveAlias name
    let (anchor?, tag?) ← readProperties
    mark anchor? none
    let collect (content : Node) : Node := tagCollection tag? content
    let node ←
      match ← peek with
      | some (.scalar isPlain content) => do
        skip
        pure (tagScalar tag?
          (if isPlain then .plain content else .quoted content))
      | some .flowListStart => do
        skip
        (collect ∘ Node.list) <$> readFlowItems true rounds
      | some .flowTableStart => do
        skip
        (collect ∘ Node.table) <$> readFlowEntries true rounds
      | some .blockListStart =>
        if isBlock then do
          skip
          let items ← readItems rounds
          expect .blockEnd
          pure (collect (.list items))
        else
          failure
      | some .blockTableStart =>
        if isBlock then do
          skip
          let entries ← readEntries rounds
          expect .blockEnd
          pure (collect (.table entries))
        else
          failure
      | next =>
        if mayBeFlush && next == some .entry then
          (collect ∘ Node.list) <$> readItems rounds
        else if anchor?.isSome || tag?.isSome then
          pure (tagScalar tag? missing)
        else
          failure
    mark anchor? (some node)
    return node

/-- Reads a node, unless one of some tokens shows that it is missing. -/
def readUnless (ends : List Token) (isBlock mayBeFlush : Bool) :
    (rounds : Nat) → Reader Node
  | 0 => failure
  | rounds + 1 => do
    if ← isNext ends then return missing
    else readNode isBlock mayBeFlush rounds

/-- Reads the items of a block, as long as dashes follow. -/
def readItems : (rounds : Nat) → Reader (List Node)
  | 0 => failure
  | rounds + 1 => do
    if (← peek) == some .entry then
      skip
      let item ←
        readUnless [.entry, .key, .value, .blockEnd] true false rounds
      return item :: (← readItems rounds)
    else
      return []

/-- Reads a value with its colon; both may be missing. -/
def readValue (ends : List Token) (isBlock : Bool) :
    (rounds : Nat) → Reader Node
  | 0 => failure
  | rounds + 1 => do
    if (← peek) == some .value then
      skip
      readUnless ends isBlock isBlock rounds
    else
      return missing

/-- Reads the entries of a block, as long as keys follow. -/
def readEntries : (rounds : Nat) → Reader (List (Node × Node))
  | 0 => failure
  | rounds + 1 => do
    if (← peek) == some .key then
      skip
      let ends : List Token := [.key, .value, .blockEnd]
      let key ← readUnless ends true true rounds
      let value ← readValue ends true rounds
      return (key, value) :: (← readEntries rounds)
    else
      return []

/-- Reads an item between brackets, which may be a single entry. -/
def readFlowItem : (rounds : Nat) → Reader Node
  | 0 => failure
  | rounds + 1 => do
    if (← peek) == some .key then
      skip
      let ends : List Token := [.comma, .flowListEnd]
      let isMissing ← isNext (.value :: ends)
      if isMissing then skip
      let key ← if isMissing then pure missing else readNode false false rounds
      let value ← readValue ends false rounds
      return .table [(key, value)]
    else
      readNode false false rounds

/-- Reads the items of a list up to its closing bracket. -/
def readFlowItems (isFirst : Bool) : (rounds : Nat) → Reader (List Node)
  | 0 => failure
  | rounds + 1 => do
    if (← peek) == some .flowListEnd then
      skip
      return []
    if !isFirst then expect .comma
    if (← peek) == some .flowListEnd then
      skip
      return []
    let item ← readFlowItem rounds
    return item :: (← readFlowItems false rounds)

/-- Reads an entry between brackets; a key without a mark has no value. -/
def readFlowEntry : (rounds : Nat) → Reader (Node × Node)
  | 0 => failure
  | rounds + 1 => do
    let ends : List Token := [.comma, .flowTableEnd]
    if (← peek) == some .key then
      skip
      let key ← readUnless (.value :: ends) false false rounds
      return (key, ← readValue ends false rounds)
    else
      return (← readNode false false rounds, missing)

/-- Reads the entries of a table up to its closing bracket. -/
def readFlowEntries (isFirst : Bool) :
    (rounds : Nat) → Reader (List (Node × Node))
  | 0 => failure
  | rounds + 1 => do
    if (← peek) == some .flowTableEnd then
      skip
      return []
    if !isFirst then expect .comma
    if (← peek) == some .flowTableEnd then
      skip
      return []
    let entry ← readFlowEntry rounds
    return entry :: (← readFlowEntries false rounds)

end

/-- What the directives before a document declare. -/
structure Declarations where
  hasVersion : Bool := false
  handles : List (String × String) := []

/-- Adds a directive, which must not repeat another one. -/
def Declarations.add (declarations : Declarations) :
    Token → Option Declarations
  | .version major minor =>
    if declarations.hasVersion || major != 1 || (minor != 1 && minor != 2) then
      none
    else
      some { declarations with hasVersion := true }
  | .tagHandle handle expansion =>
    if (declarations.handles.lookup handle).isSome then none
    else
      some
        { declarations with
          handles := declarations.handles ++ [(handle, expansion)] }
  | _ => some declarations

def Token.isDirective : Token → Bool
  | .version .. | .tagHandle .. => true
  | _ => false

/-- Reads the content of a document whose start is marked. -/
def readContent (rounds : Nat) : Reader Node := do
  let isEmpty : Bool :=
    match ← peek with
    | none | some .documentStart | some .documentEnd => true
    | some token => token.isDirective
  if isEmpty then return missing else readNode true false rounds

def documentOf? (tokens : List Token) : Option Node := do
  let directives := tokens.takeWhile Token.isDirective
  let rest := tokens.dropWhile Token.isDirective
  let declarations ← directives.foldlM Declarations.add {}
  let rounds := 4 * tokens.length + 8
  let read (tokens : List Token) (reader : Reader Node) : Option Node := do
    let (node, reading) ←
      reader.run { tokens, handles := declarations.handles }
    if reading.tokens.all (· == .documentEnd) then return node else none
  match rest with
  | .documentStart :: rest => read rest (readContent rounds)
  | [] => if directives.isEmpty then some missing else none
  | rest =>
    if directives.isEmpty then read rest (readNode true false rounds) else none

def read? (text : String) : Option Node :=
  (tokensOf? text).bind documentOf?

end Yaml

end Document

end TypeAtlas
