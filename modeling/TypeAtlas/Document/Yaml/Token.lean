import TypeAtlas.Document.Yaml.Scalar
import TypeAtlas.Numeral.Reading

/-!
# Tokens of YAML

A text is cut into tokens, among them the starts and ends of blocks, which are
not written but follow from indentation.  A token is known to be a key only
when a colon follows it on the same line; the token for the key, and that for
the start of its block, are then put in front of it after the fact.
-/

namespace TypeAtlas

namespace Document

namespace Yaml

/-- The tokens of a text. -/
inductive Token where
  | version (major minor : Nat)
  | tagHandle (handle expansion : String)
  | documentStart
  | documentEnd
  | blockListStart
  | blockTableStart
  | blockEnd
  | flowListStart
  | flowListEnd
  | flowTableStart
  | flowTableEnd
  /-- The dash before an item of a block. -/
  | entry
  | comma
  | key
  | value
  | alias (name : String)
  | anchor (name : String)
  | tag (handle suffix : String)
  | scalar (isPlain : Bool) (content : String)
  deriving Repr, DecidableEq

/-- A token that may turn out to be a key. -/
structure Candidate where
  /-- The number of tokens before it. -/
  place : Nat
  /-- Whether nothing but a key may stand where it stands. -/
  isRequired : Bool
  cursor : Cursor

/-- A text that is partly cut into tokens. -/
structure Cutting where
  cursor : Cursor
  /-- The tokens so far, the latest first. -/
  tokens : List Token := []
  /-- The column from which the nodes of the open block start. -/
  margin : Nat := 0
  /-- The margins of the enclosing blocks, the innermost first. -/
  margins : List Nat := []
  /-- Whether a key, or an item of a block, may start here. -/
  mayStart : Bool := true
  candidate? : Option Candidate := none
  /-- The candidates around the open brackets, the innermost first. -/
  around : List (Option Candidate) := []

namespace Cutting

/-- Whether brackets are open, so that indentation does not matter. -/
def isFlow (cutting : Cutting) : Bool :=
  !cutting.around.isEmpty

def add (cutting : Cutting) (token : Token) : Cutting :=
  { cutting with tokens := token :: cutting.tokens }

/-- Puts tokens in front of the one at a place. -/
def insertAt (cutting : Cutting) (place : Nat) (inserted : List Token) :
    Cutting :=
  let later := cutting.tokens.length - place
  { cutting with
    tokens :=
      cutting.tokens.take later ++ inserted.reverse ++
        cutting.tokens.drop later }

def moveTo (cutting : Cutting) (cursor : Cursor) : Cutting :=
  { cutting with cursor }

def pass (cutting : Cutting) (count : Nat) : Cutting :=
  cutting.moveTo (cutting.cursor.pass count)

/-- Says whether a key may start at the cursor. -/
def allowStart (cutting : Cutting) (mayStart : Bool) : Cutting :=
  { cutting with mayStart }

/-- Closes the blocks whose margin is above a limit. -/
def closeBlocks (limit : Nat) :
    (margins : List Nat) → Cutting → Cutting
  | [], cutting => cutting
  | outer :: margins, cutting =>
    if limit < cutting.margin then
      closeBlocks limit margins
        { cutting.add .blockEnd with margin := outer, margins }
    else
      cutting

/-- Closes the blocks that a token in a column does not belong to. -/
def closeBlocksFor (cutting : Cutting) (column : Nat) : Cutting :=
  if cutting.isFlow then cutting
  else closeBlocks (column + 1) cutting.margins cutting

def closeAllBlocks (cutting : Cutting) : Cutting :=
  if cutting.isFlow then cutting
  else closeBlocks 0 cutting.margins cutting

/-- The tokens that open a block for nodes in a column, and the text with it
open.  There are none inside of brackets, or where such a block is open. -/
def openBlock (cutting : Cutting) (column : Nat) (start : Token) :
    List Token × Cutting :=
  if !cutting.isFlow && cutting.margin ≤ column then
    ([start],
      { cutting with
        margin := column + 1
        margins := cutting.margin :: cutting.margins })
  else
    ([], cutting)

/-- Opens a block for nodes in the column of the cursor. -/
def openBlockHere (cutting : Cutting) (start : Token) : Cutting :=
  let (tokens, cutting) := cutting.openBlock cutting.cursor.column start
  tokens.foldl add cutting

/-- Gives up the candidate for a key, unless it has to be one. -/
def dropCandidate (cutting : Cutting) : Option Cutting :=
  if cutting.candidate?.any Candidate.isRequired then none
  else some { cutting with candidate? := none }

/-- Makes the next token a candidate for a key, where one may start. -/
def offerCandidate (cutting : Cutting) : Option Cutting :=
  if cutting.mayStart then do
    let cutting ← cutting.dropCandidate
    return { cutting with
      candidate? :=
        some
          { place := cutting.tokens.length
            isRequired :=
              !cutting.isFlow && cutting.margin == cutting.cursor.column + 1
            cursor := cutting.cursor } }
  else
    some cutting

def keyLimit : Nat := 1024

/-- A candidate as it counts at a cursor: it is none any more on a later line,
or far behind it. -/
def expire (cursor : Cursor) : Option Candidate → Option (Option Candidate)
  | none => some none
  | some candidate =>
    if candidate.cursor.line < cursor.line ||
        candidate.cursor.index + keyLimit < cursor.index then
      if candidate.isRequired then none else some none
    else
      some (some candidate)

/-- Gives up the candidates that cannot become keys any more. -/
def expireCandidates (cutting : Cutting) : Option Cutting := do
  return { cutting with
    candidate? := ← expire cutting.cursor cutting.candidate?
    around := ← cutting.around.mapM (expire cutting.cursor) }

def passGaps : (rounds : Nat) → Cutting → Cutting
  | 0, cutting => cutting
  | rounds + 1, cutting =>
    let mayPassTabs := cutting.isFlow || !cutting.mayStart
    let cursor := cutting.cursor.passWhile fun character =>
      character == ' ' || (mayPassTabs && character == '\t')
    let cursor :=
      if cursor.rest.head? == some '#' then cursor.passWhile (!isBreak ·)
      else cursor
    match cursor.rest with
    | character :: _ =>
      if isBreak character then
        passGaps rounds
          { cutting with
            cursor := cursor.pass 1
            mayStart := cutting.mayStart || !cutting.isFlow }
      else
        cutting.moveTo cursor
    | [] => cutting.moveTo cursor

/-- Adds a token that spans a number of characters. -/
def addMark (cutting : Cutting) (token : Token) (count : Nat) : Cutting :=
  (cutting.pass count).add token

def openBracket (cutting : Cutting) (token : Token) : Option Cutting := do
  let cutting ← cutting.offerCandidate
  let cutting := cutting.addMark token 1
  return { cutting with
    candidate? := none
    around := cutting.candidate? :: cutting.around
    mayStart := true }

/-- Cuts a closing bracket, whether or not it closes one. -/
def closeBracket (cutting : Cutting) (token : Token) : Option Cutting := do
  let cutting ← cutting.dropCandidate
  let cutting :=
    match cutting.around with
    | [] => cutting
    | candidate? :: around => { cutting with candidate?, around }
  return (cutting.addMark token 1).allowStart false

def cutComma (cutting : Cutting) : Option Cutting := do
  return ((← cutting.dropCandidate).addMark .comma 1).allowStart true

def cutEntry (cutting : Cutting) : Option Cutting := do
  if !cutting.isFlow && !cutting.mayStart then none
  let cutting ← (cutting.openBlockHere .blockListStart).dropCandidate
  return (cutting.addMark .entry 1).allowStart true

/-- Cuts the mark before a key that may be long. -/
def cutKey (cutting : Cutting) : Option Cutting := do
  if !cutting.isFlow && !cutting.mayStart then none
  let cutting ← (cutting.openBlockHere .blockTableStart).dropCandidate
  return (cutting.addMark .key 1).allowStart !cutting.isFlow

/-- Cuts the colon before a value; the candidate, if there is one, is a key. -/
def cutValue (cutting : Cutting) : Option Cutting :=
  match cutting.candidate? with
  | some candidate =>
    let (block, cutting) :=
      cutting.openBlock candidate.cursor.column .blockTableStart
    let cutting := cutting.insertAt candidate.place (block ++ [.key])
    some
      (({ cutting with candidate? := none }.addMark .value 1).allowStart false)
  | none =>
    if !cutting.isFlow && !cutting.mayStart then none
    else
      let cutting := cutting.openBlockHere .blockTableStart
      some ((cutting.addMark .value 1).allowStart !cutting.isFlow)

/-- The characters that may follow a name of an anchor at once. -/
def endsName (rest : List Char) : Bool :=
  startsGap rest ||
    rest.head?.any fun character => "?:,]\x7d%@".toList.contains character ||
      character.toNat == 0x60

/-- Cuts the name of an anchor, of which the mark comes first. -/
def cutName (cutting : Cutting) (token : String → Token) : Option Cutting := do
  let cutting := (← cutting.offerCandidate).allowStart false
  let name := (cutting.cursor.rest.drop 1).takeWhile isNameCharacter
  let behind := cutting.pass (name.length + 1)
  if name.isEmpty || !endsName behind.cursor.rest then none
  else some (behind.add (token (String.ofList name)))

def isTagCharacter (isVerbatim : Bool) (character : Char) : Bool :=
  isNameCharacter character ||
    ";/?:@&=+$.!~*'()%".toList.contains character ||
    (isVerbatim && ",[]".toList.contains character)

/-- The characters of a tag with their escapes resolved. -/
def unescapeTag : List Char → Option (List UInt8)
  | '%' :: high :: low :: rest => do
    let code ← Numeral.hexValue? [high, low]
    return UInt8.ofNat code :: (← unescapeTag rest)
  | '%' :: _ => none
  | character :: rest => do
    return (String.singleton character).toUTF8.toList ++ (← unescapeTag rest)
  | [] => some []

def readTagText (isVerbatim : Bool) (text : List Char) :
    Option (String × List Char) := do
  let written := text.takeWhile (isTagCharacter isVerbatim)
  let bytes ← unescapeTag written
  let content ← String.fromUTF8? ⟨bytes.toArray⟩
  return (content, text.drop written.length)

/-- Reads a handle: its marks, and a name between two of them. -/
def readHandle (text : List Char) : List Char × List Char :=
  let name := (text.drop 1).takeWhile isNameCharacter
  match text.drop (name.length + 1) with
  | '!' :: rest => ('!' :: name ++ ['!'], rest)
  | rest => ('!' :: name, rest)

/-- Reads a tag: its handle, which may be empty, and what follows it. -/
def readTag (text : List Char) : Option ((String × String) × List Char) := do
  match text with
  | '!' :: '<' :: rest =>
    let (content, rest) ← readTagText true rest
    match rest with
    | '>' :: rest =>
      if content.isEmpty then none else return (("", content), rest)
    | _ => none
  | _ =>
    let (handle, rest) := readHandle text
    if handle.length ≥ 2 && handle.getLast? == some '!' then
      let (content, rest) ← readTagText false rest
      if content.isEmpty then none
      else return ((String.ofList handle, content), rest)
    else
      let (content, rest) ← readTagText false rest
      let suffix := String.ofList (handle.drop 1) ++ content
      if suffix.isEmpty then return (("", "!"), rest)
      else return (("!", suffix), rest)

def cutTag (cutting : Cutting) : Option Cutting := do
  let cutting := (← cutting.offerCandidate).allowStart false
  let ((handle, suffix), rest) ← readTag cutting.cursor.rest
  let mayFollow := startsGap rest ||
    (cutting.isFlow && rest.head? == some ',')
  if mayFollow then
    return (cutting.moveTo (cutting.cursor.goTo rest)).add (.tag handle suffix)
  else
    none

def addScalar (cutting : Cutting) (isPlain : Bool) (scalar : Scalar) :
    Cutting :=
  (cutting.moveTo scalar.cursor).add
    (.scalar isPlain (String.ofList scalar.content))

def cutBlock (cutting : Cutting) (isLiteral : Bool) : Option Cutting := do
  let cutting := (← cutting.dropCandidate).allowStart true
  let scalar ← readBlock isLiteral cutting.margin (cutting.cursor.pass 1)
  return cutting.addScalar false scalar

def cutQuoted (cutting : Cutting) (quote : Char) : Option Cutting := do
  let cutting := (← cutting.offerCandidate).allowStart false
  let cursor := cutting.cursor.pass 1
  let scalar ← readQuoted quote (cursor.rest.length + 1) [] cursor
  return cutting.addScalar false scalar

def cutPlain (cutting : Cutting) : Option Cutting := do
  let cutting := (← cutting.offerCandidate).allowStart false
  let scalar ← readPlain cutting.isFlow cutting.margin
    (cutting.cursor.rest.length + 1) [] [] cutting.cursor
  return (cutting.addScalar true scalar).allowStart scalar.brokeLine

/-- Cuts the mark that starts or ends a document. -/
def cutDocumentMark (cutting : Cutting) (token : Token) : Option Cutting := do
  let cutting ← cutting.closeAllBlocks.dropCandidate
  return (cutting.addMark token 3).allowStart false

def readVersionNumber (text : List Char) : Option (Nat × List Char) :=
  let digits := text.takeWhile Char.isDigit
  if digits.isEmpty || digits.length > 9 then none
  else some (Numeral.digitsValue digits, text.drop digits.length)

def readVersion (text : List Char) : Option (Token × List Char) := do
  let (major, rest) ← readVersionNumber (text.dropWhile isSpace)
  match rest with
  | '.' :: rest =>
    let (minor, rest) ← readVersionNumber rest
    return (.version major minor, rest)
  | _ => none

/-- Reads the handle that a directive gives, and what it stands for. -/
def readTagHandle (text : List Char) : Option (Token × List Char) := do
  let text := text.dropWhile isSpace
  if text.head? != some '!' then none
  let (handle, rest) := readHandle text
  if handle.getLast? != some '!' || !rest.head?.any isSpace then none
  let (expansion, rest) ← readTagText true (rest.dropWhile isSpace)
  if expansion.isEmpty || !startsGap rest then none
  return (.tagHandle (String.ofList handle) expansion, rest)

def cutDirective (cutting : Cutting) : Option Cutting := do
  let cutting := (← cutting.closeAllBlocks.dropCandidate).allowStart false
  let text := cutting.cursor.rest.drop 1
  let name := text.takeWhile isNameCharacter
  let rest := text.drop name.length
  if !rest.head?.any isGap then none
  let (token, rest) ←
    match String.ofList name with
    | "YAML" => readVersion rest
    | "TAG" => readTagHandle rest
    | _ => none
  let cursor ← passLineEnd (cutting.cursor.goTo rest)
  return (cutting.moveTo cursor).add token

/-- Whether a plain scalar may start with a character and what follows it. -/
def startsPlain (isFlow : Bool) (character : Char) (rest : List Char) : Bool :=
  if character == '-' then !rest.head?.any isSpace
  else if character == '?' || character == ':' then
    !isFlow && !startsGap rest
  else
    !",[]\x7b\x7d#&*!|>'\"%@".toList.contains character &&
      character.toNat != 0x60 && !isGap character

/-- Cuts the token that starts with a character at the cursor. -/
def cutToken (cutting : Cutting) (character : Char) (rest : List Char) :
    Option Cutting :=
  if cutting.cursor.column == 0 && character == '%' then cutting.cutDirective
  else if cutting.cursor.isAtDocumentMark then
    cutting.cutDocumentMark
      (if character == '-' then .documentStart else .documentEnd)
  else
    match character with
    | '[' => cutting.openBracket .flowListStart
    | '\x7b' => cutting.openBracket .flowTableStart
    | ']' => cutting.closeBracket .flowListEnd
    | '\x7d' => cutting.closeBracket .flowTableEnd
    | ',' => cutting.cutComma
    | '*' => cutting.cutName .alias
    | '&' => cutting.cutName .anchor
    | '!' => cutting.cutTag
    | '\'' | '"' => cutting.cutQuoted character
    | _ =>
      if character == '-' && startsGap rest then cutting.cutEntry
      else if character == '?' && (cutting.isFlow || startsGap rest) then
        cutting.cutKey
      else if character == ':' && (cutting.isFlow || startsGap rest) then
        cutting.cutValue
      else if (character == '|' || character == '>') && !cutting.isFlow then
        cutting.cutBlock (character == '|')
      else if startsPlain cutting.isFlow character rest then cutting.cutPlain
      else none

def cutAll : (rounds : Nat) → Cutting → Option (List Token)
  | 0, _ => none
  | rounds + 1, cutting => do
    let gaps := cutting.cursor.rest.length + 1
    let cutting ← (cutting.passGaps gaps).expireCandidates
    let cutting := cutting.closeBlocksFor cutting.cursor.column
    match cutting.cursor.rest with
    | [] => return (← cutting.closeAllBlocks.dropCandidate).tokens.reverse
    | character :: rest => cutAll rounds (← cutting.cutToken character rest)

end Cutting

/-- A cursor at the start of a text, behind the mark of its byte order. -/
def startOf (text : List Char) : Cursor :=
  let cursor : Cursor := { rest := text }
  if text.head?.any fun character => character.toNat == 0xFEFF then
    cursor.pass 1
  else
    cursor

/-- The tokens of a text; there are none if it cannot be cut into tokens. -/
def tokensOf? (text : String) : Option (List Token) :=
  let characters := text.toList
  if characters.all isAllowed then
    let text := plainBreaks characters
    Cutting.cutAll (text.length + 1) { cursor := startOf text }
  else
    none

end Yaml

end Document

end TypeAtlas
