import TypeAtlas.Document.Yaml.Cursor
import TypeAtlas.Numeral.Hexadecimal

/-!
# Scalars of YAML

A scalar is plain, or between quotes, or a block of lines.  Lines of a scalar
are folded: a single line break becomes a space, and of several ones the first
is dropped.  A block keeps its line breaks if it is marked so.
-/

namespace TypeAtlas

namespace Document

namespace Yaml

/-- The text that line breaks between two lines become. -/
def foldBreaks : List Char → List Char
  | [] => []
  | first :: more =>
    if first == '\n' then if more.isEmpty then [' '] else more
    else first :: more

/-- The text that a gap between two words becomes. -/
def foldGap (gap : List Char) : List Char :=
  if gap.any isBreak then foldBreaks (gap.filter isBreak) else gap

/-- The characters that end a plain scalar inside of brackets. -/
def isFlowMark (character : Char) : Bool :=
  character == ',' || character == '[' || character == ']' ||
    character == '\x7b' || character == '\x7d'

/-- Reads the word that a plain scalar goes on with; it may be empty.  Inside of
brackets a colon must not touch a mark. -/
def readPlainWord (isFlow : Bool) : List Char → Option (List Char)
  | [] => some []
  | character :: rest =>
    if isGap character then some []
    else if character == ':' && isFlow &&
        rest.head?.any (fun next => isFlowMark next || next == '?') then
      none
    else if character == ':' && startsGap rest then some []
    else if isFlow && isFlowMark character then some []
    else (readPlainWord isFlow rest).map (character :: ·)

/-- What was read of a scalar. -/
structure Scalar where
  content : List Char
  cursor : Cursor
  /-- Whether the cursor stands on a later line than the last word. -/
  brokeLine : Bool := false

/-- Whether a tab stands behind a line break of a gap, before the column where a
scalar may go on. -/
def hasLeadingTab (margin : Nat) : (cursor : Cursor) → (gap : List Char) →
    (broke : Bool) → Bool
  | _, [], _ => false
  | cursor, character :: rest, broke =>
    (broke && character == '\t' && cursor.column < margin) ||
      hasLeadingTab margin (cursor.step character) rest
        (broke || isBreak character)

/-- Reads a plain scalar that goes on in columns from `margin`, or anywhere
inside of brackets.  The gap before the next word is pending until that word is
read. -/
def readPlain (isFlow : Bool) (margin : Nat) :
    (rounds : Nat) → (read : List Char) → (gap : List Char) → Cursor →
      Option Scalar
  | 0, _, _, _ => none
  | rounds + 1, read, gap, cursor => do
    let brokeLine := gap.any isBreak
    let stop : Scalar := { content := read, cursor, brokeLine }
    if cursor.isAtDocumentMark || cursor.rest.head? == some '#' then
      return stop
    else
      let word ← readPlainWord isFlow cursor.rest
      if word.isEmpty then return stop
      let read := read ++ foldGap gap ++ word
      let behind := cursor.pass word.length
      let gap := behind.rest.takeWhile isGap
      if gap.isEmpty then return { content := read, cursor := behind }
      if hasLeadingTab margin behind gap false then none
      let next := behind.pass gap.length
      if !isFlow && next.column < margin then
        return { content := read, cursor := next, brokeLine := gap.any isBreak }
      readPlain isFlow margin rounds read gap next

/-- The character that an escape of one letter stands for. -/
def simpleEscape? : Char → Option Char
  | '0' => some (Char.ofNat 0x00)
  | 'a' => some (Char.ofNat 0x07)
  | 'b' => some (Char.ofNat 0x08)
  | 't' | '\t' => some '\t'
  | 'n' => some '\n'
  | 'v' => some (Char.ofNat 0x0B)
  | 'f' => some (Char.ofNat 0x0C)
  | 'r' => some '\r'
  | 'e' => some (Char.ofNat 0x1B)
  | ' ' => some ' '
  | '"' => some '"'
  | '/' => some '/'
  | '\\' => some '\\'
  | 'N' => some (Char.ofNat 0x85)
  | '_' => some (Char.ofNat 0xA0)
  | 'L' => some (Char.ofNat 0x2028)
  | 'P' => some (Char.ofNat 0x2029)
  | _ => none

/-- The number of digits behind the letter of an escape by code. -/
def escapeWidth? : Char → Option Nat
  | 'x' => some 2
  | 'u' => some 4
  | 'U' => some 8
  | _ => none

/-- The character that an escape stands for, and the text behind it. -/
def readEscape : List Char → Option (Char × List Char)
  | [] => none
  | letter :: rest =>
    match escapeWidth? letter with
    | none => (simpleEscape? letter).map fun character => (character, rest)
    | some width => do
      let digits := rest.take width
      if digits.length < width then none
      let code ← Numeral.hexValue? digits
      if code.isValidChar then return (Char.ofNat code, rest.drop width)
      else none

/-- Reads a word between quotes up to the next quote, gap, or backslash at the
end of a line. -/
def readQuotedWord (quote : Char) :
    (rounds : Nat) → List Char → Option (List Char × List Char)
  | 0, _ => none
  | _, [] => some ([], [])
  | rounds + 1, character :: rest => do
    let goOn (content : Char) (rest : List Char) := do
      let (word, rest) ← readQuotedWord quote rounds rest
      return (content :: word, rest)
    if isGap character then return ([], character :: rest)
    else if character == quote then
      if quote == '\'' && rest.head? == some '\'' then goOn '\'' (rest.drop 1)
      else return ([], character :: rest)
    else if quote == '"' && character == '\\' then
      if rest.head?.any isBreak then return ([], character :: rest)
      else
        let (content, rest) ← readEscape rest
        goOn content rest
    else goOn character rest

/-- Reads the inside of a scalar between quotes, and its closing quote. -/
def readQuoted (quote : Char) :
    (rounds : Nat) → (read : List Char) → Cursor → Option Scalar
  | 0, _, _ => none
  | rounds + 1, read, cursor => do
    if cursor.isAtDocumentMark then none
    let (word, rest) ← readQuotedWord quote (cursor.rest.length + 1) cursor.rest
    let cursor := cursor.goTo rest
    match rest with
    | [] => none
    | '\\' :: _ =>
      let cursor := cursor.pass 2
      let gap := cursor.rest.takeWhile isGap
      readQuoted quote rounds (read ++ word ++ gap.filter isBreak)
        (cursor.pass gap.length)
    | character :: _ =>
      if character == quote then
        return { content := read ++ word, cursor := cursor.pass 1 }
      let gap := rest.takeWhile isGap
      readQuoted quote rounds (read ++ word ++ foldGap gap)
        (cursor.pass gap.length)

/-- What becomes of the line breaks at the end of a block. -/
inductive Chomping where
  /-- All are dropped. -/
  | strip
  /-- One is kept. -/
  | clip
  /-- All are kept. -/
  | keep
  deriving Repr, DecidableEq

def chomping? : Char → Option Chomping
  | '-' => some .strip
  | '+' => some .keep
  | _ => none

/-- The additional indentation that a digit stands for; zero is none. -/
def increment? (digit : Char) : Option Nat :=
  if digit.isDigit && digit != '0' then some (digit.toNat - '0'.toNat) else none

/-- Reads the marks of a block: how its end is chomped, and its additional
indentation, in either order. -/
def readBlockMarks : List Char →
    Option (Chomping × Option Nat × List Char)
  | first :: rest =>
    match chomping? first, increment? first with
    | some chomping, _ =>
      match rest with
      | digit :: behind =>
        if digit.isDigit then
          (increment? digit).map fun increment =>
            (chomping, some increment, behind)
        else
          some (chomping, none, rest)
      | [] => some (chomping, none, [])
    | none, some increment =>
      match rest with
      | mark :: behind =>
        match chomping? mark with
        | some chomping => some (chomping, some increment, behind)
        | none => some (.clip, some increment, rest)
      | [] => some (.clip, some increment, [])
    | none, none =>
      if first == '0' then none else some (.clip, none, first :: rest)
  | [] => some (.clip, none, [])

/-- The cursor behind what may follow on a line: spaces and a comment. -/
def passLineEnd (cursor : Cursor) : Option Cursor :=
  let cursor := cursor.passWhile isSpace
  let cursor :=
    if cursor.rest.head? == some '#' then cursor.passWhile (!isBreak ·)
    else cursor
  match cursor.rest with
  | [] => some cursor
  | character :: _ => if isBreak character then some (cursor.pass 1) else none

/-- The empty lines at some place of a block. -/
structure EmptyLines where
  breaks : List Char
  /-- The greatest number of spaces before the place of the cursor. -/
  deepest : Nat
  cursor : Cursor

/-- Passes the empty lines of a block and the indentation of its next line.
While the indentation is not known all spaces count as indentation. -/
def passEmptyLines (indent? : Option Nat) :
    (rounds : Nat) → EmptyLines → Option EmptyLines
  | 0, _ => none
  | rounds + 1, lines => do
    let spaces := lines.cursor.rest.takeWhile (· == ' ')
    let count :=
      match indent? with
      | some indent => min spaces.length (indent - lines.cursor.column)
      | none => spaces.length
    let cursor := lines.cursor.pass count
    let deepest := max lines.deepest cursor.column
    let mayIndent := indent?.all (cursor.column < ·)
    match cursor.rest with
    | character :: _ =>
      if mayIndent && character == '\t' then none
      else if isBreak character then
        passEmptyLines indent? rounds
          { breaks := lines.breaks ++ [character]
            deepest
            cursor := cursor.pass 1 }
      else
        return { lines with deepest, cursor }
    | [] => return { lines with deepest, cursor }

def emptyLinesAt (indent? : Option Nat) (cursor : Cursor) : Option EmptyLines :=
  passEmptyLines indent? (cursor.rest.length + 1)
    { breaks := [], deepest := 0, cursor }

/-- What was read of a block. -/
structure Block where
  content : List Char := []
  /-- The line break behind the last line, which is not yet used. -/
  lastBreak : List Char := []
  /-- Whether the last line starts with a space. -/
  isSpaced : Bool := false
  lines : EmptyLines

/-- Reads the lines of a block with a known indentation. -/
def readBlockLines (isLiteral : Bool) (indent : Nat) :
    (rounds : Nat) → Block → Option Block
  | 0, _ => none
  | rounds + 1, block => do
    let cursor := block.lines.cursor
    if cursor.column != indent || cursor.rest.isEmpty then return block
    let isSpaced := cursor.rest.head?.any isSpace
    let isFolded :=
      !isLiteral && block.lastBreak == ['\n'] && !block.isSpaced && !isSpaced
    let joint :=
      if isFolded then if block.lines.breaks.isEmpty then [' '] else []
      else block.lastBreak
    let line := cursor.rest.takeWhile (!isBreak ·)
    let cursor := cursor.pass line.length
    let lastBreak := cursor.rest.take 1
    let lines ← emptyLinesAt (some indent) (cursor.pass lastBreak.length)
    readBlockLines isLiteral indent rounds
      { content := block.content ++ joint ++ block.lines.breaks ++ line
        lastBreak
        isSpaced
        lines }

/-- Reads a block behind its first mark, in a place where nodes start in columns
from `margin`. -/
def readBlock (isLiteral : Bool) (margin : Nat) (cursor : Cursor) :
    Option Scalar := do
  let (chomping, increment?, rest) ← readBlockMarks cursor.rest
  let cursor ← passLineEnd (cursor.goTo rest)
  let given? := increment?.map fun increment => margin - 1 + increment
  let lines ← emptyLinesAt given? cursor
  let indent := given?.getD (max (max lines.deepest margin) 1)
  let block ← readBlockLines isLiteral indent (cursor.rest.length + 1) { lines }
  let ending :=
    match chomping with
    | .strip => []
    | .clip => block.lastBreak
    | .keep => block.lastBreak ++ block.lines.breaks
  return { content := block.content ++ ending, cursor := block.lines.cursor }

end Yaml

end Document

end TypeAtlas
