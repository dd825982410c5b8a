import TypeAtlas.Text.Blank
import TypeAtlas.TypeExpr

/-!
# Reading type expressions

An expression is a name, optionally followed by arguments between angle
brackets.  Blanks may stand around every token and never inside a name.  A
fault carries the text that was still unread when it was found, so that its
offset is the number of bytes read before.
-/

namespace TypeAtlas

namespace TypeExpr

/-- Why a text is not a type expression. -/
inductive FaultCause where
  /-- A name was due, and the text goes on with something else. -/
  | expectedName
  /-- An argument was read, and neither a comma nor a bracket follows. -/
  | expectedSeparator
  /-- The text goes on after a whole expression. -/
  | trailingInput
  /-- Arguments are nested below the deepest level. -/
  | nestedTooDeeply
  deriving Repr, BEq, DecidableEq

def FaultCause.message : FaultCause → String
  | .expectedName => "expected type name"
  | .expectedSeparator => "expected ',' or '>'"
  | .trailingInput => "unexpected trailing input"
  | .nestedTooDeeply => "type expression nested too deeply"

/-- A cause together with the text left unread when it was found. -/
structure Fault where
  cause : FaultCause
  rest : List Char
  deriving Repr, BEq, DecidableEq

/-- The deepest level of arguments below the whole expression. -/
def deepestLevel : Nat := 32

/-- Whether a character may occur in a name read from text. -/
def isNameCharacter (character : Char) : Bool :=
  !(character == '<' || character == '>' || character == ',' ||
    Text.isBlank character)

/-- Reads blanks and then the longest name, which must not be empty. -/
def readName (text : List Char) : Except Fault (TypeName × List Char) :=
  let text := Text.skipBlanks text
  match text.takeWhile isNameCharacter with
  | [] => .error ⟨.expectedName, text⟩
  | name => .ok (String.ofList name, text.dropWhile isNameCharacter)

/-- Reads arguments and the commas between them up to the closing bracket.  Each
round reads at least one character, so a count of rounds above the length of the
text is never used up. -/
def readArguments
    (readArgument : List Char → Except Fault (TypeExpr × List Char)) :
    (rounds : Nat) → (text : List Char) →
      Except Fault (List TypeExpr × List Char)
  | 0, text => .error ⟨.expectedName, text⟩
  | rounds + 1, text => do
    let (argument, rest) ← readArgument text
    match Text.skipBlanks rest with
    | ',' :: rest =>
      let (more, rest) ← readArguments readArgument rounds rest
      return (argument :: more, rest)
    | '>' :: rest => return ([argument], rest)
    | rest => throw ⟨.expectedSeparator, rest⟩

/-- Reads one expression with at most `levels` levels, its own included, and
stops after it. -/
def readExpression :
    (levels : Nat) → (text : List Char) → Except Fault (TypeExpr × List Char)
  | 0, text => .error ⟨.nestedTooDeeply, text⟩
  | levels + 1, text => do
    let (name, rest) ← readName text
    match Text.skipBlanks rest with
    | '<' :: rest =>
      let (args, rest) ←
        readArguments (readExpression levels) (rest.length + 1) rest
      return (⟨name, args⟩, rest)
    | rest => return (⟨name, []⟩, rest)

def readAll (text : List Char) : Except Fault TypeExpr := do
  let (expression, rest) ← readExpression (deepestLevel + 1) text
  match Text.skipBlanks rest with
  | [] => return expression
  | rest => throw ⟨.trailingInput, rest⟩

/-- The number of bytes that characters take in UTF-8. -/
def byteLength : List Char → Nat
  | [] => 0
  | character :: rest => character.utf8Size + byteLength rest

/-- A rejected text, with the byte offset where reading stopped. -/
structure ParseError where
  input : String
  position : Nat
  cause : FaultCause
  deriving Repr, BEq, DecidableEq

def ParseError.message (error : ParseError) : String :=
  s!"{error.cause.message} at offset {error.position} in '{error.input}'"

def parse (input : String) : Except ParseError TypeExpr :=
  match readAll input.toList with
  | .ok expression => .ok expression
  | .error fault =>
    .error
      { input
        position := byteLength input.toList - byteLength fault.rest
        cause := fault.cause }

end TypeExpr

end TypeAtlas
