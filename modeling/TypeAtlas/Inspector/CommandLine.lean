import TypeAtlas.Transform.Format

/-!
# Command lines

A command line names a command and gives options and operands.  An option is
given at most once in each place where it may stand: before the name of the
command, or behind it.  A command line that does not fit is refused as a whole.
-/

namespace TypeAtlas

namespace Inspector

/-- What an option takes. -/
inductive OptionKind where
  /-- Nothing: the option is given or not. -/
  | flag
  /-- Any text. -/
  | text
  /-- The path of a file, which is not empty. -/
  | path
  deriving Repr, DecidableEq

/-- An option with its names. -/
structure OptionSpec where
  name : String
  letter? : Option Char := none
  kind : OptionKind

/-- What is given behind the name of a command, or before it. -/
structure Given where
  /-- The options with their values; that of a flag is empty. -/
  options : List (String × String) := []
  operands : List String := []

namespace Given

def option? (given : Given) (name : String) : Option String :=
  given.options.lookup name

/-- Adds an option, which must not be given yet. -/
def addOption (given : Given) (spec : OptionSpec) (value : String) :
    Option Given :=
  if (given.option? spec.name).isSome then none
  else if spec.kind == .path && value.isEmpty then none
  else some { given with options := given.options ++ [(spec.name, value)] }

def addOperand (given : Given) (operand : String) : Given :=
  { given with operands := given.operands ++ [operand] }

end Given

def looksLikeOption (word : String) : Bool :=
  word.startsWith "-" && word != "-"

/-- An option as it is written: which one it is, and its attached value. -/
structure Written where
  spec : OptionSpec
  attached? : Option String

def readWritten? (specs : List OptionSpec) (word : String) : Option Written :=
  match word.toList with
  | '-' :: '-' :: rest => do
    let name := String.ofList (rest.takeWhile (· != '='))
    let spec ← specs.find? fun spec => spec.name == name
    let attached? :=
      match rest.dropWhile (· != '=') with
      | [] => none
      | _ :: value => some (String.ofList value)
    return { spec, attached? }
  | '-' :: letter :: rest => do
    let spec ← specs.find? fun spec => spec.letter? == some letter
    let attached? :=
      match rest with
      | [] => none
      | '=' :: value => some (String.ofList value)
      | value => some (String.ofList value)
    return { spec, attached? }
  | _ => none

/-- Takes an option with its value off the front of a command line.  A value of
its own word must not look like an option. -/
def takeOption (specs : List OptionSpec) (given : Given) (word : String)
    (rest : List String) : Option (Given × List String) := do
  let { spec, attached? } ← readWritten? specs word
  match spec.kind, attached? with
  | .flag, none => return (← given.addOption spec "", rest)
  | .flag, some _ => none
  | _, some value => return (← given.addOption spec value, rest)
  | _, none =>
    match rest with
    | value :: rest =>
      if looksLikeOption value then none
      else return (← given.addOption spec value, rest)
    | [] => none

/-- Reads the words of a place: options, and operands if the place has any.
Where it has none, the first other word ends it.  Behind two dashes all words
are operands, of which there must be none in a place without operands. -/
def readGiven (specs : List OptionSpec) (hasOperands : Bool) :
    (rounds : Nat) → Given → List String → Option (Given × List String)
  | 0, _, _ => none
  | _, given, [] => some (given, [])
  | rounds + 1, given, word :: rest =>
    if word == "--" then
      if hasOperands || rest.isEmpty then
        some (rest.foldl Given.addOperand given, [])
      else
        none
    else if looksLikeOption word then do
      let (given, rest) ← takeOption specs given word rest
      readGiven specs hasOperands rounds given rest
    else if hasOperands then
      readGiven specs hasOperands rounds (given.addOperand word) rest
    else
      some (given, word :: rest)

/-- Reads the words of a place, as far as it goes. -/
def givenIn (specs : List OptionSpec) (hasOperands : Bool)
    (words : List String) : Option (Given × List String) :=
  readGiven specs hasOperands (words.length + 1) {} words

/-- What the inspector is asked to do. -/
inductive Command where
  /-- Describes types for a format, as text or as a document. -/
  | describe (facts : String) (config? : Option String) (format : Format)
      (asDocument : Bool) (types : List String)
  /-- Lists the known types with their categories. -/
  | list (facts : String)
  /-- Writes an example of a configuration. -/
  | generate (output : String)
  deriving Repr, DecidableEq

def logLevelOption : OptionSpec := { name := "log-level", kind := .text }

def factsOption : OptionSpec :=
  { name := "facts", letter? := some 'f', kind := .path }

def describeOptions : List OptionSpec :=
  [logLevelOption, factsOption,
   { name := "config", letter? := some 'c', kind := .path },
   { name := "format", kind := .text },
   { name := "json", kind := .flag }]

def listOptions : List OptionSpec :=
  [logLevelOption, factsOption]

def generateOptions : List OptionSpec :=
  [logLevelOption, { name := "output", letter? := some 'o', kind := .path }]

/-- The file that a configuration is written to where none is given. -/
def defaultOutput : String := "typemeta.toml"

/-- Reads what stands behind the name of a command. -/
def Command.ofWords? (name : String) (words : List String) :
    Option Command := do
  match name with
  | "describe" =>
    let (given, _) ← givenIn describeOptions true words
    if given.operands.isEmpty then none
    return .describe (← given.option? "facts") (given.option? "config")
      ((given.option? "format").getD Format.anything)
      (given.option? "json").isSome given.operands
  | "list" =>
    let (given, rest) ← givenIn listOptions false words
    if !rest.isEmpty then none
    return .list (← given.option? "facts")
  | "gen-config" =>
    let (given, rest) ← givenIn generateOptions false words
    if !rest.isEmpty then none
    return .generate ((given.option? "output").getD defaultOutput)
  | _ => none

def Command.parse? (words : List String) : Option Command := do
  let (_, rest) ← givenIn [logLevelOption] false words
  match rest with
  | name :: words => Command.ofWords? name words
  | [] => none

def Command.inputs : Command → List String
  | .describe facts config? .. => facts :: config?.toList
  | .list facts => [facts]
  | .generate _ => []

end Inspector

end TypeAtlas
