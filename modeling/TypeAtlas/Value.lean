import TypeAtlas.Document.Node
import TypeAtlas.Numeral.Hexadecimal
import TypeAtlas.Text.Blank

/-!
# Values, arguments and invokers

The atlas never sees inside the values of the types it describes.  Values pass
between it and the functions bound to constructors, methods and fields; such a
function is an invoker.  Calling an invoker gives a reply: a value or a reason
for failure, and the calls it reported to its host on the way.
-/

namespace TypeAtlas

/-- A numeric argument. -/
inductive Number where
  | integer (value : Int64)
  | floating (value : Binary64)
  deriving Repr, DecidableEq, Inhabited

/-- The kinds of number that a numeric parameter accepts. -/
inductive NumberKind where
  | byte | short | int | long | float | double | bigInteger | bigDecimal
  /-- Any number, as it is. -/
  | any
  deriving Repr, DecidableEq, Inhabited

namespace NumberKind

def named : List (String × NumberKind) :=
  [("byte", .byte), ("short", .short), ("int", .int), ("long", .long),
   ("float", .float), ("double", .double), ("big_integer", .bigInteger),
   ("big_decimal", .bigDecimal), ("any", .any)]

def name : NumberKind → String
  | .byte => "byte"
  | .short => "short"
  | .int => "int"
  | .long => "long"
  | .float => "float"
  | .double => "double"
  | .bigInteger => "big_integer"
  | .bigDecimal => "big_decimal"
  | .any => "any"

def isFloating : NumberKind → Bool
  | .float | .double | .bigDecimal => true
  | _ => false

end NumberKind

/-- The number in the representation that a kind expects: an integer becomes the
nearest floating-point number, and a floating-point number loses its
fraction. -/
def Number.coerce (number : Number) (kind : NumberKind) : Number :=
  match number, kind with
  | number, .any => number
  | .integer value, kind =>
    if kind.isFloating then .floating (Binary64.ofInt value.toInt)
    else .integer value
  | .floating value, kind =>
    if kind.isFloating then .floating value else .integer value.toInt64

mutual

/-- A value of some described type. -/
inductive Value where
  | text (value : String)
  | integer (value : Int64)
  | floating (value : Binary64)
  | boolean (value : Bool)
  | character (value : Char)
  | int8 (value : Int8)
  | int16 (value : Int16)
  | int32 (value : Int32)
  | single (value : Binary32)
  /-- An object known by its label and what it was made of. -/
  | record (label : String) (parts : List Part)

/-- What a record was made of. -/
inductive Part where
  /-- Data that came with the record. -/
  | data (content : Document.Node)
  /-- A value that was converted. -/
  | value (content : Value)
  /-- An argument of the call that made the record. -/
  | argument (content : Argument)

/-- A positional argument of a call. -/
inductive Argument where
  /-- The enclosing instance of a nested type. -/
  | enclosing (instance_ : Value)
  /-- The receiver of an instance method. -/
  | receiver (instance_ : Value)
  | text (value : String)
  | number (value : Number)
  /-- Any value, such as a surrogate. -/
  | value (content : Value)

end

instance : Inhabited Value := ⟨.text ""⟩

/-- The text of a call's argument, where it is one. -/
def Argument.text? : Argument → Option String
  | .text content => some content
  | _ => none

/-- A call that an invoker reported to its host. -/
structure Call where
  label : String
  arguments : List Argument

/-- The outcome of a call, with the calls reported while it ran. -/
structure Reply (ε α : Type) where
  outcome : Except ε α
  calls : List Call

namespace Reply

def done (value : α) : Reply ε α :=
  ⟨.ok value, []⟩

def failed (reason : ε) : Reply ε α :=
  ⟨.error reason, []⟩

/-- The same reply with its failure put in other words. -/
def mapError (rephrase : ε → δ) (reply : Reply ε α) : Reply δ α :=
  ⟨reply.outcome.mapError rephrase, reply.calls⟩

end Reply

/-- A function bound to a constructor, a method or a field. -/
structure Invoker where
  invoke : List Argument → Reply String Value

namespace Invoker

/-- The invoker that always fails with the same reason. -/
def failing (reason : String) : Invoker :=
  ⟨fun _ => .failed reason⟩

def constant (value : Value) : Invoker :=
  ⟨fun _ => .done value⟩

/-- The invoker that makes a record of its arguments. -/
def recording (label : String) : Invoker :=
  ⟨fun arguments => .done (.record label (arguments.map .argument))⟩

/-- The invoker that makes a record of its arguments and reports the call. -/
def reporting (label : String) : Invoker :=
  ⟨fun arguments =>
    ⟨.ok (.record label (arguments.map .argument)), [⟨label, arguments⟩]⟩⟩

/-- The invoker that reads its first text argument, without blanks around it. -/
def reading (read : String → Except String Value) : Invoker :=
  ⟨fun arguments =>
    match arguments.findSome? Argument.text? with
    | some text => ⟨read (Text.trim text), []⟩
    | none => .failed "expected a text argument"⟩

end Invoker

end TypeAtlas
