import TypeAtlas.Facts.Table

/-!
# Core types

The root type, texts and scalars, which a facts table knows from the start.
Boxed scalars come with a factory that reads the scalar from text.
-/

namespace TypeAtlas

/-- The root of the type hierarchy, where nothing else is configured. -/
def defaultRootType : TypeName := "Object"

namespace CoreTypes

/-- Reads a truth value: any spelling of true, and everything else is false. -/
def readBoolean (text : String) : Except String Value :=
  .ok (.boolean (Text.equalAscii text "true"))

def readCharacter (text : String) : Except String Value :=
  match text.toList with
  | [character] => .ok (.character character)
  | _ => .error s!"'{text}' is not a single character"

/-- Reads a signed integer of a width as a value. -/
def readInteger (width : Nat) (value : Int → Value) (text : String) :
    Except String Value :=
  ((Numeral.readInteger width text).map value).mapError Numeral.Fault.message

/-- Reads a floating-point number of a layout as a value. -/
def readBinary (layout : BinaryLayout) (value : Nat → Value) (text : String) :
    Except String Value :=
  ((Numeral.readBinary layout text).map value).mapError Numeral.Fault.message

/-- A static factory that reads values of a type from text. -/
def valueOf (returns : TypeName) (read : String → Except String Value) :
    MethodFacts :=
  { name := "valueOf"
    params := [.text]
    returns := some (.named returns)
    isStatic := true
    invoker? := some (.reading read) }

/-- The unboxed and the boxed form of a numeric scalar. -/
def numeric (boxed unboxed : TypeName) (scalar : Scalar)
    (read : String → Except String Value) : List TypeFacts :=
  [{ name := unboxed, scalar := some scalar, primitive := true },
   { name := boxed
     scalar := some scalar
     markers := Marker.normalize <|
       .number :: if scalar.isFloating then [.floatingPoint] else []
     supertypes := ["Number"]
     methods := [valueOf boxed read] }]

/-- The constructors of texts: the empty text, and a copy of a text. -/
def textConstructors : List ConstructorFacts :=
  [{ params := [], invoker? := some (.constant (.text "")) },
   { params := [.text]
     invoker? := some (.reading fun text => .ok (.text text)) }]

def all : List TypeFacts :=
  [{ name := defaultRootType
     markers := [.root]
     constructors := [{ params := [] }] },
   { name := "CharSequence"
     markers := [.textSequence]
     isAbstract := true
     isInterface := true },
   { name := "String"
     markers := [.text, .textSequence]
     supertypes := ["CharSequence"]
     constructors := textConstructors },
   { name := "Number", markers := [.number], isAbstract := true },
   { name := "boolean", scalar := some .bool, primitive := true },
   { name := "Boolean"
     scalar := some .bool
     methods := [valueOf "Boolean" readBoolean] },
   { name := "char", scalar := some .char, primitive := true },
   { name := "Character"
     scalar := some .char
     methods := [valueOf "Character" readCharacter] },
   { name := "void", scalar := some .void, primitive := true },
   { name := "Void", scalar := some .void }] ++
  numeric "Byte" "byte" .byte
    (readInteger 8 fun value => .int8 (Int8.ofInt value)) ++
  numeric "Short" "short" .short
    (readInteger 16 fun value => .int16 (Int16.ofInt value)) ++
  numeric "Integer" "int" .int
    (readInteger 32 fun value => .int32 (Int32.ofInt value)) ++
  numeric "Long" "long" .long
    (readInteger 64 fun value => .integer (Int64.ofInt value)) ++
  numeric "Float" "float" .float
    (readBinary .single fun bits => .single ⟨UInt32.ofNat bits⟩) ++
  numeric "Double" "double" .double
    (readBinary .double fun bits => .floating ⟨UInt64.ofNat bits⟩)

end CoreTypes

def FactsTable.ofCoreTypes : FactsTable :=
  FactsTable.empty.insertAll CoreTypes.all

end TypeAtlas
