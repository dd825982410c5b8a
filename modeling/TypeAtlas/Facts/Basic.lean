import TypeAtlas.TypeExpr
import TypeAtlas.Value

/-!
# Facts about types

What is known of a type before it is described: the scalar it stands for, the
markers that say what it is used as, its supertypes and its members.  Members
may have an invoker bound to them, through which values are made and changed.
-/

namespace TypeAtlas

/-- The scalar that a type stands for. -/
inductive Scalar where
  | bool | char | byte | short | int | long | float | double | void
  deriving Repr, DecidableEq, Inhabited

namespace Scalar

def named : List (String × Scalar) :=
  [("bool", .bool), ("char", .char), ("byte", .byte), ("short", .short),
   ("int", .int), ("long", .long), ("float", .float), ("double", .double),
   ("void", .void)]

def name : Scalar → String
  | .bool => "bool"
  | .char => "char"
  | .byte => "byte"
  | .short => "short"
  | .int => "int"
  | .long => "long"
  | .float => "float"
  | .double => "double"
  | .void => "void"

def isFloating : Scalar → Bool
  | .float | .double => true
  | _ => false

def isIntegral : Scalar → Bool
  | .byte | .short | .int | .long => true
  | _ => false

end Scalar

/-- What a type is used as. -/
inductive Marker where
  | root | enumeration | typeToken | callable | text | textSequence | number
  | floatingPoint | elementContainer | pairContainer | beanMapView | temporal
  | uri | charInput | binaryInput | binaryOutput | delegate
  deriving Repr, DecidableEq, Inhabited

namespace Marker

def name : Marker → String
  | .root => "root"
  | .enumeration => "enum"
  | .typeToken => "type_token"
  | .callable => "callable"
  | .text => "text"
  | .textSequence => "text_sequence"
  | .number => "number"
  | .floatingPoint => "floating_point"
  | .elementContainer => "element_container"
  | .pairContainer => "pair_container"
  | .beanMapView => "bean_map_view"
  | .temporal => "temporal"
  | .uri => "uri"
  | .charInput => "char_input"
  | .binaryInput => "binary_input"
  | .binaryOutput => "binary_output"
  | .delegate => "delegate"

/-- Every marker, in the order in which markers are listed. -/
def all : List Marker :=
  [.root, .enumeration, .typeToken, .callable, .text, .textSequence, .number,
   .floatingPoint, .elementContainer, .pairContainer, .beanMapView, .temporal,
   .uri, .charInput, .binaryInput, .binaryOutput, .delegate]

/-- The markers of a list, each once and in the order of their listing. -/
def normalize (markers : List Marker) : List Marker :=
  all.filter markers.contains

def named : List (String × Marker) :=
  all.map fun marker => (marker.name, marker)

end Marker

/-- Who may use a member. -/
inductive Visibility where
  | closed | package | guarded | exposed
  deriving Repr, DecidableEq, Inhabited

namespace Visibility

def name : Visibility → String
  | .closed => "private"
  | .package => "package"
  | .guarded => "protected"
  | .exposed => "public"

def named : List (String × Visibility) :=
  [("private", .closed), ("package", .package), ("protected", .guarded),
   ("public", .exposed)]

/-- How far a member can be seen; a larger rank is seen further. -/
def rank : Visibility → Nat
  | .closed => 0
  | .package => 1
  | .guarded => 2
  | .exposed => 3

/-- Whether a member of this visibility is seen as far as another asks. -/
def reaches (visibility threshold : Visibility) : Bool :=
  threshold.rank ≤ visibility.rank

end Visibility

/-- What a parameter takes. -/
inductive ParamShape where
  | text
  | number (kind : NumberKind)
  /-- The session in which values are converted. -/
  | session
  | type (expression : TypeExpr)
  deriving Repr, DecidableEq, Inhabited

namespace ParamShape

/-- The head type of a parameter that takes values of a type. -/
def typeName? : ParamShape → Option TypeName
  | .type expression => some expression.name
  | _ => none

/-- The text of a parameter, as it appears in signatures. -/
def render : ParamShape → String
  | .text => "text"
  | .number kind => "number:" ++ kind.name
  | .session => "session"
  | .type expression => expression.render

end ParamShape

/-- The part that a member plays. -/
inductive MemberTag where
  | nameProperty | parentProperty | ignore | remoteMethod
  deriving Repr, DecidableEq, Inhabited

namespace MemberTag

def name : MemberTag → String
  | .nameProperty => "name_property"
  | .parentProperty => "parent_property"
  | .ignore => "ignore"
  | .remoteMethod => "remote_method"

def named : List (String × MemberTag) :=
  [("name_property", .nameProperty), ("parent_property", .parentProperty),
   ("ignore", .ignore), ("remote_method", .remoteMethod)]

end MemberTag

/-- The part that a type plays. -/
inductive TypeTag where
  /-- A bean, with names used when it is written out. -/
  | bean (dictionaryName typePropertyName : Option String)
      (dictionary : List TypeName)
  /-- A type converted by the transform of a name. -/
  | transform (name : String)
  /-- A type whose methods may be called from afar. -/
  | remoteable (annotatedOnly keyByName : Bool)
  deriving Repr, DecidableEq, Inhabited

/-- What is known of a constructor. -/
structure ConstructorFacts where
  params : List ParamShape
  visibility : Visibility := .exposed
  deprecated : Bool := false
  invoker? : Option Invoker := none

instance : Inhabited ConstructorFacts := ⟨{ params := [] }⟩

def ConstructorFacts.isUsable (constructor : ConstructorFacts) : Bool :=
  constructor.visibility == .exposed && !constructor.deprecated

/-- What is known of a method. -/
structure MethodFacts where
  name : String
  params : List ParamShape
  returns : Option TypeExpr := none
  isStatic : Bool := false
  visibility : Visibility := .exposed
  deprecated : Bool := false
  tags : List MemberTag := []
  invoker? : Option Invoker := none

instance : Inhabited MethodFacts := ⟨{ name := "", params := [] }⟩

namespace MethodFacts

def isUsable (method : MethodFacts) : Bool :=
  method.visibility == .exposed && !method.deprecated

/-- The name of a method with its parameters, which tells overloads apart. -/
def signature (method : MethodFacts) : String :=
  method.name ++ "(" ++
    String.intercalate "," (method.params.map ParamShape.render) ++ ")"

end MethodFacts

/-- What is known of a field. -/
structure FieldFacts where
  name : String
  type : TypeExpr
  visibility : Visibility := .exposed
  isStatic : Bool := false
  tags : List MemberTag := []
  setter? : Option Invoker := none

instance : Inhabited FieldFacts := ⟨{ name := "", type := .named "" }⟩

/-- What is known of a type. -/
structure TypeFacts where
  name : TypeName
  scalar : Option Scalar := none
  /-- Whether the type is the unboxed form of its scalar. -/
  primitive : Bool := false
  /-- What the type is used as, each marker once and in listing order. -/
  markers : List Marker := []
  isAbstract : Bool := false
  isInterface : Bool := false
  /-- Whether instances live inside an instance of an enclosing type. -/
  requiresEnclosing : Bool := false
  /-- The component type of an array. -/
  arrayOf : Option TypeExpr := none
  supertypes : List TypeName := []
  typeArgs : List TypeExpr := []
  constructors : List ConstructorFacts := []
  methods : List MethodFacts := []
  fields : List FieldFacts := []
  tags : List TypeTag := []

instance : Inhabited TypeFacts := ⟨{ name := "" }⟩

namespace TypeFacts

def has (facts : TypeFacts) (marker : Marker) : Bool :=
  facts.markers.contains marker

def withMarker (facts : TypeFacts) (marker : Marker) : TypeFacts :=
  { facts with markers := Marker.normalize (marker :: facts.markers) }

/-- The facts of a type that is an interface, and hence abstract. -/
def asInterface (facts : TypeFacts) : TypeFacts :=
  { facts with isInterface := true, isAbstract := true }

/-- The remoteable tag of a type that counts: the first one. -/
def remoteableTag? (facts : TypeFacts) : Option (Bool × Bool) :=
  facts.tags.findSome? fun
    | .remoteable annotatedOnly keyByName => some (annotatedOnly, keyByName)
    | _ => none

end TypeFacts

end TypeAtlas
