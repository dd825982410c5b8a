import TypeAtlas.Bean.Accessor
import TypeAtlas.Transform.Applied

/-!
# Descriptors

A descriptor says all that the atlas knows of a type.  The parts that belong to
the type itself are shared by its specializations, which differ in the element,
key and value types that they refer to.  A descriptor whose assembly failed
keeps the parts that were assembled before the failure.
-/

namespace TypeAtlas

/-- A reference to a type, followed only when it is asked for.  The slot tells
references with equal expressions apart. -/
structure TypeRef where
  expr : TypeExpr
  slot : Nat
  deriving Repr, DecidableEq, Inhabited

/-- A property of a bean. -/
structure BeanProperty where
  name : String
  type : TypeRef
  readOnly : Bool
  setter? : Option Invoker

/-- The properties of a bean, and the names that it is written with. -/
structure BeanShape where
  properties : List BeanProperty := []
  dictionaryName? : Option String := none
  typePropertyName? : Option String := none

instance : Inhabited BeanShape := ⟨{}⟩

def BeanShape.property? (shape : BeanShape) (name : String) :
    Option BeanProperty :=
  shape.properties.find? fun property => property.name == name

/-- Whether a type is a bean. -/
inductive BeanVerdict where
  | bean (shape : BeanShape)
  | notABean (reason : String)

namespace BeanVerdict

def shape? : BeanVerdict → Option BeanShape
  | .bean shape => some shape
  | .notABean _ => none

end BeanVerdict

/-- The kind of a member that sets the name or the parent of a value. -/
inductive MemberKind where
  | field | method
  deriving Repr, DecidableEq

def MemberKind.name : MemberKind → String
  | .field => "field"
  | .method => "method"

/-- A member that sets the name or the parent of a value. -/
structure MemberRef where
  name : String
  kind : MemberKind
  setter? : Option Invoker

def MemberRef.set (member : MemberRef) (target value : Value) :
    Reply String Unit :=
  match member.setter? with
  | none => .failed s!"no setter bound to '{member.name}'"
  | some setter =>
    let reply := setter.invoke [.receiver target, .value value]
    ⟨reply.outcome.map fun _ => (), reply.calls⟩

/-- The value that variables of a primitive type start with. -/
inductive DefaultValue where
  | boolean (value : Bool)
  | character (value : Char)
  | number (value : Number)
  deriving Repr, DecidableEq

def Scalar.defaultValue? : Scalar → Option DefaultValue
  | .bool => some (.boolean false)
  | .char => some (.character (Char.ofNat 0))
  | .byte | .short | .int | .long => some (.number (.integer 0))
  | .float | .double => some (.number (.floating Binary64.zero))
  | .void => none

/-- The parts that a descriptor shares with its specializations. -/
structure Parts where
  category : Category := .other
  isDelegate : Bool := false
  isAbstract : Bool := false
  isInterface : Bool := false
  isPrimitive : Bool := false
  requiresEnclosing : Bool := false
  implementation? : Option TypeName := none
  ancestors : List TypeName := []
  recipes : Construction.Recipes
  /-- The transforms that apply to the type, in the order of selection. -/
  bindings : List Binding := []
  /-- The transforms registered for descendants of the type. -/
  children : List Transform := []
  bean : BeanVerdict := .notABean "Type was not introspected"
  beanDictionary : List TypeName := []
  nameProperty? : Option MemberRef := none
  parentProperty? : Option MemberRef := none
  publicMethods : NameMap MethodFacts := NameMap.empty
  /-- The methods that may be called from afar, if the type is remoteable. -/
  remoteableMethods? : Option (NameMap MethodFacts) := none
  defaultValue? : Option DefaultValue := none

/-- The parts of a type of which nothing is assembled yet. -/
def Parts.blank (name : TypeName) : Parts :=
  { recipes := { owner := name } }

/-- What is published about a type. -/
structure Body where
  parts : Parts
  element? : Option TypeRef := none
  key? : Option TypeRef := none
  value? : Option TypeRef := none
  /-- The types of an argument list. -/
  args : List TypeRef := []
  /-- Why assembly failed, if it did. -/
  failure? : Option String := none

namespace Body

def blank (name : TypeName) : Body :=
  { parts := Parts.blank name }

instance : Inhabited Body := ⟨blank ""⟩

/-- The body of a specialization, which keeps the references not replaced. -/
def specialize (body : Body) (element? key? value? : Option TypeRef) : Body :=
  { parts := body.parts
    element? := element?.or body.element?
    key? := key?.or body.key?
    value? := value?.or body.value?
    args := []
    failure? := body.failure? }

/-- The traits that a type may have, by their names, and whether it has them. -/
def traits (body : Body) : List (String × Bool) :=
  let parts := body.parts
  let category := parts.category
  [("delegate", parts.isDelegate), ("abstract", parts.isAbstract),
   ("interface", parts.isInterface), ("primitive", parts.isPrimitive),
   ("requires_enclosing", parts.requiresEnclosing),
   ("map", category.isPairContainer),
   ("collection", category == .elementContainer),
   ("array", category == .array), ("number", category.isNumber),
   ("enum", category == .enumerable), ("args", category == .argumentList),
   ("nullable", !parts.isPrimitive),
   ("remoteable", parts.remoteableMethods?.isSome),
   ("bean", parts.bean.shape?.isSome)]

def argumentListName : TypeName := "(args)"

def argumentList (args : List TypeRef) : Body :=
  { parts :=
      { Parts.blank argumentListName with
        category := .argumentList
        bean := .notABean "Argument lists are not beans" }
    args }

/-- The transform that a type of a given name applies for a format. -/
def applied? (body : Body) (name : TypeName) (format : Format) :
    Option AppliedTransform :=
  AppliedTransform.select? name body.parts.bindings body.parts.recipes format

/-- The type that values are written as: the surrogate that is selected. -/
def serializedType (body : Body) (name : TypeName) (format : Format) :
    TypeName :=
  match body.applied? name format with
  | some applied => applied.transform.surrogate
  | none => name

/-- The text of a descriptor with a body: its expression, or its arguments. -/
def display (body : Body) (expression : TypeExpr) : String :=
  if body.parts.category == .argumentList then
    "(" ++ String.intercalate "," (body.args.map fun arg => arg.expr.render) ++
      ")"
  else
    expression.render

end Body

/-- A descriptor: the one that a registry keeps for a name, or one of its own.
The identity is a number that no other descriptor has. -/
inductive Descriptor where
  | cached (name : TypeName) (identity : Nat)
  | detached (identity : Nat) (expr : TypeExpr) (body : Body)

namespace Descriptor

def expr : Descriptor → TypeExpr
  | .cached name _ => .named name
  | .detached _ expression _ => expression

def name (descriptor : Descriptor) : TypeName :=
  descriptor.expr.name

/-- The number that tells the descriptor from all others. -/
def identity : Descriptor → Nat
  | .cached _ identity => identity
  | .detached identity _ _ => identity

def isIdentical (first second : Descriptor) : Bool :=
  first.identity == second.identity

end Descriptor

end TypeAtlas
