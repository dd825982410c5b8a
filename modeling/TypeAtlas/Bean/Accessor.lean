import TypeAtlas.Config.Basic
import TypeAtlas.Text.LetterCase

/-!
# Properties of beans

The properties of a bean are read off its accessor methods and its public
fields.  Members of one name are merged into one property: the first readable
one gives it its type, the first writable one its setter.
-/

namespace TypeAtlas

namespace Bean

/-- A property, or what one member says of it. -/
structure Draft where
  name : String
  type : TypeExpr
  readable : Bool
  writable : Bool
  setter? : Option Invoker

/-- The property that an accessor is named for: what follows the verb, with a
small initial letter unless the second letter is a capital as well. -/
def propertyName? (verb method : String) : Option String :=
  if verb.toList.isPrefixOf method.toList then
    match method.toList.drop verb.length with
    | [] => none
    | first :: rest =>
      if !Text.isUppercase first then none
      else if rest.head?.any Text.isUppercase then
        some (String.ofList (first :: rest))
      else
        some (String.ofList (Text.lowercase first ++ rest))
  else
    none

/-- Whether a type is that of truth values, so that a getter may say `is`. -/
def isTruthType (type : TypeExpr) : Bool :=
  type.name == "boolean" || type.name == "Boolean"

/-- Whether tags keep a member from being a property. -/
def isSetAside (tags : List MemberTag) : Bool :=
  tags.contains .ignore || tags.contains .nameProperty ||
    tags.contains .parentProperty

/-- What a method without parameters says of a property. -/
def getter? (method : MethodFacts) : Option Draft := do
  let type ← method.returns
  let name ← (propertyName? "get" method.name).or <|
    if isTruthType type then propertyName? "is" method.name else none
  return { name, type, readable := true, writable := false, setter? := none }

/-- The type of property values that a setter with a given parameter takes. -/
def setterType? : ParamShape → Option TypeExpr
  | .type expression => some expression
  | .text => some (.named "String")
  | .number _ | .session => none

/-- What a method with one parameter says of a property. -/
def setter? (method : MethodFacts) (param : ParamShape) : Option Draft := do
  let type ← setterType? param
  let name ← propertyName? "set" method.name
  return {
    name, type, readable := false, writable := true
    setter? := method.invoker? }

def ofMethod? (method : MethodFacts) : Option Draft :=
  if method.isStatic || !method.isUsable || isSetAside method.tags then none
  else
    match method.params with
    | [] => getter? method
    | [param] => setter? method param
    | _ => none

def ofField? (field : FieldFacts) : Option Draft :=
  if field.isStatic || field.visibility != .exposed ||
      isSetAside field.tags then
    none
  else
    some {
      name := field.name
      type := field.type
      readable := true
      writable := true
      setter? := field.setter? }

/-- What the members of a type say of properties, methods before fields. -/
def mentions (facts : TypeFacts) : List Draft :=
  facts.methods.filterMap ofMethod? ++ facts.fields.filterMap ofField?

namespace Draft

/-- A property with what one more member says of it. -/
def merge (property mention : Draft) : Draft :=
  let takesType := mention.readable && !property.readable
  let takesSetter := mention.writable && !property.writable
  { name := property.name
    type := if takesType then mention.type else property.type
    readable := property.readable || mention.readable
    writable := property.writable || mention.writable
    setter? := if takesSetter then mention.setter? else property.setter? }

end Draft

/-- Properties with what one more member says of one of them. -/
def addMention : List Draft → Draft → List Draft
  | [], mention => [mention]
  | property :: rest, mention =>
    if property.name == mention.name then property.merge mention :: rest
    else property :: addMention rest mention

/-- The properties of a type, in the order in which they are first mentioned. -/
def properties (facts : TypeFacts) : List Draft :=
  (mentions facts).foldl addMention []

/-- Whether a type has a constructor that makes beans. -/
def hasBeanConstructor (facts : TypeFacts) (config : Config) : Bool :=
  let arity := if facts.requiresEnclosing then 1 else 0
  facts.constructors.any fun constructor =>
    !constructor.deprecated &&
      constructor.visibility.reaches config.beanConstructorVisibility &&
      constructor.params.length == arity

/-- Why a type is not a bean, apart from what its properties refer to: it is
listed so, it cannot be made, or it has no properties. -/
def objection? (facts : TypeFacts) (config : Config)
    (hasImplementation : Bool) : Option String :=
  if config.notBeanTypes.contains facts.name then
    some "Class is listed as not a bean"
  else if !facts.isAbstract && !hasImplementation &&
      !hasBeanConstructor facts config then
    some "Class does not have the required no-arg constructor"
  else if (properties facts).isEmpty && config.requireBeanProperties then
    some "No properties detected on bean class"
  else
    none

/-- The names that the last bean tag of a type gives. -/
def tagNames (facts : TypeFacts) : Option String × Option String :=
  facts.tags.foldl (fun names tag =>
    match tag with
    | .bean dictionaryName typePropertyName _ =>
      (dictionaryName, typePropertyName)
    | _ => names) (none, none)

end Bean

end TypeAtlas
