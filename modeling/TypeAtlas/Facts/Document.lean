import TypeAtlas.Document.Json.Reader
import TypeAtlas.Facts.Table
import TypeAtlas.TypeExpr.Parser

/-!
# Facts in documents

A facts document is a record whose field `types` lists the facts of types.
Most fields of facts may be left out.  Type expressions are written as texts,
parameters as variants, and tags as tables whose entry `tag` names the variant.
Invokers have no written form.
-/

namespace TypeAtlas

namespace Facts

open Document (Node)

def encodeExpr (expression : TypeExpr) : Node :=
  .text expression.render

def decodeExpr (node : Node) : Option TypeExpr :=
  node.text?.bind fun text => (TypeExpr.parse text).toOption

def encodeParam : ParamShape → Node
  | .text => .text "text"
  | .session => .text "session"
  | .number kind => Node.record [("number", .text kind.name)]
  | .type expression => Node.record [("type", encodeExpr expression)]

def decodeParam (node : Node) : Option ParamShape := do
  match ← node.variant? with
  | ("text", content) => if content.all Node.isUnit then some .text else none
  | ("session", content) =>
    if content.all Node.isUnit then some .session else none
  | ("number", some content) =>
    (content.enumerated? NumberKind.named).map .number
  | ("type", some content) => (decodeExpr content).map .type
  | _ => none

def decodeVisibility : Node → Option Visibility :=
  Node.enumerated? Visibility.named

/-- Reads a list of member tags from their names. -/
def decodeMemberTags : Node → Option (List MemberTag) :=
  Node.listOf? (Node.enumerated? MemberTag.named)

def encodeConstructor (constructor : ConstructorFacts) : Node :=
  Node.record
    [("params", .list (constructor.params.map encodeParam)),
     ("visibility", .text constructor.visibility.name),
     ("deprecated", .boolean constructor.deprecated)]

def decodeConstructor (node : Node) : Option ConstructorFacts := do
  let fields ← node.fields? ["params", "visibility", "deprecated"]
  return {
    params := ← Node.defaulted "params" [] (Node.listOf? decodeParam) fields
    visibility :=
      ← Node.defaulted "visibility" .exposed decodeVisibility fields
    deprecated := ← Node.defaulted "deprecated" false Node.boolean? fields }

def encodeMethod (method : MethodFacts) : Node :=
  Node.record
    [("name", .text method.name),
     ("params", .list (method.params.map encodeParam)),
     ("returns", Node.optional encodeExpr method.returns),
     ("is_static", .boolean method.isStatic),
     ("visibility", .text method.visibility.name),
     ("deprecated", .boolean method.deprecated),
     ("tags", Node.texts (method.tags.map MemberTag.name))]

def decodeMethod (node : Node) : Option MethodFacts := do
  let fields ← node.fields?
    ["name", "params", "returns", "is_static", "visibility", "deprecated",
     "tags"]
  return {
    name := ← Node.required "name" Node.text? fields
    params := ← Node.defaulted "params" [] (Node.listOf? decodeParam) fields
    returns :=
      ← Node.defaulted "returns" none (Node.optional? decodeExpr) fields
    isStatic := ← Node.defaulted "is_static" false Node.boolean? fields
    visibility :=
      ← Node.defaulted "visibility" .exposed decodeVisibility fields
    deprecated := ← Node.defaulted "deprecated" false Node.boolean? fields
    tags := ← Node.defaulted "tags" [] decodeMemberTags fields }

def encodeField (field : FieldFacts) : Node :=
  Node.record
    [("name", .text field.name),
     ("ty", encodeExpr field.type),
     ("visibility", .text field.visibility.name),
     ("is_static", .boolean field.isStatic),
     ("tags", Node.texts (field.tags.map MemberTag.name))]

def decodeField (node : Node) : Option FieldFacts := do
  let fields ← node.fields? ["name", "ty", "visibility", "is_static", "tags"]
  return {
    name := ← Node.required "name" Node.text? fields
    type := ← Node.required "ty" decodeExpr fields
    visibility :=
      ← Node.defaulted "visibility" .exposed decodeVisibility fields
    isStatic := ← Node.defaulted "is_static" false Node.boolean? fields
    tags := ← Node.defaulted "tags" [] decodeMemberTags fields }

def encodeTypeTag : TypeTag → Node
  | .bean dictionaryName typePropertyName dictionary =>
    Node.record
      [("tag", .text "bean"),
       ("dictionary_name", Node.optional .text dictionaryName),
       ("type_property_name", Node.optional .text typePropertyName),
       ("dictionary", Node.texts dictionary)]
  | .transform name =>
    Node.record [("tag", .text "transform"), ("name", .text name)]
  | .remoteable annotatedOnly keyByName =>
    Node.record
      [("tag", .text "remoteable"),
       ("annotated_only", .boolean annotatedOnly),
       ("key_by_name", .boolean keyByName)]

/-- Whether an entry of a table is the one that names the variant of a tag. -/
def isTagName (entry : Node × Node) : Bool :=
  match entry.1 with
  | .text key => key == "tag"
  | _ => false

/-- Splits the node of a type tag into the name of its variant and the rest.
The name is the entry `tag` of a table, which must occur once, or the first item
of a list. -/
def splitTypeTag : Node → Option (String × Node)
  | .list (name :: rest) => do
    return (← name.text?, .list rest)
  | .table entries => do
    let [(_, name)] := entries.filter isTagName | none
    return (← name.text?, .table (entries.filter fun entry => !isTagName entry))
  | _ => none

/-- Reads a type tag, whose unquoted scalars are decided beforehand. -/
def decodeTypeTag (node : Node) : Option TypeTag := do
  let (name, content) ← splitTypeTag (← node.resolved?)
  match name with
  | "bean" =>
    let fields ←
      content.fields? ["dictionary_name", "type_property_name", "dictionary"]
    let optionalText := Node.optional? Node.text?
    return .bean
      (← Node.defaulted "dictionary_name" none optionalText fields)
      (← Node.defaulted "type_property_name" none optionalText fields)
      (← Node.defaulted "dictionary" [] (Node.listOf? Node.text?) fields)
  | "transform" =>
    let fields ← content.fields? ["name"]
    return .transform (← Node.required "name" Node.text? fields)
  | "remoteable" =>
    let fields ← content.fields? ["annotated_only", "key_by_name"]
    return .remoteable
      (← Node.defaulted "annotated_only" false Node.boolean? fields)
      (← Node.defaulted "key_by_name" false Node.boolean? fields)
  | _ => none

def encodeType (facts : TypeFacts) : Node :=
  Node.record
    [("name", .text facts.name),
     ("scalar", Node.optional (fun scalar => .text scalar.name) facts.scalar),
     ("primitive", .boolean facts.primitive),
     ("markers", Node.texts (facts.markers.map Marker.name)),
     ("is_abstract", .boolean facts.isAbstract),
     ("is_interface", .boolean facts.isInterface),
     ("requires_enclosing", .boolean facts.requiresEnclosing),
     ("array_of", Node.optional encodeExpr facts.arrayOf),
     ("supertypes", Node.texts facts.supertypes),
     ("type_args", .list (facts.typeArgs.map encodeExpr)),
     ("constructors", .list (facts.constructors.map encodeConstructor)),
     ("methods", .list (facts.methods.map encodeMethod)),
     ("fields", .list (facts.fields.map encodeField)),
     ("tags", .list (facts.tags.map encodeTypeTag))]

def decodeType (node : Node) : Option TypeFacts := do
  let fields ← node.fields?
    ["name", "scalar", "primitive", "markers", "is_abstract", "is_interface",
     "requires_enclosing", "array_of", "supertypes", "type_args",
     "constructors", "methods", "fields", "tags"]
  let flag (name : String) := Node.defaulted name false Node.boolean? fields
  let listed {α : Type} (name : String) (decode : Node → Option α) :=
    Node.defaulted name [] (Node.listOf? decode) fields
  return {
    name := ← Node.required "name" Node.text? fields
    scalar := ← Node.defaulted "scalar" none
      (Node.optional? (Node.enumerated? Scalar.named)) fields
    primitive := ← flag "primitive"
    markers := Marker.normalize
      (← listed "markers" (Node.enumerated? Marker.named))
    isAbstract := ← flag "is_abstract"
    isInterface := ← flag "is_interface"
    requiresEnclosing := ← flag "requires_enclosing"
    arrayOf :=
      ← Node.defaulted "array_of" none (Node.optional? decodeExpr) fields
    supertypes := ← listed "supertypes" Node.text?
    typeArgs := ← listed "type_args" decodeExpr
    constructors := ← listed "constructors" decodeConstructor
    methods := ← listed "methods" decodeMethod
    fields := ← listed "fields" decodeField
    tags := ← listed "tags" decodeTypeTag }

def encodeDocument (types : List TypeFacts) : Node :=
  Node.record [("types", .list (types.map encodeType))]

def decodeDocument (node : Node) : Option (List TypeFacts) := do
  let fields ← node.fields? ["types"]
  Node.defaulted "types" [] (Node.listOf? decodeType) fields

end Facts

end TypeAtlas
