import TypeAtlas.Descriptor.Basic

/-!
# Descriptors in documents

The document of a descriptor says all that a report leaves out: every recipe,
every binding with its score, the methods, and how the bean is written.  What a
type does not have is null, so that all documents have the same entries.
-/

namespace TypeAtlas

open Document (Node)

def encodeCount (count : Nat) : Node :=
  .number (toString count)

/-- The node of a text that may be missing. -/
def encodeText? : Option String → Node :=
  Node.optional .text

namespace Transform

def entries (transform : Transform) : List (String × Node) :=
  [("normal", .text transform.normal),
   ("surrogate", .text transform.surrogate),
   ("has_reverse", .boolean transform.hasReverse)]

def encode (transform : Transform) : Node :=
  Node.record transform.entries

end Transform

def BindingOrigin.encode : BindingOrigin → Node
  | .swapMethod => .text "swap"
  | .registered => .text "registered"
  | .inherited ancestor => Node.record [("inherited", .text ancestor)]
  | .declared name => Node.record [("declared", .text name)]

/-- The node of a binding with its score for a format. -/
def Binding.encode (format : Format) (binding : Binding) : Node :=
  Node.record
    [("origin", binding.origin.encode),
     ("transform", binding.transform.encode),
     ("score", encodeCount (binding.transform.score format))]

namespace Construction

/-- The node of a way to make a value from nothing. -/
def NoArgRecipe.encode (recipe : NoArgRecipe) : Node :=
  Node.record
    [("source", .text recipe.source),
     ("requires_enclosing", .boolean recipe.requiresEnclosing)]

/-- The node of the member that makes a value from text. -/
def TextSource.encode : TextSource → Node
  | .factory name => Node.record [("factory", .text name)]
  | .constructor => .text "constructor"

/-- The node of a way to make a value from a surrogate. -/
def SurrogateRecipe.encode (recipe : SurrogateRecipe) : Node :=
  Node.record
    [("surrogate", .text recipe.surrogate),
     ("source", .text recipe.source.name)]

def strategyNames (holds : Strategy → Bool) : List String :=
  (Strategy.all.filter holds).map Strategy.name

def Recipes.encode (recipes : Recipes) : Node :=
  Node.record
    [("owner", .text recipes.owner),
     ("requires_enclosing", .boolean recipes.requiresEnclosing),
     ("no_arg", Node.optional NoArgRecipe.encode recipes.noArg?),
     ("from_text",
      Node.optional TextSource.encode
        (recipes.fromText?.map TextRecipe.source)),
     ("from_number",
      encodeText? (recipes.fromNumber?.map fun recipe => recipe.kind.name)),
     ("from_surrogate",
      .list (recipes.fromSurrogate.map SurrogateRecipe.encode)),
     ("has", Node.texts (strategyNames recipes.has)),
     ("can", Node.texts (strategyNames recipes.can))]

end Construction

def BeanProperty.encode (property : BeanProperty) : Node :=
  Node.record
    [("name", .text property.name),
     ("type", .text property.type.expr.render),
     ("read_only", .boolean property.readOnly),
     ("setter", .boolean property.setter?.isSome)]

def BeanVerdict.encode : BeanVerdict → Node
  | .notABean reason => Node.record [("not_a_bean", .text reason)]
  | .bean shape =>
    Node.record
      [("properties", .list (shape.properties.map BeanProperty.encode))]

/-- The node of a member that sets the name or the parent. -/
def MemberRef.encode (member : MemberRef) : Node :=
  Node.record
    [("name", .text member.name), ("kind", .text member.kind.name)]

/-- The node of a method that can be called. -/
def MethodFacts.encodeCallable (method : MethodFacts) : Node :=
  Node.record
    [("name", .text method.name),
     ("returns", encodeText? (method.returns.map TypeExpr.render)),
     ("static", .boolean method.isStatic),
     ("deprecated", .boolean method.deprecated)]

def encodeMethods (methods : NameMap MethodFacts) : Node :=
  Node.record
    (methods.entries.map fun (key, method) => (key, method.encodeCallable))

/-- The node of a reference that may be missing. -/
def encodeReference? (reference? : Option TypeRef) : Node :=
  encodeText? (reference?.map fun reference => reference.expr.render)

namespace Parts

/-- The entries of the parts of a type, for a format. -/
def entries (parts : Parts) (format : Format) : List (String × Node) :=
  let shape? := parts.bean.shape?
  [("implementation", encodeText? parts.implementation?),
   ("ancestors", Node.texts parts.ancestors),
   ("construction", parts.recipes.encode),
   ("transforms", .list (parts.bindings.map (Binding.encode format))),
   ("children", .list (parts.children.map Transform.encode)),
   ("bean", parts.bean.encode),
   ("dictionary_name", encodeText? (shape?.bind BeanShape.dictionaryName?)),
   ("type_property_name",
    encodeText? (shape?.bind BeanShape.typePropertyName?)),
   ("bean_dictionary", Node.texts parts.beanDictionary),
   ("name_property", Node.optional MemberRef.encode parts.nameProperty?),
   ("parent_property", Node.optional MemberRef.encode parts.parentProperty?),
   ("public_methods", encodeMethods parts.publicMethods),
   ("remoteable_methods",
    Node.optional encodeMethods parts.remoteableMethods?)]

end Parts

/-- The entries of a descriptor with a body, for a format. -/
def Body.entries (body : Body) (expression : TypeExpr) (format : Format) :
    List (String × Node) :=
  let traits := body.traits.filterMap fun (name, hasIt) =>
    if hasIt then some name else none
  [("name", .text expression.name),
   ("expr", .text expression.render),
   ("failure", encodeText? body.failure?),
   ("flags", Node.texts traits),
   ("element", encodeReference? body.element?),
   ("key", encodeReference? body.key?),
   ("value", encodeReference? body.value?),
   ("args", Node.texts (body.args.map fun arg => arg.expr.render)),
   ("serialized_type", .text (body.serializedType expression.name format))] ++
    body.parts.entries format

end TypeAtlas
