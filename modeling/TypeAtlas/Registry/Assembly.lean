import TypeAtlas.Registry.Procedure
import TypeAtlas.Registry.Sources

/-!
# Assembling descriptors

Assembly fills the blank body of a type step by step.  The outline of a type
comes from the sources alone; then the types that it refers to are looked up,
and last it is looked at as a bean.  Where a step fails, what the steps before
it have filled in stays.
-/

namespace TypeAtlas

namespace Parts

/-- The public methods of a type, by a key; a later method replaces earlier. -/
def methodsBy (key : MethodFacts → String) (methods : List MethodFacts) :
    NameMap MethodFacts :=
  NameMap.ofList
    ((methods.filter fun method => method.visibility == .exposed).map
      fun method => (key method, method))

/-- The methods of a remoteable type that may be called from afar. -/
def remoteMethods (carrier : TypeFacts) (annotatedOnly keyByName : Bool) :
    NameMap MethodFacts :=
  methodsBy (if keyByName then MethodFacts.name else MethodFacts.signature)
    (carrier.methods.filter fun method =>
      !annotatedOnly || method.tags.contains .remoteMethod)

/-- The methods that may be called from afar: those of the nearest remoteable
type, which is the type itself or an ancestor. -/
def remoteableMethodsOf? (provider : Provider) (facts : TypeFacts)
    (ancestors : List TypeName) : Option (NameMap MethodFacts) :=
  (facts :: ancestors.filterMap provider.known?).findSome? fun carrier =>
    carrier.remoteableTag?.map fun (annotatedOnly, keyByName) =>
      remoteMethods carrier annotatedOnly keyByName

/-- The member of a type with a tag: a field, or else a method that sets it. -/
def memberRef? (facts : TypeFacts) (tag : MemberTag) : Option MemberRef :=
  let field? := facts.fields.find? fun field => field.tags.contains tag
  let method? := facts.methods.find? fun method =>
    !method.isStatic && method.params.length == 1 && method.tags.contains tag
  (field?.map fun field =>
      { name := field.name, kind := .field, setter? := field.setter? }).or <|
    method?.map fun method =>
      { name := method.name, kind := .method, setter? := method.invoker? }

/-- The parts with what a glance at the facts gives. -/
def glance (parts : Parts) (facts : TypeFacts) : Parts :=
  { parts with
    category := facts.category
    isDelegate := facts.has .delegate
    isAbstract := facts.isAbstract
    isInterface := facts.isInterface
    isPrimitive := facts.primitive
    requiresEnclosing := facts.requiresEnclosing
    defaultValue? :=
      if facts.primitive then facts.scalar.bind Scalar.defaultValue?
      else none }

/-- The parts with the members of the type, the ancestors being known. -/
def withMembers (parts : Parts) (provider : Provider) (facts : TypeFacts) :
    Parts :=
  { parts with
    publicMethods := methodsBy MethodFacts.signature facts.methods
    remoteableMethods? := remoteableMethodsOf? provider facts parts.ancestors
    nameProperty? := memberRef? facts .nameProperty
    parentProperty? := memberRef? facts .parentProperty
    beanDictionary := facts.tags.flatMap fun
      | .bean _ _ dictionary => dictionary
      | _ => [] }

end Parts

namespace Assembly

/-- Filling the parts of a type, which stay when it ends early. -/
abbrev Outlining := ExceptT Stop (StateM Parts)

def crashOn : Option Crash → Outlining Unit
  | some crash => throw (.crash crash)
  | none => pure ()

def requestFacts (provider : Provider) (name : TypeName) :
    Outlining TypeFacts := do
  crashOn (provider.crash? name)
  match provider.facts name with
  | .ok facts => return facts
  | .error error => throw (.error (.facts error))

/-- The bindings of a type: its own transform, then those of the catalogue. -/
def bindingsOf (sources : Sources) (facts : TypeFacts)
    (ancestors : List TypeName) : Outlining (List Binding) := do
  let own := (Transform.discover? facts).toList.map fun transform =>
    ⟨transform, .swapMethod⟩
  match sources.transforms.bindingsFor facts ancestors with
  | .ok bindings => return own ++ bindings
  | .error error => throw (.error (.transform error))

/-- The facts of the implementation that a type is configured with. -/
def requestImplementation (sources : Sources) (name : TypeName) :
    Outlining (Option TypeFacts) := do
  match sources.config.implementations.get? name with
  | none => return none
  | some implementation =>
    modify fun parts => { parts with implementation? := some implementation }
    some <$> requestFacts sources.provider implementation

/-- Fills in all that comes from the sources alone, and gives the facts of the
type with whether it has an implementation. -/
def outline (sources : Sources) (name : TypeName) :
    Outlining (TypeFacts × Bool) := do
  let provider := sources.provider
  let facts ← requestFacts provider name
  modify fun parts => parts.glance facts
  crashOn (provider.ancestorsCrash? facts)
  let ancestors := provider.ancestors facts
  modify fun parts => { parts with ancestors }
  modify fun parts => parts.withMembers provider facts
  let bindings ← bindingsOf sources facts ancestors
  crashOn (sources.transforms.childrenCrash? name provider)
  let children := sources.transforms.childrenOf name provider
  let implementation? ← requestImplementation sources name
  let context : Construction.Context :=
    { implementation?
      rootType := sources.config.rootType
      surrogates := bindings.map fun binding => binding.transform.surrogate
      provider? := some provider }
  crashOn (Construction.discoverCrash? facts context)
  modify fun parts =>
    { parts with
      recipes := Construction.discover facts facts.category context
      bindings
      children }
  return (facts, implementation?.isSome)

/-- Filling the body of a type, which stays when it ends early.  References are
taken by what the monad below can do. -/
abbrev Assembling (m : Type → Type) := ExceptT Stop (StateT Body m)

def lift (lookup : Lookup α) : Assembling Procedure α :=
  ExceptT.mk (StateT.lift (ExceptT.run lookup))

variable {m : Type → Type} [Monad m]

def liftOutline (outlining : Outlining α) : Assembling m α :=
  ExceptT.mk do
    let body ← get
    let (outcome, parts) := (ExceptT.run outlining).run body.parts
    set { body with parts }
    return outcome

/-- A declared type argument, or the root type where it is not declared. -/
def typeArgument (sources : Sources) (facts : TypeFacts) (index : Nat) :
    TypeExpr :=
  facts.typeArgs[index]?.getD (.named sources.config.rootType)

/-- Takes the references to the types that values of a type hold. -/
def takeReferences (sources : Sources)
    (reference : TypeExpr → Assembling m TypeRef) (facts : TypeFacts) :
    Assembling m Unit := do
  match facts.category with
  | .array =>
    match facts.arrayOf with
    | none => pure ()
    | some component => do
      let element ← reference component
      modify fun body => { body with element? := some element }
  | .elementContainer => do
    let element ← reference (typeArgument sources facts 0)
    modify fun body => { body with element? := some element }
  | .pairContainer | .beanMap => do
    let key ← reference (typeArgument sources facts 0)
    modify fun body => { body with key? := some key }
    let value ← reference (typeArgument sources facts 1)
    modify fun body => { body with value? := some value }
  | _ => pure ()

/-- The property of a draft, which refers to its type. -/
def property (reference : TypeExpr → Assembling m TypeRef)
    (draft : Bean.Draft) : Assembling m BeanProperty := do
  let type ← reference draft.type
  return {
    name := draft.name
    type
    readOnly := !draft.writable
    setter? := draft.setter? }

/-- The bean verdict on a type, by its members. -/
def judge (sources : Sources) (reference : TypeExpr → Assembling m TypeRef)
    (facts : TypeFacts) (hasImplementation : Bool) :
    Assembling m BeanVerdict := do
  match Bean.objection? facts sources.config hasImplementation with
  | some reason => return .notABean reason
  | none =>
    let properties ← (Bean.properties facts).mapM (property reference)
    let (dictionaryName?, typePropertyName?) := Bean.tagNames facts
    return .bean { properties, dictionaryName?, typePropertyName? }

/-- The verdict on a type.  Only types of no other category may be beans, and
introspection comes before the judgement by members, with a verdict of its own
where it has one. -/
def verdict (sources : Sources) (reference : TypeExpr → Assembling m TypeRef)
    (introspect : TypeFacts → Bool → Assembling m (Option BeanVerdict))
    (facts : TypeFacts) (hasImplementation : Bool) :
    Assembling m BeanVerdict := do
  if facts.category == .other then
    match ← introspect facts hasImplementation with
    | some verdict => return verdict
    | none => judge sources reference facts hasImplementation
  else
    return .notABean s!"Category '{facts.category.name}' is never a bean"

def assemble (sources : Sources)
    (reference : TypeExpr → Assembling m TypeRef)
    (introspect : TypeFacts → Bool → Assembling m (Option BeanVerdict))
    (name : TypeName) : Assembling m Unit := do
  let (facts, hasImplementation) ← liftOutline (outline sources name)
  takeReferences sources reference facts
  let bean ← verdict sources reference introspect facts hasImplementation
  modify fun body => { body with parts := { body.parts with bean } }

end Assembly

end TypeAtlas
