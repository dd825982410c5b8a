import TypeAtlas.Transform.Basic

/-!
# Transform catalogues

A catalogue holds registered transforms, in the order of registration, and
named ones.  Registered transforms apply to their normal type and everything
below it; a named transform applies to the types whose tags name it.
-/

namespace TypeAtlas

/-- Where the binding of a transform to a type comes from. -/
inductive BindingOrigin where
  /-- The type's own methods. -/
  | swapMethod
  /-- The transform is registered for the type. -/
  | registered
  /-- The transform is registered for an ancestor. -/
  | inherited (ancestor : TypeName)
  /-- A tag of the type names the transform. -/
  | declared (name : String)
  deriving Repr, DecidableEq

/-- A transform that applies to a type. -/
structure Binding where
  transform : Transform
  origin : BindingOrigin

/-- Registered and named transforms. -/
structure TransformCatalogue where
  registered : List Transform := []
  named : NameMap Transform := NameMap.empty

instance : Inhabited TransformCatalogue := ⟨{}⟩

namespace TransformCatalogue

/-- The catalogue with one more registered transform, behind the others. -/
def register (catalogue : TransformCatalogue) (transform : Transform) :
    TransformCatalogue :=
  { catalogue with registered := catalogue.registered ++ [transform] }

/-- The catalogue with the transform of a name set. -/
def registerNamed (catalogue : TransformCatalogue) (name : String)
    (transform : Transform) : TransformCatalogue :=
  { catalogue with named := catalogue.named.insert name transform }

/-- The bindings of registered transforms to a type with given ancestors. -/
def registeredBindings (catalogue : TransformCatalogue) (name : TypeName)
    (ancestors : List TypeName) : List Binding :=
  catalogue.registered.filterMap fun transform =>
    if transform.normal == name then some ⟨transform, .registered⟩
    else if ancestors.contains transform.normal then
      some ⟨transform, .inherited transform.normal⟩
    else none

/-- The names of the transforms that the tags of a type name. -/
def declaredNames (facts : TypeFacts) : List String :=
  facts.tags.filterMap fun
    | .transform name => some name
    | _ => none

/-- The bindings of the transforms that the tags of a type name. -/
def declaredBindings (catalogue : TransformCatalogue) (facts : TypeFacts) :
    Except TransformError (List Binding) :=
  (declaredNames facts).mapM fun name =>
    match catalogue.named.get? name with
    | some transform => .ok ⟨transform, .declared name⟩
    | none => .error (.unknown name facts.name)

/-- The bindings of a type with given ancestors, in the order of selection. -/
def bindingsFor (catalogue : TransformCatalogue) (facts : TypeFacts)
    (ancestors : List TypeName) : Except TransformError (List Binding) :=
  (catalogue.declaredBindings facts).map fun declared =>
    catalogue.registeredBindings facts.name ancestors ++ declared

/-- The registered transforms of types that strictly descend from a type. -/
def childrenOf (catalogue : TransformCatalogue) (name : TypeName)
    (provider : Provider) : List Transform :=
  catalogue.registered.filter fun transform =>
    transform.normal != name && provider.isSubtype transform.normal name

/-- The crash in which finding the transforms of descendants ends. -/
def childrenCrash? (catalogue : TransformCatalogue) (name : TypeName)
    (provider : Provider) : Option Crash :=
  catalogue.registered.findSome? fun transform =>
    provider.subtypeCrash? transform.normal name

end TransformCatalogue

end TypeAtlas
