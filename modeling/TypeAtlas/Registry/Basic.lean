import TypeAtlas.Registry.Lookup

/-!
# Registries

A registry is a store with the sources that its descriptors are assembled from.
Its requests give an outcome and the registry as it is afterwards.  Descriptors
outlive the registry that made them, but references that they hold can then no
longer be followed.
-/

namespace TypeAtlas

/-- A registry of type descriptors. -/
structure Registry where
  sources : Sources
  store : Store := {}
  /-- Whether the registry is still there for requests. -/
  alive : Bool := true

namespace Registry

instance : Inhabited Registry := ⟨{ sources := default }⟩

/-- The registry with given sources, whose configuration must be valid. -/
def create (sources : Sources) : Except Error Registry :=
  match sources.config.validate with
  | .ok _ => .ok { sources }
  | .error error => .error (.config error)

/-- A request: what it does with the lookups of an agent. -/
abbrev Request (α : Type) := Lookup.Agent → Lookup.Builder → Lookup α

/-- The procedure by which a thread carries out a request. -/
def Request.procedure (request : Request α) (sources : Sources)
    (thread : ThreadId) : Procedure (Except Stop α) :=
  let agent : Lookup.Agent := { sources, thread }
  ExceptT.run (request agent (Lookup.builder agent))

/-- The outcome of a run: one that waits is blocked. -/
def outcomeOf (run : Procedure.Run (Except Stop α)) : Except Stop α :=
  match run.outcome with
  | .ok outcome => outcome
  | .error descriptor => .error (.blocked descriptor.name)

/-- The outcome of a request of a thread, and the registry after it. -/
def run (registry : Registry) (request : Request α) (thread : ThreadId) :
    Except Stop α × Registry :=
  if registry.alive then
    let run :=
      (request.procedure registry.sources thread).run thread registry.store
    (outcomeOf run, { registry with store := run.store })
  else
    (.error (.error .registryDropped), registry)

def get (name : TypeName) : Request Descriptor :=
  fun agent build => Lookup.getByName agent build name

def resolve (expression : TypeExpr) : Request Descriptor :=
  fun agent build => Lookup.resolve agent build expression

/-- Asks for the descriptor of the expression that a text spells. -/
def lookup (text : String) : Request Descriptor :=
  fun agent build => Lookup.lookupText agent build text

/-- Asks for the specialization of a type to given arguments. -/
def specialize (name : TypeName) (args : List TypeExpr) : Request Descriptor :=
  resolve ⟨name, args⟩

def argumentList (types : List TypeExpr) : Request Descriptor :=
  fun _ build => do
    let references ← types.mapM (Lookup.takeReference build)
    return .detached (← Lookup.takeNumber) (.named Body.argumentListName)
      (Body.argumentList references)

/-- Asks for the descriptor that a reference leads to. -/
def follow (reference : TypeRef) : Request Descriptor :=
  fun agent build => Lookup.follow agent build reference

/-- The body of a descriptor; one in progress counts as blank. -/
def body (registry : Registry) (descriptor : Descriptor) : Body :=
  (registry.store.body? descriptor).getD (Body.blank descriptor.name)

def cachedNames (registry : Registry) : List TypeName :=
  registry.store.entries.names

def drop (registry : Registry) : Registry :=
  { registry with alive := false }

/-- Takes over what a call reported, and gives its outcome. -/
def absorb (registry : Registry) (reply : Reply ε α) : Except ε α × Registry :=
  let store := reply.calls.foldl (fun store call => store.report (.call call))
    registry.store
  (reply.outcome, { registry with store })

/-- The reports made so far, oldest first, and the registry without them. -/
def takeReports (registry : Registry) : List Event × Registry :=
  (registry.store.reports.reverse,
    { registry with store := { registry.store with reports := [] } })

/-- The child transform of a described type that applies to a name.  Answers are
remembered with the type, for its specializations as well. -/
def childTransform (registry : Registry) (descriptor : Descriptor)
    (side : ChildTransforms.Side) (name : TypeName) :
    Except Crash (Option Transform) × Registry :=
  let store := registry.store
  let memos := (store.memos.get? descriptor.name).getD {}
  let children := (registry.body descriptor).parts.children
  let provider := registry.sources.provider
  match ChildTransforms.lookup children (some provider) side name memos with
  | .error crash => (.error crash, registry)
  | .ok (child?, memos) =>
    let store :=
      { store with memos := store.memos.insert descriptor.name memos }
    (.ok child?, { registry with store })

/-- A step from a descriptor to another one that it refers to. -/
inductive Hop where
  | element | key | value
  | arg (index : Nat)
  | property (name : String)
  deriving Repr, DecidableEq

/-- The reference that a hop follows, if there is one. -/
def reference? (registry : Registry) (descriptor : Descriptor) (hop : Hop) :
    Except Error (Option TypeRef) :=
  let body := registry.body descriptor
  match hop with
  | .element => .ok body.element?
  | .key => .ok body.key?
  | .value => .ok body.value?
  | .arg index =>
    match body.args[index]? with
    | some reference => .ok (some reference)
    | none => .error (.argumentIndex index body.args.length)
  | .property name => .ok do
    let shape ← body.parts.bean.shape?
    let property ← shape.property? name
    return property.type

end Registry

end TypeAtlas
