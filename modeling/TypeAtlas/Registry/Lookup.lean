import TypeAtlas.Registry.Assembly

/-!
# Looking types up

A top-level lookup makes the descriptor of a name on first use and waits for it
otherwise.  A lookup from inside an assembly never waits: it takes the entry as
it stands, or assembles it there and then.  Lookups are written in terms of a
function that builds an entered name; that function is in turn built from
lookups with one level of nesting less.
-/

namespace TypeAtlas

namespace Lookup

/-- Builds the descriptor of a name that was just entered. -/
abbrev Builder := (name : TypeName) → (identity : Nat) → Lookup Unit

/-- Who looks something up, and in what. -/
structure Agent where
  sources : Sources
  thread : ThreadId

/-- Finds the entry of a name, or makes it. -/
def enter (name : TypeName) : Lookup Found :=
  perform (.enter name)

def publish (name : TypeName) (identity : Nat) (body : Body) : Lookup Unit :=
  perform (.publish name identity body)

def await (descriptor : Descriptor) : Lookup Body :=
  perform (.await descriptor)

def takeNumber : Lookup Nat :=
  perform .takeNumber

/-- The descriptor of a name, for a request from outside of assemblies. -/
def getByName (agent : Agent) (build : Builder) (name : TypeName) :
    Lookup Descriptor :=
  noted .topLevel name do
    match ← enter name with
    | .made identity =>
      perform .recordMiss
      build name identity
      return .cached name identity
    | .present identity builder isPublished =>
      if !isPublished && builder == agent.thread then
        fail (.reentrantLookup name)
      else
        let _ ← await (.cached name identity)
        perform .recordHit
        return .cached name identity

/-- The descriptor of a name, for a request from inside an assembly. -/
def getNested (build : Builder) (name : TypeName) : Lookup Descriptor :=
  noted .nested name do
    match ← enter name with
    | .made identity =>
      build name identity
      return .cached name identity
    | .present identity _ _ => return .cached name identity

/-- A reference to a type, all names of which are looked up first. -/
def takeReference (build : Builder) (expression : TypeExpr) :
    Lookup TypeRef := do
  expression.names.forM fun name => do
    let _ ← getNested build name
  return ⟨expression, ← takeNumber⟩

/-- The refusal of type arguments of the wrong number. -/
def arityError (expression : TypeExpr) (category : Category)
    (expected : Nat) : Error :=
  let given := expression.args.length
  let arguments := s!"{expected} type argument(s), got {given}"
  .specialization expression.render
    s!"{category.name} types take {arguments}"

/-- The specialization of a body to the references to its arguments. -/
def specialized (body : Body) : (references : List TypeRef) → Body
  | [element] => body.specialize (some element) none none
  | [key, value] => body.specialize none (some key) (some value)
  | _ => body

def resolve (agent : Agent) (build : Builder) (expression : TypeExpr) :
    Lookup Descriptor := do
  let base ← getByName agent build expression.name
  if !expression.isParameterized then
    return base
  else
    let body ← await base
    match body.parts.category.arity? with
    | none => return base
    | some arity =>
      if expression.args.length ≠ arity then
        fail (arityError expression body.parts.category arity)
      else
        let references ← expression.args.mapM (takeReference build)
        return .detached (← takeNumber) expression (specialized body references)

/-- Follows a reference; one to a specialization always leads to the same. -/
def follow (agent : Agent) (build : Builder) (reference : TypeRef) :
    Lookup Descriptor := do
  if !reference.expr.isParameterized then
    getNested build reference.expr.name
  else
    match ← perform (.readTarget reference.slot) with
    | some target => return target
    | none =>
      let target ← resolve agent build reference.expr
      perform (.keepTarget reference.slot target)

/-- The descriptor of the expression that a text spells. -/
def lookupText (agent : Agent) (build : Builder) (text : String) :
    Lookup Descriptor := do
  let expression ← ofExcept .typeExpr (TypeExpr.parse text)
  resolve agent build expression

/-- Takes a reference to the type that a text spells, and follows it. -/
def referText (agent : Agent) (build : Builder) (text : String) :
    Lookup Descriptor := do
  let expression ← ofExcept .typeExpr (TypeExpr.parse text)
  let reference ← takeReference build expression
  follow agent build reference

/-- What a lookup from a script finds; crashes go on to end the script. -/
def find (lookup : Lookup Descriptor) : Lookup Finding := do
  match ← attempt lookup with
  | .ok descriptor => return .descriptor (← perform (.look descriptor))
  | .error (.error error) => return .error error
  | .error stop => throw stop

/-- Follows a script, until one of its steps decides the verdict. -/
def followScript (agent : Agent) (build : Builder) (facts : TypeFacts)
    (hasImplementation : Bool) :
    List IntrospectionStep → Lookup (Option BeanVerdict)
  | [] => pure none
  | step :: rest =>
    let goOn (finding : Finding) : Lookup (Option BeanVerdict) := do
      perform (.report (.introspecting facts.name finding))
      followScript agent build facts hasImplementation rest
    match step with
    | .crash crash => throw (.crash crash)
    | .reject reason => pure (some (.notABean reason))
    | .fail reason => fail (.instantiation facts.name reason)
    | .acceptEmpty => pure (some (.bean {}))
    | .get name => find (getByName agent build name) >>= goOn
    | .lookup text => find (lookupText agent build text) >>= goOn
    | .reference text => find (referText agent build text) >>= goOn
    | .survey =>
      goOn (.surroundings hasImplementation agent.sources.config.rootType)

/-- The assembly of a name, with the lookups of an agent. -/
def assembly (agent : Agent) (build : Builder) (name : TypeName) :
    Assembly.Assembling Procedure Unit :=
  Assembly.assemble agent.sources
    (fun expression => Assembly.lift (takeReference build expression))
    (fun facts hasImplementation => Assembly.lift <|
      followScript agent build facts hasImplementation
        ((agent.sources.scripts.get? facts.name).getD []))
    name

/-- The error with which an assembly that stopped has failed, if it has. -/
def Stop.failure? : Stop → Option Error
  | .error error => some error
  | .crash crash => some (.assemblyCrashed crash.report)
  | .blocked _ | .exhausted => none

/-- Builds an entered name: assembles its body, publishes it with the reason for
a failure, and then passes the failure on.  A crash ends the build as well. -/
def buildWith (agent : Agent) (build : Builder) (name : TypeName)
    (identity : Nat) : Lookup Unit := do
  mark (.building name)
  let (outcome, body) ← ExceptT.lift <|
    (ExceptT.run (assembly agent build name)).run (Body.blank name)
  match outcome with
  | .ok () =>
    publish name identity body
    perform (.recordBuild false)
  | .error stop =>
    match Stop.failure? stop with
    | none => throw stop
    | some error =>
      publish name identity { body with failure? := some error.message }
      perform (.recordBuild true)
      fail (.initialization name error.message)

/-- Builds an entered name, with at most `depth` builds inside each other. -/
def build (agent : Agent) : (depth : Nat) → Builder
  | 0, _, _ => throw .exhausted
  | depth + 1, name, identity =>
    buildWith agent (build agent depth) name identity

/-- Builds an entered name, however many builds run inside each other. -/
def builder (agent : Agent) : Builder :=
  build agent agent.sources.depthBound

end Lookup

end TypeAtlas
