import TypeAtlas.Proofs.Registry.Operations

/-!
# Lookups step by step

Lookups are put together from a few steps: a name is looked up, a body is
awaited, a number is taken, a target is read or kept, and a script is told what
was found.  A relation between lookups that all of these steps keep is kept by
whole lookups and assemblies, which may differ in how they build the names that
they enter.
-/

namespace TypeAtlas

/-- Whether an action of lookups neither enters, publishes nor awaits. -/
def Action.isFree : Action → Bool
  | .takeNumber | .readTarget _ | .keepTarget _ _ | .look _ | .report _ => true
  | _ => false

def Operation.names : Operation → List TypeName
  | .get name => [name]
  | .resolve expression => expression.names
  | .lookup text => Sources.namesInText text
  | .specialize name args => TypeExpr.names ⟨name, args⟩
  | .argumentList types => TypeExpr.namesOfList types
  | .follow reference => reference.expr.names

namespace Lookup

/-- A relation between lookups of names that may be asked for, which its steps
keep whether they build with one builder or with another. -/
structure Congruence (agent : Agent) (may : TypeName → Prop)
    (build other : Builder)
    (relates : ∀ {α : Type}, Lookup α → Lookup α → Prop) : Prop where
  pure {α : Type} (value : α) : relates (pure value) (pure value)
  throw {α : Type} {stop : Stop} (failure : stop.IsFailure) :
    relates (throw stop : Lookup α) (throw stop)
  bind {α β : Type} {lookup another : Lookup α} {next goesOn : α → Lookup β}
    (first : relates lookup another)
    (second : ∀ value, relates (next value) (goesOn value)) :
    relates (lookup >>= next) (another >>= goesOn)
  perform {action : Action} (free : action.isFree = true) :
    relates (perform action) (perform action)
  find {lookup another : Lookup Descriptor} (looks : relates lookup another) :
    relates (find lookup) (find another)
  nested {name : TypeName} (asks : may name) :
    relates (getNested build name) (getNested other name)
  topLevel {name : TypeName} (asks : may name) :
    relates (getByName agent build name) (getByName agent other name)
  /-- What was looked up may be awaited at once. -/
  attend {α : Type} {name : TypeName}
    {next goesOn : Descriptor → Body → Lookup α} (asks : may name)
    (second : ∀ base body, relates (next base body) (goesOn base body)) :
    relates
      (do
        let base ← getByName agent build name
        let body ← await base
        next base body)
      (do
        let base ← getByName agent other name
        let body ← await base
        goesOn base body)

namespace Congruence

variable {agent : Agent} {may : TypeName → Prop} {build other : Builder}
  {relates : ∀ {α : Type}, Lookup α → Lookup α → Prop}
  (congruence : Congruence agent may build other relates)

include congruence

theorem forM {items : List α} {look another : α → Lookup Unit}
    (each : ∀ item ∈ items, relates (look item) (another item)) :
    relates (items.forM look) (items.forM another) := by
  induction items with
  | nil => exact congruence.pure ()
  | cons item rest ih =>
    refine congruence.bind (each item List.mem_cons_self) fun _ => ?_
    exact ih fun later member => each later (List.mem_cons_of_mem _ member)

theorem mapM {α β : Type} {items : List α} {look : α → Lookup β}
    (another : α → Lookup β)
    (each : ∀ item ∈ items, relates (look item) (another item)) :
    relates (items.mapM look) (items.mapM another) := by
  induction items with
  | nil => exact congruence.pure []
  | cons item rest ih =>
    rw [List.mapM_cons, List.mapM_cons]
    refine congruence.bind (each item List.mem_cons_self) fun _ => ?_
    refine congruence.bind (ih fun later member => ?_) fun _ =>
      congruence.pure _
    exact each later (List.mem_cons_of_mem _ member)

theorem looks {names : List TypeName} (asks : ∀ name ∈ names, may name) :
    relates
      (names.forM fun name => do
        let _ ← getNested build name)
      (names.forM fun name => do
        let _ ← getNested other name) :=
  congruence.forM fun name member =>
    congruence.bind (congruence.nested (asks name member)) fun _ =>
      congruence.pure ()

theorem takeReference {expression : TypeExpr}
    (asks : ∀ name ∈ expression.names, may name) :
    relates (takeReference build expression)
      (takeReference other expression) := by
  refine congruence.bind (congruence.looks asks) fun _ => ?_
  exact congruence.bind (congruence.perform rfl) fun _ => congruence.pure _

theorem resolve {expression : TypeExpr}
    (asks : ∀ name ∈ expression.names, may name) :
    relates (resolve agent build expression)
      (resolve agent other expression) := by
  have head : may expression.name := asks _ expression.name_mem_names
  unfold Lookup.resolve
  cases parameterized : expression.isParameterized with
  | false =>
    exact congruence.bind (congruence.topLevel head) fun _ =>
      congruence.pure _
  | true =>
    refine congruence.attend head fun base body => ?_
    split
    · exact congruence.pure base
    split
    · exact congruence.throw trivial
    refine congruence.bind (congruence.mapM _ fun argument member => ?_)
      fun _ => ?_
    · refine congruence.takeReference fun name within => asks name ?_
      rw [expression.names_eq]
      exact List.mem_cons_of_mem _
        (TypeExpr.names_subset_namesOfList member within)
    · exact congruence.bind (congruence.perform rfl) fun _ =>
        congruence.pure _

theorem follow {reference : TypeRef}
    (asks : ∀ name ∈ reference.expr.names, may name) :
    relates (follow agent build reference) (follow agent other reference) := by
  unfold Lookup.follow
  split
  · exact congruence.nested (asks _ reference.expr.name_mem_names)
  refine congruence.bind (congruence.perform rfl) fun target? => ?_
  cases target? with
  | some target => exact congruence.pure target
  | none =>
    exact congruence.bind (congruence.resolve asks) fun _ =>
      congruence.perform rfl

theorem lookupText {text : String}
    (asks : ∀ name ∈ Sources.namesInText text, may name) :
    relates (lookupText agent build text) (lookupText agent other text) := by
  unfold Sources.namesInText at asks
  unfold Lookup.lookupText
  cases parsed : TypeExpr.parse text with
  | error fault => exact congruence.throw trivial
  | ok expression =>
    rw [parsed] at asks
    exact congruence.resolve asks

theorem takeReference_bind {α : Type} {expression : TypeExpr}
    {next goesOn : TypeRef → Lookup α}
    (asks : ∀ name ∈ expression.names, may name)
    (second : ∀ slot,
      relates (next ⟨expression, slot⟩) (goesOn ⟨expression, slot⟩)) :
    relates (Lookup.takeReference build expression >>= next)
      (Lookup.takeReference other expression >>= goesOn) := by
  simp only [Lookup.takeReference, bind_assoc, pure_bind]
  exact congruence.bind (congruence.looks asks) fun _ =>
    congruence.bind (congruence.perform rfl) second

theorem referText {text : String}
    (asks : ∀ name ∈ Sources.namesInText text, may name) :
    relates (referText agent build text) (referText agent other text) := by
  unfold Sources.namesInText at asks
  unfold Lookup.referText
  cases parsed : TypeExpr.parse text with
  | error fault => exact congruence.throw trivial
  | ok expression =>
    rw [parsed] at asks
    exact congruence.takeReference_bind asks fun _ => congruence.follow asks

theorem followScript (facts : TypeFacts) (hasImplementation : Bool)
    {steps : List IntrospectionStep}
    (asks : ∀ name ∈ steps.flatMap Sources.mentionedByStep, may name) :
    relates (followScript agent build facts hasImplementation steps)
      (followScript agent other facts hasImplementation steps) := by
  induction steps with
  | nil => exact congruence.pure none
  | cons step rest ih =>
    rw [List.flatMap_cons] at asks
    have here (name : TypeName) (member : name ∈ Sources.mentionedByStep step) :
        may name :=
      asks name (List.mem_append_left _ member)
    have goOn (finding : Finding) : relates
        (do
          Lookup.perform (.report (.introspecting facts.name finding))
          Lookup.followScript agent build facts hasImplementation rest)
        (do
          Lookup.perform (.report (.introspecting facts.name finding))
          Lookup.followScript agent other facts hasImplementation rest) :=
      congruence.bind (congruence.perform rfl) fun _ => ih fun name member =>
        asks name (List.mem_append_right _ member)
    cases step with
    | crash crash => exact congruence.throw trivial
    | reject reason => exact congruence.pure _
    | fail reason => exact congruence.throw trivial
    | acceptEmpty => exact congruence.pure _
    | survey => exact goOn _
    | get name =>
      have looks := congruence.topLevel (here name (List.mem_singleton_self _))
      exact congruence.bind (congruence.find looks) goOn
    | lookup text =>
      exact congruence.bind (congruence.find (congruence.lookupText here)) goOn
    | reference text =>
      exact congruence.bind (congruence.find (congruence.referText here)) goOn

theorem request (operation : Operation)
    (asks : ∀ name ∈ operation.names, may name) :
    relates (operation.request agent build)
      (operation.request agent other) := by
  cases operation with
  | get name =>
    exact congruence.topLevel (asks name (List.mem_singleton_self _))
  | resolve expression => exact congruence.resolve asks
  | lookup text => exact congruence.lookupText asks
  | specialize name args => exact congruence.resolve asks
  | follow reference => exact congruence.follow asks
  | argumentList types =>
    refine congruence.bind (congruence.mapM _ fun type member => ?_) fun _ => ?_
    · exact congruence.takeReference fun name within =>
        asks name (TypeExpr.names_subset_namesOfList member within)
    · exact congruence.bind (congruence.perform rfl) fun _ => congruence.pure _

end Congruence

end Lookup

namespace Assembly

theorem mem_requested {sources : Sources} {facts : TypeFacts}
    {hasImplementation : Bool} {expression : TypeExpr} {name : TypeName}
    (member : expression ∈ holdings sources facts ++
      judgedTypes sources facts hasImplementation)
    (within : name ∈ expression.names) :
    name ∈ requested sources facts hasImplementation := by
  rw [requested, TypeExpr.namesOfList_eq, TypeExpr.namesOfList_eq,
    ← List.flatMap_append]
  exact List.mem_flatMap.2 ⟨expression, member, within⟩

/-- A relation that steps of assembly keep when they follow on each other. -/
structure Sequential
    (relates : ∀ {α : Type}, Assembling Procedure α →
      Assembling Procedure α → Prop) : Prop where
  pure {α : Type} (value : α) : relates (pure value) (pure value)
  bind {α β : Type} {step another : Assembling Procedure α}
    {next goesOn : α → Assembling Procedure β} (first : relates step another)
    (second : ∀ value, relates (next value) (goesOn value)) :
    relates (step >>= next) (another >>= goesOn)

/-- A relation that they keep also where references are filled in. -/
structure Congruence
    (relates : ∀ {α : Type}, Assembling Procedure α →
      Assembling Procedure α → Prop) : Prop
    extends Sequential relates where
  modifies {change : Body → Body}
    (keeps : ∀ body, (change body).parts = body.parts ∧
      (change body).failure? = body.failure?) :
    relates (modify change) (modify change)

section Relating

variable {sources : Sources}
  {relates : ∀ {α : Type}, Assembling Procedure α →
    Assembling Procedure α → Prop}
  {reference : TypeExpr → Assembling Procedure TypeRef}
  {introspect : TypeFacts → Bool → Assembling Procedure (Option BeanVerdict)}
  {facts : TypeFacts} {hasImplementation : Bool}

namespace Sequential

variable (sequential : Sequential relates)

include sequential

theorem judge (another : TypeExpr → Assembling Procedure TypeRef)
    (references : ∀ draft ∈ drafts sources facts hasImplementation,
      relates (reference draft.type) (another draft.type)) :
    relates (judge sources reference facts hasImplementation)
      (judge sources another facts hasImplementation) := by
  have collects : ∀ drafts : List Bean.Draft,
      (∀ draft ∈ drafts,
        relates (reference draft.type) (another draft.type)) →
      relates (drafts.mapM (property reference))
        (drafts.mapM (property another)) := by
    intro drafts
    induction drafts with
    | nil => exact fun _ => sequential.pure []
    | cons draft rest ih =>
      intro references
      rw [List.mapM_cons, List.mapM_cons]
      have here := references draft List.mem_cons_self
      refine sequential.bind
        (sequential.bind here fun _ => sequential.pure _) fun _ => ?_
      refine sequential.bind (ih fun other member => ?_) fun _ =>
        sequential.pure _
      exact references other (List.mem_cons_of_mem _ member)
  revert references
  unfold drafts Assembly.judge
  cases Bean.objection? facts sources.config hasImplementation with
  | some reason => exact fun _ => sequential.pure _
  | none =>
    intro references
    exact sequential.bind (collects _ references) fun _ => sequential.pure _

theorem verdict (another : TypeExpr → Assembling Procedure TypeRef)
    (ponder : TypeFacts → Bool → Assembling Procedure (Option BeanVerdict))
    (references : ∀ expression ∈ judgedTypes sources facts hasImplementation,
      relates (reference expression) (another expression))
    (introspects : relates (introspect facts hasImplementation)
      (ponder facts hasImplementation)) :
    relates (verdict sources reference introspect facts hasImplementation)
      (verdict sources another ponder facts hasImplementation) := by
  revert references
  unfold judgedTypes Assembly.verdict
  split
  · intro references
    refine sequential.bind introspects fun verdict? => ?_
    cases verdict? with
    | some verdict => exact sequential.pure verdict
    | none =>
      exact sequential.judge another fun draft member =>
        references draft.type (List.mem_map_of_mem member)
  · exact fun _ => sequential.pure _

end Sequential

namespace Congruence

variable (congruence : Congruence relates)

include congruence

theorem takeReferences (another : TypeExpr → Assembling Procedure TypeRef)
    (references : ∀ expression ∈ holdings sources facts,
      relates (reference expression) (another expression)) :
    relates (takeReferences sources reference facts)
      (takeReferences sources another facts) := by
  revert references
  unfold holdings Assembly.takeReferences
  cases facts.category with
  | array =>
    cases facts.arrayOf with
    | none => exact fun _ => congruence.pure ()
    | some component =>
      intro references
      exact congruence.bind (references component (by simp)) fun _ =>
        congruence.modifies fun _ => ⟨rfl, rfl⟩
  | elementContainer =>
    intro references
    exact congruence.bind (references _ (by simp)) fun _ =>
      congruence.modifies fun _ => ⟨rfl, rfl⟩
  | pairContainer | beanMap =>
    intro references
    refine congruence.bind (references _ (by simp)) fun _ => ?_
    refine congruence.bind (congruence.modifies fun _ => ⟨rfl, rfl⟩) fun _ => ?_
    exact congruence.bind (references _ (by simp)) fun _ =>
      congruence.modifies fun _ => ⟨rfl, rfl⟩
  | _ => exact fun _ => congruence.pure ()

/-- What follows on an outline refers to what a type holds and is judged by. -/
theorem completion (another : TypeExpr → Assembling Procedure TypeRef)
    (ponder : TypeFacts → Bool → Assembling Procedure (Option BeanVerdict))
    (references : ∀ expression ∈ holdings sources facts ++
      judgedTypes sources facts hasImplementation,
        relates (reference expression) (another expression))
    (introspects : relates (introspect facts hasImplementation)
      (ponder facts hasImplementation))
    (settles : ∀ bean : BeanVerdict,
      relates
        (modify fun body => { body with parts := { body.parts with bean } })
        (modify fun body => { body with parts := { body.parts with bean } })) :
    relates
      (do
        Assembly.takeReferences sources reference facts
        let bean ← Assembly.verdict sources reference introspect facts
          hasImplementation
        modify fun body => { body with parts := { body.parts with bean } })
      (do
        Assembly.takeReferences sources another facts
        let bean ← Assembly.verdict sources another ponder facts
          hasImplementation
        modify fun body =>
          { body with parts := { body.parts with bean } }) := by
  have holds := congruence.takeReferences another fun expression member =>
    references expression (List.mem_append_left _ member)
  have judges := congruence.verdict another ponder (fun expression member =>
    references expression (List.mem_append_right _ member)) introspects
  exact congruence.bind holds fun _ => congruence.bind judges settles

end Congruence

end Relating

/-! What is said of single steps, rather than of two at a time. -/

section Keeping

variable {sources : Sources}
  {keeps : ∀ {α : Type}, Assembling Procedure α → Prop}
  {reference : TypeExpr → Assembling Procedure TypeRef}
  {introspect : TypeFacts → Bool → Assembling Procedure (Option BeanVerdict)}
  {facts : TypeFacts} {hasImplementation : Bool}

theorem Sequential.verdict_keeps
    (sequential : Sequential fun step _ => keeps step)
    (references : ∀ expression ∈ judgedTypes sources facts hasImplementation,
      keeps (reference expression))
    (introspects : keeps (introspect facts hasImplementation)) :
    keeps
      (Assembly.verdict sources reference introspect facts hasImplementation) :=
  sequential.verdict reference introspect references introspects

theorem Congruence.takeReferences_keeps
    (congruence : Congruence fun step _ => keeps step)
    (references : ∀ expression ∈ holdings sources facts,
      keeps (reference expression)) :
    keeps (Assembly.takeReferences sources reference facts) :=
  congruence.takeReferences reference references

theorem Congruence.completion_keeps
    (congruence : Congruence fun step _ => keeps step)
    (references : ∀ expression ∈ holdings sources facts ++
      judgedTypes sources facts hasImplementation, keeps (reference expression))
    (introspects : keeps (introspect facts hasImplementation))
    (settles : ∀ bean : BeanVerdict, keeps
      (modify fun body => { body with parts := { body.parts with bean } })) :
    keeps
      (do
        Assembly.takeReferences sources reference facts
        let bean ← Assembly.verdict sources reference introspect facts
          hasImplementation
        modify fun body => { body with parts := { body.parts with bean } }) :=
  congruence.completion reference introspect references introspects settles

end Keeping

end Assembly

end TypeAtlas
