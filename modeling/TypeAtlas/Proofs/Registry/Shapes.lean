import TypeAtlas.Proofs.Registry.Handing
import TypeAtlas.Proofs.Registry.LazyReferences
import TypeAtlas.Proofs.Registry.Outlined

/-!
# The shape of bodies

The category of a body says which references it has.  Arrays and element
containers have an element type, and pair containers and bean maps have a key
type and a value type.  A body that is ready lacks none of them.  A failed one
may, but has no others either.  Assemblies leave bodies of this shape, and
specializations keep it, so that every descriptor of a live registry has it.
-/

namespace TypeAtlas

namespace Category

def HoldsElements (category : Category) : Prop :=
  category = .array ∨ category = .elementContainer

def HoldsPairs (category : Category) : Prop :=
  category = .pairContainer ∨ category = .beanMap

instance (category : Category) : Decidable category.HoldsElements :=
  inferInstanceAs (Decidable (_ ∨ _))

instance (category : Category) : Decidable category.HoldsPairs :=
  inferInstanceAs (Decidable (_ ∨ _))

/-- The arguments that a category takes are the types of what values hold. -/
theorem arity?_cases {category : Category} {arity : Nat}
    (takes : category.arity? = some arity) :
    arity = 1 ∧ category.HoldsElements ∧ ¬ category.HoldsPairs ∨
      arity = 2 ∧ category.HoldsPairs ∧ ¬ category.HoldsElements := by
  unfold arity? at takes
  cases category <;> cases takes <;> decide

end Category

/-- Whether the references and the verdict of a body suit its category. -/
structure Body.IsShaped (body : Body) : Prop where
  element : body.failure? = none →
    (body.element?.isSome ↔ body.parts.category.HoldsElements)
  pair : body.failure? = none →
    (body.key?.isSome ∧ body.value?.isSome ↔ body.parts.category.HoldsPairs)
  bean : body.parts.bean.shape?.isSome → body.parts.category = .other
  elementWithin : body.element?.isSome → body.parts.category.HoldsElements
  keyWithin : body.key?.isSome → body.parts.category.HoldsPairs
  valueWithin : body.value?.isSome → body.parts.category.HoldsPairs
  args : body.args ≠ [] → body.parts.category = .argumentList

def Descriptor.IsShaped : Descriptor → Prop
  | .cached _ _ => True
  | .detached _ _ body => body.IsShaped

/-- What is cached for a name: a shaped body that is no argument list. -/
structure Body.IsCacheable (body : Body) : Prop where
  shaped : body.IsShaped
  proper : body.parts.category ≠ .argumentList

namespace Body.IsShaped

variable {body : Body}

theorem argumentList (references : List TypeRef) :
    (Body.argumentList references).IsShaped := by
  constructor <;>
    simp [Body.argumentList, Parts.blank, BeanVerdict.shape?,
      Category.HoldsElements, Category.HoldsPairs]

theorem specialized (shaped : body.IsShaped) {references : List TypeRef}
    (takes : body.parts.category.arity? = some references.length) :
    (Lookup.specialized body references).IsShaped := by
  rcases Category.arity?_cases takes with ⟨one, elements, pairless⟩ |
    ⟨two, pairs, elementless⟩
  · obtain ⟨element, rfl⟩ := List.length_eq_one_iff.1 one
    exact {
      element := fun _ => iff_of_true rfl elements
      pair := shaped.pair
      bean := shaped.bean
      elementWithin := fun _ => elements
      keyWithin := shaped.keyWithin
      valueWithin := shaped.valueWithin
      args := fun some => (some rfl).elim }
  · obtain ⟨key, value, rfl⟩ := List.length_eq_two.1 two
    exact {
      element := shaped.element
      pair := fun _ => iff_of_true ⟨rfl, rfl⟩ pairs
      bean := shaped.bean
      elementWithin := shaped.elementWithin
      keyWithin := fun _ => pairs
      valueWithin := fun _ => pairs
      args := fun some => (some rfl).elim }

end Body.IsShaped

/-! ### What assemblies leave -/

/-- Whether a body has no references but those that a category asks for. -/
structure Body.IsWithin (category : Category) (body : Body) : Prop where
  element : body.element?.isSome → category.HoldsElements
  key : body.key?.isSome → category.HoldsPairs
  value : body.value?.isSome → category.HoldsPairs
  args : body.args = []

/-- Whether a body has all references that a category asks for. -/
structure Body.IsWhole (category : Category) (body : Body) : Prop where
  element : category.HoldsElements → body.element?.isSome
  key : category.HoldsPairs → body.key?.isSome
  value : category.HoldsPairs → body.value?.isSome

theorem Body.IsWhole.of_bare {category : Category} {body : Body}
    (elementless : ¬ category.HoldsElements)
    (pairless : ¬ category.HoldsPairs) : body.IsWhole category :=
  ⟨fun elements => (elementless elements).elim,
    fun pairs => (pairless pairs).elim, fun pairs => (pairless pairs).elim⟩

namespace Body.IsWithin

variable {category : Category} {body : Body}

theorem blank (category : Category) (name : TypeName) (parts : Parts) :
    ({ Body.blank name with parts } : Body).IsWithin category := by
  constructor <;> simp [Body.blank]

theorem withElement (fills : body.IsWithin category)
    (elements : category.HoldsElements) (element : TypeRef) :
    ({ body with element? := some element } : Body).IsWithin category :=
  { fills with element := fun _ => elements }

theorem withKey (fills : body.IsWithin category) (pairs : category.HoldsPairs)
    (key : TypeRef) :
    ({ body with key? := some key } : Body).IsWithin category :=
  { fills with key := fun _ => pairs }

theorem withValue (fills : body.IsWithin category)
    (pairs : category.HoldsPairs) (value : TypeRef) :
    ({ body with value? := some value } : Body).IsWithin category :=
  { fills with value := fun _ => pairs }

/-- A body within its category is shaped, if a ready one is whole as well. -/
theorem isShaped (fills : body.IsWithin body.parts.category)
    (bean : body.parts.bean.shape?.isSome → body.parts.category = .other)
    (whole : body.failure? = none → body.IsWhole body.parts.category) :
    body.IsShaped := by
  refine ⟨?_, ?_, bean, fills.element, fills.key, fills.value, ?_⟩
  · exact fun ready => ⟨fills.element, (whole ready).element⟩
  · intro ready
    exact ⟨fun both => fills.key both.1,
      fun pairs => ⟨(whole ready).key pairs, (whole ready).value pairs⟩⟩
  · exact fun some => (some fills.args).elim

end Body.IsWithin

namespace Assembly

variable {contract : Contract} {sources : Sources} {facts : TypeFacts}
  {past : Past} {body : Body}

/-- Whether a step of assembly leaves the body as it is. -/
def Steady (contract : Contract) (assembling : Assembling Procedure α) :
    Prop :=
  ∀ past body, Meets contract (fun _ _ left => left = body) assembling past body

variable {reference : TypeExpr → Assembling Procedure TypeRef}

theorem Steady.meets_bind {ensures : Past → Except Stop β → Body → Prop}
    {assembling : Assembling Procedure α}
    {next : α → Assembling Procedure β} (steady : Steady contract assembling)
    (stops : ∀ later stop, ensures later (.error stop) body)
    (goesOn : ∀ later value, Meets contract ensures (next value) later body) :
    Meets contract ensures (assembling >>= next) past body := by
  apply Meets.bind
  apply (steady past body).mono
  rintro later (stop | value) _ rfl
  · exact stops later stop
  · exact goesOn later value

theorem Steady.bind {assembling : Assembling Procedure α}
    {next : α → Assembling Procedure β} (steady : Steady contract assembling)
    (goesOn : ∀ value, Steady contract (next value)) :
    Steady contract (assembling >>= next) :=
  fun _ body => steady.meets_bind (fun _ _ => rfl)
    fun later value => goesOn value later body

theorem steady_pure (value : α) : Steady contract (pure value) :=
  fun _ _ => rfl

/-- What taking references leaves: all of them, unless it was stopped. -/
structure Takes (category : Category) (parts : Parts)
    (outcome : Except Stop Unit) (left : Body) : Prop where
  parts : left.parts = parts
  ready : left.failure? = none
  fills : left.IsWithin category
  whole : outcome = .ok () → left.IsWhole category

/-- References are taken as the category of the type asks for them. -/
theorem takeReferences_takes
    (references : ∀ expression, Steady contract (reference expression))
    (name : TypeName) (parts : Parts) :
    Meets contract (fun _ => Takes facts.category parts)
      (takeReferences sources reference facts) past
      { Body.blank name with parts } := by
  have blank := Body.IsWithin.blank facts.category name parts
  have element (elements : facts.category.HoldsElements)
      (pairless : ¬ facts.category.HoldsPairs) (expression : TypeExpr) :
      Meets contract (fun _ => Takes facts.category parts)
        (do
          let element ← reference expression
          modify fun body => { body with element? := some element })
        past { Body.blank name with parts } := by
    refine (references expression).meets_bind
      (fun _ _ => ⟨rfl, rfl, blank, nofun⟩) fun _ element => meets_modify ?_
    exact ⟨rfl, rfl, blank.withElement elements element, fun _ =>
      ⟨fun _ => rfl, fun pairs => (pairless pairs).elim,
        fun pairs => (pairless pairs).elim⟩⟩
  have pair (pairs : facts.category.HoldsPairs)
      (elementless : ¬ facts.category.HoldsElements)
      (first second : TypeExpr) :
      Meets contract (fun _ => Takes facts.category parts)
        (do
          let key ← reference first
          modify fun body => { body with key? := some key }
          let value ← reference second
          modify fun body => { body with value? := some value })
        past { Body.blank name with parts } := by
    refine (references first).meets_bind
      (fun _ _ => ⟨rfl, rfl, blank, nofun⟩) fun _ key => Meets.bind ?_
    have keyed := blank.withKey pairs key
    refine meets_modify ((references second).meets_bind
      (fun _ _ => ⟨rfl, rfl, keyed, nofun⟩) fun _ value => meets_modify ?_)
    exact ⟨rfl, rfl, keyed.withValue pairs value, fun _ =>
      ⟨fun elements => (elementless elements).elim, fun _ => rfl,
        fun _ => rfl⟩⟩
  unfold takeReferences
  cases category : facts.category with
  | array =>
    obtain ⟨component, held⟩ :=
      Option.isSome_iff_exists.1 (TypeFacts.isSome_arrayOf_of_category category)
    rw [held]
    rw [category] at element
    exact element (by decide) (by decide) component
  | elementContainer =>
    rw [category] at element
    exact element (by decide) (by decide) _
  | pairContainer =>
    rw [category] at pair
    exact pair (by decide) (by decide) _ _
  | beanMap =>
    rw [category] at pair
    exact pair (by decide) (by decide) _ _
  | _ =>
    rw [category] at blank
    exact ⟨rfl, rfl, blank, fun _ => .of_bare (by decide) (by decide)⟩

theorem steady_sequential (contract : Contract) :
    Sequential fun step _ => Steady contract step where
  pure := steady_pure
  bind := Steady.bind

/-- Only a type of no other category is found to be a bean. -/
theorem verdict_other {hasImplementation : Bool}
    {introspect : TypeFacts → Bool → Assembling Procedure (Option BeanVerdict)}
    (references : ∀ expression, Steady contract (reference expression))
    (introspects : Steady contract (introspect facts hasImplementation)) :
    Meets contract (fun _ outcome left => left = body ∧
        ∀ verdict, outcome = .ok verdict → verdict.shape?.isSome = true →
          facts.category = .other)
      (verdict sources reference introspect facts hasImplementation) past
      body := by
  cases other : facts.category == .other with
  | true =>
    refine Meets.mono ((steady_sequential contract).verdict_keeps
      (fun expression _ => references expression) introspects past body) ?_
    exact fun _ _ _ same => ⟨same, fun _ _ _ => beq_iff_eq.1 other⟩
  | false =>
    unfold verdict
    rw [other]
    refine meets_pure ⟨rfl, ?_⟩
    rintro _ ⟨⟩ bean
    cases bean

theorem steady_lift {fits : TypeName → Body → Prop} {good : Descriptor → Prop}
    {holds : α → Prop} {lookup : Lookup α}
    (hands : Lookup.Hands fits good holds lookup) :
    Steady (handing fits good) (lift lookup) :=
  fun past _ => Meets.lift ((hands past).mono fun _ _ _ => rfl)

/-- What an assembly leaves may be cached, also where it stops early. -/
theorem assemble_isCacheable
    {introspect : TypeFacts → Bool → Assembling Procedure (Option BeanVerdict)}
    (references : ∀ expression, Steady contract (reference expression))
    (introspects : ∀ facts hasImplementation,
      Steady contract (introspect facts hasImplementation))
    (name : TypeName) :
    Meets contract
      (fun _ => Lookup.LeavesFitting (fun _ body => body.IsCacheable) name)
      (assemble sources reference introspect name) past (Body.blank name) := by
  obtain ⟨outcome, parts, outlined, sound⟩ := outline_runFree sources name
  have ended : ((ExceptT.run (outline sources name)).run
      (Parts.blank name)).1 = outcome := congrArg Prod.fst outlined
  have category : parts.category =
      ((sources.provider.known? name).map TypeFacts.category).getD .other := by
    rw [← sources.outlined_category name]
    exact (congrArg (fun result => result.2.parts.category) outlined).symm
  have proper : parts.category ≠ .argumentList := by
    rw [category]
    cases sources.provider.known? name with
    | none => exact nofun
    | some facts => exact facts.category_ne_argumentList
  -- Before the verdict is given, no body says that the type is a bean.
  have stops {left : Body} (stop : Stop) (same : left.parts = parts)
      (undecided : Outlining.Undecided parts)
      (fills : left.IsWithin parts.category) :
      Lookup.LeavesFitting (fun _ body => body.IsCacheable) name
        (.error stop) left := by
    intro error _
    have within : ({ left with failure? := some error.message } :
        Body).IsWithin left.parts.category := by
      rw [same]
      exact ⟨fills.element, fills.key, fills.value, fills.args⟩
    refine ⟨within.isShaped (fun bean => ?_) nofun, same ▸ proper⟩
    rw [same, undecided] at bean
    cases bean
  unfold assemble
  apply Meets.bind
  apply meets_outline outlined
  rcases outcome with stop | ⟨facts, hasImplementation⟩
  · exact stops stop rfl sound.2 (.blank _ name parts)
  rw [outline_gives sources name _ _ ended] at category
  have undecided := sound.2
  apply Meets.bind
  apply (takeReferences_takes references name parts).mono
  rintro later (stop | _) left takes
  · exact stops stop takes.parts undecided (category ▸ takes.fills)
  apply Meets.bind
  apply (verdict_other references (introspects _ _)).mono
  rintro latest (stop | bean) left ⟨rfl, other⟩
  · exact stops stop takes.parts undecided (category ▸ takes.fills)
  apply meets_modify
  obtain ⟨rfl, _, fills, whole⟩ := takes
  have here : left.parts.category = facts.category := category
  have within : left.IsWithin left.parts.category := here ▸ fills
  have complete : left.IsWhole left.parts.category := here ▸ whole rfl
  have judged : ({ left with parts := { left.parts with bean } } :
      Body).IsWithin left.parts.category :=
    ⟨within.element, within.key, within.value, within.args⟩
  refine ⟨judged.isShaped ?_ ?_, proper⟩
  · exact fun verdict => here.trans (other bean rfl verdict)
  · exact fun _ => ⟨complete.element, complete.key, complete.value⟩

end Assembly

namespace Lookup

theorem suits_isShaped :
    Suits (fun _ body => body.IsCacheable) Descriptor.IsShaped where
  cached _ _ := trivial
  specialized _ _ _ _ fit takes := fit.shaped.specialized takes
  argumentList _ references := .argumentList references

theorem assemblesHanding_isCacheable (agent : Agent) :
    AssemblesHanding (fun _ body => body.IsCacheable) Descriptor.IsShaped
      agent := by
  intro build builds name past
  refine Assembly.assemble_isCacheable (fun expression => ?_)
    (fun facts hasImplementation => ?_) name
  · exact Assembly.steady_lift (takeReference_hands builds expression)
  · exact Assembly.steady_lift
      (followScript_hands suits_isShaped builds facts hasImplementation _)

end Lookup

namespace Pool

/-- The descriptors that come up in a pool: those of entries, those that
operations were answered with, the targets that are kept for references, and
those that scripts looked at. -/
inductive Shows (pool : Pool) : Descriptor → Prop where
  | cached {name : TypeName} {entry : Entry}
    (found : pool.store.entries.get? name = some entry) :
    Shows pool (.cached name entry.identity)
  | answered {thread : ThreadId} {operation : Operation}
    {descriptor : Descriptor}
    (given : (operation, .ok descriptor) ∈ (pool.workers thread).answers) :
    Shows pool descriptor
  | kept {slot : Nat} {target : Descriptor}
    (member : (slot, target) ∈ pool.store.targets) : Shows pool target
  | looked {thread : ThreadId} {descriptor : Descriptor} {snapshot : Snapshot}
    (seen : (thread, (⟨.look descriptor, snapshot⟩ : Deed)) ∈ pool.history) :
    Shows pool descriptor

theorem Hands.good_of_shows {fits : TypeName → Body → Prop}
    {good : Descriptor → Prop} {pool : Pool} {descriptor : Descriptor}
    (hands : pool.Hands fits good) (suits : Suits fits good)
    (shown : pool.Shows descriptor) : good descriptor := by
  cases shown with
  | cached found => exact suits.cached _ _
  | answered given => exact hands.answered _ _ _ given
  | kept member => exact hands.kept _ _ member
  | looked seen => exact hands.looked _ _ _ seen

theorem Hands.fits_of_cached {fits : TypeName → Body → Prop}
    {good : Descriptor → Prop} {pool : Pool} {name : TypeName}
    {identity : Nat} {body : Body} (hands : pool.Hands fits good)
    (found : pool.store.body? (.cached name identity) = some body) :
    fits name body :=
  hands.published name body (Store.published?_of_body? found)

/-- Whether all bodies are shaped, and those that are cached no arguments. -/
structure Shaped (pool : Pool) : Prop where
  shown : ∀ descriptor body, pool.Shows descriptor →
    pool.store.body? descriptor = some body → body.IsShaped
  published : ∀ name body, pool.store.published? name = some body →
    body.IsShaped ∧ body.parts.category ≠ .argumentList

/-- However threads interleave, all bodies of a live registry are shaped. -/
theorem shaped_of_lives {sources : Sources} {pool : Pool}
    (lives : Lives sources pool) : pool.Shaped := by
  have hands := lives.hands Lookup.suits_isShaped
    fun thread => Lookup.assemblesHanding_isCacheable { sources, thread }
  have good {descriptor : Descriptor} (shows_ : pool.Shows descriptor) :
      descriptor.IsShaped := by
    cases shows_ with
    | cached found => trivial
    | answered given => exact hands.answered _ _ _ given
    | kept member => exact hands.kept _ _ member
    | looked seen => exact hands.looked _ _ _ seen
  constructor
  · intro descriptor body shown found
    cases descriptor with
    | detached number expression own =>
      cases found
      exact good shown
    | cached name identity =>
      obtain ⟨entry, present, given⟩ := Option.bind_eq_some_iff.1 found
      exact (hands.published name body (Store.published?_eq_some.2
        ⟨entry, (Store.entryFor?_eq_some.1 present).1, given⟩)).shaped
  · intro name body found
    have cacheable := hands.published name body found
    exact ⟨cacheable.shaped, cacheable.proper⟩

/-- An array of arrays was given, and what it holds was followed. -/
theorem shaped_of_nested :
    Lives circle nestedFollowed ∧
      nestedFollowed.wasGiven 0 innerArrays = true ∧
        nestedFollowed.Shaped := by
  have given : nestedFollowed.wasGiven 0 innerArrays = true := by
    decide +kernel
  exact ⟨nestedFollowed_lives, given, shaped_of_lives nestedFollowed_lives⟩

end Pool

end TypeAtlas
