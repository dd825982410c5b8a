import TypeAtlas.Proofs.Registry.Shapes
import TypeAtlas.Proofs.Transform.WaysBack

/-!
# Ways back in live registries

The recipes of a type are discovered for all that its transforms convert to.  So
whichever of them is selected, facts say whether its surrogates can be converted
back: the transform does, or a method unswaps them, or a constructor takes them.
This holds of every descriptor that comes up in a live registry, of failed ones
as well, since a descriptor without recipes has no transforms to select.
-/

namespace TypeAtlas

open Construction

namespace Parts

/-- Whether the recipes of a type are those that its facts give for the
surrogate types of its transforms. -/
def IsEquipped (parts : Parts) (sources : Sources) (name : TypeName) : Prop :=
  ∃ facts context, sources.provider.known? name = some facts ∧
    context.surrogates =
        parts.bindings.map (fun binding => binding.transform.surrogate) ∧
      context.provider? = some sources.provider ∧
        parts.recipes = discover facts facts.category context

end Parts

namespace Assembly

open Outlining

namespace Outlining

def Completes (ensures : Parts → Prop) (outlining : Outlining α) : Prop :=
  ∀ parts, Leaves (fun outcome left => ∀ value, outcome = .ok value →
    ensures left) outlining parts

theorem Gives.bind_completes {holds : α → Prop} {ensures : Parts → Prop}
    {outlining : Outlining α} {next : α → Outlining β}
    (gives : Gives holds outlining)
    (goesOn : ∀ value, holds value → Completes ensures (next value)) :
    Completes ensures (outlining >>= next) := by
  intro parts
  apply Leaves.bind
  refine (gives parts).mono ?_
  rintro (stop | value) left held
  · rintro _ ⟨⟩
  · exact goesOn value (held value rfl) left

end Outlining

/-- An outline discovers recipes for the surrogates of all transforms. -/
theorem outline_completes (sources : Sources) (name : TypeName) :
    Completes (fun parts => parts.IsEquipped sources name)
      (outline sources name) := by
  refine (requestFacts_gives _ name).bind_completes fun facts known => ?_
  refine (gives_any _).bind_completes fun _ _ => ?_
  refine (gives_any _).bind_completes fun _ _ => ?_
  refine (gives_any _).bind_completes fun _ _ => ?_
  refine (gives_any _).bind_completes fun _ _ => ?_
  refine (gives_any _).bind_completes fun bindings _ => ?_
  refine (gives_any _).bind_completes fun _ _ => ?_
  refine (gives_any _).bind_completes fun implementation? _ => ?_
  refine (gives_any _).bind_completes fun _ _ parts => ?_
  rintro _ ⟨⟩
  exact ⟨facts, _, known, rfl, rfl, rfl⟩

end Assembly

namespace Sources

variable {sources : Sources} {name : TypeName}

theorem Outlines.isEquipped (outlines : sources.Outlines name) :
    (sources.outlined name).IsEquipped sources name := by
  obtain ⟨given, ended⟩ := outlines
  exact Assembly.outline_completes sources name (Parts.blank name) given ended

/-- Where constructors of types may take surrogates: along the hierarchy. -/
def hierarchy (sources : Sources) : Context where
  rootType := sources.config.rootType
  provider? := some sources.provider

/-- Whether surrogates that a transform converts the values of a type to can be
converted back: by the transform, by a method of the type, or by a
constructor. -/
def ConvertsBack (sources : Sources) (facts : TypeFacts)
    (transform : Transform) : Prop :=
  transform.hasReverse = true ∨ IsUnswappedFrom facts transform.surrogate ∨
    (facts.requiresEnclosing = false ∧ ∃ constructor ∈ facts.constructors,
      Takes sources.hierarchy transform.surrogate constructor)

end Sources

namespace Construction

variable {context other : Context} {surrogate : TypeName}
  {constructor : ConstructorFacts}

/-- What a constructor takes depends on the hierarchy alone. -/
theorem Takes.of_provider?_eq (takes : Takes context surrogate constructor)
    (same : other.provider? = context.provider?) :
    Takes other surrogate constructor := by
  obtain ⟨usable, expression, params, accepted⟩ := takes
  refine ⟨usable, expression, params, ?_⟩
  unfold Context.Accepts at accepted ⊢
  rwa [same]

end Construction

namespace TransformCatalogue

/-- Whether a catalogue has none but standard transforms. -/
structure IsStandard (catalogue : TransformCatalogue) : Prop where
  registered : ∀ transform ∈ catalogue.registered, transform.IsStandard
  named : ∀ name transform, catalogue.named.get? name = some transform →
    transform.IsStandard

variable {catalogue : TransformCatalogue} {facts : TypeFacts}
  {ancestors : List TypeName} {bindings : List Binding} {binding : Binding}

theorem IsStandard.of_bindingsFor (standard : catalogue.IsStandard)
    (given : catalogue.bindingsFor facts ancestors = .ok bindings)
    (member : binding ∈ bindings) : binding.transform.IsStandard := by
  obtain ⟨declared, declares, rfl⟩ := bindingsFor_eq_ok given
  rcases List.mem_append.1 member with registered | named
  · obtain ⟨transform, listed, bound⟩ := List.mem_filterMap.1 registered
    have same : binding.transform = transform := by
      split at bound
      · cases bound
        rfl
      · split at bound <;> cases bound
        rfl
    exact same ▸ standard.registered transform listed
  · obtain ⟨name, given, _⟩ := exists_named_of_declaredBindings declares named
    exact standard.named name _ given

end TransformCatalogue

theorem Parts.IsIndexed.isStandard {parts : Parts} {sources : Sources}
    {name : TypeName} (isIndexed : parts.IsIndexed sources name)
    (standard : sources.transforms.IsStandard) {binding : Binding}
    (member : binding ∈ parts.bindings) : binding.transform.IsStandard := by
  obtain ⟨facts, bound, _, given, same⟩ := isIndexed.bindings
  rw [same] at member
  rcases List.mem_append.1 member with own | other
  · obtain ⟨transform, found, rfl⟩ := List.mem_map.1 own
    exact .discovered (Option.mem_toList.1 found)
  · exact standard.of_bindingsFor given other

/-- What a transform that was selected for a type does in reverse, as the facts
of the type and its recipes have it. -/
structure AppliedTransform.GetsBack (applied : AppliedTransform)
    (sources : Sources) (facts : TypeFacts) (recipes : Recipes) : Prop where
  available : applied.canReverse = true ↔
    sources.ConvertsBack facts applied.transform
  /-- Where the transform has no way back, the surrogate's recipe is used. -/
  agrees : applied.transform.hasReverse = false → ∀ value,
    Agrees applied.owner (applied.reverse value)
      (recipes.newFromSurrogate applied.transform.surrogate value)
  honest : sources.transforms.IsStandard → ∀ value normal,
    (applied.reverse value).outcome ≠ .error (.transform (.noReverse normal))

namespace Body.IsOutlined

variable {sources : Sources} {name : TypeName} {body : Body} {format : Format}
  {applied : AppliedTransform}

theorem recipes (isOutlined : body.IsOutlined sources name) :
    body.parts.recipes = (sources.outlined name).recipes := by
  obtain ⟨bean, same⟩ := isOutlined.parts
  rw [same]

/-- Whatever a type applies, it gets back as its facts have it. -/
theorem getsBack (isOutlined : body.IsOutlined sources name)
    (selected : body.applied? name format = some applied) :
    ∃ facts, sources.provider.known? name = some facts ∧
      applied.GetsBack sources facts body.parts.recipes := by
  obtain ⟨bound, owner, path⟩ := AppliedTransform.select?_eq_some selected
  rw [isOutlined.bindings] at bound
  -- A type whose outline failed has no transforms that it could apply.
  have outlines : sources.Outlines name := by
    by_contra fails
    rw [(Sources.isBare_outlined fails).1] at bound
    cases bound
  obtain ⟨facts, context, known, surrogates, provider, discovered⟩ :=
    outlines.isEquipped
  rw [← isOutlined.recipes] at discovered
  have asked : applied.transform.surrogate ∈ context.surrogates := by
    rw [surrogates]
    exact List.mem_map_of_mem bound
  have named : body.parts.recipes.owner = applied.owner := by
    rw [owner, discovered]
    exact Provider.name_eq_of_known? known
  refine ⟨facts, known, ?available, ?agrees, ?honest⟩
  case available =>
    rw [AppliedTransform.canReverse_iff path, discovered,
      surrogateRecipe?_discover_isSome_iff]
    have takes (constructor : ConstructorFacts) :
        Takes context applied.transform.surrogate constructor ↔
          Takes sources.hierarchy applied.transform.surrogate constructor :=
      ⟨fun takes => takes.of_provider?_eq provider.symm,
        fun takes => takes.of_provider?_eq provider⟩
    simp only [IsConstructedFrom, asked, true_and, takes]
    exact or_congr_right or_comm
  case agrees => exact AppliedTransform.reverse_agrees path named
  case honest =>
    intro standard
    exact AppliedTransform.reverse_ne_noReverse path
      (outlines.isIndexed.isStandard standard bound)

end Body.IsOutlined

/-- Whether the body that a descriptor has of its own is that of its type, or
has no transforms. -/
def Descriptor.IsOutlined (sources : Sources) : Descriptor → Prop
  | .cached _ _ => True
  | .detached _ expression body =>
    body.parts.bindings = [] ∨ body.IsOutlined sources expression.name

namespace Lookup

theorem suits_isOutlined (sources : Sources) :
    Suits (fun name body => body.IsOutlined sources name)
      (Descriptor.IsOutlined sources) where
  cached _ _ := trivial
  specialized _ _ _ references isOutlined _ :=
    .inr (isOutlined.specialized references)
  argumentList _ _ := .inl rfl

/-- Whatever suits outlined bodies, assemblies hand out nothing else. -/
theorem assemblesHanding_isOutlined {sources : Sources}
    {good : Descriptor → Prop}
    (suits : Suits (fun name body => body.IsOutlined sources name) good)
    (thread : ThreadId) :
    AssemblesHanding (fun name body => body.IsOutlined sources name) good
      { sources, thread } := by
  intro build builds name past
  have references (expression : TypeExpr) :
      Assembly.Steady (handing (fun name body => body.IsOutlined sources name)
          good)
        (Assembly.lift (takeReference build expression)) :=
    Assembly.steady_lift (takeReference_hands builds expression)
  refine Assembly.assemble_isOutlined (fun facts past => ?_)
    (fun facts hasImplementation past body => ?_)
  · exact (Assembly.takeReferences_takes references name _).mono
      fun _ _ _ takes => takes.parts
  · refine (Assembly.verdict_other references ?_).mono
      fun _ _ _ judged => congrArg Body.parts judged.1
    exact Assembly.steady_lift (followScript_hands suits builds facts
      hasImplementation _)

end Lookup

namespace Pool

variable {sources : Sources} {pool : Pool} {descriptor : Descriptor}
  {body : Body}

/-- What comes up has the body of its type, or else a good one of its own. -/
theorem Lives.isOutlined_or_good (lives : Lives sources pool)
    {good : Descriptor → Prop}
    (suits : Suits (fun name body => body.IsOutlined sources name) good)
    (shown : pool.Shows descriptor)
    (found : pool.store.body? descriptor = some body) :
    body.IsOutlined sources descriptor.name ∨ ∃ number expression,
      descriptor = .detached number expression body ∧ good descriptor := by
  have hands := lives.hands suits (Lookup.assemblesHanding_isOutlined suits)
  cases descriptor with
  | cached name identity => exact .inl (hands.fits_of_cached found)
  | detached number expression own =>
    cases found
    exact .inr ⟨number, expression, rfl, hands.good_of_shows suits shown⟩

/-- A descriptor that comes up has the body of its type, or no transforms. -/
theorem Lives.isOutlined_of_shows (lives : Lives sources pool)
    (shown : pool.Shows descriptor)
    (found : pool.store.body? descriptor = some body) :
    body.parts.bindings = [] ∨ body.IsOutlined sources descriptor.name := by
  rcases lives.isOutlined_or_good (Lookup.suits_isOutlined sources) shown
    found with isOutlined | ⟨number, expression, rfl, good⟩
  · exact .inr isOutlined
  · exact good

/-- However threads interleave, what any descriptor of a live registry selects
for a format gets back as its facts have it. -/
theorem getsBack_of_lives (lives : Lives sources pool)
    (shown : pool.Shows descriptor)
    (found : pool.store.body? descriptor = some body) {format : Format}
    {applied : AppliedTransform}
    (selected : body.applied? descriptor.name format = some applied) :
    ∃ facts, sources.provider.known? descriptor.name = some facts ∧
      applied.GetsBack sources facts body.parts.recipes := by
  rcases lives.isOutlined_of_shows shown found with none | isOutlined
  · obtain ⟨bound, _⟩ := AppliedTransform.select?_eq_some selected
    rw [none] at bound
    cases bound
  · exact isOutlined.getsBack selected

/-- Prices, which are made from numbers and written as cents only. -/
def prices : Sources where
  provider := Provider.ofTable <| FactsTable.empty.insertAll [
    { name := "Price"
      constructors := [
        { params := [.type (.named "Number")],
          invoker? := some (.recording "price") }] },
    { name := "Cents", supertypes := ["Number"] },
    { name := "Number" }]
  transforms := {
    registered := [.ofConversions "Price" "Cents" ["text/*"] none
      ⟨.record, .ok⟩ none] }

def priced : Pool :=
  (List.replicate 20 0).foldl (advance prices)
    ((start fun _ => []).ask 0 (.get "Price"))

/-- Cents are numbers, and so the constructor is the way back to a price. -/
theorem getsBack_of_prices :
    ∃ (entry : Entry) (body : Body) (applied : AppliedTransform),
      Lives prices priced ∧
      priced.Shows (.cached "Price" entry.identity) ∧
        priced.store.body? (.cached "Price" entry.identity) = some body ∧
          body.failure? = none ∧
            body.applied? "Price" "text/plain" = some applied ∧
              applied.transform.hasReverse = false ∧
                applied.canReverse = true ∧ prices.transforms.IsStandard ∧
                  ∃ facts, prices.provider.known? "Price" = some facts ∧
                    applied.GetsBack prices facts body.parts.recipes := by
  have lives : Lives prices priced :=
    .head (.ask 0 (.get "Price") nofun)
      (leads_advance prices _ (List.replicate 20 0))
  have selects : (priced.store.entries.get? "Price").any (fun entry =>
      (priced.store.body? (.cached "Price" entry.identity)).any fun body =>
        body.failure?.isNone && (body.applied? "Price" "text/plain").any
          fun applied => !applied.transform.hasReverse &&
            applied.canReverse) = true := by
    decide +kernel
  simp only [Option.any_eq_true, Bool.and_eq_true, Bool.not_eq_true',
    Option.isNone_iff_eq_none] at selects
  obtain ⟨entry, present, body, found, ready, applied, selected, oneWay,
    reverses⟩ := selects
  have shown : priced.Shows (.cached "Price" entry.identity) :=
    .cached present
  have standard : prices.transforms.IsStandard := by
    constructor
    · intro transform member
      cases List.mem_singleton.1 member
      exact .ofConversions ..
    · intro name transform given
      cases given
  exact ⟨entry, body, applied, lives, shown, found, ready, selected, oneWay,
    reverses, standard, getsBack_of_lives lives shown found selected⟩

end Pool

end TypeAtlas
