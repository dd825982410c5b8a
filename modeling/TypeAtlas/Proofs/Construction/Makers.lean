import TypeAtlas.Proofs.Construction.Surrogates
import TypeAtlas.Proofs.Facts.Hierarchy

/-!
# The members that take surrogates

A type is made from values of a surrogate type by constructors that take them,
unless it is nested, and by its `unswap` methods.  Which member the recipe for a
surrogate type comes from can be read off the facts: the first constructor that
takes the surrogate type, in order of declaration, and the first such method if
there is no such constructor.
-/

namespace TypeAtlas

def FirstWith (holds : α → Prop) (items : List α) (item : α) : Prop :=
  ∃ before after, items = before ++ item :: after ∧ holds item ∧
    ∀ other ∈ before, ¬ holds other

namespace FirstWith

variable {holds : α → Prop} {items : List α} {item : α}

theorem mem (first : FirstWith holds items item) : item ∈ items := by
  obtain ⟨before, after, rfl, _⟩ := first
  exact List.mem_append_right _ List.mem_cons_self

theorem held (first : FirstWith holds items item) : holds item := by
  obtain ⟨before, after, _, held, _⟩ := first
  exact held

end FirstWith

/-- Where something holds of an item at all, there is a first one. -/
theorem exists_firstWith_iff {holds : α → Prop} {items : List α} :
    (∃ item, FirstWith holds items item) ↔ ∃ item ∈ items, holds item := by
  constructor
  · rintro ⟨item, first⟩
    exact ⟨item, first.mem, first.held⟩
  rintro ⟨item, member, held⟩
  induction items with
  | nil => cases member
  | cons head rest ih =>
    by_cases here : holds head
    · exact ⟨head, [], rest, rfl, here, fun _ none => nomatch none⟩
    have later : item ∈ rest := by
      rcases List.mem_cons.1 member with rfl | later
      · exact (here held).elim
      · exact later
    obtain ⟨first, before, after, rfl, holdsFirst, others⟩ := ih later
    refine ⟨first, head :: before, after, rfl, holdsFirst, ?_⟩
    rintro other member
    rcases List.mem_cons.1 member with rfl | within
    · exact here
    · exact others other within

theorem find?_eq_some_iff_firstWith {test : α → Bool} {holds : α → Prop}
    (tests : ∀ item, test item = true ↔ holds item) {items : List α}
    {item : α} :
    items.find? test = some item ↔ FirstWith holds items item := by
  simp only [List.find?_eq_some_iff_append, FirstWith, ← tests,
    Bool.not_eq_true', Bool.not_eq_true]
  constructor
  · rintro ⟨held, before, after, split, others⟩
    exact ⟨before, after, split, held, others⟩
  · rintro ⟨before, after, split, held, others⟩
    exact ⟨held, before, after, split, others⟩

/-- What is found first in a list comes from the first item that gives it. -/
theorem findSome?_eq_some_iff_firstWith {find : α → Option β}
    {holds : α → Prop} {make : α → β}
    (gives : ∀ item given,
      find item = some given ↔ holds item ∧ given = make item)
    {items : List α} {given : β} :
    items.findSome? find = some given ↔
      ∃ item, FirstWith holds items item ∧ given = make item := by
  have gives_none (item : α) : find item = none ↔ ¬ holds item := by
    constructor
    · intro absent held
      have found := (gives item (make item)).2 ⟨held, rfl⟩
      rw [absent] at found
      cases found
    · intro fails
      refine Option.eq_none_iff_forall_ne_some.2 fun given found => ?_
      exact fails ((gives item given).1 found).1
  simp only [List.findSome?_eq_some_iff, gives, gives_none, FirstWith]
  constructor
  · rintro ⟨before, item, after, split, ⟨held, made⟩, others⟩
    exact ⟨item, ⟨before, after, split, held, others⟩, made⟩
  · rintro ⟨item, ⟨before, after, split, held, others⟩, made⟩
    exact ⟨before, item, after, split, ⟨held, made⟩, others⟩

namespace Construction

variable {facts : TypeFacts} {category : Category} {context : Context}
  {param surrogate : TypeName} {constructor : ConstructorFacts}
  {method : MethodFacts} {recipe : SurrogateRecipe}

/-- Whether a parameter of a type takes values of a surrogate type: it is of
that type or, where the hierarchy can be read, of one that it descends from. -/
def Context.Accepts (context : Context) (param surrogate : TypeName) : Prop :=
  surrogate = param ∨ ∃ provider, context.provider? = some provider ∧
    provider.DescendsFrom surrogate param

theorem Context.accepts_iff :
    context.accepts param surrogate = true ↔
      context.Accepts param surrogate := by
  unfold accepts Accepts
  cases context.provider? with
  | none => simpa using eq_comm
  | some provider =>
    simp only [Provider.isSubtype_iff, Option.some.injEq, exists_eq_left']
    refine ⟨.inr, fun accepted => accepted.elim ?_ id⟩
    rintro rfl
    exact .refl

/-- Whether a constructor takes values of a surrogate type, and these alone. -/
structure Takes (context : Context) (surrogate : TypeName)
    (constructor : ConstructorFacts) : Prop where
  usable : constructor.isUsable = true
  sole : ∃ expression, constructor.params = [.type expression] ∧
    context.Accepts expression.name surrogate

/-- Whether a method makes values of a type from those of a surrogate type. -/
structure Unswaps (facts : TypeFacts) (surrogate : TypeName)
    (method : MethodFacts) : Prop where
  isStatic : method.isStatic = true
  usable : method.isUsable = true
  named : method.name = "unswap"
  returns : ∃ type, method.returns = some type ∧ type.name = facts.name
  params : ∃ expression, expression.name = surrogate ∧
    (method.params = [.type expression] ∨
      method.params = [.session, .type expression])

/-- Whether a constructor of a type takes values of a surrogate type.  A nested
type takes none, and other types take none but those that they are asked to. -/
def IsConstructedFrom (facts : TypeFacts) (context : Context)
    (surrogate : TypeName) : Prop :=
  facts.requiresEnclosing = false ∧ surrogate ∈ context.surrogates ∧
    ∃ constructor ∈ facts.constructors, Takes context surrogate constructor

/-- Whether a method of a type makes values from those of a surrogate type. -/
def IsUnswappedFrom (facts : TypeFacts) (surrogate : TypeName) : Prop :=
  ∃ method ∈ facts.methods, Unswaps facts surrogate method

/-- Where each member makes at most one offer for a surrogate type, the first
that makes one gives the recipe. -/
theorem recipeFor?_flatMap_eq_some_iff {holds : α → Prop}
    {make : α → SurrogateRecipe} {offersOf : α → List SurrogateRecipe}
    (offered : ∀ member recipe,
      recipe ∈ offersOf member ∧ recipe.surrogate = surrogate ↔
        holds member ∧ recipe = make member)
    {members : List α} :
    recipeFor? (members.flatMap offersOf) surrogate = some recipe ↔
      ∃ member, FirstWith holds members member ∧ recipe = make member := by
  have gives (member : α) (recipe : SurrogateRecipe) :
      recipeFor? (offersOf member) surrogate = some recipe ↔
        holds member ∧ recipe = make member := by
    rw [← offered]
    constructor
    · intro found
      exact ⟨mem_of_recipeFor? found, surrogate_eq_of_recipeFor? found⟩
    · intro offer
      obtain ⟨other, found⟩ := Option.isSome_iff_exists.1
        (recipeFor?_isSome_iff.2 ⟨recipe, offer⟩)
      have same := (offered member other).1
        ⟨mem_of_recipeFor? found, surrogate_eq_of_recipeFor? found⟩
      rw [found, same.2, ((offered member recipe).1 offer).2]
  rw [recipeFor?, List.find?_flatMap]
  exact findSome?_eq_some_iff_firstWith gives

/-! ### Constructors -/

def offersOf (facts : TypeFacts) (context : Context)
    (constructor : ConstructorFacts) : List SurrogateRecipe :=
  if constructor.isUsable then
    match soleParam? facts constructor with
    | some (.type expression) => context.surrogates.filterMap fun surrogate =>
        constructorOffer? context (expression.name, surrogate, constructor)
    | _ => []
  else []

theorem constructorOffers_eq_flatMap
    (free : facts.requiresEnclosing = false) :
    constructorOffers facts context =
      facts.constructors.flatMap (offersOf facts context) := by
  simp only [constructorOffers, surrogateCandidates, unaryConstructors, free,
    Bool.false_eq_true, if_false]
  induction facts.constructors with
  | nil => rfl
  | cons constructor rest ih =>
    rw [List.flatMap_cons, ← ih, offersOf]
    by_cases usable : constructor.isUsable = true
    · rw [if_pos usable, List.filter_cons_of_pos usable, List.filterMap_cons]
      cases soleParam? facts constructor with
      | none => rfl
      | some param =>
        cases param with
        | type expression =>
          simp [List.filterMap_append, List.filterMap_map]
        | _ => rfl
    · rw [if_neg usable, List.filter_cons_of_neg usable]
      rfl

theorem takes_iff (free : facts.requiresEnclosing = false) :
    Takes context surrogate constructor ↔
      constructor.isUsable = true ∧ ∃ expression,
        soleParam? facts constructor = some (.type expression) ∧
          context.accepts expression.name surrogate = true := by
  have sole (expression : TypeExpr) :
      soleParam? facts constructor = some (.type expression) ↔
        constructor.params = [.type expression] := by
    simp only [soleParam?, enclosingArity, free, Bool.false_eq_true, if_false,
      List.drop_zero]
    split <;> simp_all
  simp only [sole, Context.accepts_iff]
  exact ⟨fun takes => ⟨takes.usable, takes.sole⟩,
    fun ⟨usable, sole⟩ => ⟨usable, sole⟩⟩

theorem mem_offersOf_iff (free : facts.requiresEnclosing = false) :
    recipe ∈ offersOf facts context constructor ∧
        recipe.surrogate = surrogate ↔
      (surrogate ∈ context.surrogates ∧ Takes context surrogate constructor) ∧
        recipe = { surrogate, source := .constructor,
                   invoker? := constructor.invoker? } := by
  rw [takes_iff free, offersOf]
  by_cases usable : constructor.isUsable = true
  · simp only [usable, if_true, true_and]
    split
    next expression sole =>
      simp only [sole, List.mem_filterMap, constructorOffer?,
        Option.ite_none_right_eq_some, Option.some.injEq,
        ParamShape.type.injEq, exists_eq_left']
      grind
    next other =>
      refine iff_of_false ?_ ?_
      · rintro ⟨member, _⟩
        cases member
      · rintro ⟨⟨_, expression, sole, _⟩, _⟩
        exact other expression sole
  · simp [usable]

theorem recipeFor?_constructorOffers_eq_some_iff :
    recipeFor? (constructorOffers facts context) surrogate = some recipe ↔
      (facts.requiresEnclosing = false ∧ surrogate ∈ context.surrogates) ∧
        ∃ constructor,
          FirstWith (Takes context surrogate) facts.constructors constructor ∧
            recipe = { surrogate, source := .constructor,
                       invoker? := constructor.invoker? } := by
  cases nested : facts.requiresEnclosing with
  | true =>
    simp [constructorOffers, surrogateCandidates, nested, recipeFor?]
  | false =>
    rw [constructorOffers_eq_flatMap nested,
      recipeFor?_flatMap_eq_some_iff fun _ _ => mem_offersOf_iff nested]
    by_cases asked : surrogate ∈ context.surrogates
    · simp [asked]
    · simp [asked, FirstWith]

/-! ### Methods -/

theorem unswapSurrogate?_eq_some_iff :
    unswapSurrogate? facts method = some surrogate ↔
      Unswaps facts surrogate method := by
  unfold unswapSurrogate? isFactory
  constructor
  · intro found
    split at found
    next factory =>
      simp only [Bool.and_eq_true, Option.any_eq_true, beq_iff_eq] at factory
      obtain ⟨⟨⟨isStatic, usable⟩, type, returned, named⟩, called⟩ := factory
      refine ⟨isStatic, usable, called, ⟨type, returned, named⟩, ?_⟩
      split at found
      next expression params =>
        exact ⟨expression, Option.some.inj found, .inl params⟩
      next expression params =>
        exact ⟨expression, Option.some.inj found, .inr params⟩
      next => cases found
    next => cases found
  · rintro ⟨isStatic, usable, called, ⟨type, returned, named⟩,
      expression, rfl, params⟩
    rcases params with params | params <;>
      simp [isStatic, usable, called, returned, named, params, unswapName]

theorem recipeFor?_unswapOffers_eq_some_iff :
    recipeFor? (unswapOffers facts) surrogate = some recipe ↔
      ∃ method, FirstWith (Unswaps facts surrogate) facts.methods method ∧
        recipe = { surrogate, source := .unswap,
                   invoker? := method.invoker? } := by
  rw [unswapOffers, List.filterMap_eq_flatMap_toList]
  apply recipeFor?_flatMap_eq_some_iff
  intro method recipe
  rw [← unswapSurrogate?_eq_some_iff, unswapOffer?]
  cases unswapSurrogate? facts method with
  | none => simp
  | some other =>
    simp only [Option.map_some, Option.toList_some, List.mem_singleton,
      Option.some.injEq]
    grind

/-! ### Recipes -/

theorem recipeFor?_constructorOffers_isSome_iff :
    (recipeFor? (constructorOffers facts context) surrogate).isSome = true ↔
      IsConstructedFrom facts context surrogate := by
  simp only [Option.isSome_iff_exists,
    recipeFor?_constructorOffers_eq_some_iff, IsConstructedFrom,
    ← exists_firstWith_iff]
  grind

theorem recipeFor?_unswapOffers_isSome_iff :
    (recipeFor? (unswapOffers facts) surrogate).isSome = true ↔
      IsUnswappedFrom facts surrogate := by
  simp only [Option.isSome_iff_exists, recipeFor?_unswapOffers_eq_some_iff,
    IsUnswappedFrom, ← exists_firstWith_iff]
  grind

/-- A surrogate type has a recipe if a constructor or a method takes it. -/
theorem surrogateRecipe?_discover_isSome_iff :
    ((discover facts category context).surrogateRecipe? surrogate).isSome =
        true ↔
      IsConstructedFrom facts context surrogate ∨
        IsUnswappedFrom facts surrogate := by
  rw [surrogateRecipe?_discover, offers, recipeFor?_append, Option.isSome_or,
    Bool.or_eq_true, recipeFor?_constructorOffers_isSome_iff,
    recipeFor?_unswapOffers_isSome_iff]

/-- A constructor gives the recipe wherever one takes the surrogate type. -/
theorem source_eq_constructor_iff
    (found : (discover facts category context).surrogateRecipe? surrogate =
      some recipe) :
    recipe.source = .constructor ↔
      IsConstructedFrom facts context surrogate := by
  rw [← recipeFor?_constructorOffers_isSome_iff, Option.isSome_iff_exists]
  constructor
  · intro made
    exact ⟨recipe, surrogateRecipe?_discover_constructor_iff.1 ⟨found, made⟩⟩
  · rintro ⟨other, first⟩
    obtain ⟨same, made⟩ := surrogateRecipe?_discover_constructor_iff.2 first
    cases found.symm.trans same
    exact made

theorem exists_unswap_of_source
    (found : (discover facts category context).surrogateRecipe? surrogate =
      some recipe) (made : recipe.source = .unswap) :
    ∃ method, FirstWith (Unswaps facts surrogate) facts.methods method ∧
      recipe.invoker? = method.invoker? := by
  obtain ⟨_, second⟩ :=
    surrogateRecipe?_discover_unswap_iff.1 ⟨found, made⟩
  obtain ⟨method, first, rfl⟩ :=
    recipeFor?_unswapOffers_eq_some_iff.1 second
  exact ⟨method, first, rfl⟩

theorem exists_constructor_of_source
    (found : (discover facts category context).surrogateRecipe? surrogate =
      some recipe) (made : recipe.source = .constructor) :
    ∃ constructor,
      FirstWith (Takes context surrogate) facts.constructors constructor ∧
        recipe.invoker? = constructor.invoker? := by
  have offered := surrogateRecipe?_discover_constructor_iff.1 ⟨found, made⟩
  obtain ⟨_, constructor, first, rfl⟩ :=
    recipeFor?_constructorOffers_eq_some_iff.1 offered
  exact ⟨constructor, first, rfl⟩

/-- Whether recipes from surrogates are those that the facts of a type ask for:
one for each surrogate type that a constructor or a method takes, and that of
the first constructor if there is any. -/
structure Recipes.AreCompleteFor (recipes : Recipes) (facts : TypeFacts)
    (context : Context) : Prop where
  keyed : (recipes.fromSurrogate.map SurrogateRecipe.surrogate).Nodup
  complete : ∀ surrogate,
    (∃ recipe ∈ recipes.fromSurrogate, recipe.surrogate = surrogate) ↔
      IsConstructedFrom facts context surrogate ∨
        IsUnswappedFrom facts surrogate
  source : ∀ recipe ∈ recipes.fromSurrogate,
    recipe.source = .constructor ↔
      IsConstructedFrom facts context recipe.surrogate
  constructed : ∀ recipe ∈ recipes.fromSurrogate,
    recipe.source = .constructor → ∃ constructor,
      FirstWith (Takes context recipe.surrogate) facts.constructors
          constructor ∧
        recipe.invoker? = constructor.invoker?
  unswapped : ∀ recipe ∈ recipes.fromSurrogate,
    recipe.source = .unswap → ∃ method,
      FirstWith (Unswaps facts recipe.surrogate) facts.methods method ∧
        recipe.invoker? = method.invoker?

theorem discover_areCompleteFor (facts : TypeFacts) (category : Category)
    (context : Context) :
    (discover facts category context).AreCompleteFor facts context := by
  have found {recipe : SurrogateRecipe}
      (member : recipe ∈ (discover facts category context).fromSurrogate) :=
    mem_fromSurrogate_iff.1 member
  exact {
    keyed := keyed_discover facts category context
    complete := fun surrogate => by
      rw [← surrogateRecipe?_discover_isSome_iff, Recipes.surrogateRecipe?,
        recipeFor?_isSome_iff]
    source := fun _ member => source_eq_constructor_iff (found member)
    constructed := fun _ member => exists_constructor_of_source (found member)
    unswapped := fun _ member => exists_unswap_of_source (found member) }

end Construction

end TypeAtlas
