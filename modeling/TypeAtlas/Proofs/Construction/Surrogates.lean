import Mathlib.Data.List.Nodup
import TypeAtlas.Construction.Recipe

/-!
# Recipes from surrogates

Every member that makes values from a surrogate type offers a recipe, and the
first offer for a surrogate type stands.  Constructors make their offers before
methods, so discovery keeps the first offer of all constructors and then of all
methods: the list that it grows has each surrogate type once, and finding a
recipe in it is finding the first offer.
-/

namespace TypeAtlas

namespace Construction

variable {facts : TypeFacts} {category : Category} {context : Context}
  {recipe offer : SurrogateRecipe} {surrogate : TypeName}

/-- Adds offers to a list, the first one for each surrogate type. -/
def addOffers (recipes : List SurrogateRecipe) :
    List SurrogateRecipe → List SurrogateRecipe
  | [] => recipes
  | offer :: rest =>
    if (recipeFor? recipes offer.surrogate).isSome then
      addOffers recipes rest
    else
      addOffers (recipes ++ [offer]) rest

/-- Whether a list has at most one recipe for each surrogate type. -/
def Keyed (recipes : List SurrogateRecipe) : Prop :=
  (recipes.map SurrogateRecipe.surrogate).Nodup

theorem recipeFor?_append (recipes others : List SurrogateRecipe)
    (surrogate : TypeName) :
    recipeFor? (recipes ++ others) surrogate =
      (recipeFor? recipes surrogate).or (recipeFor? others surrogate) :=
  List.find?_append

theorem recipeFor?_isSome_iff {recipes : List SurrogateRecipe} :
    (recipeFor? recipes surrogate).isSome = true ↔
      ∃ recipe ∈ recipes, recipe.surrogate = surrogate := by
  simp [recipeFor?, List.find?_isSome]

theorem surrogate_eq_of_recipeFor? {recipes : List SurrogateRecipe}
    (found : recipeFor? recipes surrogate = some recipe) :
    recipe.surrogate = surrogate := by
  simpa using List.find?_some found

theorem mem_of_recipeFor? {recipes : List SurrogateRecipe}
    (found : recipeFor? recipes surrogate = some recipe) : recipe ∈ recipes :=
  List.mem_of_find?_eq_some found

section Offers

variable (recipes offers : List SurrogateRecipe)

/-- Among recipes with offers added, the recipes come before the offers. -/
theorem recipeFor?_addOffers (surrogate : TypeName) :
    recipeFor? (addOffers recipes offers) surrogate =
      (recipeFor? recipes surrogate).or (recipeFor? offers surrogate) := by
  induction offers generalizing recipes with
  | nil => simp [addOffers, recipeFor?]
  | cons offer rest ih =>
    have split : recipeFor? (offer :: rest) surrogate =
        (recipeFor? [offer] surrogate).or (recipeFor? rest surrogate) :=
      recipeFor?_append [offer] rest surrogate
    rw [addOffers, split, ← Option.or_assoc]
    split_ifs with taken
    · rw [ih]
      by_cases same : offer.surrogate = surrogate
      · subst same
        obtain ⟨recipe, found⟩ := Option.isSome_iff_exists.1 taken
        simp [found]
      · simp [recipeFor?, same]
    · rw [ih, recipeFor?_append]

theorem addOffers_append (more : List SurrogateRecipe) :
    addOffers recipes (offers ++ more) =
      addOffers (addOffers recipes offers) more := by
  induction offers generalizing recipes with
  | nil => rfl
  | cons offer rest ih =>
    simp only [List.cons_append, addOffers]
    split_ifs
    · exact ih recipes
    · exact ih (recipes ++ [offer])

theorem keyed_addOffers {recipes : List SurrogateRecipe}
    (keyed : Keyed recipes) : Keyed (addOffers recipes offers) := by
  induction offers generalizing recipes with
  | nil => exact keyed
  | cons offer rest ih =>
    rw [addOffers]
    split_ifs with taken
    · exact ih keyed
    · apply ih
      rw [recipeFor?_isSome_iff] at taken
      rw [Keyed, List.map_append, List.map_singleton, List.nodup_append]
      exact ⟨keyed, List.nodup_singleton _, by simpa using taken⟩

end Offers

theorem Keyed.mem_iff {recipes : List SurrogateRecipe} (keyed : Keyed recipes) :
    recipe ∈ recipes ↔
      recipeFor? recipes recipe.surrogate = some recipe := by
  refine ⟨fun member => ?_, mem_of_recipeFor?⟩
  obtain ⟨found, here⟩ : ∃ found,
      recipeFor? recipes recipe.surrogate = some found :=
    Option.isSome_iff_exists.1 (recipeFor?_isSome_iff.2 ⟨recipe, member, rfl⟩)
  rw [here, List.inj_on_of_nodup_map keyed (mem_of_recipeFor? here) member
    (surrogate_eq_of_recipeFor? here)]

def constructorOffer? (context : Context) :
    TypeName × TypeName × ConstructorFacts → Option SurrogateRecipe
  | (param, surrogate, constructor) =>
    if context.accepts param surrogate then
      some
        { surrogate, source := .constructor,
          invoker? := constructor.invoker? }
    else none

def constructorOffers (facts : TypeFacts) (context : Context) :
    List SurrogateRecipe :=
  (surrogateCandidates facts context).filterMap (constructorOffer? context)

def unswapOffer? (facts : TypeFacts) (method : MethodFacts) :
    Option SurrogateRecipe :=
  (unswapSurrogate? facts method).map fun surrogate =>
    { surrogate, source := .unswap, invoker? := method.invoker? }

def unswapOffers (facts : TypeFacts) : List SurrogateRecipe :=
  facts.methods.filterMap (unswapOffer? facts)

/-- What the members of a type offer: the constructors come first. -/
def offers (facts : TypeFacts) (context : Context) : List SurrogateRecipe :=
  constructorOffers facts context ++ unswapOffers facts

theorem addConstructors_eq (recipes : List SurrogateRecipe)
    (candidates : List (TypeName × TypeName × ConstructorFacts)) :
    addConstructors context recipes candidates =
      addOffers recipes
        (candidates.filterMap (constructorOffer? context)) := by
  induction candidates generalizing recipes with
  | nil => rfl
  | cons candidate rest ih =>
    obtain ⟨param, surrogate, constructor⟩ := candidate
    rw [addConstructors, List.filterMap_cons, constructorOffer?]
    by_cases accepted : context.accepts param surrogate
    · by_cases taken : (recipeFor? recipes surrogate).isSome
      · have present : (recipeFor? recipes surrogate).isNone = false := by
          rw [← Option.not_isSome, taken, Bool.not_true]
        simp [accepted, present, addOffers, taken, ih]
      · have absent : (recipeFor? recipes surrogate).isNone = true := by
          simpa using taken
        simp [accepted, absent, addOffers, taken, ih]
    · simp [accepted, ih]

theorem addUnswaps_eq (recipes : List SurrogateRecipe) :
    addUnswaps facts recipes = addOffers recipes (unswapOffers facts) := by
  unfold addUnswaps unswapOffers
  induction facts.methods generalizing recipes with
  | nil => rfl
  | cons method rest ih =>
    rw [List.foldl_cons, List.filterMap_cons, unswapOffer?]
    cases unswapSurrogate? facts method with
    | none => exact ih recipes
    | some surrogate =>
      simp only [Option.map_some, addOffers]
      split_ifs
      · exact ih recipes
      · exact ih _

/-- Discovery keeps the first offer for each surrogate type. -/
theorem fromSurrogate_discover (facts : TypeFacts) (category : Category)
    (context : Context) :
    (discover facts category context).fromSurrogate =
      addOffers [] (offers facts context) := by
  rw [offers, addOffers_append, ← addUnswaps_eq]
  exact congrArg (addUnswaps facts) (addConstructors_eq [] _)

theorem surrogateRecipe?_discover (surrogate : TypeName) :
    (discover facts category context).surrogateRecipe? surrogate =
      recipeFor? (offers facts context) surrogate := by
  rw [Recipes.surrogateRecipe?, fromSurrogate_discover, recipeFor?_addOffers]
  rfl

theorem keyed_discover (facts : TypeFacts) (category : Category)
    (context : Context) :
    Keyed (discover facts category context).fromSurrogate := by
  rw [fromSurrogate_discover]
  exact keyed_addOffers _ List.nodup_nil

theorem mem_fromSurrogate_iff :
    recipe ∈ (discover facts category context).fromSurrogate ↔
      (discover facts category context).surrogateRecipe? recipe.surrogate =
        some recipe :=
  (keyed_discover facts category context).mem_iff

theorem source_of_mem_constructorOffers
    (member : offer ∈ constructorOffers facts context) :
    offer.source = .constructor := by
  obtain ⟨⟨param, surrogate, constructor⟩, _, made⟩ :=
    List.mem_filterMap.1 member
  rw [constructorOffer?] at made
  split at made
  · cases made
    rfl
  · cases made

theorem source_of_mem_unswapOffers (member : offer ∈ unswapOffers facts) :
    offer.source = .unswap := by
  obtain ⟨method, _, made⟩ := List.mem_filterMap.1 member
  obtain ⟨surrogate, _, rfl⟩ := Option.map_eq_some_iff.1 made
  rfl

/-- The recipes of constructors are the first offers that they make. -/
theorem surrogateRecipe?_discover_constructor_iff :
    ((discover facts category context).surrogateRecipe? surrogate =
        some recipe ∧ recipe.source = .constructor) ↔
      recipeFor? (constructorOffers facts context) surrogate =
        some recipe := by
  rw [surrogateRecipe?_discover, offers, recipeFor?_append]
  constructor
  · rintro ⟨found, made⟩
    rcases Option.or_eq_some_iff.1 found with first | ⟨_, second⟩
    · exact first
    · have unswap := source_of_mem_unswapOffers (mem_of_recipeFor? second)
      rw [made] at unswap
      cases unswap
  · intro found
    rw [found]
    exact ⟨rfl, source_of_mem_constructorOffers (mem_of_recipeFor? found)⟩

/-- A surrogate type has a recipe of a method if no constructor offers one. -/
theorem surrogateRecipe?_discover_unswap_iff :
    ((discover facts category context).surrogateRecipe? surrogate =
        some recipe ∧ recipe.source = .unswap) ↔
      recipeFor? (constructorOffers facts context) surrogate = none ∧
        recipeFor? (unswapOffers facts) surrogate = some recipe := by
  rw [surrogateRecipe?_discover, offers, recipeFor?_append]
  constructor
  · rintro ⟨found, made⟩
    rcases Option.or_eq_some_iff.1 found with first | second
    · have constructor :=
        source_of_mem_constructorOffers (mem_of_recipeFor? first)
      rw [made] at constructor
      cases constructor
    · exact second
  · rintro ⟨none, found⟩
    rw [none, found]
    exact ⟨rfl, source_of_mem_unswapOffers (mem_of_recipeFor? found)⟩

end Construction

end TypeAtlas
