import TypeAtlas.Proofs.Construction.Surrogates

/-!
# Discovery and the members of a type

Discovery looks for the first member that will do, in an order of its own for
text factories and in order of declaration otherwise.  What a type can be made
from depends on which members there are and not on their order: members that
are put in another order give as much, and added members take nothing away.
Those added behind all others also leave the recipes alone that were found
before.
-/

namespace TypeAtlas

def TypeFacts.withMembers (facts : TypeFacts)
    (constructors : List ConstructorFacts) (methods : List MethodFacts) :
    TypeFacts :=
  { facts with constructors, methods }

namespace Construction

variable {facts : TypeFacts} {category : Category} {context : Context}
  {constructors : List ConstructorFacts} {methods : List MethodFacts}
  {surrogate : TypeName}

/-- The surrogate type of a recipe with the kind of member it comes from. -/
def SurrogateRecipe.kind (recipe : SurrogateRecipe) :
    TypeName × SurrogateSource :=
  (recipe.surrogate, recipe.source)

namespace Recipes

/-- Whether two collections of recipes make values from the same things. -/
structure Agrees (recipes others : Recipes) : Prop where
  has : ∀ strategy, recipes.has strategy = others.has strategy
  can : ∀ strategy, recipes.can strategy = others.can strategy
  textSource : recipes.fromText?.map TextRecipe.source =
    others.fromText?.map TextRecipe.source
  surrogates : (recipes.fromSurrogate.map SurrogateRecipe.kind).Perm
    (others.fromSurrogate.map SurrogateRecipe.kind)

/-- Whether recipes make values from all that earlier ones make them from. -/
structure Covers (recipes earlier : Recipes) : Prop where
  has : ∀ strategy, earlier.has strategy = true →
    recipes.has strategy = true
  can : ∀ strategy, earlier.can strategy = true →
    recipes.can strategy = true

/-- Whether recipes of earlier ones stand. -/
structure Keeps (recipes earlier : Recipes) : Prop where
  noArg : ∀ recipe, earlier.noArg? = some recipe →
    recipes.noArg? = some recipe
  number : ∀ recipe, earlier.fromNumber? = some recipe →
    recipes.fromNumber? = some recipe
  surrogate : ∀ recipe ∈ earlier.fromSurrogate,
    recipe.source = .constructor →
      recipes.surrogateRecipe? recipe.surrogate = some recipe

end Recipes

def isTextFactory (facts : TypeFacts) (name : String) (method : MethodFacts) :
    Bool :=
  isFactory facts method && method.name == name && method.params == [.text]

def isNullary (facts : TypeFacts) (constructor : ConstructorFacts) : Bool :=
  constructor.isUsable && constructor.params.length == enclosingArity facts

theorem mem_unaryConstructors_iff {param : ParamShape}
    {constructor : ConstructorFacts} :
    (param, constructor) ∈ unaryConstructors facts ↔
      constructor ∈ facts.constructors ∧ constructor.isUsable = true ∧
        soleParam? facts constructor = some param := by
  simp only [unaryConstructors, List.mem_filterMap, List.mem_filter,
    Option.map_eq_some_iff, Prod.mk.injEq]
  constructor
  · rintro ⟨_, ⟨member, usable⟩, _, sole, rfl, rfl⟩
    exact ⟨member, usable, sole⟩
  · rintro ⟨member, usable, sole⟩
    exact ⟨constructor, ⟨member, usable⟩, param, sole, rfl, rfl⟩

/-- A recipe from nothing is that of an implementation, or of the first
constructor of the type itself that takes the enclosing instance at most. -/
theorem findNoArg?_cases {recipe : NoArgRecipe}
    (found : findNoArg? facts context = some recipe) :
    (∀ constructors methods,
        findNoArg? (facts.withMembers constructors methods) context =
          some recipe) ∨
      ∃ constructor,
        facts.constructors.find? (isNullary facts) = some constructor ∧
          recipe.invoker? = constructor.invoker? ∧
            ∀ constructors methods other,
              constructors.find? (isNullary facts) = some other →
                findNoArg? (facts.withMembers constructors methods) context =
                  some { recipe with invoker? := other.invoker? } := by
  cases implemented : context.implementation? with
  | some target =>
    left
    intro constructors methods
    rw [← found]
    simp [findNoArg?, implemented, TypeFacts.withMembers, TypeFacts.has]
  | none =>
    right
    simp only [findNoArg?, implemented, Option.getD_none] at found ⊢
    split_ifs at found with root hidden
    obtain ⟨constructor, chosen, rfl⟩ := Option.map_eq_some_iff.1 found
    refine ⟨constructor, chosen, rfl,
      fun constructors methods other first => ?_⟩
    exact (if_neg root).trans <| (if_neg hidden).trans <|
      congrArg (Option.map _) first

theorem findTextFactory?_map_source (facts : TypeFacts) :
    (findTextFactory? facts).map TextRecipe.source =
      (textFactoryNames.find? fun name =>
        facts.methods.any (isTextFactory facts name)).map
          TextSource.factory := by
  unfold findTextFactory?
  induction textFactoryNames with
  | nil => rfl
  | cons name rest ih =>
    have any_eq : facts.methods.any (isTextFactory facts name) =
        (facts.methods.find? (isTextFactory facts name)).isSome :=
      List.isSome_find?.symm
    rw [List.findSome?_cons, List.find?_cons, any_eq]
    cases found : facts.methods.find? (isTextFactory facts name) with
    | none =>
      unfold isTextFactory at found
      rw [found]
      exact ih
    | some method =>
      have named : method.name = name := by
        have factory := List.find?_some found
        simp only [isTextFactory, Bool.and_eq_true, beq_iff_eq] at factory
        exact factory.1.2
      unfold isTextFactory at found
      rw [found]
      simp [named]

theorem findTextFactory?_isSome_iff :
    (findTextFactory? facts).isSome = true ↔
      ∃ name ∈ textFactoryNames,
        facts.methods.any (isTextFactory facts name) = true := by
  rw [← Option.isSome_map (f := TextRecipe.source),
    findTextFactory?_map_source, Option.isSome_map, List.find?_isSome]

theorem source_of_findTextFactory? {recipe : TextRecipe}
    (found : findTextFactory? facts = some recipe) :
    recipe.source ≠ .constructor := by
  have sourced := findTextFactory?_map_source facts
  rw [found] at sourced
  obtain ⟨name, _, named⟩ := Option.map_eq_some_iff.1 sourced.symm
  rw [← named]
  exact TextSource.noConfusion

theorem findTextConstructor?_isSome_iff :
    (findTextConstructor? facts).isSome = true ↔
      ∃ constructor, (.text, constructor) ∈ unaryConstructors facts := by
  simp only [findTextConstructor?, List.findSome?_isSome_iff, Prod.exists]
  constructor
  · rintro ⟨param, constructor, member, found⟩
    cases param with
    | text => exact ⟨constructor, member⟩
    | number kind => cases found
    | session => cases found
    | type expression => cases found
  · rintro ⟨constructor, member⟩
    exact ⟨.text, constructor, member, rfl⟩

theorem source_of_findTextConstructor? {recipe : TextRecipe}
    (found : findTextConstructor? facts = some recipe) :
    recipe.source = .constructor := by
  obtain ⟨⟨param, constructor⟩, _, made⟩ :=
    List.exists_of_findSome?_eq_some found
  cases param with
  | text =>
    cases made
    rfl
  | number kind => cases made
  | session => cases made
  | type expression => cases made

theorem findNumber?_isSome_iff :
    (findNumber? facts category).isSome = true ↔
      category ≠ .integral ∧
        ∃ kind constructor,
          (.number kind, constructor) ∈ unaryConstructors facts := by
  unfold findNumber?
  by_cases integral : category = .integral
  · simp [integral]
  simp only [beq_iff_eq, integral, if_false, List.findSome?_isSome_iff, ne_eq,
    not_false_eq_true, true_and, Prod.exists]
  constructor
  · rintro ⟨param, constructor, member, found⟩
    cases param with
    | number kind => exact ⟨kind, constructor, member⟩
    | text => cases found
    | session => cases found
    | type expression => cases found
  · rintro ⟨kind, constructor, member⟩
    exact ⟨.number kind, constructor, member, rfl⟩

theorem has_fromText (facts : TypeFacts) (category : Category)
    (context : Context) :
    (discover facts category context).has .fromText =
      ((findTextFactory? facts).isSome ||
        (findTextConstructor? facts).isSome) :=
  Option.isSome_or

theorem textSource_discover (facts : TypeFacts) (category : Category)
    (context : Context) :
    (discover facts category context).fromText?.map TextRecipe.source =
      ((textFactoryNames.find? fun name =>
        facts.methods.any (isTextFactory facts name)).map
          TextSource.factory).or
        (if (findTextConstructor? facts).isSome then some .constructor
          else none) := by
  have constructed : (findTextConstructor? facts).map TextRecipe.source =
      if (findTextConstructor? facts).isSome then some .constructor
      else none := by
    cases found : findTextConstructor? facts with
    | none => rfl
    | some recipe => simp [source_of_findTextConstructor? found]
  rw [← findTextFactory?_map_source, ← constructed]
  exact Option.map_or

theorem can_fromText (facts : TypeFacts) (category : Category)
    (context : Context) :
    (discover facts category context).can .fromText =
      ((findTextFactory? facts).isSome ||
        (findTextConstructor? facts).isSome && !facts.requiresEnclosing) := by
  cases factory : findTextFactory? facts with
  | some recipe =>
    simp [Recipes.can, discover, factory, source_of_findTextFactory? factory]
  | none =>
    cases constructed : findTextConstructor? facts with
    | none => simp [Recipes.can, discover, factory, constructed]
    | some recipe =>
      simp [Recipes.can, discover, factory, constructed,
        source_of_findTextConstructor? constructed]

theorem has_fromSurrogate_iff :
    (discover facts category context).has .fromSurrogate = true ↔
      ∃ offer, offer ∈ offers facts context := by
  have nonempty : (discover facts category context).has .fromSurrogate =
      true ↔ ∃ recipe,
        recipe ∈ (discover facts category context).fromSurrogate := by
    simp [Recipes.has, List.eq_nil_iff_forall_not_mem]
  rw [nonempty]
  constructor
  · rintro ⟨recipe, member⟩
    rw [mem_fromSurrogate_iff, surrogateRecipe?_discover] at member
    exact ⟨recipe, mem_of_recipeFor? member⟩
  · rintro ⟨offer, member⟩
    obtain ⟨recipe, found⟩ := Option.isSome_iff_exists.1
      (recipeFor?_isSome_iff.2 ⟨offer, member, rfl⟩)
    rw [← @surrogateRecipe?_discover facts category context] at found
    exact ⟨recipe, mem_of_recipeFor? found⟩

/-! ### More members -/

section More

variable (more : facts.constructors ⊆ constructors)
  (moreMethods : facts.methods ⊆ methods)

include more in
theorem unaryConstructors_subset :
    unaryConstructors facts ⊆
      unaryConstructors (facts.withMembers constructors methods) := by
  rintro ⟨param, constructor⟩ member
  rw [mem_unaryConstructors_iff] at member ⊢
  exact ⟨more member.1, member.2⟩

include more in
/-- With more constructors there is still a recipe from nothing, for as much. -/
theorem exists_findNoArg? {recipe : NoArgRecipe}
    (found : findNoArg? facts context = some recipe) :
    ∃ other,
      findNoArg? (facts.withMembers constructors methods) context =
        some other ∧ other.requiresEnclosing = recipe.requiresEnclosing := by
  rcases findNoArg?_cases found with apart | ⟨constructor, chosen, _, searched⟩
  · exact ⟨recipe, apart _ _, rfl⟩
  have present : (constructors.find? (isNullary facts)).isSome = true :=
    List.find?_isSome.2 ⟨constructor,
      more (List.mem_of_find?_eq_some chosen), List.find?_some chosen⟩
  obtain ⟨other, first⟩ := Option.isSome_iff_exists.1 present
  exact ⟨_, searched _ _ other first, rfl⟩

include moreMethods in
theorem findTextFactory?_isSome_of_subset
    (found : (findTextFactory? facts).isSome = true) :
    (findTextFactory? (facts.withMembers constructors methods)).isSome =
      true := by
  rw [findTextFactory?_isSome_iff] at found ⊢
  obtain ⟨name, listed, offered⟩ := found
  rw [List.any_eq_true] at offered
  obtain ⟨method, member, factory⟩ := offered
  exact ⟨name, listed,
    List.any_eq_true.2 ⟨method, moreMethods member, factory⟩⟩

include more in
theorem findTextConstructor?_isSome_of_subset
    (found : (findTextConstructor? facts).isSome = true) :
    (findTextConstructor? (facts.withMembers constructors methods)).isSome =
      true := by
  rw [findTextConstructor?_isSome_iff] at found ⊢
  obtain ⟨constructor, member⟩ := found
  exact ⟨constructor, unaryConstructors_subset more member⟩

include more in
theorem findNumber?_isSome_of_subset
    (found : (findNumber? facts category).isSome = true) :
    (findNumber? (facts.withMembers constructors methods) category).isSome =
      true := by
  rw [findNumber?_isSome_iff] at found ⊢
  obtain ⟨integral, kind, constructor, member⟩ := found
  exact ⟨integral, kind, constructor, unaryConstructors_subset more member⟩

include more in
theorem constructorOffers_subset :
    constructorOffers facts context ⊆
      constructorOffers (facts.withMembers constructors methods) context := by
  apply List.filterMap_subset
  unfold surrogateCandidates
  by_cases nested : facts.requiresEnclosing = true
  · simp [nested]
  intro candidate member
  rw [if_neg nested, List.mem_flatMap] at member
  obtain ⟨unary, listed, member⟩ := member
  rw [if_neg (show ¬ (facts.withMembers constructors
    methods).requiresEnclosing = true from nested)]
  exact List.mem_flatMap.2 ⟨unary, unaryConstructors_subset more listed, member⟩

include moreMethods in
theorem unswapOffers_subset :
    unswapOffers facts ⊆
      unswapOffers (facts.withMembers constructors methods) :=
  List.filterMap_subset _ moreMethods

include more moreMethods

theorem discover_covers (category : Category) (context : Context) :
    (discover (facts.withMembers constructors methods) category context).Covers
      (discover facts category context) := by
  have surrogate : (discover facts category context).has .fromSurrogate =
      true → (discover (facts.withMembers constructors methods) category
        context).has .fromSurrogate = true := by
    simp only [has_fromSurrogate_iff, offers, List.mem_append]
    rintro ⟨offer, member⟩
    exact ⟨offer, member.imp (fun made => constructorOffers_subset more made)
      (fun made => unswapOffers_subset moreMethods made)⟩
  constructor
  · intro strategy held
    cases strategy with
    | noArg =>
      obtain ⟨recipe, found⟩ := Option.isSome_iff_exists.1 held
      obtain ⟨other, still, _⟩ := exists_findNoArg? more found
      exact Option.isSome_iff_exists.2 ⟨other, still⟩
    | fromText =>
      rw [has_fromText, Bool.or_eq_true] at held ⊢
      exact held.imp (findTextFactory?_isSome_of_subset moreMethods)
        (findTextConstructor?_isSome_of_subset more)
    | fromNumber => exact findNumber?_isSome_of_subset more held
    | fromSurrogate => exact surrogate held
  · intro strategy held
    cases strategy with
    | noArg =>
      obtain ⟨recipe, found, free⟩ := (Option.any_eq_true _ _).1 held
      obtain ⟨other, still, same⟩ := exists_findNoArg? more found
      refine (Option.any_eq_true _ _).2 ⟨other, still, ?_⟩
      rw [same]
      exact free
    | fromText =>
      rw [can_fromText, Bool.or_eq_true, Bool.and_eq_true] at held ⊢
      exact held.imp (findTextFactory?_isSome_of_subset moreMethods)
        (And.imp_left (findTextConstructor?_isSome_of_subset more))
    | fromNumber =>
      rw [Recipes.can, Bool.and_eq_true] at held ⊢
      exact held.imp_left (findNumber?_isSome_of_subset more)
    | fromSurrogate => exact surrogate held

end More

/-! ### The same members in another order -/

theorem mem_map_kind_iff {source : SurrogateSource} :
    (surrogate, source) ∈
        (discover facts category context).fromSurrogate.map
          SurrogateRecipe.kind ↔
      match source with
      | .constructor =>
        ∃ offer ∈ constructorOffers facts context, offer.surrogate = surrogate
      | .unswap =>
        (¬ ∃ offer ∈ constructorOffers facts context,
            offer.surrogate = surrogate) ∧
          ∃ offer ∈ unswapOffers facts, offer.surrogate = surrogate := by
  have listed : (surrogate, source) ∈
        (discover facts category context).fromSurrogate.map
          SurrogateRecipe.kind ↔
      ∃ recipe, (discover facts category context).surrogateRecipe? surrogate =
        some recipe ∧ recipe.source = source := by
    simp only [List.mem_map, SurrogateRecipe.kind, Prod.mk.injEq]
    constructor
    · rintro ⟨recipe, member, rfl, made⟩
      exact ⟨recipe, mem_fromSurrogate_iff.1 member, made⟩
    · rintro ⟨recipe, found, made⟩
      exact ⟨recipe, mem_of_recipeFor? found, surrogate_eq_of_recipeFor? found,
        made⟩
  rw [listed]
  cases source with
  | constructor =>
    simp only [surrogateRecipe?_discover_constructor_iff]
    rw [← Option.isSome_iff_exists, recipeFor?_isSome_iff]
  | unswap =>
    simp only [surrogateRecipe?_discover_unswap_iff]
    rw [exists_and_left, ← Option.isSome_iff_exists,
      ← Option.not_isSome_iff_eq_none, recipeFor?_isSome_iff,
      recipeFor?_isSome_iff]

theorem discover_agrees (constructors : List ConstructorFacts)
    (methods : List MethodFacts)
    (reordered : constructors.Perm facts.constructors)
    (reorderedMethods : methods.Perm facts.methods) (category : Category)
    (context : Context) :
    (discover (facts.withMembers constructors methods) category context).Agrees
      (discover facts category context) := by
  have onward := discover_covers reordered.symm.subset
    reorderedMethods.symm.subset category context
  have back : (discover facts category context).Covers
      (discover (facts.withMembers constructors methods) category context) :=
    @discover_covers (facts.withMembers constructors methods)
      facts.constructors facts.methods reordered.subset
      reorderedMethods.subset category context
  have constructed : (findTextConstructor? (facts.withMembers constructors
      methods)).isSome = (findTextConstructor? facts).isSome :=
    Bool.eq_iff_iff.2
      ⟨@findTextConstructor?_isSome_of_subset
        (facts.withMembers constructors methods) facts.constructors
          facts.methods reordered.subset,
      findTextConstructor?_isSome_of_subset reordered.symm.subset⟩
  constructor
  · exact fun strategy =>
      Bool.eq_iff_iff.2 ⟨back.has strategy, onward.has strategy⟩
  · exact fun strategy =>
      Bool.eq_iff_iff.2 ⟨back.can strategy, onward.can strategy⟩
  · rw [textSource_discover, textSource_discover, constructed]
    have any_eq (name : String) : (facts.withMembers constructors
        methods).methods.any (isTextFactory (facts.withMembers constructors
          methods) name) = facts.methods.any (isTextFactory facts name) :=
      reorderedMethods.any_eq
    simp only [any_eq]
  · have nodup (facts : TypeFacts) : ((discover facts category
        context).fromSurrogate.map SurrogateRecipe.kind).Nodup := by
      apply List.Nodup.of_map Prod.fst
      rw [List.map_map]
      exact keyed_discover facts category context
    rw [List.perm_ext_iff_of_nodup (nodup _) (nodup _)]
    have byConstructor (offer : SurrogateRecipe) :
        offer ∈ constructorOffers (facts.withMembers constructors methods)
          context ↔ offer ∈ constructorOffers facts context :=
      ⟨@constructorOffers_subset (facts.withMembers constructors methods)
        context facts.constructors facts.methods reordered.subset offer,
      fun member => constructorOffers_subset reordered.symm.subset member⟩
    have byMethod (offer : SurrogateRecipe) :
        offer ∈ unswapOffers (facts.withMembers constructors methods) ↔
          offer ∈ unswapOffers facts :=
      (reorderedMethods.filterMap _).mem_iff
    rintro ⟨surrogate, source⟩
    simp only [mem_map_kind_iff, byConstructor, byMethod]

/-! ### Members added behind the others -/

theorem unaryConstructors_append (facts : TypeFacts)
    (constructors : List ConstructorFacts) (methods : List MethodFacts) :
    ∃ behind, unaryConstructors (facts.withMembers
        (facts.constructors ++ constructors) methods) =
      unaryConstructors facts ++ behind := by
  unfold unaryConstructors TypeFacts.withMembers
  rw [List.filter_append, List.filterMap_append]
  exact ⟨_, rfl⟩

theorem constructorOffers_append (facts : TypeFacts) (context : Context)
    (constructors : List ConstructorFacts) (methods : List MethodFacts) :
    ∃ behind, constructorOffers (facts.withMembers
        (facts.constructors ++ constructors) methods) context =
      constructorOffers facts context ++ behind := by
  obtain ⟨behind, append⟩ :=
    unaryConstructors_append facts constructors methods
  unfold constructorOffers surrogateCandidates
  rw [append]
  by_cases nested : facts.requiresEnclosing = true
  · exact ⟨[], by simp [nested, TypeFacts.withMembers]⟩
  rw [if_neg nested, if_neg (show ¬ (facts.withMembers _
    methods).requiresEnclosing = true from nested), List.flatMap_append,
    List.filterMap_append]
  exact ⟨_, rfl⟩

theorem discover_keeps (facts : TypeFacts)
    (constructors : List ConstructorFacts) (methods : List MethodFacts)
    (category : Category) (context : Context) :
    (discover (facts.withMembers (facts.constructors ++ constructors)
      (facts.methods ++ methods)) category context).Keeps
        (discover facts category context) := by
  constructor
  · intro recipe found
    rcases findNoArg?_cases found with apart |
      ⟨constructor, chosen, made, searched⟩
    · exact apart _ _
    · have first : (facts.constructors ++ constructors).find?
          (isNullary facts) = some constructor := by
        rw [List.find?_append, chosen, Option.some_or]
      have kept := searched _ (facts.methods ++ methods) constructor first
      rw [← made] at kept
      exact kept
  · intro recipe found
    obtain ⟨behind, append⟩ := unaryConstructors_append facts constructors
      (facts.methods ++ methods)
    change findNumber? facts category = some recipe at found
    change findNumber? (facts.withMembers _ _) category = some recipe
    unfold findNumber? at found ⊢
    rw [append]
    split_ifs at found ⊢
    rw [List.findSome?_append, found, Option.some_or]
  · intro recipe member made
    obtain ⟨behind, append⟩ := constructorOffers_append facts context
      constructors (facts.methods ++ methods)
    have first := surrogateRecipe?_discover_constructor_iff.1
      ⟨mem_fromSurrogate_iff.1 member, made⟩
    refine (surrogateRecipe?_discover_constructor_iff.2 ?_).1
    rw [append, recipeFor?_append, first, Option.some_or]

/-- What a type can be made from does not depend on the order in which its
members are declared.  Members that are added anywhere take no strategy away,
and when they stand behind all others, the recipe from nothing, the one from a
number and those of constructors from surrogates stay the same. -/
theorem discover_withMembers (facts : TypeFacts) (category : Category)
    (context : Context) :
    (∀ constructors methods,
        constructors.Perm facts.constructors →
        methods.Perm facts.methods →
          (discover (facts.withMembers constructors methods) category
            context).Agrees (discover facts category context)) ∧
      (∀ constructors methods,
          facts.constructors.Sublist constructors →
          facts.methods.Sublist methods →
            (discover (facts.withMembers constructors methods) category
              context).Covers (discover facts category context)) ∧
        ∀ constructors methods,
          (discover (facts.withMembers (facts.constructors ++ constructors)
            (facts.methods ++ methods)) category context).Keeps
              (discover facts category context) :=
  ⟨fun constructors methods reordered reorderedMethods =>
    discover_agrees constructors methods reordered reorderedMethods category
      context,
  fun _ _ more moreMethods =>
    discover_covers more.subset moreMethods.subset category context,
  fun constructors methods =>
    discover_keeps facts constructors methods category context⟩

end Construction

end TypeAtlas
