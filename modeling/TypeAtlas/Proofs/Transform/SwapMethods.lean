import TypeAtlas.Proofs.Construction.Makers
import TypeAtlas.Transform.Applied

/-!
# Swap methods and recipes

The methods of a type are searched for an `unswap` twice: for the way back of
the transform that its `swap` makes, and for its recipes from surrogates.  Both
searches come to the same method, so that converting back and making the value
are one call.  Only a constructor keeps the recipe from being that of the
method, and only a method without an invoker is no way back.
-/

namespace TypeAtlas

open Construction

namespace Reply

variable {reply : Reply ε α} {rephrase : ε → δ}

@[simp]
theorem mapError_eq_ok_iff {value : α} :
    (reply.mapError rephrase).outcome = .ok value ↔
      reply.outcome = .ok value := by
  cases outcome : reply.outcome <;> simp [mapError, outcome, Except.mapError]

@[simp]
theorem mapError_eq_error_iff {error : δ} :
    (reply.mapError rephrase).outcome = .error error ↔
      ∃ reason, reply.outcome = .error reason ∧ rephrase reason = error := by
  cases outcome : reply.outcome <;> simp [mapError, outcome, Except.mapError]

/-- Whether two replies come to the same: after the same calls, the same value
or two failures. -/
structure Matches (left : Reply ε α) (right : Reply δ α) : Prop where
  calls : left.calls = right.calls
  result : ∀ value, left.outcome = .ok value ↔ right.outcome = .ok value

theorem mapError_matches (reply : Reply ε α) (left : ε → δ) (right : ε → γ) :
    (reply.mapError left).Matches (reply.mapError right) where
  calls := rfl
  result := fun _ => by simp

theorem failed_matches (left : ε) (right : δ) :
    (failed left : Reply ε α).Matches (failed right : Reply δ α) where
  calls := rfl
  result := fun _ => by simp [failed]

end Reply

namespace Transform

variable {facts : TypeFacts} {category : Category} {context : Context}
  {transform : Transform} {recipe : SurrogateRecipe} {method : MethodFacts}

/-- The way back by a method: a call of its invoker with the surrogate. -/
def unswapBy? (facts : TypeFacts) (method : MethodFacts) :
    Option (Value → Reply TransformError Value) :=
  method.invoker?.map fun invoker value =>
    (invoker.invoke [.value value]).mapError (.reverse facts.name)

/-- The transform of a type gets back by the first method that unswaps. -/
theorem reverse?_of_discover? (found : discover? facts = some transform) :
    transform.reverse? = (facts.methods.find? fun method =>
      unswapSurrogate? facts method == some transform.surrogate).bind
        (unswapBy? facts) := by
  unfold discover? at found
  obtain ⟨⟨surrogate, swap⟩, _, made⟩ := Option.bind_eq_some_iff.1 found
  cases made
  exact Option.map_bind ..

theorem find?_unswap_eq_some_iff {surrogate : TypeName} :
    facts.methods.find? (unswapSurrogate? facts · == some surrogate) =
        some method ↔
      FirstWith (Unswaps facts surrogate) facts.methods method :=
  find?_eq_some_iff_firstWith fun _ =>
    beq_iff_eq.trans unswapSurrogate?_eq_some_iff

theorem reverse?_eq_of_firstWith (found : discover? facts = some transform)
    (first : FirstWith (Unswaps facts transform.surrogate) facts.methods
      method) : transform.reverse? = unswapBy? facts method := by
  rw [reverse?_of_discover? found, find?_unswap_eq_some_iff.2 first,
    Option.bind_some]

theorem exists_unswaps_of_hasReverse
    (found : discover? facts = some transform)
    (reverses : transform.hasReverse = true) :
    IsUnswappedFrom facts transform.surrogate := by
  rw [hasReverse, reverse?_of_discover? found] at reverses
  obtain ⟨_, back⟩ := Option.isSome_iff_exists.1 reverses
  obtain ⟨method, searched, _⟩ := Option.bind_eq_some_iff.1 back
  exact exists_firstWith_iff.1 ⟨method, find?_unswap_eq_some_iff.1 searched⟩

/-- Whether a transform of a type and a recipe for its surrogate type go by the
same method, and by it alone. -/
structure SharesUnswap (facts : TypeFacts) (transform : Transform)
    (recipes : Recipes) (recipe : SurrogateRecipe) (method : MethodFacts) :
    Prop where
  first : FirstWith (Unswaps facts transform.surrogate) facts.methods method
  bound : recipe.invoker? = method.invoker?
  /-- Either way the invoker of the method is called with the surrogate. -/
  invoked : ∀ invoker, method.invoker? = some invoker → ∀ value,
    transform.reverse value =
        (invoker.invoke [.value value]).mapError (.reverse facts.name) ∧
      recipes.newFromSurrogate transform.surrogate value =
        call facts.name (some invoker) [.value value] "from-surrogate recipe"
  agrees : ∀ value, (transform.reverse value).Matches
    (recipes.newFromSurrogate transform.surrogate value)
  /-- The transform has no way back only where there is nothing to call. -/
  unbound : transform.hasReverse = false ↔ method.invoker? = none

theorem sharesUnswap_discover (found : discover? facts = some transform)
    (listed : (discover facts category context).surrogateRecipe?
      transform.surrogate = some recipe) (made : recipe.source = .unswap) :
    ∃ method, SharesUnswap facts transform (discover facts category context)
      recipe method := by
  obtain ⟨method, first, bound⟩ := exists_unswap_of_source listed made
  have back := reverse?_eq_of_firstWith found first
  have direct (value : Value) :
      (discover facts category context).newFromSurrogate transform.surrogate
          value =
        call facts.name method.invoker? [.value value]
          "from-surrogate recipe" := by
    rw [Recipes.newFromSurrogate, listed, ← bound]
    rfl
  refine ⟨method, first, bound, ?invoked, ?agrees, ?unbound⟩
  case invoked =>
    intro invoker has value
    rw [direct, reverse, back, unswapBy?, has]
    exact ⟨rfl, rfl⟩
  case agrees =>
    intro value
    rw [direct, reverse, back, unswapBy?]
    cases method.invoker? with
    | some invoker => exact Reply.mapError_matches ..
    | none => exact Reply.failed_matches ..
  case unbound => simp [hasReverse, back, unswapBy?]

/-- The transform of a type's own methods gets back as its recipes do: where it
has a way back there is a recipe, and a recipe of a method goes by the same
method. -/
theorem discover?_agrees_with_discover
    (found : discover? facts = some transform) (category : Category)
    (context : Context) :
    let recipes := discover facts category context
    (transform.hasReverse = true →
      (recipes.surrogateRecipe? transform.surrogate).isSome = true) ∧
    ∀ recipe, recipes.surrogateRecipe? transform.surrogate = some recipe →
      recipe.source = .unswap → ∃ method,
        SharesUnswap facts transform recipes recipe method := by
  refine ⟨fun reverses => ?_, fun recipe listed made => ?_⟩
  · rw [surrogateRecipe?_discover_isSome_iff]
    exact .inr (exists_unswaps_of_hasReverse found reverses)
  · exact sharesUnswap_discover found listed made

/-- A type that is swapped for a number, and made from text as well. -/
def temperature : TypeFacts where
  name := "Temperature"
  methods := [
    { name := "unswap", params := [.type (.named "String")],
      returns := some (.named "Temperature"), isStatic := true,
      invoker? := some (.recording "unswap text") },
    { name := "swap", params := [.session],
      returns := some (.named "Double"),
      invoker? := some (.recording "swap") },
    { name := "unswap", params := [.session, .type (.named "Double")],
      returns := some (.named "Temperature"), isStatic := true,
      invoker? := some (.recording "unswap") }]

/-- The method that takes the number is the way back, and gives the recipe. -/
theorem discover?_agrees_with_discover_of_temperature :
    ∃ transform recipe,
      discover? temperature = some transform ∧
      transform.surrogate = "Double" ∧ transform.hasReverse = true ∧
      (discover temperature .other { rootType := "Object" }).surrogateRecipe?
        "Double" = some recipe ∧
      recipe.source = .unswap ∧
      ∃ method, SharesUnswap temperature transform
        (discover temperature .other { rootType := "Object" }) recipe
          method := by
  refine ⟨_, _, rfl, rfl, rfl, rfl, rfl, ?_⟩
  exact (discover?_agrees_with_discover rfl .other
    { rootType := "Object" }).2 _ rfl rfl

end Transform

end TypeAtlas
