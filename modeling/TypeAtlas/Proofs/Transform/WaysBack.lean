import TypeAtlas.Proofs.Transform.Selection
import TypeAtlas.Proofs.Transform.SwapMethods

/-!
# Ways back

A transform that was selected gets back to the normal value by itself or, where
it converts one way only, by the recipe of its surrogate type.  In the second
case applying it in reverse is making a value from the surrogate.
-/

namespace TypeAtlas

open Construction

variable {bindings : List Binding} {format : Format} {owner : TypeName}
  {recipes : Recipes} {applied : AppliedTransform}

theorem mem_of_selectBinding? {selected : Binding × Nat}
    (found : selectBinding? bindings format = some selected) :
    selected.1 ∈ bindings := by
  obtain ⟨before, after, rfl, -, -⟩ := selectBinding?_eq_some_iff.1 found
  exact List.mem_append_right _ List.mem_cons_self

namespace Transform

/-- The transforms that come with the atlas: those that are made of conversions,
and those of the methods of types. -/
inductive IsStandard : Transform → Prop where
  | ofConversions (normal surrogate : TypeName) (patterns : List String)
    (fixedScore? : Option Nat) (forward : Conversion)
    (reverse? : Option Conversion) :
    IsStandard
      (.ofConversions normal surrogate patterns fixedScore? forward reverse?)
  | discovered {facts : TypeFacts} {transform : Transform}
    (found : discover? facts = some transform) : IsStandard transform

/-- A standard transform that has a way back never says that it has none. -/
theorem IsStandard.reverse_ne_noReverse {transform : Transform}
    (standard : transform.IsStandard) (has : transform.hasReverse = true)
    (value : Value) (normal : TypeName) :
    (transform.reverse value).outcome ≠ .error (.noReverse normal) := by
  obtain ⟨reverse, back⟩ := Option.isSome_iff_exists.1 has
  rw [Transform.reverse, back]
  cases standard with
  | ofConversions =>
    obtain ⟨conversion, _, rfl⟩ := Option.map_eq_some_iff.1 back
    unfold apply
    dsimp only
    split
    · cases conversion.convert value <;> simp [Except.mapError]
    · simp [Reply.failed]
  | discovered found =>
    rw [reverse?_of_discover? found] at back
    obtain ⟨method, _, bound⟩ := Option.bind_eq_some_iff.1 back
    obtain ⟨invoker, _, rfl⟩ := Option.map_eq_some_iff.1 bound
    simp

end Transform

namespace Construction

/-- Calls fail for reasons of construction only. -/
theorem call_ne_transform (owner : TypeName) (invoker? : Option Invoker)
    (arguments : List Argument) (member : String) (error : TransformError) :
    (call owner invoker? arguments member).outcome ≠
      .error (.transform error) := by
  unfold call
  cases invoker? with
  | none => simp [refuse, Reply.failed]
  | some invoker => simp

end Construction

namespace AppliedTransform

theorem select?_eq_some
    (selected : select? owner bindings recipes format = some applied) :
    applied.binding ∈ bindings ∧ applied.owner = owner ∧
      applied.reversePath = pathBack applied.transform recipes := by
  obtain ⟨⟨binding, score⟩, found, rfl⟩ := Option.map_eq_some_iff.1 selected
  exact ⟨mem_of_selectBinding? found, rfl, rfl⟩

/-- There is a way back through the transform or through a recipe. -/
theorem canReverse_iff
    (path : applied.reversePath = pathBack applied.transform recipes) :
    applied.canReverse = true ↔ applied.transform.hasReverse = true ∨
      (recipes.surrogateRecipe? applied.transform.surrogate).isSome = true := by
  unfold canReverse
  rw [path, pathBack]
  cases applied.transform.hasReverse with
  | true => simp
  | false =>
    cases recipes.surrogateRecipe? applied.transform.surrogate <;> simp

/-- Whether two replies say the same: they are the same, or both refuse to make
a value of a type. -/
def Agrees (owner : TypeName) (left right : Reply Error Value) : Prop :=
  left = right ∨ ∃ reason other,
    left = refuse owner reason ∧ right = refuse owner other

/-- Where the transform has no way back, a value is made of the surrogate. -/
theorem reverse_agrees
    (path : applied.reversePath = pathBack applied.transform recipes)
    (same : recipes.owner = applied.owner)
    (lacks : applied.transform.hasReverse = false) (value : Value) :
    Agrees applied.owner (applied.reverse value)
      (recipes.newFromSurrogate applied.transform.surrogate value) := by
  unfold reverse Recipes.newFromSurrogate
  rw [path, pathBack, lacks, same]
  cases recipes.surrogateRecipe? applied.transform.surrogate with
  | none => exact .inr ⟨_, _, rfl, rfl⟩
  | some recipe => exact .inl rfl

/-- A standard transform is never applied in reverse where it has no way. -/
theorem reverse_ne_noReverse
    (path : applied.reversePath = pathBack applied.transform recipes)
    (standard : applied.transform.IsStandard) (value : Value)
    (normal : TypeName) :
    (applied.reverse value).outcome ≠
      .error (.transform (.noReverse normal)) := by
  unfold reverse
  rw [path, pathBack]
  cases has : applied.transform.hasReverse with
  | true =>
    simpa using standard.reverse_ne_noReverse has value normal
  | false =>
    cases recipes.surrogateRecipe? applied.transform.surrogate with
    | none => simp [refuse, Reply.failed]
    | some recipe =>
      exact call_ne_transform applied.owner recipe.invoker? [.value value]
        "from-surrogate recipe" (.noReverse normal)

end AppliedTransform

end TypeAtlas
