import TypeAtlas.Construction.Recipe

/-!
# Making values

A recipe is carried out by calling its invoker.  Where the type or the recipe
asks for an enclosing instance it is the first argument, and its absence is
noticed before a missing invoker is.
-/

namespace TypeAtlas

namespace Construction

/-- The refusal to make a value of a type. -/
def refuse (owner : TypeName) (reason : String) : Reply Error Value :=
  .failed (.instantiation owner reason)

/-- Calls an invoker for a member, which failures name. -/
def call (owner : TypeName) (invoker? : Option Invoker)
    (arguments : List Argument) (member : String) : Reply Error Value :=
  match invoker? with
  | none => refuse owner s!"no invoker bound to the {member}"
  | some invoker => (invoker.invoke arguments).mapError fun reason =>
      .instantiation owner s!"{member} failed: {reason}"

/-- The arguments that pass the enclosing instance: none where it is not
required, whether or not one is at hand. -/
def enclosingArguments? (required : Bool) (outer? : Option Value) :
    Option (List Argument) :=
  if required then outer?.map fun outer => [.enclosing outer] else some []

/-- The refusal to make a nested value outside an enclosing instance. -/
def refuseWithoutEnclosing (owner : TypeName) : Reply Error Value :=
  refuse owner "nested type requires an enclosing instance"

/-- Makes a value from a value of the recipe's surrogate type. -/
def SurrogateRecipe.build (recipe : SurrogateRecipe) (owner : TypeName)
    (value : Value) : Reply Error Value :=
  call owner recipe.invoker? [.value value] "from-surrogate recipe"

namespace Recipes

def newInstance (recipes : Recipes) (outer? : Option Value) :
    Reply Error Value :=
  match recipes.noArg? with
  | none => refuse recipes.owner "no accessible no-argument constructor"
  | some recipe =>
    match enclosingArguments? recipe.requiresEnclosing outer? with
    | none => refuseWithoutEnclosing recipes.owner
    | some arguments =>
      call recipes.owner recipe.invoker? arguments "no-arg constructor"

/-- Makes a value from text.  A factory never takes the enclosing instance. -/
def fromText (recipes : Recipes) (outer? : Option Value) (text : String) :
    Reply Error Value :=
  match recipes.fromText? with
  | none => refuse recipes.owner "no from-text factory or constructor"
  | some recipe =>
    match recipe.source with
    | .factory name =>
      call recipes.owner recipe.invoker? [.text text] (name ++ " factory")
    | .constructor =>
      match enclosingArguments? recipes.requiresEnclosing outer? with
      | none => refuseWithoutEnclosing recipes.owner
      | some arguments =>
        call recipes.owner recipe.invoker? (arguments ++ [.text text])
          "text constructor"

/-- Makes a value from a number, in the representation that is expected. -/
def fromNumber (recipes : Recipes) (outer? : Option Value) (number : Number) :
    Reply Error Value :=
  match recipes.fromNumber? with
  | none => refuse recipes.owner "no numeric constructor"
  | some recipe =>
    match enclosingArguments? recipes.requiresEnclosing outer? with
    | none => refuseWithoutEnclosing recipes.owner
    | some arguments =>
      call recipes.owner recipe.invoker?
        (arguments ++ [.number (number.coerce recipe.kind)])
        "numeric constructor"

/-- Makes a value from a value of a surrogate type. -/
def newFromSurrogate (recipes : Recipes) (surrogate : TypeName)
    (value : Value) : Reply Error Value :=
  match recipes.surrogateRecipe? surrogate with
  | none =>
    refuse recipes.owner
      s!"no constructor or unswap function accepting '{surrogate}'"
  | some recipe => recipe.build recipes.owner value

end Recipes

end Construction

end TypeAtlas
