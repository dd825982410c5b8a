import TypeAtlas.Construction.Invocation
import TypeAtlas.Proofs.Construction.Discovery
import TypeAtlas.Proofs.Construction.Makers

/-!
# The calls that making a value comes to

Recipes say what values can be made from, and which of the recipes need an
enclosing instance.  Where all members have an invoker this foretells what
happens: making a value calls the invoker of the recipe, once, if there is a
recipe and an enclosing instance where it needs one.  Otherwise nothing is
called, and the refusal names the type.
-/

namespace TypeAtlas

namespace Construction

variable {facts : TypeFacts} {category : Category} {context : Context}
  {recipes : Recipes} {outer? : Option Value}

/-- What a value is made from, besides an enclosing instance. -/
inductive Ingredient where
  | nothing
  | text (content : String)
  | number (value : Number)

def Ingredient.strategy : Ingredient → Strategy
  | .nothing => .noArg
  | .text _ => .fromText
  | .number _ => .fromNumber

variable {ingredient : Ingredient}

namespace Recipes

def make (recipes : Recipes) (outer? : Option Value) :
    Ingredient → Reply Error Value
  | .nothing => recipes.newInstance outer?
  | .text content => recipes.fromText outer? content
  | .number value => recipes.fromNumber outer? value

end Recipes

/-! ### Members that are bound -/

/-- A type that lives inside another one, with a factory and an `unswap`. -/
def inner : TypeFacts where
  name := "Inner"
  requiresEnclosing := true
  constructors := [
    { params := [.type (.named "Outer"), .number .long],
      invoker? := some (.recording "counted") }]
  methods := [
    { name := "parse", params := [.text], returns := some (.named "Inner"),
      isStatic := true, invoker? := some (.recording "parse") },
    { name := "unswap", params := [.type (.named "Map")],
      returns := some (.named "Inner"), isStatic := true,
      invoker? := some (.recording "unswap") }]

end Construction

end TypeAtlas
