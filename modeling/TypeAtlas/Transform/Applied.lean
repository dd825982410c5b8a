import TypeAtlas.Construction.Invocation
import TypeAtlas.Transform.Catalogue

/-!
# Applying transforms

Of the bindings of a type the one that suits a format best is applied.  A
transform that cannot convert back may be helped out by a recipe that makes the
normal value from the surrogate.
-/

namespace TypeAtlas

/-- The binding that scores highest for a format, with its score; the first of
those that tie.  A score of zero is never selected. -/
def selectBinding? (bindings : List Binding) (format : Format) :
    Option (Binding × Nat) :=
  bindings.foldl (fun best binding =>
    let score := binding.transform.score format
    if (best.map Prod.snd).getD 0 < score then some (binding, score)
    else best) none

/-- How an applied transform gets back to the normal value. -/
inductive ReversePath where
  /-- The transform converts back. -/
  | explicit
  /-- A recipe makes the normal value from the surrogate. -/
  | fromSurrogate (recipe : Construction.SurrogateRecipe)
  | unavailable

def ReversePath.name : ReversePath → String
  | .explicit => "explicit"
  | .fromSurrogate _ => "from_surrogate"
  | .unavailable => "unavailable"

/-- A selected transform with its way back. -/
structure AppliedTransform where
  owner : TypeName
  binding : Binding
  score : Nat
  reversePath : ReversePath

namespace AppliedTransform

def transform (applied : AppliedTransform) : Transform :=
  applied.binding.transform

/-- The way back of a transform, given the recipes of the normal type. -/
def pathBack (transform : Transform) (recipes : Construction.Recipes) :
    ReversePath :=
  if transform.hasReverse then .explicit
  else
    match recipes.surrogateRecipe? transform.surrogate with
    | some recipe => .fromSurrogate recipe
    | none => .unavailable

/-- The transform that a type applies for a format, if any suits it. -/
def select? (owner : TypeName) (bindings : List Binding)
    (recipes : Construction.Recipes) (format : Format) :
    Option AppliedTransform :=
  (selectBinding? bindings format).map fun (binding, score) =>
    { owner, binding, score
      reversePath := pathBack binding.transform recipes }

def canReverse (applied : AppliedTransform) : Bool :=
  match applied.reversePath with
  | .unavailable => false
  | _ => true

def forward (applied : AppliedTransform) (value : Value) :
    Reply Error Value :=
  (applied.transform.forward value).mapError .transform

def reverse (applied : AppliedTransform) (value : Value) :
    Reply Error Value :=
  match applied.reversePath with
  | .explicit => (applied.transform.reverse value).mapError .transform
  | .fromSurrogate recipe => recipe.build applied.owner value
  | .unavailable =>
    Construction.refuse applied.owner
      ("no reverse recipe or constructor accepting " ++
        s!"'{applied.transform.surrogate}'")

end AppliedTransform

end TypeAtlas
