import TypeAtlas.Construction.Recipe
import TypeAtlas.Transform.Format

/-!
# Transforms

A transform converts values of a normal type into values of a surrogate type,
and some transforms convert them back.  Transforms are registered from outside,
or discovered from the `swap` and `unswap` methods of a type.
-/

namespace TypeAtlas

/-- A conversion between the values of two types. -/
structure Transform where
  normal : TypeName
  surrogate : TypeName
  /-- How well the transform suits a format; zero is not at all. -/
  score : Format → Nat
  forward : Value → Reply TransformError Value
  /-- The way back, where the transform has one. -/
  reverse? : Option (Value → Reply TransformError Value)

/-- What a value is when it is handed to a conversion. -/
inductive ValueKind where
  | text | integer | floating | record | other
  deriving Repr, DecidableEq

def Value.kind : Value → ValueKind
  | .text _ => .text
  | .integer _ => .integer
  | .floating _ => .floating
  | .record .. => .record
  | _ => .other

/-- The text that stands for a value where texts are put together. -/
def Value.spelling : Value → String
  | .text content => content
  | .integer value => toString value.toInt
  | .floating value => value.hexadecimal
  | .record label _ => label
  | _ => ""

/-- A conversion of values of one kind. -/
structure Conversion where
  accepts : ValueKind
  convert : Value → Except String Value

namespace Transform

def hasReverse (transform : Transform) : Bool :=
  transform.reverse?.isSome

def reverse (transform : Transform) (value : Value) :
    Reply TransformError Value :=
  match transform.reverse? with
  | some reverse => reverse value
  | none => .failed (.noReverse transform.normal)

/-- Applies a conversion to a value, of which it must accept the kind. -/
def apply (conversion : Conversion) (normal expected : TypeName)
    (failure : String → TransformError) (value : Value) :
    Reply TransformError Value :=
  if value.kind == conversion.accepts then
    ⟨(conversion.convert value).mapError failure, []⟩
  else
    .failed (.typeMismatch normal expected)

/-- The transform made of conversions.  It suits the formats that its patterns
match, unless a score is fixed for all formats. -/
def ofConversions (normal surrogate : TypeName) (patterns : List String)
    (fixedScore? : Option Nat) (forward : Conversion)
    (reverse? : Option Conversion) : Transform :=
  { normal
    surrogate
    score := fun format =>
      fixedScore?.getD (Format.scorePatterns patterns format)
    forward := apply forward normal normal (.forward normal)
    reverse? := reverse?.map fun reverse =>
      apply reverse normal surrogate (.reverse normal) }

/-- The transform that converts one way and suits every format a little. -/
def oneWay (normal surrogate : TypeName)
    (forward : Value → Reply TransformError Value) : Transform :=
  { normal, surrogate, forward
    score := fun _ => Format.unrestrictedScore
    reverse? := none }

/-- The name of methods that convert a value to a surrogate. -/
def swapName : String := "swap"

/-- Whether a method converts its receiver to a surrogate. -/
def isSwap (method : MethodFacts) : Bool :=
  !method.isStatic && method.isUsable && method.name == swapName &&
    (method.params == [] || method.params == [.session])

/-- The surrogate type that a method converts its receiver to. -/
def swapSurrogate? (method : MethodFacts) : Option TypeName :=
  if isSwap method then method.returns.map TypeExpr.name else none

/-- The transform of a type's own methods: its first `swap` method, and the
first `unswap` method that takes the same surrogate type.  Only an `unswap`
method with an invoker makes a way back. -/
def discover? (facts : TypeFacts) : Option Transform := do
  let (surrogate, swap) ← facts.methods.findSome? fun method =>
    (swapSurrogate? method).map fun surrogate => (surrogate, method)
  let unswap? := facts.methods.find? fun method =>
    Construction.unswapSurrogate? facts method == some surrogate
  return {
    normal := facts.name
    surrogate
    score := fun _ => Format.unrestrictedScore
    forward := fun value =>
      match swap.invoker? with
      | some invoker => (invoker.invoke [.receiver value]).mapError
          (.forward facts.name)
      | none => .failed
          (.forward facts.name "no invoker bound to the swap method")
    reverse? := (unswap?.bind MethodFacts.invoker?).map fun invoker value =>
      (invoker.invoke [.value value]).mapError (.reverse facts.name) }

end Transform

end TypeAtlas
