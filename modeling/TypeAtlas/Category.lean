import TypeAtlas.Facts.Basic

/-!
# Categories

Every type falls into one category, found by an ordered table of rules of which
the first that fits decides.  A type that is a text sequence and an element
container is therefore a text sequence, and a floating-point number is never
taken for a whole one.
-/

namespace TypeAtlas

/-- What a type is, for those who write and read its values. -/
inductive Category where
  | boolean | char | integral | floating | text | textSequence | temporal | uri
  | charInput | binaryInput | binaryOutput | array | elementContainer
  | pairContainer | beanMap | enumerable | classLike | functionLike | object
  | void | argumentList | other
  deriving Repr, DecidableEq, Inhabited

namespace Category

def all : List Category :=
  [.boolean, .char, .integral, .floating, .text, .textSequence, .temporal, .uri,
   .charInput, .binaryInput, .binaryOutput, .array, .elementContainer,
   .pairContainer, .beanMap, .enumerable, .classLike, .functionLike, .object,
   .void, .argumentList, .other]

/-- The name of a category, with hyphens between its words. -/
def name : Category → String
  | .boolean => "boolean"
  | .char => "char"
  | .integral => "integral"
  | .floating => "floating"
  | .text => "text"
  | .textSequence => "text-sequence"
  | .temporal => "temporal"
  | .uri => "uri"
  | .charInput => "char-input"
  | .binaryInput => "binary-input"
  | .binaryOutput => "binary-output"
  | .array => "array"
  | .elementContainer => "element-container"
  | .pairContainer => "pair-container"
  | .beanMap => "bean-map"
  | .enumerable => "enumerable"
  | .classLike => "class-like"
  | .functionLike => "function-like"
  | .object => "object"
  | .void => "void"
  | .argumentList => "argument-list"
  | .other => "other"

/-- The key of a category in documents, with underscores between its words. -/
def key (category : Category) : String :=
  category.name.map fun character =>
    if character == '-' then '_' else character

def keyed : List (String × Category) :=
  all.map fun category => (category.key, category)

def isNumber : Category → Bool
  | .integral | .floating => true
  | _ => false

def isText : Category → Bool
  | .text | .textSequence => true
  | _ => false

/-- Whether values of the category hold keys and values. -/
def isPairContainer : Category → Bool
  | .pairContainer | .beanMap => true
  | _ => false

def isCollectionOrArray : Category → Bool
  | .elementContainer | .array => true
  | _ => false

/-- The number of type arguments of a category that takes any. -/
def arity? (category : Category) : Option Nat :=
  if category.isCollectionOrArray then some 1
  else if category.isPairContainer then some 2
  else none

end Category

namespace TypeFacts

/-- The rules of classification, in the order in which they are tried. -/
def categoryRules : List (Category × (TypeFacts → Bool)) :=
  [(.boolean, fun facts => facts.scalar == some .bool),
   (.char, fun facts => facts.scalar == some .char),
   (.void, fun facts => facts.scalar == some .void),
   (.integral, fun facts => facts.scalar.any Scalar.isIntegral),
   (.floating, fun facts => facts.scalar.any Scalar.isFloating),
   (.object, fun facts => facts.has .root),
   (.enumerable, fun facts => facts.has .enumeration),
   (.classLike, fun facts => facts.has .typeToken),
   (.functionLike, fun facts => facts.has .callable),
   (.text, fun facts => facts.has .text),
   (.textSequence, fun facts => facts.has .textSequence),
   (.floating, fun facts => facts.has .number && facts.has .floatingPoint),
   (.integral, fun facts => facts.has .number),
   (.elementContainer, fun facts => facts.has .elementContainer),
   (.beanMap, fun facts => facts.has .pairContainer && facts.has .beanMapView),
   (.pairContainer, fun facts => facts.has .pairContainer),
   (.temporal, fun facts => facts.has .temporal),
   (.array, fun facts => facts.arrayOf.isSome),
   (.uri, fun facts => facts.has .uri),
   (.charInput, fun facts => facts.has .charInput),
   (.binaryInput, fun facts => facts.has .binaryInput),
   (.binaryOutput, fun facts => facts.has .binaryOutput)]

/-- The category of a type: that of the first rule that fits. -/
def category (facts : TypeFacts) : Category :=
  match categoryRules.find? fun (_, fits) => fits facts with
  | some (category, _) => category
  | none => .other

/-- The category of a type is that of a rule that fits, or the last one. -/
theorem category_cases (facts : TypeFacts) :
    (∃ fits, (facts.category, fits) ∈ categoryRules ∧ fits facts = true) ∨
      facts.category = .other := by
  unfold category
  split
  next fits found =>
    have fit := List.find?_some found
    exact .inl ⟨fits, List.mem_of_find?_eq_some found, fit⟩
  · exact .inr rfl

theorem category_ne_argumentList (facts : TypeFacts) :
    facts.category ≠ .argumentList := by
  intro same
  rcases facts.category_cases with ⟨fits, member, _⟩ | other
  · rw [same] at member
    simp [categoryRules] at member
  · rw [same] at other
    cases other

theorem isSome_arrayOf_of_category {facts : TypeFacts}
    (same : facts.category = .array) : facts.arrayOf.isSome = true := by
  rcases facts.category_cases with ⟨fits, member, fit⟩ | other
  · rw [same] at member
    simp only [categoryRules, List.mem_cons, Prod.mk.injEq, reduceCtorEq,
      false_and, true_and, false_or, List.not_mem_nil, or_false] at member
    rw [member] at fit
    exact fit
  · rw [same] at other
    cases other

end TypeFacts

end TypeAtlas
