import TypeAtlas.Category
import TypeAtlas.Facts.Provider

/-!
# Recipes

The ways in which values of a type can be made: from nothing, from text, from a
number, or from a value of a surrogate type.  A recipe for each of them is
looked for among the members of the type; where several members would do, a
fixed order decides.
-/

namespace TypeAtlas

namespace Construction

/-- A way of making a value. -/
inductive Strategy where
  | noArg | fromText | fromNumber | fromSurrogate
  deriving Repr, DecidableEq

namespace Strategy

def name : Strategy → String
  | .noArg => "no-arg"
  | .fromText => "from-text"
  | .fromNumber => "from-number"
  | .fromSurrogate => "from-surrogate"

def all : List Strategy :=
  [.noArg, .fromText, .fromNumber, .fromSurrogate]

end Strategy

/-- How to make a value from nothing. -/
structure NoArgRecipe where
  /-- The type whose constructor is called. -/
  source : TypeName
  requiresEnclosing : Bool
  invoker? : Option Invoker

/-- The member that makes a value from text. -/
inductive TextSource where
  | factory (name : String)
  | constructor
  deriving Repr, DecidableEq

/-- How to make a value from text. -/
structure TextRecipe where
  source : TextSource
  invoker? : Option Invoker

/-- How to make a value from a number. -/
structure NumberRecipe where
  kind : NumberKind
  invoker? : Option Invoker

/-- The kind of member that makes a value from a surrogate. -/
inductive SurrogateSource where
  | constructor | unswap
  deriving Repr, DecidableEq

def SurrogateSource.name : SurrogateSource → String
  | .constructor => "constructor"
  | .unswap => "unswap"

/-- How to make a value from a value of a surrogate type. -/
structure SurrogateRecipe where
  surrogate : TypeName
  source : SurrogateSource
  invoker? : Option Invoker

/-- The recipes for the values of one type. -/
structure Recipes where
  owner : TypeName
  requiresEnclosing : Bool := false
  noArg? : Option NoArgRecipe := none
  fromText? : Option TextRecipe := none
  fromNumber? : Option NumberRecipe := none
  fromSurrogate : List SurrogateRecipe := []

/-- What discovery takes into account besides the facts of the type. -/
structure Context where
  /-- The facts of the type that is made in its stead, if one is configured. -/
  implementation? : Option TypeFacts := none
  rootType : TypeName
  /-- The surrogate types that constructors may take. -/
  surrogates : List TypeName := []
  /-- Where the hierarchy is read; without it only equal names are accepted. -/
  provider? : Option Provider := none

namespace Context

/-- Whether a parameter of a type takes values of a surrogate type. -/
def accepts (context : Context) (param surrogate : TypeName) : Bool :=
  match context.provider? with
  | some provider => provider.isSubtype surrogate param
  | none => param == surrogate

def acceptsCrash? (context : Context) (param surrogate : TypeName) :
    Option Crash :=
  context.provider?.bind fun provider => provider.subtypeCrash? surrogate param

end Context

/-- The recipe of a list for a surrogate type. -/
def recipeFor? (recipes : List SurrogateRecipe) (surrogate : TypeName) :
    Option SurrogateRecipe :=
  recipes.find? fun recipe => recipe.surrogate == surrogate

/-- The names of text factories, the preferred ones first. -/
def textFactoryNames : List String :=
  ["fromString", "fromValue", "valueOf", "parse", "parseString", "forName",
   "forString"]

/-- The name of methods that make a value from a surrogate. -/
def unswapName : String := "unswap"

/-- Whether a method is a usable static one that gives values of the type. -/
def isFactory (facts : TypeFacts) (method : MethodFacts) : Bool :=
  method.isStatic && method.isUsable &&
    method.returns.any fun type => type.name == facts.name

/-- The number of parameters that take the enclosing instance. -/
def enclosingArity (facts : TypeFacts) : Nat :=
  if facts.requiresEnclosing then 1 else 0

/-- The only parameter of a constructor, apart from the one for the enclosing
instance. -/
def soleParam? (facts : TypeFacts) (constructor : ConstructorFacts) :
    Option ParamShape :=
  match constructor.params.drop (enclosingArity facts) with
  | [param] => some param
  | _ => none

/-- The constructors that can be called, each with its only parameter. -/
def unaryConstructors (facts : TypeFacts) :
    List (ParamShape × ConstructorFacts) :=
  (facts.constructors.filter ConstructorFacts.isUsable).filterMap
    fun constructor =>
      (soleParam? facts constructor).map fun param => (param, constructor)

/-- The no-argument recipe: the first usable constructor that takes at most the
enclosing instance.  Values of the root type and of abstract types cannot be
made; an implementation is made in place of its type. -/
def findNoArg? (facts : TypeFacts) (context : Context) : Option NoArgRecipe :=
  if facts.name == context.rootType || facts.has .root then none
  else
    let target := context.implementation?.getD facts
    if target.isAbstract then none
    else
      let found := target.constructors.find? fun constructor =>
        constructor.isUsable &&
          constructor.params.length == enclosingArity target
      found.map fun constructor =>
        { source := target.name
          requiresEnclosing := target.requiresEnclosing
          invoker? := constructor.invoker? }

/-- The recipe of the text factory with the most preferred name. -/
def findTextFactory? (facts : TypeFacts) : Option TextRecipe :=
  textFactoryNames.findSome? fun name =>
    let found := facts.methods.find? fun method =>
      isFactory facts method && method.name == name &&
        method.params == [.text]
    found.map fun method =>
      { source := .factory method.name, invoker? := method.invoker? }

/-- The recipe of the first constructor that takes text. -/
def findTextConstructor? (facts : TypeFacts) : Option TextRecipe :=
  (unaryConstructors facts).findSome? fun (param, constructor) =>
    match param with
    | .text =>
      some { source := .constructor, invoker? := constructor.invoker? }
    | _ => none

/-- The recipe of the first constructor that takes a number. -/
def findNumber? (facts : TypeFacts) (category : Category) :
    Option NumberRecipe :=
  if category == .integral then none
  else
    (unaryConstructors facts).findSome? fun (param, constructor) =>
      match param with
      | .number kind => some { kind, invoker? := constructor.invoker? }
      | _ => none

/-- Every constructor that takes a value of a type, with that type, paired with
every surrogate type.  A nested type offers none of its constructors. -/
def surrogateCandidates (facts : TypeFacts) (context : Context) :
    List (TypeName × TypeName × ConstructorFacts) :=
  if facts.requiresEnclosing then []
  else
    (unaryConstructors facts).flatMap fun (param, constructor) =>
      match param with
      | .type expression => context.surrogates.map fun surrogate =>
          (expression.name, surrogate, constructor)
      | _ => []

/-- Adds the recipes of constructors to a list, each surrogate type being given
to the first constructor that accepts it. -/
def addConstructors (context : Context) :
    List SurrogateRecipe → List (TypeName × TypeName × ConstructorFacts) →
      List SurrogateRecipe
  | recipes, [] => recipes
  | recipes, (param, surrogate, constructor) :: rest =>
    if (recipeFor? recipes surrogate).isNone &&
        context.accepts param surrogate then
      addConstructors context
        (recipes ++
          [{ surrogate, source := .constructor,
             invoker? := constructor.invoker? }])
        rest
    else
      addConstructors context recipes rest

/-- The crash in which adding the recipes of constructors ends. -/
def addConstructorsCrash? (context : Context) :
    List SurrogateRecipe → List (TypeName × TypeName × ConstructorFacts) →
      Option Crash
  | _, [] => none
  | recipes, (param, surrogate, constructor) :: rest =>
    if (recipeFor? recipes surrogate).isSome then
      addConstructorsCrash? context recipes rest
    else
      (context.acceptsCrash? param surrogate).or <|
        addConstructorsCrash? context
          (addConstructors context recipes [(param, surrogate, constructor)])
          rest

/-- The surrogate type that a method makes values from. -/
def unswapSurrogate? (facts : TypeFacts) (method : MethodFacts) :
    Option TypeName :=
  if isFactory facts method && method.name == unswapName then
    match method.params with
    | [.type expression] => some expression.name
    | [.session, .type expression] => some expression.name
    | _ => none
  else
    none

/-- Adds the recipes of methods for surrogate types that have none yet. -/
def addUnswaps (facts : TypeFacts) (recipes : List SurrogateRecipe) :
    List SurrogateRecipe :=
  facts.methods.foldl (fun recipes method =>
    match unswapSurrogate? facts method with
    | some surrogate =>
      if (recipeFor? recipes surrogate).isSome then recipes
      else
        recipes ++
          [{ surrogate, source := .unswap, invoker? := method.invoker? }]
    | none => recipes) recipes

def discover (facts : TypeFacts) (category : Category) (context : Context) :
    Recipes :=
  { owner := facts.name
    requiresEnclosing := facts.requiresEnclosing
    noArg? := findNoArg? facts context
    fromText? := (findTextFactory? facts).or (findTextConstructor? facts)
    fromNumber? := findNumber? facts category
    fromSurrogate :=
      addUnswaps facts
        (addConstructors context [] (surrogateCandidates facts context)) }

def discoverCrash? (facts : TypeFacts) (context : Context) : Option Crash :=
  addConstructorsCrash? context [] (surrogateCandidates facts context)

namespace Recipes

def has (recipes : Recipes) : Strategy → Bool
  | .noArg => recipes.noArg?.isSome
  | .fromText => recipes.fromText?.isSome
  | .fromNumber => recipes.fromNumber?.isSome
  | .fromSurrogate => !recipes.fromSurrogate.isEmpty

/-- Whether a strategy has a recipe that needs no enclosing instance. -/
def can (recipes : Recipes) : Strategy → Bool
  | .noArg => recipes.noArg?.any fun recipe => !recipe.requiresEnclosing
  | .fromText => recipes.fromText?.any fun recipe =>
      recipe.source != .constructor || !recipes.requiresEnclosing
  | .fromNumber => recipes.fromNumber?.isSome && !recipes.requiresEnclosing
  | .fromSurrogate => !recipes.fromSurrogate.isEmpty

def surrogateRecipe? (recipes : Recipes) (surrogate : TypeName) :
    Option SurrogateRecipe :=
  recipeFor? recipes.fromSurrogate surrogate

end Recipes

end Construction

end TypeAtlas
