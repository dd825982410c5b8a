import TypeAtlas.Registry.Introspection

/-!
# What a registry is made of

The sources of a registry never change: where facts come from, how it is
configured, which transforms are known, and the scripts that are followed when
types are introspected.
-/

namespace TypeAtlas

/-- All that a registry consults. -/
structure Sources where
  provider : Provider
  config : Config := {}
  transforms : TransformCatalogue := {}
  scripts : IntrospectionScripts := NameMap.empty

instance : Inhabited Sources := ⟨{ provider := default }⟩

namespace Sources

/-- The names in the facts of a type that its assembly may ask for. -/
def mentionedIn (facts : TypeFacts) : List TypeName :=
  TypeExpr.namesOfList
    (facts.arrayOf.toList ++ facts.typeArgs ++
      facts.methods.flatMap (fun method =>
        method.returns.toList ++ method.params.filterMap fun
          | .type expression => some expression
          | _ => none) ++
      facts.fields.map FieldFacts.type)

/-- The names in a text, where it is a type expression. -/
def namesInText (text : String) : List TypeName :=
  match TypeExpr.parse text with
  | .ok expression => expression.names
  | .error _ => []

/-- The names that a step of a script asks for. -/
def mentionedByStep : IntrospectionStep → List TypeName
  | .get name => [name]
  | .lookup text | .reference text => namesInText text
  | _ => []

/-- Every name that an assembly may ask for: the names in facts, the root type,
the type of text setters, and the names in scripts. -/
def mentioned (sources : Sources) : List TypeName :=
  "String" :: sources.config.rootType ::
    (sources.provider.table.types.values.flatMap mentionedIn ++
      sources.scripts.values.flatMap fun steps =>
        steps.flatMap mentionedByStep)

/-- A bound on the depth of assemblies inside each other.  Each of them is for
another name, and all but the outermost are for mentioned ones. -/
def depthBound (sources : Sources) : Nat :=
  sources.mentioned.length + 2

end Sources

end TypeAtlas
