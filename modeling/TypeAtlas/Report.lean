import TypeAtlas.Registry.Basic

/-!
# Reports

A report says the main things about a descriptor, as a document or as lines of
text.  What does not apply to a type is left out.
-/

namespace TypeAtlas

/-- What a report says of the transform that a type applies. -/
structure TransformReport where
  surrogate : TypeName
  score : Nat
  origin : String
  reversible : Bool
  deriving Repr, DecidableEq

/-- What a report says of a property. -/
structure PropertyReport where
  name : String
  type : String
  readOnly : Bool
  deriving Repr, DecidableEq

def PropertyReport.ofProperty (property : BeanProperty) : PropertyReport :=
  { name := property.name
    type := property.type.expr.render
    readOnly := property.readOnly }

/-- The main things about a descriptor. -/
structure Report where
  expr : String
  category : String
  state : String
  failure? : Option String
  flags : List String
  element? : Option String
  key? : Option String
  value? : Option String
  implementation? : Option String
  ancestors : List TypeName
  strategies : List String
  transform? : Option TransformReport
  properties : List PropertyReport
  notABean? : Option String
  deriving Repr, DecidableEq

namespace Report

def originLabel : BindingOrigin → String
  | .swapMethod => "swap method"
  | .registered => "registered"
  | .inherited ancestor => "inherited from " ++ ancestor
  | .declared name => s!"declared '{name}'"

/-- The strategies that there are recipes for, in words. -/
def strategyLabels (recipes : Construction.Recipes) : List String :=
  (Construction.Strategy.all.filter recipes.has).map fun strategy =>
    if recipes.can strategy then strategy.name
    else strategy.name ++ " (needs enclosing instance)"

def flagLabels (parts : Parts) : List String :=
  [(parts.isAbstract, "abstract"), (parts.isInterface, "interface"),
   (parts.isPrimitive, "primitive"), (parts.isDelegate, "delegate"),
   (parts.requiresEnclosing, "nested"),
   (parts.remoteableMethods?.isSome, "remoteable")].filterMap
    fun (isSet, label) => if isSet then some label else none

def stateLabel : BuildState → String
  | .inProgress => "in-progress"
  | .ready _ => "ready"
  | .failed .. => "failed"

/-- The report on a descriptor with a body, for a format. -/
def ofBody (expression : TypeExpr) (body : Body) (format : Format) : Report :=
  let parts := body.parts
  let label (reference? : Option TypeRef) : Option String :=
    reference?.map fun reference => reference.expr.render
  let (properties, notABean?) :=
    match parts.bean with
    | .notABean reason => ([], some reason)
    | .bean shape =>
      (shape.properties.map PropertyReport.ofProperty, none)
  { expr := body.display expression
    category := parts.category.name
    state := stateLabel body.state
    failure? := body.failure?
    flags := flagLabels parts
    element? := label body.element?
    key? := label body.key?
    value? := label body.value?
    implementation? := parts.implementation?
    ancestors := parts.ancestors
    strategies := strategyLabels parts.recipes
    transform? := (body.applied? expression.name format).map fun applied =>
      { surrogate := applied.transform.surrogate
        score := applied.score
        origin := originLabel applied.binding.origin
        reversible := applied.canReverse }
    properties
    notABean? }

open Document (Node)

/-- The entry of a table for a value that may be missing. -/
def optionalEntry (key : String) : Option String → List (String × Node)
  | some value => [(key, .text value)]
  | none => []

def encodeTransform (transform : TransformReport) : Node :=
  Node.record
    [("surrogate", .text transform.surrogate),
     ("score", .number (toString transform.score)),
     ("origin", .text transform.origin),
     ("reversible", .boolean transform.reversible)]

def encodeProperty (property : PropertyReport) : Node :=
  Node.record
    [("name", .text property.name),
     ("type", .text property.type),
     ("read_only", .boolean property.readOnly)]

def encode (report : Report) : Node :=
  Node.record <|
    [("expr", .text report.expr), ("category", .text report.category),
     ("state", .text report.state)] ++
    optionalEntry "failure" report.failure? ++
    [("flags", Node.texts report.flags)] ++
    optionalEntry "element" report.element? ++
    optionalEntry "key" report.key? ++
    optionalEntry "value" report.value? ++
    optionalEntry "implementation" report.implementation? ++
    [("ancestors", Node.texts report.ancestors),
     ("strategies", Node.texts report.strategies)] ++
    (report.transform?.map fun transform =>
      ("transform", encodeTransform transform)).toList ++
    [("properties", .list (report.properties.map encodeProperty))] ++
    optionalEntry "not_a_bean" report.notABean?

/-- The column, after the indentation, in which the value of a line starts. -/
def labelWidth : Nat := 16

/-- A line with a label, its colon, and a value in the value column. -/
def line (label value : String) : String :=
  let padding :=
    String.ofList (List.replicate (labelWidth - 1 - label.length) ' ')
  "  " ++ label ++ ":" ++ padding ++ value ++ "\n"

/-- The line of a value that may be missing. -/
def optionalLine (label : String) : Option String → String
  | some value => line label value
  | none => ""

/-- The line of a list, which is left out where the list is empty. -/
def listLine (label : String) (values : List String) : String :=
  if values.isEmpty then "" else line label (String.intercalate ", " values)

def transformLine (transform : TransformReport) : String :=
  let reversible := if transform.reversible then ", reversible" else ""
  line "transform" <|
    s!"-> {transform.surrogate} (score {transform.score}, " ++
      transform.origin ++ reversible ++ ")"

def propertyLine (property : PropertyReport) : String :=
  let readOnly := if property.readOnly then " (read-only)" else ""
  s!"    {property.name}: {property.type}{readOnly}\n"

def beanLines (report : Report) : String :=
  match report.notABean? with
  | some reason => line "bean" s!"no ({reason})"
  | none =>
    line "bean" s!"{report.properties.length} properties" ++
      String.join (report.properties.map propertyLine)

def toText (report : Report) : String :=
  report.expr ++ "\n" ++
    line "category" report.category ++
    line "state" report.state ++
    optionalLine "failure" report.failure? ++
    listLine "flags" report.flags ++
    optionalLine "element" report.element? ++
    optionalLine "key" report.key? ++
    optionalLine "value" report.value? ++
    optionalLine "implementation" report.implementation? ++
    listLine "ancestors" report.ancestors ++
    listLine "construction" report.strategies ++
    (report.transform?.map transformLine).getD "" ++
    beanLines report

end Report

end TypeAtlas
