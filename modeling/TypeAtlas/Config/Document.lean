import TypeAtlas.Config.Basic
import TypeAtlas.Document.Node

/-!
# Configurations in documents

A configuration is a record of which every field may be left out.  It is
written with all fields; the names that are no beans are a list, and the
implementations a table.
-/

namespace TypeAtlas

namespace Config

open Document (Node)

/-- The fields of a configuration, in the order in which they are written. -/
def fieldNames : List String :=
  ["root_type", "not_bean_types", "bean_constructor_visibility",
   "require_bean_properties", "log_level", "implementations"]

def encode (config : Config) : Node :=
  Node.record
    [("root_type", .text config.rootType),
     ("not_bean_types", Node.texts config.notBeanTypes.names),
     ("bean_constructor_visibility",
      .text config.beanConstructorVisibility.name),
     ("require_bean_properties", .boolean config.requireBeanProperties),
     ("log_level", .text config.logLevel),
     ("implementations",
      Node.record
        (config.implementations.entries.map
          fun (abstractType, implementation) =>
            (abstractType, .text implementation)))]

/-- Reads a set of names from a list, in which names may be repeated. -/
def decodeNames (node : Node) : Option (NameMap Unit) :=
  (node.listOf? Node.text?).map fun names =>
    NameMap.ofList (names.map fun name => (name, ()))

/-- Reads a map from names to names; of repeated keys the last counts. -/
def decodeNameMap (node : Node) : Option (NameMap TypeName) :=
  (node.entriesOf? Node.text?).map NameMap.ofList

/-- Reads a configuration; `isUnit` tells which data a visibility may be written
with. -/
def decode (isUnit : Node → Bool) (node : Node) : Option Config := do
  let fields ← node.fields? fieldNames
  return {
    rootType := ← Node.defaulted "root_type" defaultRootType Node.text? fields
    notBeanTypes :=
      ← Node.defaulted "not_bean_types" NameMap.empty decodeNames fields
    beanConstructorVisibility :=
      ← Node.defaulted "bean_constructor_visibility" .exposed
        (Node.enumeratedBy? isUnit Visibility.named) fields
    requireBeanProperties :=
      ← Node.defaulted "require_bean_properties" true Node.boolean? fields
    logLevel := ← Node.defaulted "log_level" "info" Node.text? fields
    implementations :=
      ← Node.defaulted "implementations" NameMap.empty decodeNameMap fields }

end Config

end TypeAtlas
