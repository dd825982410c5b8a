import TypeAtlas.Config.Loading
import TypeAtlas.Proofs.Document.Node
import TypeAtlas.Proofs.Document.Toml.Reader
import TypeAtlas.Proofs.Facts.Document

/-!
# Configurations survive being written in TOML

A configuration that is written in TOML is read as what it was, whatever texts
it holds, and then checked like any other.
-/

namespace TypeAtlas

namespace Config

open Document (Node)
open Document.Toml

def plainFields (config : Config) : List (String × Node) :=
  [("root_type", .text config.rootType),
    ("not_bean_types", Node.texts config.notBeanTypes.names),
    ("bean_constructor_visibility",
      .text config.beanConstructorVisibility.name),
    ("require_bean_properties", .boolean config.requireBeanProperties),
    ("log_level", .text config.logLevel)]

def tables (config : Config) : List Section :=
  [("implementations",
    config.implementations.entries.map fun (name, value) =>
      (name, .text value))]

theorem encode_eq_documentNode (config : Config) :
    config.encode = documentNode config.plainFields config.tables :=
  rfl

theorem isDocument (config : Config) :
    IsDocument config.plainFields config.tables where
  names := by
    show ["root_type", "not_bean_types", "bean_constructor_visibility",
      "require_bean_properties", "log_level", "implementations"].Nodup
    decide
  keys := by
    have names : (config.implementations.entries.map Prod.fst).Nodup :=
      config.implementations.nodup_names
    simpa [tables, Function.comp_def] using names
  simple := by
    have names : IsSimple (Node.texts config.notBeanTypes.names) := by
      refine .list fun item among => ?_
      obtain ⟨name, _, rfl⟩ := List.mem_map.mp among
      exact .text name
    simp [plainFields, names, IsSimple.scalar, IsScalar.text, IsScalar.boolean]
  sections_simple := by
    simp only [tables, List.mem_singleton]
    rintro _ rfl entry among
    obtain ⟨written, _, rfl⟩ := List.mem_map.mp among
    exact .scalar (.text _)

theorem decodeNames_texts (names : NameMap Unit) :
    decodeNames (Node.texts names.names) = some names := by
  have entries : names.names.map (fun name => (name, ())) = names.entries := by
    simp only [NameMap.names, List.map_map]
    exact List.map_id names.entries
  rw [decodeNames, Node.listOf?_texts, Option.map_some, entries,
    NameMap.ofList_entries]

theorem decodeNameMap_record (map : NameMap TypeName) :
    decodeNameMap (Node.record
      (map.entries.map fun (name, value) => (name, .text value))) =
      some map := by
  have read (entries : List (String × TypeName)) :
      (Node.record (entries.map fun (name, value) =>
        (name, .text value))).entriesOf? Node.text? = some entries := by
    simp only [Node.record, Node.entriesOf?, Node.entries?, Node.untagged,
      Option.bind_some, List.mapM_map]
    induction entries with
    | nil => rfl
    | cons entry rest ih =>
      rw [List.mapM_cons, ih]
      rfl
  rw [decodeNameMap, read, Option.map_some, NameMap.ofList_entries]

theorem decodeVisibility_text (isUnit : Node → Bool)
    (visibility : Visibility) :
    Node.enumeratedBy? isUnit Visibility.named (.text visibility.name) =
      some visibility := by
  simp only [Node.enumeratedBy?, Node.variant?, bind, Option.bind,
    Facts.lookup_visibility]
  rfl

theorem decode_encode (isUnit : Node → Bool) (config : Config) :
    decode isUnit config.encode = some config := by
  unfold decode encode
  rw [Node.fields?_record (by rfl) (by decide)]
  simp only [bind, Option.bind, Node.defaulted, List.lookup_cons,
    String.reduceBEq, Node.text?, Node.untagged, decodeNames_texts,
    decodeVisibility_text, Node.boolean?, decodeNameMap_record]
  rfl

/-- What is written of a configuration in TOML is read as that configuration, in
every field, and is refused only for what is wrong with it. -/
theorem ofToml_toToml (config : Config) :
    ofToml config.toToml = config.validate := by
  rw [ofToml, toToml, encode_eq_documentNode, config.isDocument.read?_print,
    ← encode_eq_documentNode, ofNode, Option.bind_some, decode_encode]

end Config

end TypeAtlas
