import Mathlib.Data.List.Forall2
import Mathlib.Data.List.Induction
import TypeAtlas.Facts.Loading
import TypeAtlas.Facts.Provider
import TypeAtlas.Proofs.Registry.RemoteMethods

/-!
# Edits of a facts table

A table is edited by putting in the facts of one type and by loading documents,
from texts or from files.  Every edit writes a list of facts: those of the type,
those of all types of the document, or none, where the load fails.  Whatever
edits a table went through, it holds under each name what was written last.
-/

namespace TypeAtlas

open Document (Node)

namespace Document.Node

variable {decode : Node → Option α} {node : Node} {items : List Node}
  {values : List α}

theorem mapM_eq_some_iff : items.mapM decode = some values ↔
    List.Forall₂ (fun item value => decode item = some value) items values := by
  induction items generalizing values with
  | nil => simp [eq_comm]
  | cons first rest ih =>
    rw [List.mapM_cons, List.forall₂_cons_left_iff]
    constructor
    · intro read
      obtain ⟨value, readFirst, readRest⟩ := Option.bind_eq_some_iff.1 read
      obtain ⟨others, readOthers, made⟩ := Option.bind_eq_some_iff.1 readRest
      cases made
      exact ⟨value, others, readFirst, ih.1 readOthers, rfl⟩
    · rintro ⟨value, others, readFirst, readRest, rfl⟩
      simp [readFirst, ih.2 readRest]

theorem listOf?_eq_some_iff : node.listOf? decode = some values ↔
    ∃ items, node.items? = some items ∧
      List.Forall₂ (fun item value => decode item = some value) items
        values := by
  simp [listOf?, Option.bind_eq_some_iff, mapM_eq_some_iff]

end Document.Node

namespace Facts

/-- Whether a node is a facts document with these types: a record whose entry
`types`, if it has one, is a list of nodes that are the facts of the types. -/
def IsDocumentOf (node : Node) (types : List TypeFacts) : Prop :=
  ∃ fields, node.fields? ["types"] = some fields ∧
    (fields.lookup "types" = none ∧ types = [] ∨
      ∃ listed items, fields.lookup "types" = some listed ∧
        listed.items? = some items ∧
        List.Forall₂ (fun item facts => decodeType item = some facts) items
          types)

/-- Whether the list of types in a document has an item that is not facts. -/
def HasBadType (node : Node) : Prop :=
  ∃ fields listed items item, node.fields? ["types"] = some fields ∧
    fields.lookup "types" = some listed ∧ listed.items? = some items ∧
    item ∈ items ∧ decodeType item = none

variable {node : Node} {types : List TypeFacts}

theorem decodeDocument_eq_some_iff :
    decodeDocument node = some types ↔ IsDocumentOf node types := by
  rw [decodeDocument]
  refine Option.bind_eq_some_iff.trans <| exists_congr fun fields =>
    and_congr_right fun _ => ?_
  unfold Node.defaulted
  cases fields.lookup "types" with
  | none => simp [eq_comm]
  | some listed => simp [Node.listOf?_eq_some_iff]

/-- One item that is not facts makes the whole document none. -/
theorem HasBadType.not_isDocumentOf (bad : HasBadType node) :
    ¬ IsDocumentOf node types := by
  obtain ⟨fields, listed, items, item, read, found, split, member, refused⟩ :=
    bad
  rintro ⟨given, again, absent | ⟨other, parts, lists, splits, all⟩⟩
  · cases read.symm.trans again
    simp [absent.1] at found
  · cases read.symm.trans again
    cases found.symm.trans lists
    cases split.symm.trans splits
    have isFacts := all.imp fun item facts decoded =>
      (⟨by simp [decoded], decoded⟩ : (decodeType item).isSome = true ∧ _)
    have decoded := ((List.forall₂_and_left _ _).1 isFacts).1 item member
    simp [refused] at decoded

/-- A type that is an array of what is no type expression is not facts. -/
example : decodeType (Node.record
    [("name", .text "Row"), ("array_of", .text "Cell<")]) = none := by
  decide

end Facts

/-- An edit of a facts table; a file that cannot be read has no text. -/
inductive TableEdit where
  | insert (facts : TypeFacts)
  | json (text : String)
  | yaml (text : String)
  | file (path : String) (text? : Option String)

inductive EditOutcome where
  | inserted (replaced? : Option TypeFacts)
  | loaded (count : Nat)
  | refused (error : FactsError)

namespace FactsTable

def settle (table : FactsTable) :
    Except FactsError (Nat × FactsTable) → EditOutcome × FactsTable
  | .ok (count, later) => (.loaded count, later)
  | .error error => (.refused error, table)

/-- What an edit of a table answers, and the table after it. -/
def edit (table : FactsTable) : TableEdit → EditOutcome × FactsTable
  | .insert facts => (.inserted (table.get? facts.name), table.insert facts)
  | .json text => table.settle (table.loadJson text)
  | .yaml text => table.settle (table.loadYaml text)
  | .file path text? => table.settle (table.loadFile path text?)

def editAll (table : FactsTable) (edits : List TableEdit) : FactsTable :=
  edits.foldl (fun table edit => (table.edit edit).2) table

end FactsTable

namespace TableEdit

/-- Whether a load reads a document, be it one of facts or not. -/
inductive Reads : TableEdit → Node → Prop where
  | json {text : String} {node : Node}
    (reads : Document.Json.read? text = some node) : Reads (.json text) node
  | yaml {text : String} {node : Node}
    (reads : Document.Yaml.read? text = some node) : Reads (.yaml text) node
  | jsonFile {path text : String} {node : Node}
    (named : Document.extensionOf path = "json")
    (reads : Document.Json.read? text = some node) :
    Reads (.file path (some text)) node
  | yamlFile {path text : String} {node : Node}
    (named : Document.extensionOf path ∈ ["yaml", "yml"])
    (reads : Document.Yaml.read? text = some node) :
    Reads (.file path (some text)) node

/-- What a load blames where it fails. -/
inductive Blames : TableEdit → FactsError → Prop where
  | json {text : String} : Blames (.json text) .malformedJson
  | yaml {text : String} : Blames (.yaml text) .malformedYaml
  | unreadable {path : String} : Blames (.file path none) .unreadableFile
  | jsonFile {path text : String}
    (named : Document.extensionOf path = "json") :
    Blames (.file path (some text)) .malformedJson
  | yamlFile {path text : String}
    (named : Document.extensionOf path ∈ ["yaml", "yml"]) :
    Blames (.file path (some text)) .malformedYaml
  | unsupported {path text : String}
    (named : Document.extensionOf path ∉ ["json", "yaml", "yml"]) :
    Blames (.file path (some text))
      (.unsupportedFormat (Document.extensionOf path))

/-- Whether a load reads a facts document with these types. -/
def Loads (edit : TableEdit) (types : List TypeFacts) : Prop :=
  ∃ node, edit.Reads node ∧ Facts.IsDocumentOf node types

/-- Whether a load reads a document in whose types there is one that is bad. -/
def MeetsBadType (edit : TableEdit) : Prop :=
  ∃ node, edit.Reads node ∧ Facts.HasBadType node

def FailsWith (edit : TableEdit) (error : FactsError) : Prop :=
  edit.Blames error ∧ ∀ types, ¬ edit.Loads types

inductive Writes : TableEdit → List TypeFacts → Prop where
  | inserted {facts : TypeFacts} : Writes (.insert facts) [facts]
  | loaded {edit : TableEdit} {types : List TypeFacts}
    (loads : edit.Loads types) : Writes edit types
  | refused {edit : TableEdit} {error : FactsError}
    (fails : edit.FailsWith error) : Writes edit []

/-- Whether an edit loads a document, if there is one to be read, and what it
blames otherwise. -/
structure IsLoadOf (edit : TableEdit) (error : FactsError)
    (node? : Option Node) : Prop where
  blames : edit.Blames error
  reads : ∀ node, edit.Reads node ↔ node? = some node
  edits : ∀ table : FactsTable,
    table.edit edit = table.settle (table.loadNode error node?)

section Files

variable {path text : String}

theorem isLoadOf_jsonFile (named : Document.extensionOf path = "json") :
    IsLoadOf (.file path (some text)) .malformedJson
      (Document.Json.read? text) where
  blames := .jsonFile named
  reads node := by
    refine ⟨fun reads => ?_, .jsonFile named⟩
    cases reads with
    | jsonFile _ reads => exact reads
    | yamlFile other => simp [named] at other
  edits table := by
    simp only [FactsTable.edit, FactsTable.loadFile, named]
    rfl

theorem isLoadOf_yamlFile
    (named : Document.extensionOf path ∈ ["yaml", "yml"]) :
    IsLoadOf (.file path (some text)) .malformedYaml
      (Document.Yaml.read? text) where
  blames := .yamlFile named
  reads node := by
    refine ⟨fun reads => ?_, .yamlFile named⟩
    cases reads with
    | jsonFile other => simp [other] at named
    | yamlFile _ reads => exact reads
  edits table := by
    rcases List.mem_pair.1 named with named | named
    all_goals
      simp only [FactsTable.edit, FactsTable.loadFile, named]
      rfl

theorem isLoadOf_unreadable (path : String) :
    IsLoadOf (.file path none) .unreadableFile none where
  blames := .unreadable
  reads _ := iff_of_false nofun nofun
  edits _ := rfl

theorem isLoadOf_unsupported
    (named : Document.extensionOf path ∉ ["json", "yaml", "yml"]) :
    IsLoadOf (.file path (some text))
      (.unsupportedFormat (Document.extensionOf path)) none where
  blames := .unsupported named
  reads node := by
    refine iff_of_false (fun reads => ?_) nofun
    cases reads with
    | jsonFile other => simp [other] at named
    | yamlFile other => exact named (List.mem_cons_of_mem _ other)
  edits table := by
    simp only [FactsTable.edit, FactsTable.loadFile]
    split <;> simp_all [FactsTable.loadNode]

end Files

/-- An edit puts in facts, or it loads what there is of a document. -/
theorem insert_or_isLoadOf (edit : TableEdit) :
    (∃ facts, edit = .insert facts) ∨
      ∃ error node?, edit.IsLoadOf error node? := by
  cases edit with
  | insert facts => exact .inl ⟨facts, rfl⟩
  | json text =>
    refine .inr ⟨_, _, .json, fun node => ⟨fun reads => ?_, .json⟩,
      fun table => rfl⟩
    cases reads with
    | json reads => exact reads
  | yaml text =>
    refine .inr ⟨_, _, .yaml, fun node => ⟨fun reads => ?_, .yaml⟩,
      fun table => rfl⟩
    cases reads with
    | yaml reads => exact reads
  | file path text? =>
    right
    cases text? with
    | none => exact ⟨_, _, isLoadOf_unreadable path⟩
    | some text =>
      by_cases isJson : Document.extensionOf path = "json"
      · exact ⟨_, _, isLoadOf_jsonFile isJson⟩
      by_cases isYaml : Document.extensionOf path ∈ ["yaml", "yml"]
      · exact ⟨_, _, isLoadOf_yamlFile isYaml⟩
      · have other : Document.extensionOf path ∉ ["json", "yaml", "yml"] :=
          fun member => (List.mem_cons.1 member).elim isJson isYaml
        exact ⟨_, _, isLoadOf_unsupported other⟩

theorem Reads.unique {edit : TableEdit} {node other : Node}
    (reads : edit.Reads node) (again : edit.Reads other) : node = other := by
  rcases edit.insert_or_isLoadOf with ⟨facts, rfl⟩ | ⟨error, node?, isLoad⟩
  · cases reads
  · exact Option.some.inj <|
      ((isLoad.reads node).1 reads).symm.trans ((isLoad.reads other).1 again)

theorem Loads.unique {edit : TableEdit} {types others : List TypeFacts}
    (loads : edit.Loads types) (again : edit.Loads others) :
    types = others := by
  obtain ⟨node, reads, document⟩ := loads
  obtain ⟨other, readsToo, documentToo⟩ := again
  cases reads.unique readsToo
  exact Option.some.inj <|
    (Facts.decodeDocument_eq_some_iff.2 document).symm.trans
      (Facts.decodeDocument_eq_some_iff.2 documentToo)

/-- One bad type, wherever it stands, keeps the others out as well. -/
theorem MeetsBadType.not_loads {edit : TableEdit} {types : List TypeFacts}
    (bad : edit.MeetsBadType) : ¬ edit.Loads types := by
  rintro ⟨other, again, document⟩
  obtain ⟨node, reads, bad⟩ := bad
  cases reads.unique again
  exact bad.not_isDocumentOf document

theorem MeetsBadType.exists_failsWith {edit : TableEdit}
    (bad : edit.MeetsBadType) : ∃ error, edit.FailsWith error := by
  rcases edit.insert_or_isLoadOf with ⟨facts, rfl⟩ | ⟨error, _, isLoad⟩
  · obtain ⟨node, reads, -⟩ := bad
    cases reads
  · exact ⟨error, isLoad.blames, fun types => bad.not_loads⟩

end TableEdit

/-- Whether a table holds what was written last: under each name the last facts
of this name among those written or, where there are none, those held before. -/
structure FactsTable.HoldsLast (before : FactsTable) (written : List TypeFacts)
    (table : FactsTable) : Prop where
  facts_eq_ok_iff : ∀ name facts,
    (Provider.ofTable table).facts name = .ok facts ↔
      LastWith (fun other => other.name = name) written facts ∨
        (∀ other ∈ written, other.name ≠ name) ∧ before.get? name = some facts
  facts_eq_error_iff : ∀ name error,
    (Provider.ofTable table).facts name = .error error ↔
      error = .notFound name ∧ (∀ other ∈ written, other.name ≠ name) ∧
        before.get? name = none
  name_eq : ∀ name facts,
    (Provider.ofTable table).facts name = .ok facts → facts.name = name
  ascending : table.names.Pairwise (· < ·)
  mem_names_iff : ∀ name, name ∈ table.names ↔
    ∃ facts, (Provider.ofTable table).facts name = .ok facts
  length_names : table.names.length = table.size

namespace FactsTable

variable {table later : FactsTable} {edit : TableEdit} {edits : List TableEdit}
  {types : List TypeFacts} {facts : TypeFacts} {name : TypeName}
  {error : FactsError}

theorem insertAll_append (table : FactsTable) (types others : List TypeFacts) :
    table.insertAll (types ++ others) =
      (table.insertAll types).insertAll others :=
  List.foldl_append

theorem not_forall_name_ne (types : List TypeFacts) {last : TypeFacts}
    (named : last.name = name) :
    ¬ ∀ other ∈ types ++ [last], other.name ≠ name :=
  fun differ => differ last List.mem_concat_self named

theorem get?_insertAll_eq_some_iff :
    (table.insertAll types).get? name = some facts ↔
      LastWith (fun other => other.name = name) types facts ∨
        (∀ other ∈ types, other.name ≠ name) ∧
          table.get? name = some facts := by
  induction types using List.reverseRecOn with
  | nil => simp [insertAll, not_lastWith_nil]
  | append_singleton types last ih =>
    rw [insertAll_append, insertAll, List.foldl_cons, List.foldl_nil,
      get?_insert, lastWith_concat_iff]
    by_cases named : last.name = name
    · rw [eq_false (not_forall_name_ne types named)]
      simp [named, eq_comm]
    · simp [named, Ne.symm named, ih, or_imp, forall_and]

theorem get?_insertAll_eq_none_iff :
    (table.insertAll types).get? name = none ↔
      (∀ other ∈ types, other.name ≠ name) ∧ table.get? name = none := by
  induction types using List.reverseRecOn with
  | nil => simp [insertAll]
  | append_singleton types last ih =>
    rw [insertAll_append, insertAll, List.foldl_cons, List.foldl_nil,
      get?_insert]
    by_cases named : last.name = name
    · rw [eq_false (not_forall_name_ne types named)]
      simp [named]
    · simp [named, Ne.symm named, ih, or_imp, forall_and]

theorem facts_ofTable (table : FactsTable) (name : TypeName) :
    (Provider.ofTable table).facts name =
      match table.get? name with
      | some facts => .ok facts
      | none => .error (.notFound name) :=
  rfl

theorem facts_ofTable_eq_ok_iff :
    (Provider.ofTable table).facts name = .ok facts ↔
      table.get? name = some facts := by
  rw [facts_ofTable]
  cases table.get? name <;> simp

theorem facts_ofTable_eq_error_iff :
    (Provider.ofTable table).facts name = .error error ↔
      error = .notFound name ∧ table.get? name = none := by
  rw [facts_ofTable]
  cases table.get? name <;> simp [eq_comm]

theorem holdsLast_insertAll (table : FactsTable) (types : List TypeFacts) :
    table.HoldsLast types (table.insertAll types) where
  facts_eq_ok_iff _ _ :=
    facts_ofTable_eq_ok_iff.trans get?_insertAll_eq_some_iff
  facts_eq_error_iff _ _ :=
    facts_ofTable_eq_error_iff.trans <|
      and_congr_right fun _ => get?_insertAll_eq_none_iff
  name_eq _ _ found := name_eq_of_get? (facts_ofTable_eq_ok_iff.1 found)
  ascending := List.pairwise_map.2 (table.insertAll types).types.ascending
  mem_names_iff _ :=
    NameMap.mem_names_iff.trans <|
      exists_congr fun _ => facts_ofTable_eq_ok_iff.symm
  length_names := List.length_map _

/-- Whether an edit of a table answers as it should and leaves the table it
should. -/
inductive Settles (table : FactsTable) :
    TableEdit → EditOutcome × FactsTable → Prop where
  | inserted {facts : TypeFacts} {later : FactsTable}
    (holds : table.HoldsLast [facts] later) :
    Settles table (.insert facts) (.inserted (table.get? facts.name), later)
  | loaded {edit : TableEdit} {types : List TypeFacts} {later : FactsTable}
    (loads : edit.Loads types) (holds : table.HoldsLast types later) :
    Settles table edit (.loaded types.length, later)
  | refused {edit : TableEdit} {error : FactsError}
    (fails : edit.FailsWith error) : Settles table edit (.refused error, table)

/-- A load is a success if its document is one of facts, and fails otherwise. -/
theorem edit_of_isLoadOf {node? : Option Node} (table : FactsTable)
    (isLoad : edit.IsLoadOf error node?) :
    (∃ types, edit.Loads types ∧
        table.edit edit = (.loaded types.length, table.insertAll types)) ∨
      edit.FailsWith error ∧ table.edit edit = (.refused error, table) := by
  rw [isLoad.edits, loadNode]
  cases decoded : node?.bind Facts.decodeDocument with
  | some types =>
    obtain ⟨node, read, document⟩ := Option.bind_eq_some_iff.1 decoded
    exact .inl ⟨types, ⟨node, (isLoad.reads node).2 read,
      Facts.decodeDocument_eq_some_iff.1 document⟩, rfl⟩
  | none =>
    refine .inr ⟨⟨isLoad.blames, ?_⟩, rfl⟩
    rintro types ⟨node, read, document⟩
    rw [(isLoad.reads node).1 read, Option.bind_some,
      Facts.decodeDocument_eq_some_iff.2 document] at decoded
    cases decoded

theorem edit_eq_loaded_iff {count : Nat} :
    table.edit edit = (.loaded count, later) ↔
      ∃ types, edit.Loads types ∧ count = types.length ∧
        later = table.insertAll types := by
  rcases edit.insert_or_isLoadOf with ⟨facts, rfl⟩ | ⟨error, node?, isLoad⟩
  · refine iff_of_false (fun same => by cases same) ?_
    rintro ⟨types, ⟨node, reads, -⟩, -⟩
    cases reads
  rcases table.edit_of_isLoadOf isLoad with
    ⟨types, loads, same⟩ | ⟨fails, same⟩
  · rw [same]
    constructor
    · intro same
      cases same
      exact ⟨types, loads, rfl, rfl⟩
    · rintro ⟨others, loadsToo, rfl, rfl⟩
      rw [loads.unique loadsToo]
  · rw [same]
    refine iff_of_false (fun same => by cases same) ?_
    rintro ⟨types, loads, -⟩
    exact fails.2 types loads

theorem settle_eq_loaded_iff {count : Nat}
    {outcome : Except FactsError (Nat × FactsTable)} :
    table.settle outcome = (.loaded count, later) ↔
      outcome = .ok (count, later) := by
  rcases outcome with error | ⟨number, loaded⟩
  · simp [settle]
  · simp [settle]

/-- The step of a run: an edit settles, and sets the facts that it writes. -/
theorem settles_edit (table : FactsTable) (edit : TableEdit) :
    table.Settles edit (table.edit edit) ∧ ∃ types, edit.Writes types ∧
      (table.edit edit).2 = table.insertAll types := by
  rcases edit.insert_or_isLoadOf with ⟨facts, rfl⟩ | ⟨error, node?, isLoad⟩
  · exact ⟨.inserted (table.holdsLast_insertAll [facts]),
      [facts], .inserted, rfl⟩
  rcases table.edit_of_isLoadOf isLoad with
    ⟨types, loads, same⟩ | ⟨fails, same⟩
  · rw [same]
    exact ⟨.loaded loads (table.holdsLast_insertAll types),
      types, .loaded loads, rfl⟩
  · rw [same]
    exact ⟨.refused fails, [], .refused fails, rfl⟩

/-- A run sets the facts that its edits write, in the order of the edits. -/
theorem exists_writes_editAll (table : FactsTable) (edits : List TableEdit) :
    ∃ records, List.Forall₂ TableEdit.Writes edits records ∧
      table.editAll edits = table.insertAll records.flatten := by
  induction edits generalizing table with
  | nil => exact ⟨[], .nil, rfl⟩
  | cons edit more ih =>
    obtain ⟨-, types, writes, here⟩ := table.settles_edit edit
    obtain ⟨records, writeAll, rest⟩ := ih (table.edit edit).2
    refine ⟨types :: records, .cons writes writeAll, ?_⟩
    rw [List.flatten_cons, insertAll_append, ← here, ← rest]
    rfl

/-- After any edits a table holds under each name what they wrote last.  Each
edit of it then answers for what it writes, and leaves the table as it was if it
fails, as it does for any bad type in its document. -/
theorem editAll_holdsLast (table : FactsTable) (edits : List TableEdit) :
    (∃ records, List.Forall₂ TableEdit.Writes edits records ∧
      table.HoldsLast records.flatten (table.editAll edits)) ∧
    ∀ edit : TableEdit,
      (table.editAll edits).Settles edit ((table.editAll edits).edit edit) ∧
        (edit.MeetsBadType → ∃ error, edit.FailsWith error) := by
  constructor
  · obtain ⟨records, writes, same⟩ := table.exists_writes_editAll edits
    exact ⟨records, writes, same ▸ table.holdsLast_insertAll records.flatten⟩
  · intro edit
    exact ⟨(settles_edit _ edit).1, fun bad => bad.exists_failsWith⟩

end FactsTable

end TypeAtlas
