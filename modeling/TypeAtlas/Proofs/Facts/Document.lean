import TypeAtlas.Facts.Loading
import TypeAtlas.Proofs.Document.Json
import TypeAtlas.Proofs.TypeExpr.Grammar

/-!
# Facts are read from the documents that they are written to

What a document says of a type is all that is known of it but the invokers of
its members.  Where the type expressions are well formed, the facts of a
document that was written for a list of types are those of the list.
-/

namespace TypeAtlas

def ParamShape.expressions : ParamShape → List TypeExpr
  | .type expression => [expression]
  | _ => []

namespace ConstructorFacts

def expressions (constructor : ConstructorFacts) : List TypeExpr :=
  constructor.params.flatMap ParamShape.expressions

/-- What is written of a constructor: all but its invoker. -/
def written (constructor : ConstructorFacts) : ConstructorFacts :=
  { constructor with invoker? := none }

end ConstructorFacts

namespace MethodFacts

def expressions (method : MethodFacts) : List TypeExpr :=
  method.params.flatMap ParamShape.expressions ++ method.returns.toList

def written (method : MethodFacts) : MethodFacts :=
  { method with invoker? := none }

end MethodFacts

def FieldFacts.written (field : FieldFacts) : FieldFacts :=
  { field with setter? := none }

namespace TypeFacts

def expressions (facts : TypeFacts) : List TypeExpr :=
  facts.arrayOf.toList ++ facts.typeArgs ++
    facts.constructors.flatMap ConstructorFacts.expressions ++
      facts.methods.flatMap MethodFacts.expressions ++
        facts.fields.map FieldFacts.type

/-- What is written of a type: all but the invokers of its members, with markers
as they are listed. -/
def written (facts : TypeFacts) : TypeFacts :=
  { facts with
    markers := Marker.normalize facts.markers
    constructors := facts.constructors.map ConstructorFacts.written
    methods := facts.methods.map MethodFacts.written
    fields := facts.fields.map FieldFacts.written }

end TypeFacts

theorem Marker.mem_normalize {marker : Marker} {markers : List Marker} :
    marker ∈ normalize markers ↔ marker ∈ markers := by
  have listed : marker ∈ all := by cases marker <;> decide
  simp [normalize, listed]

namespace TypeFacts

theorem has_written (facts : TypeFacts) (marker : Marker) :
    facts.written.has marker = facts.has marker := by
  rw [Bool.eq_iff_iff, has, has, List.contains_iff_mem, List.contains_iff_mem]
  exact Marker.mem_normalize

end TypeFacts

namespace Facts

open Document (Node)

section Named

theorem lookup_scalar (scalar : Scalar) :
    Scalar.named.lookup scalar.name = some scalar := by
  cases scalar <;> rfl

theorem lookup_marker (marker : Marker) :
    Marker.named.lookup marker.name = some marker := by
  cases marker <;> rfl

theorem lookup_visibility (visibility : Visibility) :
    Visibility.named.lookup visibility.name = some visibility := by
  cases visibility <;> rfl

theorem lookup_memberTag (tag : MemberTag) :
    MemberTag.named.lookup tag.name = some tag := by
  cases tag <;> rfl

theorem lookup_numberKind (kind : NumberKind) :
    NumberKind.named.lookup kind.name = some kind := by
  cases kind <;> rfl

end Named

theorem decodeExpr_encodeExpr {expression : TypeExpr}
    (formed : expression.IsWellFormed) :
    decodeExpr (encodeExpr expression) = some expression := by
  simp only [encodeExpr, decodeExpr, Node.text?, Node.untagged,
    Option.bind_some, TypeExpr.parse_render formed]
  rfl

theorem decodeParam_encodeParam {param : ParamShape}
    (formed : ∀ expression ∈ param.expressions, expression.IsWellFormed) :
    decodeParam (encodeParam param) = some param := by
  cases param with
  | text => rfl
  | session => rfl
  | number kind =>
    have read := (Node.enumerated?_text NumberKind.named kind.name).trans
      (lookup_numberKind kind)
    simp only [encodeParam, decodeParam, Node.record, List.map_cons,
      List.map_nil, Node.variant?, bind, Option.bind, read, Option.map_some]
  | type expression =>
    have read := decodeExpr_encodeExpr
      (formed expression List.mem_cons_self)
    simp only [encodeParam, decodeParam, Node.record, List.map_cons,
      List.map_nil, Node.variant?, bind, Option.bind, read, Option.map_some]

theorem decodeVisibility_text (visibility : Visibility) :
    decodeVisibility (.text visibility.name) = some visibility :=
  (Node.enumerated?_text _ _).trans (lookup_visibility visibility)

theorem listOf?_enumerated {named : List (String × α)} {name : α → String}
    (found : ∀ value, named.lookup (name value) = some value)
    (values : List α) :
    Node.listOf? (Node.enumerated? named) (Node.texts (values.map name)) =
      some values := by
  have read : Node.listOf? (Node.enumerated? named)
      (.list (values.map (Node.text ∘ name))) = some (values.map id) :=
    Node.listOf?_map fun value _ =>
      (Node.enumerated?_text named (name value)).trans (found value)
  rwa [List.map_id, ← List.map_map] at read

theorem listOf?_params {params : List ParamShape}
    (formed : ∀ expression ∈ params.flatMap ParamShape.expressions,
      expression.IsWellFormed) :
    Node.listOf? decodeParam (.list (params.map encodeParam)) =
      some params := by
  have read : Node.listOf? decodeParam (.list (params.map encodeParam)) =
      some (params.map id) :=
    Node.listOf?_map fun param member =>
      decodeParam_encodeParam fun expression within =>
        formed expression (List.mem_flatMap.2 ⟨param, member, within⟩)
  rwa [List.map_id] at read

theorem decodeConstructor_encodeConstructor {constructor : ConstructorFacts}
    (formed : ∀ expression ∈ constructor.expressions,
      expression.IsWellFormed) :
    decodeConstructor (encodeConstructor constructor) =
      some constructor.written := by
  unfold decodeConstructor encodeConstructor
  rw [Node.fields?_record (by rfl) (by decide)]
  simp only [bind, Option.bind, Node.defaulted, List.lookup_cons,
    String.reduceBEq, listOf?_params formed, decodeVisibility_text,
    Node.boolean?]
  rfl

theorem decodeMethod_encodeMethod {method : MethodFacts}
    (formed : ∀ expression ∈ method.expressions, expression.IsWellFormed) :
    decodeMethod (encodeMethod method) = some method.written := by
  have params := listOf?_params fun expression within =>
    formed expression (List.mem_append_left _ within)
  have returns : Node.optional? decodeExpr
      (Node.optional encodeExpr method.returns) = some method.returns :=
    Node.optional?_optional fun expression within =>
      decodeExpr_encodeExpr (formed expression
        (List.mem_append_right _ (Option.mem_toList.2 within)))
  have tags : decodeMemberTags (Node.texts (method.tags.map MemberTag.name)) =
      some method.tags :=
    listOf?_enumerated lookup_memberTag method.tags
  unfold decodeMethod encodeMethod
  rw [Node.fields?_record (by rfl) (by decide)]
  simp only [bind, Option.bind, Node.required, Node.defaulted, List.lookup_cons,
    String.reduceBEq, Node.text?, Node.untagged, params, returns,
    decodeVisibility_text, Node.boolean?, tags]
  rfl

theorem decodeField_encodeField {field : FieldFacts}
    (formed : field.type.IsWellFormed) :
    decodeField (encodeField field) = some field.written := by
  have tags : decodeMemberTags (Node.texts (field.tags.map MemberTag.name)) =
      some field.tags :=
    listOf?_enumerated lookup_memberTag field.tags
  unfold decodeField encodeField
  rw [Node.fields?_record (by rfl) (by decide)]
  simp only [bind, Option.bind, Node.required, Node.defaulted, List.lookup_cons,
    String.reduceBEq, Node.text?, Node.untagged, decodeExpr_encodeExpr formed,
    decodeVisibility_text, Node.boolean?, tags]
  rfl

theorem resolved?_texts (values : List String) :
    (Node.texts values).resolved? = some (Node.texts values) := by
  have resolved : Node.resolvedList? (values.map .text) =
      some (values.map .text) := by
    induction values with
    | nil => rfl
    | cons value rest ih =>
      simp only [List.map_cons, Node.resolvedList?, Node.resolved?, ih, bind,
        Option.bind]
      rfl
  simp only [Node.texts, Node.resolved?, resolved, Option.map_some]

theorem resolved?_optional (value? : Option String) :
    (Node.optional .text value?).resolved? =
      some (Node.optional .text value?) := by
  cases value? <;> rfl

theorem optional?_text (value? : Option String) :
    Node.optional? Node.text? (Node.optional .text value?) = some value? :=
  Node.optional?_optional fun _ _ => rfl

theorem decodeTypeTag_encodeTypeTag (tag : TypeTag) :
    decodeTypeTag (encodeTypeTag tag) = some tag := by
  cases tag with
  | bean dictionaryName typePropertyName dictionary =>
    have resolved :
        (encodeTypeTag (.bean dictionaryName typePropertyName
          dictionary)).resolved? =
        some (encodeTypeTag (.bean dictionaryName typePropertyName
          dictionary)) := by
      simp only [encodeTypeTag, Node.record, List.map_cons, List.map_nil,
        Node.resolved?, Node.resolvedEntries?, resolved?_optional,
        resolved?_texts, bind, Option.bind, pure, Option.map_some]
    have split : splitTypeTag (encodeTypeTag (.bean dictionaryName
        typePropertyName dictionary)) =
        some ("bean", Node.record
          [("dictionary_name", Node.optional .text dictionaryName),
           ("type_property_name", Node.optional .text typePropertyName),
           ("dictionary", Node.texts dictionary)]) :=
      rfl
    unfold decodeTypeTag
    simp only [resolved, split, bind, Option.bind]
    rw [Node.fields?_record (by rfl) (by decide)]
    simp only [Node.defaulted, List.lookup_cons, String.reduceBEq,
      optional?_text, Node.listOf?_texts]
    rfl
  | transform name => rfl
  | remoteable annotatedOnly keyByName => rfl

theorem decodeType_encodeType {facts : TypeFacts}
    (formed : ∀ expression ∈ facts.expressions, expression.IsWellFormed) :
    decodeType (encodeType facts) = some facts.written := by
  simp only [TypeFacts.expressions, List.forall_mem_append] at formed
  obtain ⟨⟨⟨⟨component, arguments⟩, ofConstructors⟩, ofMethods⟩, ofFields⟩ :=
    formed
  have scalar : Node.optional? (Node.enumerated? Scalar.named)
      (Node.optional (fun scalar => .text scalar.name) facts.scalar) =
        some facts.scalar :=
    Node.optional?_optional fun scalar _ =>
      (Node.enumerated?_text Scalar.named scalar.name).trans
        (lookup_scalar scalar)
  have markers := listOf?_enumerated lookup_marker facts.markers
  have arrayOf : Node.optional? decodeExpr
      (Node.optional encodeExpr facts.arrayOf) = some facts.arrayOf :=
    Node.optional?_optional fun expression within =>
      decodeExpr_encodeExpr (component expression (Option.mem_toList.2 within))
  have typeArgs : Node.listOf? decodeExpr
      (.list (facts.typeArgs.map encodeExpr)) = some (facts.typeArgs.map id) :=
    Node.listOf?_map fun expression member =>
      decodeExpr_encodeExpr (arguments expression member)
  have constructors : Node.listOf? decodeConstructor
      (.list (facts.constructors.map encodeConstructor)) =
        some (facts.constructors.map ConstructorFacts.written) :=
    Node.listOf?_map fun constructor member =>
      decodeConstructor_encodeConstructor fun expression within =>
        ofConstructors expression
          (List.mem_flatMap.2 ⟨constructor, member, within⟩)
  have methods : Node.listOf? decodeMethod
      (.list (facts.methods.map encodeMethod)) =
        some (facts.methods.map MethodFacts.written) :=
    Node.listOf?_map fun method member =>
      decodeMethod_encodeMethod fun expression within =>
        ofMethods expression (List.mem_flatMap.2 ⟨method, member, within⟩)
  have fields : Node.listOf? decodeField
      (.list (facts.fields.map encodeField)) =
        some (facts.fields.map FieldFacts.written) :=
    Node.listOf?_map fun field member =>
      decodeField_encodeField (ofFields _ (List.mem_map_of_mem member))
  have tags : Node.listOf? decodeTypeTag
      (.list (facts.tags.map encodeTypeTag)) = some (facts.tags.map id) :=
    Node.listOf?_map fun tag _ => decodeTypeTag_encodeTypeTag tag
  rw [List.map_id] at typeArgs tags
  unfold decodeType encodeType
  rw [Node.fields?_record (by rfl) (by decide)]
  simp only [bind, Option.bind, Node.required, Node.defaulted, List.lookup_cons,
    String.reduceBEq, Node.text?, Node.untagged, Node.boolean?, scalar,
    markers, arrayOf, Node.listOf?_texts, typeArgs, constructors, methods,
    fields, tags]
  rfl

theorem decodeDocument_encodeDocument {types : List TypeFacts}
    (formed : ∀ facts ∈ types, ∀ expression ∈ facts.expressions,
      expression.IsWellFormed) :
    decodeDocument (encodeDocument types) =
      some (types.map TypeFacts.written) := by
  have read : Node.listOf? decodeType (.list (types.map encodeType)) =
      some (types.map TypeFacts.written) :=
    Node.listOf?_map fun facts member =>
      decodeType_encodeType (formed facts member)
  unfold decodeDocument encodeDocument
  rw [Node.fields?_record (by rfl) (by decide)]
  simp only [bind, Option.bind, Node.defaulted, List.lookup_cons,
    String.reduceBEq, read]

section Printing

open Document.Node (IsData)

theorem isData_encodeParam (param : ParamShape) :
    IsData (encodeParam param) := by
  cases param with
  | text | session => exact .text _
  | number | type => exact .record (by simpa using .text _)

theorem isData_encodeConstructor (constructor : ConstructorFacts) :
    IsData (encodeConstructor constructor) := by
  refine .record ?_
  simp only [List.map_cons, List.map_nil, List.forall_mem_cons]
  exact ⟨.map isData_encodeParam _, .text _, .boolean _, nofun⟩

theorem isData_encodeMethod (method : MethodFacts) :
    IsData (encodeMethod method) := by
  refine .record ?_
  simp only [List.map_cons, List.map_nil, List.forall_mem_cons]
  exact ⟨.text _, .map isData_encodeParam _, .optional (fun _ => .text _) _,
    .boolean _, .text _, .boolean _, .texts _, nofun⟩

theorem isData_encodeField (field : FieldFacts) :
    IsData (encodeField field) := by
  refine .record ?_
  simp only [List.map_cons, List.map_nil, List.forall_mem_cons]
  exact ⟨.text _, .text _, .text _, .boolean _, .texts _, nofun⟩

theorem isData_encodeTypeTag (tag : TypeTag) : IsData (encodeTypeTag tag) := by
  cases tag with
  | bean =>
    refine .record ?_
    simp only [List.map_cons, List.map_nil, List.forall_mem_cons]
    exact ⟨.text _, .optional .text _, .optional .text _, .texts _, nofun⟩
  | transform =>
    refine .record ?_
    simp only [List.map_cons, List.map_nil, List.forall_mem_cons]
    exact ⟨.text _, .text _, nofun⟩
  | remoteable =>
    refine .record ?_
    simp only [List.map_cons, List.map_nil, List.forall_mem_cons]
    exact ⟨.text _, .boolean _, .boolean _, nofun⟩

theorem isData_encodeType (facts : TypeFacts) : IsData (encodeType facts) := by
  refine .record ?_
  simp only [List.map_cons, List.map_nil, List.forall_mem_cons]
  exact ⟨.text _, .optional (fun _ => .text _) _, .boolean _, .texts _,
    .boolean _, .boolean _, .boolean _, .optional (fun _ => .text _) _,
    .texts _, .map (fun _ => .text _) _, .map isData_encodeConstructor _,
    .map isData_encodeMethod _, .map isData_encodeField _,
    .map isData_encodeTypeTag _, nofun⟩

theorem isData_encodeDocument (types : List TypeFacts) :
    IsData (encodeDocument types) := by
  refine .record ?_
  simp only [List.map_cons, List.map_nil, List.forall_mem_cons]
  exact ⟨.map isData_encodeType types, nofun⟩

end Printing

end Facts

namespace FactsTable

theorem get?_insertAll_of_not_mem {types : List TypeFacts} {name : TypeName}
    (other : name ∉ types.map TypeFacts.name) (table : FactsTable) :
    (table.insertAll types).get? name = table.get? name := by
  induction types generalizing table with
  | nil => rfl
  | cons facts rest ih =>
    rw [List.map_cons, List.mem_cons, not_or] at other
    have inserted := ih other.2 (table.insert facts)
    rwa [get?_insert, if_neg other.1] at inserted

theorem get?_insertAll_of_mem {types : List TypeFacts}
    (distinct : (types.map TypeFacts.name).Nodup) {facts : TypeFacts}
    (member : facts ∈ types) (table : FactsTable) :
    (table.insertAll types).get? facts.name = some facts := by
  induction types generalizing table with
  | nil => cases member
  | cons first rest ih =>
    obtain ⟨fresh, distinctRest⟩ := List.nodup_cons.1 distinct
    rcases List.mem_cons.1 member with rfl | later
    · have inserted := get?_insertAll_of_not_mem fresh (table.insert facts)
      rwa [get?_insert, if_pos rfl] at inserted
    · exact ih distinctRest later (table.insert first)

end FactsTable

namespace Facts

open Document (Json.read? Json.pretty)

/-- A text that is read as the document for some types adds their facts. -/
theorem loadJson_of_read? (table : FactsTable) {types : List TypeFacts}
    (formed : ∀ facts ∈ types, ∀ expression ∈ facts.expressions,
      expression.IsWellFormed) {text : String}
    (read : Json.read? text = some (encodeDocument types)) :
    table.loadJson text =
      .ok (types.length, table.insertAll (types.map TypeFacts.written)) := by
  simp only [FactsTable.loadJson, FactsTable.loadNode, read, Option.bind_some,
    decodeDocument_encodeDocument formed, List.length_map]

/-- The facts of a document that was written for some types are loaded into any
table.  They replace what the table said of these types, up to the invokers that
no document has, and leave what it says of all others. -/
theorem loadJson_encodeDocument (table : FactsTable) {types : List TypeFacts}
    (distinct : (types.map TypeFacts.name).Nodup)
    (formed : ∀ facts ∈ types, ∀ expression ∈ facts.expressions,
      expression.IsWellFormed) :
    ∃ later : FactsTable,
      table.loadJson (Json.pretty 0 (encodeDocument types)) =
        .ok (types.length, later) ∧
      (∀ text, Json.read? text = some (encodeDocument types) →
        table.loadJson text = .ok (types.length, later)) ∧
      (∀ facts ∈ types, later.get? facts.name = some facts.written ∧
        ∀ marker, facts.written.has marker = facts.has marker) ∧
      ∀ name ∉ types.map TypeFacts.name, later.get? name = table.get? name := by
  have names : (types.map TypeFacts.written).map TypeFacts.name =
      types.map TypeFacts.name := by
    rw [List.map_map]
    rfl
  have printed := Document.Json.read?_pretty (isData_encodeDocument types) 0
  refine ⟨_, loadJson_of_read? table formed printed,
    fun _ => loadJson_of_read? table formed,
    fun facts member => ⟨?_, facts.has_written⟩,
    fun name other =>
      FactsTable.get?_insertAll_of_not_mem (names ▸ other) table⟩
  have found := FactsTable.get?_insertAll_of_mem (names ▸ distinct)
    (List.mem_map_of_mem member) table
  exact found

/-- Facts that use most of what a document can say of a type. -/
def shelf : TypeFacts where
  name := "Shelf"
  markers := [.delegate, .elementContainer, .delegate]
  arrayOf := some ⟨"Map", [.named "Text", ⟨"List", [.named "Book"]⟩]⟩
  supertypes := ["Store"]
  constructors :=
    [{ params := [.number .long, .type (.named "Book")]
       deprecated := true
       invoker? := some (.recording "shelf") }]
  methods :=
    [{ name := "owner"
       params := [.session]
       returns := some ⟨"List", [.named "Text"]⟩
       visibility := .guarded
       tags := [.ignore] }]
  fields :=
    [{ name := "label"
       type := .named "Text"
       setter? := some (.recording "label") }]
  tags := [.bean (some "shelf") none ["Book", "Shelf"], .transform "flat"]

theorem loadJson_encodeDocument_of_shelf :
    ∃ later : FactsTable,
      (FactsTable.empty.insertAll [{ name := "Shelf" }, { name := "Lamp" }]
        ).loadJson (Json.pretty 0 (encodeDocument [shelf])) =
        .ok (1, later) ∧
      later.get? "Shelf" = some shelf.written ∧
      later.get? "Lamp" = some { name := "Lamp" } := by
  obtain ⟨later, loaded, _, replaced, kept⟩ := loadJson_encodeDocument
    (FactsTable.empty.insertAll [{ name := "Shelf" }, { name := "Lamp" }])
    (show ([shelf].map TypeFacts.name).Nodup by decide)
    (show ∀ facts ∈ [shelf], ∀ expression ∈ facts.expressions,
      expression.IsWellFormed by decide)
  refine ⟨later, loaded, (replaced shelf List.mem_cons_self).1, ?_⟩
  rw [kept "Lamp" (by decide)]
  rfl

end Facts

end TypeAtlas
