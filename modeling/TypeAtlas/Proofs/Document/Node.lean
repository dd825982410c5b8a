import TypeAtlas.Document.Node

/-!
# What is written as a node is read from it

The readers of document trees undo the writers: the fields of a record are
found, and lists, values that may be missing and named variants are read if
what they are made of is.
-/

namespace TypeAtlas

namespace Document

namespace Node

/-- Whether a node is one that JSON tells apart from every other, no number. -/
inductive IsData : Node → Prop
  | null : IsData .null
  | boolean (value : Bool) : IsData (.boolean value)
  | text (value : String) : IsData (.text value)
  | list {items : List Node} (items_isData : ∀ item ∈ items, IsData item) :
    IsData (.list items)
  | table {entries : List (Node × Node)}
    (keys_are_texts : ∀ entry ∈ entries, ∃ key, entry.1 = .text key)
    (values_isData : ∀ entry ∈ entries, IsData entry.2) :
    IsData (.table entries)

namespace IsData

theorem record {entries : List (String × Node)}
    (values_isData : ∀ value ∈ entries.map Prod.snd, IsData value) :
    IsData (.record entries) := by
  refine .table (fun entry among => ?_) fun entry among => ?_
  · obtain ⟨⟨key, value⟩, _, rfl⟩ := List.mem_map.1 among
    exact ⟨key, rfl⟩
  · obtain ⟨⟨key, value⟩, member, rfl⟩ := List.mem_map.1 among
    exact values_isData value (List.mem_map.2 ⟨_, member, rfl⟩)

theorem map {encode : α → Node} (isData : ∀ value, IsData (encode value))
    (values : List α) : IsData (.list (values.map encode)) := by
  refine .list fun item member => ?_
  obtain ⟨value, _, rfl⟩ := List.mem_map.1 member
  exact isData value

theorem texts (values : List String) : IsData (.texts values) :=
  map .text values

theorem optional {encode : α → Node} (isData : ∀ value, IsData (encode value))
    (value? : Option α) : IsData (.optional encode value?) := by
  cases value? with
  | none => exact .null
  | some value => exact isData value

end IsData

theorem fields?_record {entries : List (String × Node)} {known : List String}
    (names : entries.map Prod.fst = known) (distinct : known.Nodup) :
    (record entries).fields? known = some entries := by
  subst names
  have read (entries : List (String × Node)) :
      (record entries).entriesOf? some = some entries := by
    simp only [record, entriesOf?, entries?, untagged, Option.bind_some,
      List.mapM_map]
    induction entries with
    | nil => rfl
    | cons entry rest ih =>
      rw [List.mapM_cons, ih]
      rfl
  have found := read entries
  unfold fields?
  simp only [record, untagged] at found ⊢
  simp only [found, bind, Option.bind]
  rw [List.filter_eq_self.2 ?kept, if_pos distinct]
  case kept =>
    intro entry member
    exact List.contains_iff_mem.2 (List.mem_map_of_mem member)

theorem listOf?_map {encode : α → Node} {decode : Node → Option β}
    {written : α → β} {values : List α}
    (reads : ∀ value ∈ values, decode (encode value) = some (written value)) :
    listOf? decode (.list (values.map encode)) =
      some (values.map written) := by
  simp only [listOf?, items?, untagged, Option.bind_some, List.mapM_map]
  induction values with
  | nil => rfl
  | cons value rest ih =>
    obtain ⟨readFirst, readRest⟩ := List.forall_mem_cons.1 reads
    simp only [List.mapM_cons, Function.comp_apply, readFirst, ih readRest,
      bind, Option.bind]
    rfl

theorem listOf?_texts (values : List String) :
    listOf? text? (texts values) = some values := by
  have read : listOf? text? (.list (values.map .text)) =
      some (values.map id) :=
    listOf?_map fun _ _ => rfl
  rwa [List.map_id] at read

/-- A value that may be missing is read if it is one, and not null. -/
theorem optional?_optional {encode : α → String} {decode : Node → Option α}
    {value? : Option α}
    (reads : ∀ value ∈ value?, decode (.text (encode value)) = some value) :
    optional? decode (optional (fun value => .text (encode value)) value?) =
      some value? := by
  cases value? with
  | none => rfl
  | some value =>
    simp only [optional, optional?, reads value rfl, Option.map_some]

theorem enumerated?_text (variants : List (String × α)) (name : String) :
    enumerated? variants (.text name) = variants.lookup name := by
  simp only [enumerated?, enumeratedBy?, variant?, bind, Option.bind]
  cases variants.lookup name <;> rfl

end Node

end Document

end TypeAtlas
