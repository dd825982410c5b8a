import Mathlib.Data.String.Lemmas
import TypeAtlas.Inspector.Plan
import TypeAtlas.Proofs.Facts.Document
import TypeAtlas.Proofs.Facts.Edits

/-!
# Listing types

The types of a facts file are listed together with the core types: one line for
each name, in ascending order, with the category of what was written last under
this name.  One space stands between a name and the category, however short the
name is, so that the categories of two types begin in one column only if their
names have the same length.  The listing is thus no table with a column of names
unless no name is shorter than this column.
-/

namespace TypeAtlas

namespace Text

variable {text : String} {lines others : List String} {width : Nat}

/-- Whether a text is made of these lines, each with a line break behind it. -/
def HasLines (text : String) (lines : List String) : Prop :=
  text.toList.splitOn '\n' = lines.map String.toList ++ [[]]

theorem hasLines_join (unbroken : ∀ line ∈ lines, '\n' ∉ line.toList) :
    HasLines (String.join (lines.map (· ++ "\n"))) lines := by
  unfold HasLines
  induction lines with
  | nil => simp
  | cons line more ih =>
    obtain ⟨here, below⟩ := List.forall_mem_cons.1 unbroken
    -- The first line break in the text is the one behind the first line.
    have cut : (String.join ((line :: more).map (· ++ "\n"))).toList =
        line.toList ++ '\n' :: (String.join (more.map (· ++ "\n"))).toList := by
      simp
    rw [cut, List.splitOn_append_cons_self, List.splitOn_eq_singleton here,
      ih below]
    rfl

theorem HasLines.unique (first : HasLines text lines)
    (second : HasLines text others) : lines = others := by
  have same := List.append_cancel_right (first.symm.trans second)
  exact List.map_injective_iff.2 (fun _ _ => String.toList_injective) same

theorem length_rightpad (width : Nat) (text : String) :
    (text.rightpad width).length = max width text.length := by
  simp only [String.rightpad, String.length_append, String.length_replicate]
  omega

theorem rightpad_of_le (fits : width ≤ text.length) :
    text.rightpad width = text := by
  rw [String.rightpad, Nat.sub_eq_zero_of_le fits]
  exact String.append_empty

end Text

namespace Category

theorem newline_not_mem_name (category : Category) :
    '\n' ∉ category.name.toList := by
  cases category <;> decide

theorem length_name_pos (category : Category) : 0 < category.name.length := by
  cases category <;> decide

end Category

namespace TypeFacts

variable {facts : TypeFacts} {width column : Nat}

/-- The line of a type in a listing: its name, one space and its category. -/
def row (facts : TypeFacts) : String :=
  facts.name ++ " " ++ facts.category.name

/-- The line of a type in a table with a column of names, which are padded with
spaces to its width.  A longer name is written out. -/
def paddedRow (width : Nat) (facts : TypeFacts) : String :=
  facts.name.rightpad width ++ " " ++ facts.category.name

/-- Whether a line shows the category of a type from a column on to its end. -/
def ShowsCategoryAt (facts : TypeFacts) (line : String) (column : Nat) : Prop :=
  line.toList.drop column = facts.category.name.toList

theorem length_paddedRow (width : Nat) (facts : TypeFacts) :
    (facts.paddedRow width).length =
      max width facts.name.length + 1 + facts.category.name.length := by
  rw [paddedRow, String.length_append, String.length_append,
    Text.length_rightpad]
  rfl

example : ({ name := "Year", markers := [.temporal] } : TypeFacts).paddedRow 6 =
    "Year   temporal" := by
  decide

theorem paddedRow_of_le (fits : width ≤ facts.name.length) :
    facts.paddedRow width = facts.row := by
  rw [paddedRow, Text.rightpad_of_le fits, row]

/-- A line that is not padded is one of a table if its name fills the column. -/
theorem paddedRow_eq_row_iff :
    facts.paddedRow width = facts.row ↔ width ≤ facts.name.length := by
  refine ⟨fun same => ?_, paddedRow_of_le⟩
  have lengths := congrArg String.length same
  rw [← paddedRow_of_le facts.name.length.zero_le, length_paddedRow,
    length_paddedRow] at lengths
  omega

/-- Padding makes categories begin in one column, behind names that fit in. -/
theorem showsCategoryAt_paddedRow_iff :
    facts.ShowsCategoryAt (facts.paddedRow width) column ↔
      column = max width facts.name.length + 1 := by
  constructor
  · intro shows
    have lengths := congrArg List.length shows
    rw [List.length_drop, String.length_toList, String.length_toList,
      length_paddedRow] at lengths
    have positive := facts.category.length_name_pos
    omega
  · rintro rfl
    have before : (facts.name.rightpad width ++ " ").toList.length =
        max width facts.name.length + 1 := by
      rw [String.length_toList, String.length_append, Text.length_rightpad]
      rfl
    rw [ShowsCategoryAt, paddedRow, String.toList_append, ← before]
    exact List.drop_left

theorem showsCategoryAt_row_iff :
    facts.ShowsCategoryAt facts.row column ↔
      column = facts.name.length + 1 := by
  rw [← paddedRow_of_le facts.name.length.zero_le,
    showsCategoryAt_paddedRow_iff, Nat.zero_max]

theorem newline_not_mem_row (unbroken : '\n' ∉ facts.name.toList) :
    '\n' ∉ facts.row.toList := by
  simp [row, unbroken, facts.category.newline_not_mem_name]

end TypeFacts

/-- A roster of facts that were written one after the other has, in ascending
order of names, what was written last under each name. -/
structure IsRosterOf (written roster : List TypeFacts) : Prop where
  ascending : roster.Pairwise fun first second => first.name < second.name
  mem_iff : ∀ facts, facts ∈ roster ↔
    LastWith (fun other => other.name = facts.name) written facts

/-- Whether a text is a table of a roster, with a column of names. -/
def IsTableOf (width : Nat) (written : List TypeFacts) (text : String) : Prop :=
  ∃ roster, IsRosterOf written roster ∧
    Text.HasLines text (roster.map (TypeFacts.paddedRow width))

namespace IsRosterOf

variable {written roster others : List TypeFacts} {facts : TypeFacts}
  {text : String} {width : Nat}

theorem exists_mem (isRoster : IsRosterOf written roster)
    (member : facts ∈ written) : ∃ last ∈ roster, last.name = facts.name := by
  obtain ⟨last, ends⟩ := exists_lastWith_iff.2
    (⟨facts, member, rfl⟩ : ∃ other ∈ written, other.name = facts.name)
  have same : last.name = facts.name := ends.held
  refine ⟨last, (isRoster.mem_iff last).2 ?_, same⟩
  rw [same]
  exact ends

theorem nodup (isRoster : IsRosterOf written roster) : roster.Nodup := by
  refine isRoster.ascending.imp ?_
  rintro first _ below rfl
  exact String.lt_irrefl _ below

theorem unique (first : IsRosterOf written roster)
    (second : IsRosterOf written others) : roster = others := by
  have sameMembers := (List.perm_ext_iff_of_nodup first.nodup second.nodup).2
    fun facts => (first.mem_iff facts).trans (second.mem_iff facts).symm
  refine sameMembers.eq_of_pairwise ?_ first.ascending second.ascending
  intro one other _ _ below above
  exact (String.lt_asymm below above).elim

/-- Lines that are not padded make a table if all names fill the column. -/
theorem isTableOf_iff (isRoster : IsRosterOf written roster)
    (lines : Text.HasLines text (roster.map TypeFacts.row)) :
    IsTableOf width written text ↔
      ∀ facts ∈ roster, width ≤ facts.name.length := by
  constructor
  · rintro ⟨others, isRosterToo, padded⟩ facts member
    -- There is one roster and one list of lines, so that all rows agree.
    cases isRoster.unique isRosterToo
    have same := List.map_inj_left.1 (padded.unique lines) facts member
    exact TypeFacts.paddedRow_eq_row_iff.1 same
  · intro fits
    refine ⟨roster, isRoster, ?_⟩
    rwa [List.map_congr_left fun facts member =>
      TypeFacts.paddedRow_of_le (fits facts member)]

end IsRosterOf

/-- What is written of facts is loaded again. -/
theorem TableEdit.loads_encodeDocument {path : String}
    {types : List TypeFacts} (named : Document.extensionOf path = "json")
    (formed : ∀ facts ∈ types, ∀ expression ∈ facts.expressions,
      expression.IsWellFormed) :
    (TableEdit.file path (some
      (Document.Json.pretty 0 (Facts.encodeDocument types)))).Loads
        (types.map TypeFacts.written) :=
  ⟨Facts.encodeDocument types,
    .jsonFile named
      (Document.Json.read?_pretty (Facts.isData_encodeDocument types) 0),
    Facts.decodeDocument_eq_some_iff.1
      (Facts.decodeDocument_encodeDocument formed)⟩

namespace FactsTable

variable {table : FactsTable} {facts : TypeFacts}

theorem mem_values_iff :
    facts ∈ table.types.values ↔ table.get? facts.name = some facts := by
  refine ⟨fun member => ?_, NameMap.mem_values_of_get?⟩
  obtain ⟨⟨name, _⟩, among, rfl⟩ := List.mem_map.1 member
  have found := NameMap.get?_of_mem among
  cases table.nameEq name _ found
  exact found

theorem ascending_values (table : FactsTable) :
    table.types.values.Pairwise fun first second =>
      first.name < second.name := by
  refine List.pairwise_map.2 (table.types.ascending.imp_of_mem ?_)
  rintro ⟨name, first⟩ ⟨other, second⟩ among amongToo below
  rwa [table.nameEq name first (NameMap.get?_of_mem among),
    table.nameEq other second (NameMap.get?_of_mem amongToo)]

/-- The values of a table are a roster of all that was put into it. -/
theorem isRosterOf_values (written : List TypeFacts) :
    IsRosterOf written (empty.insertAll written).types.values where
  ascending := ascending_values _
  mem_iff facts := by
    rw [mem_values_iff, get?_insertAll_eq_some_iff]
    simp [get?, empty]

end FactsTable

theorem CoreTypes.newline_not_mem_name :
    ∀ facts ∈ CoreTypes.all, '\n' ∉ facts.name.toList := by
  decide

namespace Inspector

variable {files : Files} {path : String} {table : FactsTable}
  {types : List TypeFacts}

/-- A file is loaded just if a document of facts can be read from it. -/
theorem loadFacts_eq_ok_iff :
    loadFacts files path = .ok table ↔
      ∃ types, (TableEdit.file path (files path)).Loads types ∧
        table = FactsTable.empty.insertAll (CoreTypes.all ++ types) := by
  have found : loadFacts files path = .ok table ↔ ∃ count,
      FactsTable.ofCoreTypes.edit (.file path (files path)) =
        (.loaded count, table) := by
    simp only [FactsTable.edit, FactsTable.settle_eq_loaded_iff, loadFacts]
    rcases FactsTable.ofCoreTypes.loadFile path (files path) with
      error | ⟨count, loaded⟩
    · simp
    · simp
  simp only [found, FactsTable.edit_eq_loaded_iff, FactsTable.insertAll_append]
  constructor
  · rintro ⟨count, types, loads, -, same⟩
    exact ⟨types, loads, same⟩
  · rintro ⟨types, loads, same⟩
    exact ⟨types.length, types, loads, rfl, same⟩

theorem list_eq (loaded : loadFacts files path = .ok table) :
    list files path = .ok (String.join
      ((table.types.values.map TypeFacts.row).map (· ++ "\n"))) := by
  rw [list, loaded, List.map_map]
  rfl

/-- A file that is loaded is listed: one line for each type on the roster. -/
theorem exists_list_eq_ok
    (loads : (TableEdit.file path (files path)).Loads types)
    (unbroken : ∀ facts ∈ types, '\n' ∉ facts.name.toList) :
    ∃ output roster, list files path = .ok output ∧
      IsRosterOf (CoreTypes.all ++ types) roster ∧
      Text.HasLines output (roster.map TypeFacts.row) := by
  have isRoster := FactsTable.isRosterOf_values (CoreTypes.all ++ types)
  have loaded := loadFacts_eq_ok_iff.2 ⟨types, loads, rfl⟩
  refine ⟨_, _, list_eq loaded, isRoster, Text.hasLines_join ?_⟩
  intro line member
  obtain ⟨facts, listed, rfl⟩ := List.mem_map.1 member
  apply TypeFacts.newline_not_mem_row
  rcases List.mem_append.1 ((isRoster.mem_iff facts).1 listed).mem with
    core | given
  · exact CoreTypes.newline_not_mem_name facts core
  · exact unbroken facts given

/-- A file that is loaded is listed: one line for each name in it or of a core
type, in ascending order, with the category of what was written last under this
name.  A category begins right behind the space after its name, and so the lines
make a table with a column of names if all names fill this column, and not
otherwise. -/
theorem list_shows
    (loads : (TableEdit.file path (files path)).Loads types)
    (unbroken : ∀ facts ∈ types, '\n' ∉ facts.name.toList) :
    ∃ output roster, list files path = .ok output ∧
      IsRosterOf (CoreTypes.all ++ types) roster ∧
      Text.HasLines output (roster.map TypeFacts.row) ∧
      (∀ facts ∈ roster, ∀ column, facts.ShowsCategoryAt facts.row column ↔
        column = facts.name.length + 1) ∧
      ∀ width, IsTableOf width (CoreTypes.all ++ types) output ↔
        ∀ facts ∈ roster, width ≤ facts.name.length := by
  obtain ⟨output, roster, listed, isRoster, lines⟩ :=
    exists_list_eq_ok loads unbroken
  exact ⟨output, roster, listed, isRoster, lines,
    fun facts _ _ => TypeFacts.showsCategoryAt_row_iff,
    fun _ => isRoster.isTableOf_iff lines⟩

/-- Types of a town, of which zones come twice and one bears a core name. -/
def townTypes : List TypeFacts :=
  [{ name := "Zone", markers := [.enumeration] },
   { name := "StreetsAndHousesOfTheWholeDistrict" },
   { name := "int", markers := [.temporal] },
   { name := "Zone", arrayOf := some (.named "Straße") },
   { name := "Straße" }]

def townFile : String :=
  Document.Json.pretty 0 (Facts.encodeDocument townTypes)

/-- The listing of a town is a table if its column has three characters. -/
theorem list_shows_town :
    (TableEdit.file "town.json" (some townFile)).Loads
      (townTypes.map TypeFacts.written) ∧
    (∀ facts ∈ townTypes.map TypeFacts.written,
      '\n' ∉ facts.name.toList) ∧
    ∃ output roster,
      list (fun _ => some townFile) "town.json" = .ok output ∧
      IsRosterOf (CoreTypes.all ++ townTypes.map TypeFacts.written) roster ∧
      Text.HasLines output (roster.map TypeFacts.row) ∧
      ∀ width, IsTableOf width
          (CoreTypes.all ++ townTypes.map TypeFacts.written) output ↔
        width ≤ 3 := by
  have loads : (TableEdit.file "town.json" (some townFile)).Loads
      (townTypes.map TypeFacts.written) :=
    TableEdit.loads_encodeDocument (by decide +kernel) (by decide)
  have unbroken : ∀ facts ∈ townTypes.map TypeFacts.written,
      '\n' ∉ facts.name.toList := by
    decide
  obtain ⟨output, roster, listed, isRoster, lines, -, table⟩ :=
    @list_shows (fun _ => some townFile) "town.json" _ loads unbroken
  refine ⟨loads, unbroken, output, roster, listed, isRoster, lines,
    fun width => (table width).trans ⟨fun fits => ?_, fun fits => ?_⟩⟩
  · have written : ∃ facts ∈
        CoreTypes.all ++ townTypes.map TypeFacts.written,
        facts.name = "int" := by
      decide
    obtain ⟨facts, given, named⟩ := written
    obtain ⟨last, member, same⟩ := isRoster.exists_mem given
    have shortest := fits last member
    rw [same, named] at shortest
    exact shortest
  · have longEnough : ∀ facts ∈
        CoreTypes.all ++ townTypes.map TypeFacts.written,
        3 ≤ facts.name.length := by
      decide
    intro facts member
    exact fits.trans <|
      longEnough facts ((isRoster.mem_iff facts).1 member).mem

def pointFile : String :=
  "types:\n  - name: Point\n"

/-- Short names are not padded, so that a listing is no wide table. -/
theorem not_list_isTableOf :
    ¬ ∀ files path types,
      (TableEdit.file path (files path)).Loads types →
        (∀ facts ∈ types, '\n' ∉ facts.name.toList) →
          ∃ output, list files path = .ok output ∧
            IsTableOf 32 (CoreTypes.all ++ types) output := by
  intro padded
  have named : Document.extensionOf "point.yml" = "yml" := by
    decide +kernel
  have read : ((Document.Yaml.read? pointFile).bind
      Facts.decodeDocument).map (·.map (·.name)) = some ["Point"] := by
    decide +kernel
  obtain ⟨types, read, names⟩ := Option.map_eq_some_iff.1 read
  obtain ⟨point, rfl, same⟩ := List.map_eq_singleton_iff.1 names
  obtain ⟨node, reads, decoded⟩ := Option.bind_eq_some_iff.1 read
  have loads : (TableEdit.file "point.yml" (some pointFile)).Loads [point] :=
    ⟨node, .yamlFile (by simp [named]) reads,
      Facts.decodeDocument_eq_some_iff.1 decoded⟩
  have unbroken : ∀ facts ∈ [point], '\n' ∉ facts.name.toList := by
    simp [same]
  obtain ⟨output, listed, isTable⟩ :=
    padded (fun _ => some pointFile) "point.yml" _ loads unbroken
  obtain ⟨printed, roster, listedToo, isRoster, lines⟩ :=
    @exists_list_eq_ok (fun _ => some pointFile) "point.yml" _ loads unbroken
  cases listed.symm.trans listedToo
  obtain ⟨last, member, lastSame⟩ :=
    isRoster.exists_mem (List.mem_append_right _ List.mem_cons_self)
  have fits := (isRoster.isTableOf_iff lines).1 isTable last member
  rw [lastSame, same] at fits
  exact absurd fits (by decide)

end Inspector

end TypeAtlas
