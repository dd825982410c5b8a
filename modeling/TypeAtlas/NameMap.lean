/-!
# Name maps

A map from names to values is an association list in strictly ascending key
order, so that each key occurs once and listing the keys needs no sorting.
Inserting under a key that is present replaces its value.
-/

namespace TypeAtlas

/-- Whether the keys of an association list ascend strictly. -/
def Ascending (entries : List (String × α)) : Prop :=
  entries.Pairwise fun first second => first.1 < second.1

/-- An association list with the value of one key set. -/
def insertEntry (key : String) (value : α) :
    List (String × α) → List (String × α)
  | [] => [(key, value)]
  | (name, old) :: rest =>
    if key < name then (key, value) :: (name, old) :: rest
    else if key = name then (key, value) :: rest
    else (name, old) :: insertEntry key value rest

theorem mem_insertEntry {key : String} {value : α} {entry : String × α} :
    {entries : List (String × α)} → entry ∈ insertEntry key value entries →
      entry = (key, value) ∨ entry ∈ entries
  | [], member => by simpa [insertEntry] using member
  | (name, old) :: rest, member => by
    rw [insertEntry] at member
    split at member
    · simpa using member
    · split at member
      · rcases List.mem_cons.1 member with here | later
        · exact .inl here
        · exact .inr (List.mem_cons_of_mem _ later)
      · rcases List.mem_cons.1 member with here | later
        · exact .inr (here ▸ List.mem_cons_self)
        · exact (mem_insertEntry later).imp_right (List.mem_cons_of_mem _)

theorem ascending_insertEntry {key : String} {value : α} :
    {entries : List (String × α)} → Ascending entries →
      Ascending (insertEntry key value entries)
  | [], _ => List.pairwise_singleton _ _
  | (name, old) :: rest, ascending => by
    have later := List.pairwise_cons.1 ascending
    rw [insertEntry]
    by_cases below : key < name
    · rw [if_pos below]
      refine List.pairwise_cons.2 ⟨fun entry member => ?_, ascending⟩
      rcases List.mem_cons.1 member with here | further
      · exact here ▸ below
      · exact String.lt_trans below (later.1 entry further)
    · rw [if_neg below]
      by_cases same : key = name
      · rw [if_pos same]
        exact List.pairwise_cons.2
          ⟨fun entry member => same ▸ later.1 entry member, later.2⟩
      · rw [if_neg same]
        refine List.pairwise_cons.2
          ⟨fun entry member => ?_, ascending_insertEntry later.2⟩
        rcases mem_insertEntry member with here | further
        · rw [here]
          exact Decidable.byContradiction fun notAbove =>
            same (String.le_antisymm (String.not_lt.1 notAbove)
              (String.not_lt.1 below))
        · exact later.1 entry further

/-- A map from names to values, in strictly ascending order of names. -/
structure NameMap (α : Type) where
  entries : List (String × α)
  ascending : Ascending entries

namespace NameMap

def empty : NameMap α :=
  ⟨[], List.Pairwise.nil⟩

instance : Inhabited (NameMap α) := ⟨empty⟩

def get? (map : NameMap α) (name : String) : Option α :=
  map.entries.lookup name

def contains (map : NameMap α) (name : String) : Bool :=
  (map.get? name).isSome

/-- The map with the value of one name set. -/
def insert (map : NameMap α) (name : String) (value : α) : NameMap α :=
  ⟨insertEntry name value map.entries, ascending_insertEntry map.ascending⟩

def names (map : NameMap α) : List String :=
  map.entries.map Prod.fst

def values (map : NameMap α) : List α :=
  map.entries.map Prod.snd

def size (map : NameMap α) : Nat :=
  map.entries.length

/-- The map of an association list, in which a later entry replaces earlier. -/
def ofList (entries : List (String × α)) : NameMap α :=
  entries.foldl (fun map (name, value) => map.insert name value) empty

theorem mem_names_of_get? {map : NameMap α} {name : String} {value : α}
    (found : map.get? name = some value) : name ∈ map.names := by
  have search : ∀ entries : List (String × α),
      entries.lookup name = some value → name ∈ entries.map Prod.fst := by
    intro entries
    induction entries with
    | nil => simp
    | cons entry rest ih =>
      intro found
      rw [List.lookup_cons] at found
      split at found
      · simp_all
      · exact List.mem_cons_of_mem _ (ih found)
  exact search map.entries found

theorem exists_get?_of_mem_names {map : NameMap α} {name : String}
    (listed : name ∈ map.names) : ∃ value, map.get? name = some value := by
  obtain ⟨⟨key, value⟩, member, rfl⟩ := List.mem_map.1 listed
  refine Option.ne_none_iff_exists'.1 fun absent => ?_
  have different := List.lookup_eq_none_iff.1 absent (key, value) member
  simp at different

theorem lookup_insertEntry (name key : String) (value : α) :
    (entries : List (String × α)) →
      (insertEntry key value entries).lookup name =
        if name = key then some value else entries.lookup name
  | [] => by
    by_cases same : name = key
    · simp [insertEntry, same]
    · simp [insertEntry, same, beq_false_of_ne same, List.lookup_cons]
  | (other, old) :: rest => by
    have inner := lookup_insertEntry name key value rest
    rw [insertEntry]
    by_cases same : name = key
    · subst same
      rw [if_pos rfl] at inner ⊢
      by_cases below : name < other
      · simp [below]
      · by_cases equal : name = other
        · simp [equal]
        · simp [below, equal, beq_false_of_ne equal, List.lookup_cons, inner]
    · rw [if_neg same] at inner ⊢
      by_cases below : key < other
      · simp [below, beq_false_of_ne same, List.lookup_cons]
      · by_cases equal : key = other
        · subst equal
          rw [if_neg below, if_pos rfl]
          simp [beq_false_of_ne same, List.lookup_cons]
        · simp [below, equal, List.lookup_cons, inner]

@[simp]
theorem get?_insert (map : NameMap α) (name key : String) (value : α) :
    (map.insert key value).get? name =
      if name = key then some value else map.get? name :=
  lookup_insertEntry name key value map.entries

theorem mem_values_of_get? {map : NameMap α} {name : String} {value : α}
    (found : map.get? name = some value) : value ∈ map.values := by
  obtain ⟨before, after, split, _⟩ := List.lookup_eq_some_iff.1 found
  exact List.mem_map.2 ⟨(name, value), by simp [split], rfl⟩

theorem lookup_eq_none_of_lt {key : String} {entries : List (String × α)}
    (below : ∀ entry ∈ entries, key < entry.1) : entries.lookup key = none := by
  refine List.lookup_eq_none_iff.2 fun entry member => ?_
  refine bne_iff_ne.2 fun same => ?_
  have less := below entry member
  rw [same] at less
  exact String.lt_irrefl _ less

/-- Setting a value counts it in, and leaves out the one it replaces. -/
theorem countP_insertEntry (holds : α → Bool) (key : String) (value : α) :
    (entries : List (String × α)) → Ascending entries →
      (insertEntry key value entries).countP (fun entry => holds entry.2) +
          (entries.lookup key).elim 0 (fun old => (holds old).toNat) =
        entries.countP (fun entry => holds entry.2) + (holds value).toNat
  | [], _ => by cases held : holds value <;> simp [insertEntry, held]
  | (other, old) :: rest, ascending => by
    have later := List.pairwise_cons.1 ascending
    have inner := countP_insertEntry holds key value rest later.2
    have counted (value : α) :
        (if holds value = true then 1 else 0) = (holds value).toNat := by
      cases holds value <;> rfl
    rw [insertEntry]
    by_cases below : key < other
    · have absent : ((other, old) :: rest).lookup key = none := by
        refine lookup_eq_none_of_lt fun entry member => ?_
        rcases List.mem_cons.1 member with here | further
        · exact here ▸ below
        · exact String.lt_trans below (later.1 entry further)
      rw [if_pos below, absent, List.countP_cons, counted]
      rfl
    · by_cases same : key = other
      · subst same
        rw [if_neg below, if_pos rfl, List.countP_cons, List.countP_cons,
          counted, counted, List.lookup_cons_self, Option.elim_some]
        exact Nat.add_right_comm _ _ _
      · rw [if_neg below, if_neg same, List.countP_cons, List.countP_cons,
          counted, List.lookup_cons, beq_false_of_ne same]
        dsimp only
        omega

/-- The values under a property, after the value of a name was set. -/
theorem countP_values_insert (holds : α → Bool) (map : NameMap α)
    (name : String) (value : α) :
    (map.insert name value).values.countP holds +
        (map.get? name).elim 0 (fun old => (holds old).toNat) =
      map.values.countP holds + (holds value).toNat := by
  unfold values
  rw [List.countP_map, List.countP_map]
  exact countP_insertEntry holds name value map.entries map.ascending

theorem size_eq_countP (map : NameMap α) :
    map.size = map.values.countP fun _ => true := by
  simp [size, values]

/-- Setting the value of a name that a map lacks makes it larger by one. -/
theorem size_insert_of_get?_eq_none {map : NameMap α} {name : String}
    (absent : map.get? name = none) (value : α) :
    (map.insert name value).size = map.size + 1 := by
  have counted := countP_values_insert (fun _ => true) map name value
  rw [absent] at counted
  rw [size_eq_countP, size_eq_countP]
  exact counted

@[simp]
theorem get?_empty (name : String) : (empty : NameMap α).get? name = none :=
  rfl

theorem insertEntry_of_forall_lt {key : String} (value : α)
    {entries : List (String × α)} (above : ∀ entry ∈ entries, entry.1 < key) :
    insertEntry key value entries = entries ++ [(key, value)] := by
  induction entries with
  | nil => rfl
  | cons entry more ih =>
    obtain ⟨below, moreBelow⟩ := List.forall_mem_cons.mp above
    have differs : key ≠ entry.1 := fun same =>
      String.lt_irrefl key (same ▸ below)
    rw [insertEntry, if_neg (String.lt_asymm below), if_neg differs,
      ih moreBelow, List.cons_append]

/-- The entries of a map make up the map. -/
theorem ofList_entries (map : NameMap α) : ofList map.entries = map := by
  have folded (more : List (String × α)) (earlier : NameMap α)
      (ascending : Ascending (earlier.entries ++ more)) :
      more.foldl (fun map (name, value) => map.insert name value) earlier =
        ⟨earlier.entries ++ more, ascending⟩ := by
    induction more generalizing earlier with
    | nil => simp
    | cons entry more ih =>
      have above : ∀ old ∈ earlier.entries, old.1 < entry.1 := fun old among =>
        (List.pairwise_append.mp ascending).2.2 old among entry
          List.mem_cons_self
      have inserted : (earlier.insert entry.1 entry.2).entries =
          earlier.entries ++ [entry] :=
        insertEntry_of_forall_lt entry.2 above
      rw [List.append_cons, ← inserted] at ascending
      rw [List.foldl_cons, ih _ ascending]
      simp [inserted]
  exact folded map.entries empty map.ascending

theorem nodup_names (map : NameMap α) : map.names.Nodup := by
  refine List.pairwise_map.mpr (map.ascending.imp ?_)
  intro first second below same
  exact String.lt_irrefl _ (same ▸ below)

end NameMap

end TypeAtlas
