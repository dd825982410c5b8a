import Mathlib.Data.List.Induction
import Mathlib.Data.List.Nodup
import TypeAtlas.Bean.Accessor

/-!
# Merging what members say

Adding mentions to a list of properties, one after the other, makes one property
of each name.  It comes to what the readable and the writable mentions of its
name come to: the type is that of the first readable one, or else that of the
first writable one, which also gives the setter.
-/

namespace TypeAtlas

namespace Bean

/-- Whether a draft is what some member says: that it reads or writes. -/
structure Draft.IsMention (mention : Draft) : Prop where
  reads_or_writes : mention.readable = true ∨ mention.writable = true
  setter : mention.writable = false → mention.setter? = none

def named? (name : String) (properties : List Draft) : Option Draft :=
  properties.find? fun property => property.name == name

/-- The mentions of a name that pass a test: those that read it, or write it. -/
def relevant (test : Draft → Bool) (name : String) (mentions : List Draft) :
    List Draft :=
  mentions.filter fun mention => mention.name == name && test mention

/-- What the mentions of a name come to, those that read it before others. -/
def summary? (name : String) (readers writers : List Draft) : Option Draft :=
  (readers ++ writers).head?.map fun first =>
    { name
      type := first.type
      readable := !readers.isEmpty
      writable := !writers.isEmpty
      setter? := writers.head?.bind Draft.setter? }

variable {properties mentions : List Draft} {mention : Draft} {name : String}

theorem named?_addMention (properties : List Draft) (mention : Draft)
    (name : String) :
    named? name (addMention properties mention) =
      if mention.name = name then
        some ((named? name properties).elim mention (·.merge mention))
      else named? name properties := by
  unfold named?
  induction properties with
  | nil =>
    by_cases same : mention.name = name <;> simp [addMention, same]
  | cons property rest ih =>
    by_cases merges : property.name = mention.name
    · by_cases same : mention.name = name
      · simp [addMention, merges, same, Draft.merge]
      · simp [addMention, merges, same, Draft.merge]
    · by_cases here : property.name = name
      · have other : mention.name ≠ name := fun same =>
          merges (here.trans same.symm)
        simp [addMention, here, other, other.symm]
      · simp [addMention, merges, here, ih]

theorem names_addMention (properties : List Draft) (mention : Draft) :
    (addMention properties mention).map Draft.name =
      if mention.name ∈ properties.map Draft.name then
        properties.map Draft.name
      else properties.map Draft.name ++ [mention.name] := by
  induction properties with
  | nil => simp [addMention]
  | cons property rest ih =>
    by_cases merges : property.name = mention.name
    · simp [addMention, merges, Draft.merge]
    · simp only [addMention, beq_iff_eq, merges, if_false, List.map_cons, ih,
        List.mem_cons, Ne.symm merges, false_or]
      split <;> simp

theorem relevant_append (test : Draft → Bool) (name : String)
    (mentions : List Draft) (mention : Draft) :
    relevant test name (mentions ++ [mention]) = relevant test name mentions ++
      if mention.name = name ∧ test mention = true then [mention] else [] := by
  simp [relevant, List.filter_append, List.filter_cons]

theorem summary?_append (isMention : mention.IsMention)
    (readers writers : List Draft) :
    summary? mention.name
        (readers ++ if mention.readable = true then [mention] else [])
        (writers ++ if mention.writable = true then [mention] else []) =
      some ((summary? mention.name readers writers).elim mention
        (·.merge mention)) := by
  obtain ⟨name, type, readable, writable, setter?⟩ := mention
  obtain ⟨said, unset⟩ := isMention
  cases readers with
  | nil =>
    cases writers with
    | nil =>
      cases readable <;> cases writable <;>
        simp_all [summary?, Draft.merge]
    | cons writer writers =>
      cases readable <;> simp_all [summary?, Draft.merge]
  | cons reader readers =>
    cases writers with
    | nil => cases writable <;> simp_all [summary?, Draft.merge]
    | cons writer writers => simp [summary?, Draft.merge]

/-- A property comes to what the mentions of its name do. -/
theorem named?_foldl_addMention
    (areMentions : ∀ mention ∈ mentions, mention.IsMention) (name : String) :
    named? name (mentions.foldl addMention []) =
      summary? name (relevant Draft.readable name mentions)
        (relevant Draft.writable name mentions) := by
  induction mentions using List.reverseRecOn with
  | nil => rfl
  | append_singleton mentions mention ih =>
    have before := ih fun other member =>
      areMentions other (List.mem_append_left _ member)
    rw [List.foldl_append, List.foldl_cons, List.foldl_nil,
      named?_addMention, relevant_append, relevant_append, before]
    by_cases same : mention.name = name
    · subst same
      have isMention := areMentions mention
        (List.mem_append_right _ List.mem_cons_self)
      simp only [if_true, true_and]
      exact (summary?_append isMention _ _).symm
    · simp [same]

theorem named?_eq_some_iff (nodup : (properties.map Draft.name).Nodup)
    {property : Draft} :
    named? name properties = some property ↔
      property ∈ properties ∧ property.name = name := by
  unfold named?
  induction properties with
  | nil => simp
  | cons first rest ih =>
    obtain ⟨new, nodup⟩ := List.nodup_cons.1 nodup
    by_cases here : first.name = name
    · have absent : property ∈ rest → property.name ≠ name := by
        rintro member rfl
        exact new (here ▸ List.mem_map_of_mem member)
      grind
    · simp only [List.find?_cons, beq_false_of_ne here, ih nodup]
      grind

/-- Properties of different names are told by what they are under each name. -/
theorem perm_of_named?_eq {others : List Draft}
    (nodup : (properties.map Draft.name).Nodup)
    (nodupOthers : (others.map Draft.name).Nodup)
    (same : ∀ name, named? name properties = named? name others) :
    properties.Perm others := by
  refine (List.perm_ext_iff_of_nodup (List.Nodup.of_map _ nodup)
    (List.Nodup.of_map _ nodupOthers)).2 fun property => ?_
  have here := @named?_eq_some_iff properties property.name nodup property
  have there := @named?_eq_some_iff others property.name nodupOthers property
  rw [same, there] at here
  simpa using here.symm

theorem summary?_eq_some {readers writers : List Draft} {property : Draft}
    (summed : summary? name readers writers = some property) :
    (readers ++ writers).head?.map Draft.type = some property.type ∧
      property.writable = !writers.isEmpty ∧
        property.setter? = writers.head?.bind Draft.setter? := by
  obtain ⟨first, found, rfl⟩ := Option.map_eq_some_iff.1 summed
  exact ⟨by rw [found, Option.map_some], rfl, rfl⟩

/-! ### The order of properties -/

variable {Item : Type} {tells : Item → String → Prop} {items : List Item}
  {names : List String}

/-- Whether a list tells one name before it tells another. -/
def TellsBefore (tells : Item → String → Prop) (items : List Item)
    (first second : String) : Prop :=
  ∃ before after, items = before ++ after ∧
    (∃ item ∈ before, tells item first) ∧ ∀ item ∈ before, ¬ tells item second

/-- Whether names are all that a list tells, in the order of first mention. -/
structure AreToldBy (tells : Item → String → Prop) (items : List Item)
    (names : List String) : Prop where
  nodup : names.Nodup
  mem_iff : ∀ name, name ∈ names ↔ ∃ item ∈ items, tells item name
  ordered : names.Pairwise (TellsBefore tells items)

theorem TellsBefore.append {first second : String}
    (tellsBefore : TellsBefore tells items first second) (more : List Item) :
    TellsBefore tells (items ++ more) first second := by
  obtain ⟨before, after, rfl, told, untold⟩ := tellsBefore
  exact ⟨before, after ++ more, List.append_assoc .., told, untold⟩

theorem AreToldBy.append (areTold : AreToldBy tells items names) {last : Item}
    (sole : ∀ other, tells last other ↔ other = name) :
    AreToldBy tells (items ++ [last])
      (if name ∈ names then names else names ++ [name]) := by
  have told (other : String) :
      (∃ item ∈ items ++ [last], tells item other) ↔
        other ∈ names ∨ other = name := by
    simp only [List.mem_append, List.mem_singleton, or_and_right, exists_or,
      exists_eq_left, areTold.mem_iff, sole]
  have ordered := areTold.ordered.imp
    fun {first second} before => TellsBefore.append before [last]
  by_cases old : name ∈ names
  · rw [if_pos old]
    refine ⟨areTold.nodup, fun other => ?_, ordered⟩
    rw [told]
    exact ⟨.inl, fun either => either.elim id fun same => same ▸ old⟩
  · rw [if_neg old]
    refine ⟨?nodup, ?mem, ?order⟩
    case nodup =>
      refine List.nodup_append.2 ⟨areTold.nodup, by simp, ?_⟩
      rintro other member _ here rfl
      exact old (List.mem_singleton.1 here ▸ member)
    case mem =>
      intro other
      rw [told, List.mem_append, List.mem_singleton]
    case order =>
      refine List.pairwise_append.2 ⟨ordered, List.pairwise_singleton _ _, ?_⟩
      intro first member second new
      obtain rfl := List.mem_singleton.1 new
      refine ⟨items, [last], rfl, (areTold.mem_iff first).1 member, ?_⟩
      intro item among tellsIt
      exact old ((areTold.mem_iff second).2 ⟨item, among, tellsIt⟩)

/-- What is found for items, and tells names, makes the items tell them. -/
theorem AreToldBy.of_filterMap {Found : Type} {find : Item → Option Found}
    {tells : Found → String → Prop}
    (areTold : AreToldBy tells (items.filterMap find) names) :
    AreToldBy (fun item name => ∃ found, find item = some found ∧
      tells found name) items names where
  nodup := areTold.nodup
  mem_iff name := by
    simp only [areTold.mem_iff, List.mem_filterMap]
    constructor
    · rintro ⟨found, ⟨item, member, given⟩, told⟩
      exact ⟨item, member, found, given, told⟩
    · rintro ⟨item, member, found, given, told⟩
      exact ⟨found, ⟨item, member, given⟩, told⟩
  ordered := by
    refine areTold.ordered.imp ?_
    rintro first second ⟨before, after, split, ⟨found, among, told⟩, untold⟩
    obtain ⟨front, back, rfl, rfl, -⟩ := List.filterMap_eq_append_iff.1 split
    obtain ⟨item, member, given⟩ := List.mem_filterMap.1 among
    refine ⟨front, back, rfl, ⟨item, member, found, given, told⟩, ?_⟩
    rintro other within ⟨found, given, told⟩
    exact untold found (List.mem_filterMap.2 ⟨other, within, given⟩) told

/-- Properties stand in the order in which their names are first mentioned. -/
theorem areToldBy_foldl_addMention (mentions : List Draft) :
    AreToldBy (fun mention name => name = mention.name) mentions
      ((mentions.foldl addMention []).map Draft.name) := by
  induction mentions using List.reverseRecOn with
  | nil => exact ⟨List.nodup_nil, by simp, List.Pairwise.nil⟩
  | append_singleton mentions mention ih =>
    rw [List.foldl_append, List.foldl_cons, List.foldl_nil,
      names_addMention]
    exact ih.append fun _ => Iff.rfl

end Bean

end TypeAtlas
