import Mathlib.Data.Nat.Find
import Mathlib.Logic.Relation
import Mathlib.Order.Nat
import TypeAtlas.Proofs.Facts.Hierarchy

/-!
# Ancestors, near ones first

Supertypes lead from the facts of a type to its ancestors, each of which is as
far away as the least number of steps that lead to it.  The queue of the walk
over supertypes holds types that are equally far away and, behind them, types
that are one step farther.  So the walk meets near ancestors first, each once,
even where types list each other in circles or are not known.

The facts of a type stand for its name: where supertypes lead back to it, the
walk does not go on from what the provider has under that name.
-/

namespace TypeAtlas

namespace Provider

/-- Whether so many supertype steps lead from the facts of a type to a type.
The facts give the first step.  All others leave known types that may be
passed. -/
inductive Climbs (provider : Provider) (passes : TypeName → Prop)
    (facts : TypeFacts) : Nat → TypeName → Prop where
  | here : Climbs provider passes facts 0 facts.name
  | listed {name : TypeName} (listed : name ∈ facts.supertypes) :
    Climbs provider passes facts 1 name
  | above {steps : Nat} {sub sup : TypeName}
    (climbs : Climbs provider passes facts (steps + 1) sub)
    (passed : passes sub) (above : provider.HasSupertype sub sup) :
    Climbs provider passes facts (steps + 2) sup

/-- Whether so many steps lead to a type without passing the type itself. -/
abbrev ClimbsAway (provider : Provider) (facts : TypeFacts) :
    Nat → TypeName → Prop :=
  provider.Climbs (· ≠ facts.name) facts

/-- Whether the least number of steps to one type is that to another or less. -/
def NoFarther (climbs : Nat → TypeName → Prop) (near far : TypeName) : Prop :=
  ∀ fewer more, IsLeast {steps | climbs steps near} fewer →
    IsLeast {steps | climbs steps far} more → fewer ≤ more

/-- Whether names are all that steps lead to from a type, apart from the type
itself, each once and in the order of the least number of steps. -/
structure IsNearestFirst (climbs : Nat → TypeName → Prop) (start : TypeName)
    (names : List TypeName) : Prop where
  nodup : names.Nodup
  mem_iff : ∀ name,
    name ∈ names ↔ name ≠ start ∧ ∃ steps, climbs (steps + 1) name
  ordered : names.Pairwise (NoFarther climbs)

/-- Whether the queue of a walk is at a level: the types in front are so many
steps away, those behind them one more, and all that is nearer was seen. -/
structure IsLevel (provider : Provider) (facts : TypeFacts) (level : Nat)
    (seen near far : List TypeName) : Prop where
  own : facts.name ∈ seen
  near_climbs : ∀ name ∈ near, provider.ClimbsAway facts (level + 1) name
  far_climbs : ∀ name ∈ far, provider.ClimbsAway facts (level + 2) name
  nearer : ∀ steps ≤ level, ∀ name,
    provider.ClimbsAway facts steps name → name ∈ seen
  reached : ∀ name, provider.ClimbsAway facts (level + 1) name →
    name ∈ seen ∨ name ∈ near
  closed : ∀ sub ∈ seen, sub ≠ facts.name → ∀ sup,
    provider.HasSupertype sub sup → sup ∈ seen ∨ sup ∈ near ∨ sup ∈ far

/-- Whether names are met in the order of the steps that lead to them. -/
structure IsUphill (provider : Provider) (facts : TypeFacts)
    (names : List TypeName) : Prop where
  climbs : ∀ name ∈ names,
    ∃ steps, provider.ClimbsAway facts (steps + 1) name
  ordered : names.Pairwise (NoFarther (provider.ClimbsAway facts))

variable {provider : Provider} {facts own : TypeFacts}
  {passes : TypeName → Prop} {level steps : Nat} {name sub mid sup : TypeName}
  {seen near far queue : List TypeName}

theorem isLevel_start (provider : Provider) (facts : TypeFacts) :
    IsLevel provider facts 0 [facts.name] facts.supertypes [] where
  own := List.mem_singleton_self _
  near_climbs _ listed := .listed listed
  far_climbs _ none := nomatch none
  nearer := by
    intro steps none name climbs
    cases climbs with
    | here => exact List.mem_singleton_self _
    | listed => omega
    | above => omega
  reached := by
    intro name climbs
    cases climbs with
    | listed listed => exact .inr listed
  closed := by
    intro sub member different
    simp_all

namespace IsLevel

theorem next (isLevel : IsLevel provider facts level seen [] far) :
    IsLevel provider facts (level + 1) seen far [] where
  own := isLevel.own
  near_climbs := isLevel.far_climbs
  far_climbs _ none := nomatch none
  nearer := by
    intro steps bound name climbs
    by_cases last : steps = level + 1
    · subst last
      simpa using isLevel.reached name climbs
    · exact isLevel.nearer steps (by omega) name climbs
  reached := by
    intro name climbs
    cases climbs with
    | above climbs passed above =>
      have met := isLevel.reached _ climbs
      simp only [List.not_mem_nil, or_false] at met
      simpa using isLevel.closed _ met passed name above
  closed := by
    intro sub member different sup above
    simpa using isLevel.closed sub member different sup above

theorem skip (isLevel : IsLevel provider facts level seen (name :: near) far)
    (old : name ∈ seen) : IsLevel provider facts level seen near far where
  own := isLevel.own
  near_climbs other member :=
    isLevel.near_climbs other (List.mem_cons_of_mem _ member)
  far_climbs := isLevel.far_climbs
  nearer := isLevel.nearer
  reached := by
    intro other climbs
    rcases isLevel.reached other climbs with before | queued
    · exact .inl before
    · rcases List.mem_cons.1 queued with rfl | later
      · exact .inl old
      · exact .inr later
  closed := by
    intro sub member different sup above
    rcases isLevel.closed sub member different sup above with
      before | queued | behind
    · exact .inl before
    · rcases List.mem_cons.1 queued with rfl | later
      · exact .inl old
      · exact .inr (.inl later)
    · exact .inr (.inr behind)

/-- A type that is new is met, and what stands above it goes to the end. -/
theorem meet (isLevel : IsLevel provider facts level seen (name :: near) far)
    (new : name ∉ seen) {above : List TypeName}
    (lists : ∀ sup, sup ∈ above ↔ provider.HasSupertype name sup) :
    IsLevel provider facts level (name :: seen) near (far ++ above) where
  own := List.mem_cons_of_mem _ isLevel.own
  near_climbs other member :=
    isLevel.near_climbs other (List.mem_cons_of_mem _ member)
  far_climbs := by
    intro other member
    rcases List.mem_append.1 member with behind | listed
    · exact isLevel.far_climbs other behind
    · have climbs := isLevel.near_climbs name List.mem_cons_self
      have different : name ≠ facts.name := by
        rintro rfl
        exact new isLevel.own
      exact .above climbs different ((lists other).1 listed)
  nearer steps bound other climbs :=
    List.mem_cons_of_mem _ (isLevel.nearer steps bound other climbs)
  reached := by
    intro other climbs
    have met := isLevel.reached other climbs
    simp only [List.mem_cons] at met ⊢
    grind
  closed := by
    intro sub member different sup listed
    rcases List.mem_cons.1 member with rfl | before
    · exact .inr (.inr (List.mem_append_right _ ((lists sup).2 listed)))
    · have met := isLevel.closed sub before different sup listed
      simp only [List.mem_cons, List.mem_append] at met ⊢
      grind

/-- The head of a queue belongs to the level that the queue is at. -/
theorem exists_front (isLevel : IsLevel provider facts level seen near far)
    {rest : List TypeName} (split : near ++ far = name :: rest) :
    ∃ level near far, rest = near ++ far ∧
      IsLevel provider facts level seen (name :: near) far := by
  cases near with
  | nil =>
    obtain rfl : far = name :: rest := split
    exact ⟨level + 1, rest, [], (List.append_nil _).symm, isLevel.next⟩
  | cons first near =>
    obtain ⟨rfl, rfl⟩ := List.cons.inj split
    exact ⟨level, near, far, rfl, isLevel⟩

/-- Of what was not seen, nothing is nearer than a type of the level. -/
theorem noFarther (isLevel : IsLevel provider facts level seen near far)
    (member : name ∈ near) {other : TypeName} (new : other ∉ seen) :
    NoFarther (provider.ClimbsAway facts) name other := by
  intro fewer more least leastOther
  have here : fewer ≤ level + 1 := least.2 (isLevel.near_climbs name member)
  have there : ¬ more ≤ level := fun nearer =>
    new (isLevel.nearer more nearer other leastOther.1)
  omega

theorem isUphill_cons
    (isLevel : IsLevel provider facts level seen (name :: near) far)
    {later : List TypeName} (uphill : provider.IsUphill facts later)
    (unseen : ∀ other ∈ later, other ∉ name :: seen) :
    provider.IsUphill facts (name :: later) := by
  constructor
  · intro other member
    rcases List.mem_cons.1 member with rfl | behind
    · exact ⟨level, isLevel.near_climbs other List.mem_cons_self⟩
    · exact uphill.climbs other behind
  · refine List.pairwise_cons.2 ⟨fun other member => ?_, uphill.ordered⟩
    apply isLevel.noFarther List.mem_cons_self
    intro before
    exact unseen other member (List.mem_cons_of_mem _ before)

end IsLevel

/-- A walk meets only what steps lead to, and in the order of their number. -/
theorem walk_isUphill (isLevel : IsLevel provider facts level seen near far)
    (split : near ++ far = queue) :
    provider.IsUphill facts (provider.walk seen queue) := by
  fun_induction walk provider seen queue generalizing level near far with
  | case1 seen =>
    exact ⟨by simp, List.Pairwise.nil⟩
  | case2 seen here rest old ih =>
    obtain ⟨level, near, far, rfl, front⟩ := isLevel.exists_front split
    exact ih (front.skip old) rfl
  | case3 seen here rest new found known ih =>
    obtain ⟨level, near, far, rfl, front⟩ := isLevel.exists_front split
    have lists (sup : TypeName) :
        sup ∈ found.supertypes ↔ provider.HasSupertype here sup := by
      simp [HasSupertype, known]
    have uphill := ih (front.meet new lists) (List.append_assoc ..).symm
    exact front.isUphill_cons uphill fun _ member =>
      (exists_of_mem_walk member).1
  | case4 seen here rest new unknown ih =>
    obtain ⟨level, near, far, rfl, front⟩ := isLevel.exists_front split
    have lists (sup : TypeName) :
        sup ∈ [] ↔ provider.HasSupertype here sup := by
      simp [HasSupertype, unknown]
    have uphill := ih (front.meet new lists) (by rw [List.append_nil])
    exact front.isUphill_cons uphill fun _ member =>
      (exists_of_mem_walk member).1

theorem ancestors_isUphill (provider : Provider) (facts : TypeFacts) :
    provider.IsUphill facts (provider.ancestors facts) :=
  walk_isUphill (isLevel_start provider facts) (List.append_nil _)

/-- A walk gets to all that steps lead to without passing the type itself. -/
theorem mem_ancestors_of_climbsAway
    (climbs : provider.ClimbsAway facts steps name)
    (different : name ≠ facts.name) : name ∈ provider.ancestors facts := by
  unfold ancestors
  induction climbs with
  | here => exact (different rfl).elim
  | listed listed =>
    have met := @mem_walk_of_queued provider _ [facts.name] _ listed
    simpa [different] using met
  | above climbs passed above ih =>
    have met := mem_walk_of_hasSupertype (ih passed) above
    simpa [different] using met

theorem isNearestFirst_ancestors (provider : Provider) (facts : TypeFacts) :
    IsNearestFirst (provider.ClimbsAway facts) facts.name
      (provider.ancestors facts) where
  nodup := nodup_walk _ _ _
  mem_iff := by
    intro name
    constructor
    · intro member
      have new := (exists_of_mem_walk member).1
      exact ⟨by simpa using new,
        (ancestors_isUphill provider facts).climbs name member⟩
    · rintro ⟨different, steps, climbs⟩
      exact mem_ancestors_of_climbsAway climbs different
  ordered := (ancestors_isUphill provider facts).ordered

/-! ### Facts that tell all of their type -/

/-- Whether facts list all supertypes that are known of the type they name. -/
def TellsAll (provider : Provider) (facts : TypeFacts) : Prop :=
  ∀ own, provider.known? facts.name = some own →
    own.supertypes ⊆ facts.supertypes

theorem tellsAll_of_known? (known : provider.known? name = some facts) :
    provider.TellsAll facts := by
  intro own found
  rw [name_eq_of_known? known, known] at found
  cases found
  exact List.Subset.refl _

theorem ClimbsAway.climbs (climbs : provider.ClimbsAway facts steps name) :
    provider.Climbs (fun _ => True) facts steps name := by
  induction climbs with
  | here => exact .here
  | listed listed => exact .listed listed
  | above _ _ above ih => exact .above ih trivial above

/-- The steps that lead back to the type itself can be saved. -/
theorem Climbs.exists_climbsAway (tellsAll : provider.TellsAll facts)
    (climbs : provider.Climbs passes facts steps name) :
    ∃ fewer ≤ steps, provider.ClimbsAway facts fewer name := by
  induction climbs with
  | here => exact ⟨0, Nat.le_refl 0, .here⟩
  | listed listed => exact ⟨1, Nat.le_refl 1, .listed listed⟩
  | @above steps sub sup climbs passed above ih =>
    by_cases back : sub = facts.name
    · obtain ⟨own, known, listed⟩ := above
      rw [back] at known
      exact ⟨1, by omega, .listed (tellsAll own known listed)⟩
    · obtain ⟨fewer, bound, away⟩ := ih
      cases fewer with
      | zero =>
        cases away
        exact (back rfl).elim
      | succ fewer => exact ⟨fewer + 2, by omega, .above away back above⟩

theorem isLeast_climbsAway (tellsAll : provider.TellsAll facts)
    (least : IsLeast
      {steps | provider.Climbs (fun _ => True) facts steps name} steps) :
    IsLeast {steps | provider.ClimbsAway facts steps name} steps := by
  obtain ⟨fewer, bound, away⟩ := least.1.exists_climbsAway tellsAll
  have same : fewer = steps :=
    Nat.le_antisymm bound (least.2 (ClimbsAway.climbs away))
  subst same
  exact ⟨away, fun other climbs => least.2 (ClimbsAway.climbs climbs)⟩

/-- Where facts tell all of a type, steps may pass the type itself as well. -/
theorem IsNearestFirst.of_tellsAll {names : List TypeName}
    (tellsAll : provider.TellsAll facts)
    (nearestFirst : IsNearestFirst (provider.ClimbsAway facts) facts.name
      names) :
    IsNearestFirst (provider.Climbs (fun _ => True) facts) facts.name
      names where
  nodup := nearestFirst.nodup
  mem_iff := by
    intro name
    rw [nearestFirst.mem_iff]
    refine and_congr_right fun different => ⟨?_, ?_⟩
    · rintro ⟨steps, climbs⟩
      exact ⟨steps, ClimbsAway.climbs climbs⟩
    · rintro ⟨steps, climbs⟩
      obtain ⟨fewer, -, away⟩ := climbs.exists_climbsAway tellsAll
      cases fewer with
      | zero =>
        cases away
        exact (different rfl).elim
      | succ fewer => exact ⟨fewer, away⟩
  ordered := by
    refine nearestFirst.ordered.imp ?_
    intro near far noFarther fewer more least leastOther
    exact noFarther fewer more (isLeast_climbsAway tellsAll least)
      (isLeast_climbsAway tellsAll leastOther)

theorem Climbs.exists_isLeast
    (climbs : provider.Climbs passes facts steps name) :
    ∃ fewest, IsLeast {steps | provider.Climbs passes facts steps name}
      fewest := by
  classical
  exact ⟨_, Nat.isLeast_find ⟨steps, climbs⟩⟩

theorem noFarther_self (provider : Provider) (passes : TypeName → Prop)
    (facts : TypeFacts) (name : TypeName) :
    NoFarther (provider.Climbs passes facts) facts.name name := by
  intro fewer more least _
  have none : fewer ≤ 0 := least.2 .here
  omega

theorem pairwise_cons_ancestors (tellsAll : provider.TellsAll facts) :
    (facts.name :: provider.ancestors facts).Pairwise
      (NoFarther (provider.Climbs (fun _ => True) facts)) := by
  have nearestFirst :=
    (isNearestFirst_ancestors provider facts).of_tellsAll tellsAll
  exact List.pairwise_cons.2
    ⟨fun name _ => noFarther_self provider _ facts name, nearestFirst.ordered⟩

theorem mem_cons_ancestors_iff_climbs (tellsAll : provider.TellsAll facts) :
    name ∈ facts.name :: provider.ancestors facts ↔
      ∃ steps, provider.Climbs (fun _ => True) facts steps name := by
  have nearestFirst :=
    (isNearestFirst_ancestors provider facts).of_tellsAll tellsAll
  rw [List.mem_cons, nearestFirst.mem_iff]
  constructor
  · rintro (rfl | ⟨-, steps, climbs⟩)
    · exact ⟨0, .here⟩
    · exact ⟨steps + 1, climbs⟩
  · rintro ⟨steps, climbs⟩
    by_cases same : name = facts.name
    · exact .inl same
    cases steps with
    | zero =>
      cases climbs
      exact (same rfl).elim
    | succ steps => exact .inr ⟨same, steps, climbs⟩

/-- The ancestors of a type are all that supertypes lead to without passing the
type itself, each once and in the order of the least number of steps.  Steps may
pass the type as well if its facts list all supertypes that are known of it. -/
theorem ancestors_nearestFirst (provider : Provider) (facts : TypeFacts) :
    IsNearestFirst (provider.ClimbsAway facts) facts.name
        (provider.ancestors facts) ∧
      (provider.TellsAll facts →
        IsNearestFirst (provider.Climbs (fun _ => True) facts) facts.name
          (provider.ancestors facts)) :=
  ⟨isNearestFirst_ancestors provider facts,
    fun tellsAll => (isNearestFirst_ancestors provider facts).of_tellsAll
      tellsAll⟩

/-- Quadrangles, with a circle, and shapes above them that are not known. -/
def quadrangles : Provider :=
  ofTable <| FactsTable.empty.insertAll [
    { name := "Square", supertypes := ["Rhombus", "Rectangle"] },
    { name := "Rhombus", supertypes := ["Quadrangle"] },
    { name := "Rectangle", supertypes := ["Quadrangle", "Square"] },
    { name := "Quadrangle", supertypes := ["Shape", "Rhombus"] }]

theorem ancestors_nearestFirst_of_quadrangles :
    ∃ square, quadrangles.known? "Square" = some square ∧
      quadrangles.ancestors square =
        ["Rhombus", "Rectangle", "Quadrangle", "Shape"] ∧
      quadrangles.TellsAll square ∧
        IsNearestFirst (quadrangles.Climbs (fun _ => True) square) "Square"
          (quadrangles.ancestors square) := by
  have known : quadrangles.known? "Square" =
      some { name := "Square", supertypes := ["Rhombus", "Rectangle"] } :=
    rfl
  refine ⟨_, known, by decide +kernel, tellsAll_of_known? known, ?_⟩
  exact (ancestors_nearestFirst quadrangles _).2 (tellsAll_of_known? known)

/-- A provider that has other facts under the name of the circle below. -/
def conics : Provider :=
  ofTable <| FactsTable.empty.insertAll [
    { name := "Ellipse", supertypes := ["Circle"] },
    { name := "Circle", supertypes := ["Conic"] },
    { name := "Conic" }]

/-- Facts of a circle that are not those of the provider. -/
def circle : TypeFacts :=
  { name := "Circle", supertypes := ["Ellipse"] }

/-- Known types lead from an ellipse to a circle and on to a conic.  The walk
that starts from other facts of the circle ends at the ellipse. -/
theorem not_ancestors_nearestFirst_of_circle :
    ¬ IsNearestFirst (conics.Climbs (fun _ => True) circle) "Circle"
      (conics.ancestors circle) := by
  intro nearestFirst
  have ellipse : conics.HasSupertype "Ellipse" "Circle" :=
    ⟨{ name := "Ellipse", supertypes := ["Circle"] }, rfl, by decide⟩
  have other : conics.HasSupertype "Circle" "Conic" :=
    ⟨{ name := "Circle", supertypes := ["Conic"] }, rfl, by decide⟩
  have climbs : conics.Climbs (fun _ => True) circle 3 "Conic" :=
    .above (.above (.listed (by decide)) trivial ellipse) trivial other
  have listed := (nearestFirst.mem_iff "Conic").2 ⟨by decide, 2, climbs⟩
  have ends : conics.ancestors circle = ["Ellipse"] := by
    decide +kernel
  rw [ends] at listed
  simp at listed

/-! ### Subtypes -/

/-- A known type and its ancestors are all types that it descends from. -/
theorem mem_cons_ancestors_iff (known : provider.known? sub = some facts) :
    sup ∈ sub :: provider.ancestors facts ↔ provider.DescendsFrom sub sup := by
  rw [List.mem_cons, mem_ancestors_iff known]
  by_cases same : sup = sub
  · subst same
    simp [DescendsFrom, Relation.ReflTransGen.refl]
  · simp [same]

/-- Being a subtype is a preorder, whether or not types are known and supertypes
go in circles.  So what is above a known type is above all its known
subtypes. -/
theorem isSubtype_preorder (provider : Provider) :
    (∀ name, provider.isSubtype name name = true) ∧
      (∀ sub mid sup, provider.isSubtype sub mid = true →
        provider.isSubtype mid sup = true →
          provider.isSubtype sub sup = true) ∧
      ∀ sub facts mid above, provider.known? sub = some facts →
        provider.known? mid = some above →
          provider.isSubtype sub mid = true →
            mid :: provider.ancestors above ⊆
              sub :: provider.ancestors facts := by
  simp only [isSubtype_iff]
  refine ⟨fun _ => .refl, fun _ _ _ => .trans, ?_⟩
  intro sub facts mid above known knownMid descends sup member
  rw [mem_cons_ancestors_iff knownMid] at member
  rw [mem_cons_ancestors_iff known]
  exact descends.trans member

end Provider

end TypeAtlas
