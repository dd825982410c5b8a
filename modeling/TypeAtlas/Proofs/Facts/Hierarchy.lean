import Mathlib.Logic.Relation
import TypeAtlas.Facts.Provider

/-!
# The hierarchy of types

A type descends from another one if supertypes lead from it to the other.  The
walk over supertypes meets exactly the types that it leads to, whether or not
supertypes go in circles, so comparing types decides descent.
-/

namespace TypeAtlas

namespace Provider

def HasSupertype (provider : Provider) (sub sup : TypeName) : Prop :=
  ∃ facts, provider.known? sub = some facts ∧ sup ∈ facts.supertypes

/-- Whether a type is another one, or supertypes lead from it to the other. -/
def DescendsFrom (provider : Provider) : TypeName → TypeName → Prop :=
  Relation.ReflTransGen provider.HasSupertype

variable {provider : Provider} {facts : TypeFacts} {name sub sup : TypeName}
  {seen queue : List TypeName}

/-- What a walk meets was not seen before, and is led to from its queue. -/
theorem exists_of_mem_walk (member : name ∈ provider.walk seen queue) :
    name ∉ seen ∧ ∃ start ∈ queue, provider.DescendsFrom start name := by
  fun_induction walk provider seen queue with
  | case1 seen => cases member
  | case2 seen here rest old ih =>
    obtain ⟨fresh, start, queued, leads⟩ := ih member
    exact ⟨fresh, start, List.mem_cons_of_mem _ queued, leads⟩
  | case3 seen here rest new facts known ih =>
    rcases List.mem_cons.1 member with rfl | later
    · exact ⟨new, name, List.mem_cons_self, .refl⟩
    obtain ⟨fresh, start, queued, leads⟩ := ih later
    refine ⟨fun old => fresh (List.mem_cons_of_mem _ old), ?_⟩
    rcases List.mem_append.1 queued with before | above
    · exact ⟨start, List.mem_cons_of_mem _ before, leads⟩
    · exact ⟨here, List.mem_cons_self, .head ⟨facts, known, above⟩ leads⟩
  | case4 seen here rest new unknown ih =>
    rcases List.mem_cons.1 member with rfl | later
    · exact ⟨new, name, List.mem_cons_self, .refl⟩
    obtain ⟨fresh, start, queued, leads⟩ := ih later
    exact ⟨fun old => fresh (List.mem_cons_of_mem _ old), start,
      List.mem_cons_of_mem _ queued, leads⟩

/-- A walk meets nothing twice, whether or not supertypes go in circles. -/
theorem nodup_walk (provider : Provider) (seen queue : List TypeName) :
    (provider.walk seen queue).Nodup := by
  fun_induction walk provider seen queue with
  | case1 seen => exact List.nodup_nil
  | case2 seen here rest old ih => exact ih
  | case3 seen here rest new facts known ih =>
    refine List.nodup_cons.2 ⟨fun again => ?_, ih⟩
    exact (exists_of_mem_walk again).1 List.mem_cons_self
  | case4 seen here rest new unknown ih =>
    refine List.nodup_cons.2 ⟨fun again => ?_, ih⟩
    exact (exists_of_mem_walk again).1 List.mem_cons_self

/-- An ancestor is a supertype that the type lists, or some known type does. -/
theorem listed_of_mem_ancestors (member : name ∈ provider.ancestors facts) :
    name ∈ facts.supertypes ∨ ∃ sub, provider.HasSupertype sub name := by
  obtain ⟨_, start, listed, leads⟩ := exists_of_mem_walk member
  rcases leads.cases_tail with rfl | ⟨sub, _, above⟩
  · exact .inl listed
  · exact .inr ⟨sub, above⟩

theorem mem_walk_of_queued (queued : name ∈ queue) :
    name ∈ seen ∨ name ∈ provider.walk seen queue := by
  fun_induction walk provider seen queue with
  | case1 seen => cases queued
  | case2 seen here rest old ih =>
    rcases List.mem_cons.1 queued with rfl | later
    · exact .inl old
    · exact ih later
  | case3 seen here rest new facts known ih =>
    rcases List.mem_cons.1 queued with rfl | later
    · exact .inr List.mem_cons_self
    · have met := ih (List.mem_append_left _ later)
      rw [List.mem_cons] at met ⊢
      grind
  | case4 seen here rest new unknown ih =>
    rcases List.mem_cons.1 queued with rfl | later
    · exact .inr List.mem_cons_self
    · have met := ih later
      rw [List.mem_cons] at met ⊢
      grind

theorem mem_walk_of_hasSupertype (member : sub ∈ provider.walk seen queue)
    (listed : provider.HasSupertype sub sup) :
    sup ∈ seen ∨ sup ∈ provider.walk seen queue := by
  fun_induction walk provider seen queue with
  | case1 seen => cases member
  | case2 seen here rest old ih => exact ih member
  | case3 seen here rest new facts known ih =>
    have above : sub = here → sup ∈ here :: seen ∨
        sup ∈ provider.walk (here :: seen) (rest ++ facts.supertypes) := by
      rintro rfl
      obtain ⟨found, same, within⟩ := listed
      cases known.symm.trans same
      exact mem_walk_of_queued (List.mem_append_right _ within)
    have met := (List.mem_cons.1 member).elim above ih
    rw [List.mem_cons] at met ⊢
    grind
  | case4 seen here rest new unknown ih =>
    rcases List.mem_cons.1 member with rfl | later
    · obtain ⟨found, same, _⟩ := listed
      rw [unknown] at same
      cases same
    · have met := ih later
      rw [List.mem_cons] at met ⊢
      grind

theorem name_eq_of_known? (known : provider.known? name = some facts) :
    facts.name = name := by
  unfold known? at known
  split at known
  · cases known
  · exact FactsTable.name_eq_of_get? known

/-- The ancestors of a known type are all others that it descends from. -/
theorem mem_ancestors_iff (known : provider.known? sub = some facts) :
    sup ∈ provider.ancestors facts ↔
      sup ≠ sub ∧ provider.DescendsFrom sub sup := by
  have named := name_eq_of_known? known
  unfold ancestors
  rw [named]
  constructor
  · intro member
    obtain ⟨fresh, start, queued, leads⟩ := exists_of_mem_walk member
    exact ⟨fun same => fresh (same ▸ List.mem_cons_self),
      .head ⟨facts, known, queued⟩ leads⟩
  · rintro ⟨different, descends⟩
    have met : sup ∈ [sub] ∨ sup ∈ provider.walk [sub] facts.supertypes := by
      induction descends with
      | refl => exact .inl List.mem_cons_self
      | @tail between above _ listed ih =>
        have before : between = sub ∨
            between ∈ provider.walk [sub] facts.supertypes := by
          by_cases here : between = sub
          · exact .inl here
          · exact .inr ((ih here).resolve_left fun same =>
              here (List.mem_singleton.1 same))
        rcases before with rfl | met
        · obtain ⟨found, same, within⟩ := listed
          cases known.symm.trans same
          exact mem_walk_of_queued within
        · exact mem_walk_of_hasSupertype met listed
    exact met.resolve_left fun here => different (List.mem_singleton.1 here)

/-- Comparing two types decides whether one descends from the other. -/
theorem isSubtype_iff :
    provider.isSubtype sub sup = true ↔ provider.DescendsFrom sub sup := by
  unfold isSubtype
  by_cases same : sub = sup
  · subst same
    simp [DescendsFrom, Relation.ReflTransGen.refl]
  cases known : provider.known? sub with
  | none =>
    suffices ¬ provider.DescendsFrom sub sup by simpa [same]
    intro descends
    rcases Relation.ReflTransGen.cases_head descends with equal | step
    · exact same equal
    · obtain ⟨_, ⟨facts, found, _⟩, _⟩ := step
      rw [known] at found
      cases found
  | some facts =>
    have above := @mem_ancestors_iff provider facts sub sup known
    simp [same, above, Ne.symm same]

/-! ### Undisturbed providers -/

theorem crash?_eq_none (undisturbed : provider.disruptions = NameMap.empty)
    (name : TypeName) : provider.crash? name = none := by
  simp [crash?, undisturbed]

theorem ancestorsCrash?_eq_none
    (undisturbed : provider.disruptions = NameMap.empty) (facts : TypeFacts) :
    provider.ancestorsCrash? facts = none := by
  simp [ancestorsCrash?, crash?_eq_none undisturbed]

theorem subtypeCrash?_eq_none
    (undisturbed : provider.disruptions = NameMap.empty)
    (sub sup : TypeName) : provider.subtypeCrash? sub sup = none := by
  simp [subtypeCrash?, crash?_eq_none undisturbed,
    ancestorsCrash?_eq_none undisturbed]

end Provider

end TypeAtlas
