import TypeAtlas.Proofs.Facts.Hierarchy
import TypeAtlas.Transform.Children

/-!
# Transforms along the hierarchy

Registered transforms come down the hierarchy of types.  A type is bound to the
transforms of all types that it descends from, and finds, as children, those of
the types that strictly descend from itself.  So the first child that applies to
a descendant is the first transform that is registered for the descendant or for
a type between the two.  What is remembered of children is what they give.
-/

namespace TypeAtlas

/-- Whether a transform is registered for a strict descendant of a type, and so
applies to everything that descends from that one. -/
structure Transform.AppliesBelow (transform : Transform) (provider : Provider)
    (sup sub : TypeName) : Prop where
  strict : transform.normal ≠ sup
  below : provider.DescendsFrom transform.normal sup
  applies : provider.DescendsFrom sub transform.normal

namespace TransformCatalogue

variable {catalogue : TransformCatalogue} {provider : Provider}
  {facts : TypeFacts} {name sup : TypeName} {transform : Transform}

/-- A type is bound to what is registered for the types it descends from. -/
theorem mem_registeredBindings_iff (known : provider.known? name = some facts)
    {binding : Binding} :
    binding ∈ catalogue.registeredBindings name (provider.ancestors facts) ↔
      binding.transform ∈ catalogue.registered ∧
        provider.DescendsFrom name binding.transform.normal ∧
          binding.origin =
            if binding.transform.normal = name then .registered
            else .inherited binding.transform.normal := by
  have above := @Provider.mem_ancestors_iff provider facts name
  unfold registeredBindings
  rw [List.mem_filterMap]
  constructor
  · rintro ⟨transform, member, bound⟩
    by_cases own : transform.normal = name
    · simp only [own, beq_self_eq_true, if_true, Option.some.injEq] at bound
      subst bound
      refine ⟨member, ?_, by simp [own]⟩
      rw [own]
      exact .refl
    · simp only [beq_iff_eq, own, if_false, List.contains_iff_mem] at bound
      split at bound
      next inherited =>
        cases bound
        exact ⟨member, ((above known).1 inherited).2, by simp [own]⟩
      · cases bound
  · rintro ⟨member, descends, origin⟩
    refine ⟨binding.transform, member, ?_⟩
    by_cases own : binding.transform.normal = name
    · rw [if_pos own] at origin
      simp [own, ← origin]
    · rw [if_neg own] at origin
      have inherited := (above known).2 ⟨own, descends⟩
      simp [own, inherited, ← origin]

theorem mem_childrenOf_iff :
    transform ∈ catalogue.childrenOf sup provider ↔
      transform ∈ catalogue.registered ∧ transform.normal ≠ sup ∧
        provider.DescendsFrom transform.normal sup := by
  simp [childrenOf, Provider.isSubtype_iff]

end TransformCatalogue

namespace ChildTransforms

variable {children : List Transform} {provider? : Option Provider}
  {side other : Side} {name : TypeName} {memos later : Memos}
  {child? : Option Transform}

@[simp]
theorem Memos.get_set_self (memos : Memos) (memo : Memo) (side : Side) :
    (memos.set memo side).get side = memo := by
  cases side <;> rfl

theorem Memos.get_set_of_ne (different : other ≠ side) (memo : Memo) :
    (memos.set memo side).get other = memos.get other := by
  cases side <;> cases other
  · exact absurd rfl different
  · rfl
  · rfl
  · exact absurd rfl different

/-- The first child whose type on a side a name is, or descends from. -/
def first? (children : List Transform) (provider? : Option Provider)
    (side : Side) (name : TypeName) : Option Transform :=
  children.find? fun child => descends provider? name (side.typeOf child)

theorem place?_bind :
    (place? children provider? side name).bind (children[·]?) =
      first? children provider? side name :=
  (List.find?_eq_bind_findIdx?_getElem?).symm

theorem placeCrash?_eq_none
    (undisturbed : ∀ provider, provider? = some provider →
      provider.disruptions = NameMap.empty)
    (children : List Transform) (side : Side) (name : TypeName) :
    placeCrash? children provider? side name = none := by
  cases provider? with
  | none => rfl
  | some provider =>
    cases children with
    | nil => rfl
    | cons child rest =>
      exact Provider.subtypeCrash?_eq_none (undisturbed _ rfl) name _

/-- Whether what is remembered are the places of children that apply. -/
def Remembers (children : List Transform) (provider? : Option Provider)
    (memos : Memos) : Prop :=
  ∀ side name place, (memos.get side).get? name = some place →
    place = place? children provider? side name

theorem remembers_empty : Remembers children provider? {} := by
  intro side name place remembered
  cases side <;> cases remembered

/-- An answer is the first child that applies, remembered or not. -/
theorem first?_of_lookup (remembers : Remembers children provider? memos)
    (answered : lookup children provider? side name memos =
      .ok (child?, later)) :
    child? = first? children provider? side name ∧
      Remembers children provider? later := by
  unfold lookup at answered
  split at answered
  next none =>
    cases answered
    rw [List.isEmpty_iff.1 none]
    exact ⟨rfl, List.isEmpty_iff.1 none ▸ remembers⟩
  dsimp only at answered
  split at answered
  next place found =>
    cases answered
    rw [remembers side name place found, place?_bind]
    exact ⟨rfl, remembers⟩
  split at answered
  · cases answered
  cases answered
  refine ⟨place?_bind, ?_⟩
  split
  · intro other asked place remembered
    by_cases same : other = side
    · subst same
      rw [Memos.get_set_self, NameMap.get?_insert] at remembered
      split at remembered
      next here =>
        cases remembered
        rw [here]
      · exact remembers other asked place remembered
    · rw [Memos.get_set_of_ne same] at remembered
      exact remembers other asked place remembered
  · exact remembers

end ChildTransforms

namespace TransformCatalogue

variable {catalogue : TransformCatalogue} {provider : Provider}
  {sub sup : TypeName} {transform : Transform}

/-- The first child that applies is the first transform registered below. -/
theorem first?_childrenOf_eq_some_iff :
    ChildTransforms.first? (catalogue.childrenOf sup provider) (some provider)
        .normal sub = some transform ↔
      ∃ before after,
        catalogue.registered = before ++ transform :: after ∧
          transform.AppliesBelow provider sup sub ∧
            ∀ other ∈ before, ¬ other.AppliesBelow provider sup sub := by
  have holds (other : Transform) :
      (other.normal != sup && provider.isSubtype other.normal sup &&
          provider.isSubtype sub other.normal) = true ↔
        other.AppliesBelow provider sup sub := by
    simp only [Bool.and_eq_true, bne_iff_ne, Provider.isSubtype_iff]
    exact ⟨fun ⟨⟨strict, below⟩, applies⟩ => ⟨strict, below, applies⟩,
      fun ⟨strict, below, applies⟩ => ⟨⟨strict, below⟩, applies⟩⟩
  simp only [ChildTransforms.first?, ChildTransforms.descends,
    ChildTransforms.Side.typeOf]
  rw [childrenOf, List.find?_filter, List.find?_eq_some_iff_append]
  simp only [← holds, Bool.not_eq_true', Bool.not_eq_true]
  grind

theorem first?_childrenOf_eq_none_iff :
    ChildTransforms.first? (catalogue.childrenOf sup provider) (some provider)
        .normal sub = none ↔
      ∀ other ∈ catalogue.registered,
        ¬ other.AppliesBelow provider sup sub := by
  simp only [ChildTransforms.first?, ChildTransforms.descends,
    ChildTransforms.Side.typeOf, List.find?_eq_none, mem_childrenOf_iff,
    Provider.isSubtype_iff]
  exact ⟨fun none other member below =>
      none other ⟨member, below.strict, below.below⟩ below.applies,
    fun none other ⟨member, strict, below⟩ applies =>
      none other member ⟨strict, below, applies⟩⟩

end TransformCatalogue

end TypeAtlas
