import TypeAtlas.Proofs.Facts.Hierarchy
import TypeAtlas.Proofs.Registry.Readiness

/-!
# Closed facts

Where all that the facts of known types name is known itself, and the provider
is not disturbed, every known type can be assembled.  References lead from known
types to known types only, so nothing that is reached fails on its own.
-/

namespace TypeAtlas

namespace TypeFacts

/-- The types that are given for what values hold, for accessors and fields. -/
def declaredTypes (facts : TypeFacts) : List TypeExpr :=
  facts.arrayOf.toList ++ facts.typeArgs ++
    (Bean.mentions facts).map Bean.Draft.type

end TypeFacts

namespace Sources

/-- Whether a table answers for all names that come up: those in the types that
its facts declare, the root type, the implementations, and named transforms. -/
structure IsClosed (sources : Sources) : Prop where
  plain : sources.IsPlain
  undisturbed : sources.provider.disruptions = NameMap.empty
  declared : ∀ facts ∈ sources.provider.table.types.values,
    ∀ name ∈ TypeExpr.namesOfList facts.declaredTypes,
      sources.provider.table.contains name = true
  root : sources.provider.table.contains sources.config.rootType = true
  implementations : ∀ name implementation,
    sources.config.implementations.get? name = some implementation →
      sources.provider.table.contains implementation = true
  transforms : ∀ facts ∈ sources.provider.table.types.values,
    ∀ name ∈ TransformCatalogue.declaredNames facts,
      sources.transforms.named.contains name = true

/-- Whether the assembly of a type gets as far as its transforms: those that its
tags name are known, and so is its implementation, if it is configured with
one. -/
structure Indexes (sources : Sources) (name : TypeName) : Prop where
  transforms : ∀ facts, sources.provider.table.get? name = some facts →
    ∀ other ∈ TransformCatalogue.declaredNames facts,
      sources.transforms.named.contains other = true
  implementation : ∀ implementation,
    sources.config.implementations.get? name = some implementation →
      sources.provider.table.contains implementation = true

theorem IsClosed.indexes {sources : Sources} (closed : sources.IsClosed)
    (name : TypeName) : sources.Indexes name where
  transforms facts found :=
    closed.transforms facts (NameMap.mem_values_of_get? found)
  implementation := closed.implementations name

end Sources

namespace Provider

variable {provider : Provider}

theorem exists_facts (undisturbed : provider.disruptions = NameMap.empty)
    {name : TypeName} (known : provider.table.contains name = true) :
    ∃ facts, provider.facts name = .ok facts ∧
      provider.table.get? name = some facts := by
  obtain ⟨facts, found⟩ := Option.isSome_iff_exists.1 known
  have found : provider.table.get? name = some facts := found
  refine ⟨facts, ?_, found⟩
  simp [Provider.facts, undisturbed, found]

end Provider

namespace Construction

theorem discoverCrash?_eq_none {facts : TypeFacts} {context : Context}
    {provider : Provider} (provided : context.provider? = some provider)
    (undisturbed : provider.disruptions = NameMap.empty) :
    discoverCrash? facts context = none := by
  have accepts (param surrogate : TypeName) :
      context.acceptsCrash? param surrogate = none := by
    simp [Context.acceptsCrash?, provided,
      Provider.subtypeCrash?_eq_none undisturbed]
  unfold discoverCrash?
  generalize surrogateCandidates facts context = candidates
  generalize ([] : List SurrogateRecipe) = recipes
  induction candidates generalizing recipes with
  | nil => rfl
  | cons candidate rest ih =>
    obtain ⟨param, surrogate, constructor⟩ := candidate
    rw [addConstructorsCrash?]
    split
    · exact ih _
    · rw [accepts, ih]
      rfl

end Construction

namespace TransformCatalogue

variable {catalogue : TransformCatalogue} {facts : TypeFacts}

theorem childrenCrash?_eq_none {provider : Provider}
    (undisturbed : provider.disruptions = NameMap.empty) (name : TypeName) :
    catalogue.childrenCrash? name provider = none := by
  simp [childrenCrash?, Provider.subtypeCrash?_eq_none undisturbed]

theorem exists_bindingsFor
    (named : ∀ name ∈ declaredNames facts,
      catalogue.named.contains name = true) (ancestors : List TypeName) :
    ∃ bindings, catalogue.bindingsFor facts ancestors = .ok bindings := by
  have declared : ∃ bindings,
      catalogue.declaredBindings facts = .ok bindings := by
    unfold declaredBindings
    generalize declaredNames facts = names at named
    induction names with
    | nil => exact ⟨[], rfl⟩
    | cons name rest ih =>
      obtain ⟨transform, found⟩ :=
        Option.isSome_iff_exists.1 (named name List.mem_cons_self)
      obtain ⟨bindings, others⟩ :=
        ih fun other member => named other (List.mem_cons_of_mem _ member)
      refine ⟨⟨transform, .declared name⟩ :: bindings, ?_⟩
      rw [List.mapM_cons, found, others]
      rfl
  obtain ⟨bindings, bound⟩ := declared
  exact ⟨_, by rw [bindingsFor, bound]; rfl⟩

end TransformCatalogue

namespace Assembly

open Outlining

namespace Outlining

variable {parts : Parts}

def Yields (holds : α → Prop) : Except Stop α → Parts → Prop
  | .ok value, _ => holds value
  | .error _, _ => False

theorem Yields.bind {holds : α → Prop} {holdsLater : β → Prop}
    {outlining : Outlining α} {next : α → Outlining β}
    (first : Leaves (Yields holds) outlining parts)
    (second : ∀ value left, holds value →
      Leaves (Yields holdsLater) (next value) left) :
    Leaves (Yields holdsLater) (outlining >>= next) parts := by
  apply Leaves.bind
  apply first.mono
  rintro (stop | value) left held
  · exact held
  · exact second value left held

theorem modify_yields (change : Parts → Parts) :
    Leaves (Yields fun _ => True) (modify change) parts :=
  trivial

theorem crashOn_yields {crash? : Option Crash} (calm : crash? = none) :
    Leaves (Yields fun _ => True) (crashOn crash?) parts := by
  subst calm
  trivial

end Outlining

variable {sources : Sources} {name : TypeName} {parts : Parts}

theorem requestFacts_yields {provider : Provider}
    (undisturbed : provider.disruptions = NameMap.empty)
    (known : provider.table.contains name = true) :
    Leaves (Yields fun facts => provider.table.get? name = some facts)
      (requestFacts provider name) parts := by
  apply Yields.bind
    (crashOn_yields (Provider.crash?_eq_none undisturbed name))
  intro _ left _
  obtain ⟨facts, given, found⟩ := Provider.exists_facts undisturbed known
  rw [given]
  exact found

theorem bindingsOf_yields {facts : TypeFacts} {ancestors : List TypeName}
    (named : ∀ name ∈ TransformCatalogue.declaredNames facts,
      sources.transforms.named.contains name = true) :
    Leaves (Yields fun _ => True) (bindingsOf sources facts ancestors)
      parts := by
  obtain ⟨bindings, bound⟩ :=
    TransformCatalogue.exists_bindingsFor named ancestors
  unfold bindingsOf
  rw [bound]
  trivial

theorem requestImplementation_yields
    (undisturbed : sources.provider.disruptions = NameMap.empty)
    (indexes : sources.Indexes name) :
    Leaves (Yields fun _ => True) (requestImplementation sources name)
      parts := by
  unfold requestImplementation
  cases found : sources.config.implementations.get? name with
  | none => trivial
  | some implementation =>
    apply Yields.bind (modify_yields _)
    intro _ left _
    apply Yields.bind (requestFacts_yields undisturbed
      (indexes.implementation implementation found))
    intro _ _ _
    trivial

/-- The outline of a known type that gets to its transforms ends well. -/
theorem outline_yields
    (undisturbed : sources.provider.disruptions = NameMap.empty)
    (indexes : sources.Indexes name)
    (known : sources.provider.table.contains name = true) :
    Leaves (Yields fun _ => True) (outline sources name)
      (Parts.blank name) := by
  apply Yields.bind (requestFacts_yields undisturbed known)
  intro facts _ found
  apply Yields.bind (modify_yields _)
  intro _ _ _
  apply Yields.bind
    (crashOn_yields (Provider.ancestorsCrash?_eq_none undisturbed facts))
  intro _ _ _
  apply Yields.bind (modify_yields _)
  intro _ _ _
  apply Yields.bind (modify_yields _)
  intro _ _ _
  apply Yields.bind (bindingsOf_yields (indexes.transforms facts found))
  intro bindings _ _
  apply Yields.bind (crashOn_yields
    (TransformCatalogue.childrenCrash?_eq_none undisturbed name))
  intro _ _ _
  apply Yields.bind (requestImplementation_yields undisturbed indexes)
  intro implementation? _ _
  apply Yields.bind (crashOn_yields
    (Construction.discoverCrash?_eq_none rfl undisturbed))
  intro _ _ _
  apply Yields.bind (modify_yields _)
  intro _ _ _
  trivial

end Assembly

namespace Assembly

variable {sources : Sources} {facts : TypeFacts} {name : TypeName}

/-- An assembly asks for declared types and for the root type only. -/
theorem declared_of_requested {hasImplementation : Bool}
    (member : name ∈ requested sources facts hasImplementation) :
    name ∈ TypeExpr.namesOfList facts.declaredTypes ∨
      name = sources.config.rootType := by
  have declared {expression : TypeExpr}
      (given : expression ∈ facts.declaredTypes)
      (within : name ∈ expression.names) :
      name ∈ TypeExpr.namesOfList facts.declaredTypes :=
    TypeExpr.names_subset_namesOfList given within
  unfold requested at member
  simp only [TypeExpr.namesOfList_eq, List.mem_append, List.mem_flatMap]
    at member
  rcases member with ⟨expression, held, within⟩ | ⟨expression, judged, within⟩
  · rcases mem_holdings held with given | rfl
    · exact .inl (declared (List.mem_append_left _ given) within)
    · simp [TypeExpr.named, TypeExpr.names, TypeExpr.namesOfList] at within
      exact .inr within
  · unfold judgedTypes at judged
    split at judged
    · obtain ⟨draft, drafted, rfl⟩ := List.mem_map.1 judged
      unfold drafts at drafted
      split at drafted
      · cases drafted
      · obtain ⟨mention, said, same⟩ :=
          Bean.exists_mention_of_mem_properties drafted
        rw [same] at within
        have given : mention.type ∈
            (Bean.mentions facts).map Bean.Draft.type :=
          List.mem_map_of_mem said
        exact .inl (declared (List.mem_append_right _ given) within)
    · cases judged

end Assembly

namespace Sources.IsClosed

variable {sources : Sources} {name other : TypeName}

theorem exists_outline (closed : sources.IsClosed)
    (known : sources.provider.table.contains name = true) :
    ∃ facts hasImplementation parts,
      (Assembly.liftOutline (Assembly.outline sources name)).runFree
          (Body.blank name) =
        (.ok (facts, hasImplementation), { Body.blank name with parts }) ∧
      facts ∈ sources.provider.table.types.values := by
  obtain ⟨outcome, parts, outlined, sound⟩ :=
    Assembly.outline_runFree sources name
  have yields := Assembly.outline_yields closed.undisturbed
    (closed.indexes name) known
  have same : ((ExceptT.run (Assembly.outline sources name)).run
      (Parts.blank name)).1 = outcome :=
    congrArg Prod.fst outlined
  unfold Assembly.Outlining.Leaves at yields
  rw [same] at yields
  cases outcome with
  | error stop => exact yields.elim
  | ok given => exact ⟨given.1, given.2, parts, outlined, sound.1⟩

theorem assembles (closed : sources.IsClosed)
    (known : sources.provider.table.contains name = true) :
    sources.Assembles name := by
  obtain ⟨facts, hasImplementation, parts, outlined, _⟩ :=
    closed.exists_outline known
  exact Assembly.assembles_of_outline outlined

theorem contains_of_refers (closed : sources.IsClosed)
    (known : sources.provider.table.contains name = true)
    (refers : sources.Refers name other) :
    sources.provider.table.contains other = true := by
  obtain ⟨facts, hasImplementation, parts, outlined, member⟩ :=
    closed.exists_outline known
  have asked := (Assembly.refers_iff_of_outline outlined other).1 refers
  rcases Assembly.declared_of_requested asked with declared | rfl
  · exact closed.declared facts member other declared
  · exact closed.root

theorem contains_of_reaches (closed : sources.IsClosed)
    (known : sources.provider.table.contains name = true)
    (reaches : sources.Reaches name other) :
    sources.provider.table.contains other = true := by
  induction reaches with
  | refl => exact known
  | tail _ refers ih => exact closed.contains_of_refers ih refers

theorem isSound (closed : sources.IsClosed)
    (known : sources.provider.table.contains name = true) :
    sources.IsSound name :=
  fun _ reaches => closed.assembles (closed.contains_of_reaches known reaches)

end Sources.IsClosed

end TypeAtlas
