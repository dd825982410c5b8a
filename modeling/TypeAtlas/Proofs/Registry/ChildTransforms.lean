import TypeAtlas.Proofs.Registry.Outlined
import TypeAtlas.Proofs.Registry.Tours
import TypeAtlas.Proofs.Transform.Children

/-!
# Child transforms in live registries

A type that is asked for the child transform of a descendant gives the first
transform that is registered for a strict descendant of its own and applies to
the one it is asked for.  Whatever was asked before, and by whichever thread,
the answer is the same.  It is bound to the descendant as well, and a binding of
the descendant that comes from below the type makes for an answer.
-/

namespace TypeAtlas

open Lookup

def Binding.IsRegistered (binding : Binding) : Prop :=
  binding.origin = .registered ∨
    ∃ ancestor, binding.origin = .inherited ancestor

namespace TransformCatalogue

theorem not_isRegistered_of_declaredBindings {catalogue : TransformCatalogue}
    {facts : TypeFacts} {bindings : List Binding}
    (declared : catalogue.declaredBindings facts = .ok bindings)
    {binding : Binding} (member : binding ∈ bindings) :
    ¬ binding.IsRegistered := by
  obtain ⟨name, _, named⟩ := exists_named_of_declaredBindings declared member
  unfold Binding.IsRegistered
  rw [named]
  rintro (same | ⟨ancestor, same⟩) <;> cases same

end TransformCatalogue

namespace Parts.IsIndexed

variable {parts : Parts} {sources : Sources} {name : TypeName}

/-- A type is bound to what is registered for the types it descends from. -/
theorem exists_binding (isIndexed : parts.IsIndexed sources name)
    {transform : Transform}
    (listed : transform ∈ sources.transforms.registered)
    (descends : sources.provider.DescendsFrom name transform.normal) :
    ∃ binding ∈ parts.bindings,
      binding.transform = transform ∧ binding.IsRegistered := by
  obtain ⟨facts, bound, known, given, same⟩ := isIndexed.bindings
  obtain ⟨declared, _, rfl⟩ := TransformCatalogue.bindingsFor_eq_ok given
  let binding : Binding := ⟨transform,
    if transform.normal = name then .registered
    else .inherited transform.normal⟩
  have member : binding ∈ sources.transforms.registeredBindings name
      (sources.provider.ancestors facts) :=
    (TransformCatalogue.mem_registeredBindings_iff known).2
      ⟨listed, descends, rfl⟩
  refine ⟨binding, ?_, rfl, ?_⟩
  · rw [same, Provider.name_eq_of_known? known]
    exact List.mem_append_right _ (List.mem_append_left _ member)
  · by_cases own : transform.normal = name
    · exact .inl (if_pos own)
    · exact .inr ⟨_, if_neg own⟩

theorem of_isRegistered (isIndexed : parts.IsIndexed sources name)
    {binding : Binding} (member : binding ∈ parts.bindings)
    (isRegistered : binding.IsRegistered) :
    binding.transform ∈ sources.transforms.registered ∧
      sources.provider.DescendsFrom name binding.transform.normal := by
  obtain ⟨facts, bound, known, given, same⟩ := isIndexed.bindings
  obtain ⟨declared, declares, rfl⟩ :=
    TransformCatalogue.bindingsFor_eq_ok given
  rw [same, Provider.name_eq_of_known? known] at member
  rcases List.mem_append.1 member with own | other
  · obtain ⟨transform, _, rfl⟩ := List.mem_map.1 own
    rcases isRegistered with same | ⟨ancestor, same⟩ <;> cases same
  rcases List.mem_append.1 other with registered | named
  · obtain ⟨listed, descends, _⟩ :=
      (TransformCatalogue.mem_registeredBindings_iff known).1 registered
    exact ⟨listed, descends⟩
  · exact absurd isRegistered
      (TransformCatalogue.not_isRegistered_of_declaredBindings declares named)

end Parts.IsIndexed

namespace Store

/-- No action touches what is remembered of child transforms. -/
theorem perform_memos {store later : Store} {thread : ThreadId}
    {action : Action} {answer : action.Answer}
    (performed : store.perform thread action = .ok (answer, later)) :
    later.memos = store.memos := by
  cases action with
  | enter name | publish name identity body | await descriptor
  | keepTarget slot target =>
    simp only [perform] at performed
    split at performed <;> cases performed <;> rfl
  | _ =>
    cases performed
    rfl

end Store

namespace Pool

variable {sources : Sources} {pool later : Pool}

/-- Whether the children of a descriptor are those of its type, or none. -/
def HasChildren (sources : Sources) (pool : Pool) (descriptor : Descriptor) :
    Prop :=
  ((pool.registry sources).body descriptor).parts.children = [] ∨
    ((pool.registry sources).body descriptor).parts.children =
      (sources.outlined descriptor.name).children

theorem Lives.hasChildren_cached (lives : Lives sources pool) (name : TypeName)
    (identity : Nat) : pool.HasChildren sources (.cached name identity) := by
  unfold HasChildren Registry.body registry
  cases given : pool.store.body? (.cached name identity) with
  | none => exact .inl rfl
  | some body =>
    exact .inr (lives.isOutlined (Store.published?_of_body? given)).children

/-- A specialization has the children of its head, an argument list none. -/
theorem Lives.hasChildren (lives : Lives sources pool) {descriptor : Descriptor}
    (gave : pool.Gave descriptor) : pool.HasChildren sources descriptor := by
  rcases gave with ⟨name, identity, rfl⟩ | ⟨thread, operation, answered⟩
  · exact lives.hasChildren_cached name identity
  cases asked : operation.expression? with
  | none =>
    have publishes :=
      lives.publishes (assemblesFitting_isOutlined sources)
    obtain ⟨number, references, rfl⟩ :=
      publishes.answered thread operation _ answered asked descriptor rfl
    exact .inl rfl
  | some expression =>
    obtain ⟨ledger, accounted⟩ := lives.accounted
    have fulfils := accounted.answered thread operation _ answered
    have resolves : ledger.Resolves expression descriptor :=
      fulfils.settles expression asked
    cases resolves with
    | plain _ names =>
      obtain ⟨entry, _, rfl⟩ := names
      exact lives.hasChildren_cached _ _
    | dropped _ _ _ names =>
      obtain ⟨entry, _, rfl⟩ := names
      exact lives.hasChildren_cached _ _
    | @specialized body number references _ published _ _ _ =>
      rw [accounted.same] at published
      refine .inr ?_
      change (specialized body references).parts.children = _
      rw [specialized_parts]
      exact (lives.isOutlined published).children

end Pool

namespace Registry

open ChildTransforms (Remembers first?)

variable {registry : Registry} {descriptor : Descriptor}
  {side : ChildTransforms.Side} {name : TypeName}

/-- Whether what is remembered for each type is what its children give. -/
def RemembersAll (registry : Registry) : Prop :=
  ∀ name memos, registry.store.memos.get? name = some memos →
    Remembers (registry.sources.outlined name).children
      (some registry.sources.provider) memos

theorem childTransform_sources :
    (registry.childTransform descriptor side name).2.sources =
      registry.sources := by
  unfold childTransform
  dsimp only
  split <;> rfl

/-- A child transform is the first child that applies, and is remembered so. -/
theorem first?_of_childTransform (remembers : registry.RemembersAll)
    (children : (registry.body descriptor).parts.children = [] ∨
      (registry.body descriptor).parts.children =
        (registry.sources.outlined descriptor.name).children) :
    (∀ child?, (registry.childTransform descriptor side name).1 = .ok child? →
      child? = first? (registry.body descriptor).parts.children
        (some registry.sources.provider) side name) ∧
    (registry.childTransform descriptor side name).2.RemembersAll := by
  have remembered : Remembers
      (registry.sources.outlined descriptor.name).children
      (some registry.sources.provider)
      ((registry.store.memos.get? descriptor.name).getD {}) := by
    cases found : registry.store.memos.get? descriptor.name with
    | none => exact ChildTransforms.remembers_empty
    | some memos => exact remembers _ memos found
  have answers {child? : Option Transform} {memos : ChildTransforms.Memos}
      (answered : ChildTransforms.lookup
        (registry.body descriptor).parts.children
        (some registry.sources.provider) side name
        ((registry.store.memos.get? descriptor.name).getD {}) =
          .ok (child?, memos)) :
      child? = first? (registry.body descriptor).parts.children
          (some registry.sources.provider) side name ∧
        Remembers (registry.sources.outlined descriptor.name).children
          (some registry.sources.provider) memos := by
    rcases children with none | same
    · rw [none] at answered ⊢
      cases answered
      exact ⟨rfl, remembered⟩
    · rw [same] at answered ⊢
      exact ChildTransforms.first?_of_lookup remembered answered
  unfold childTransform
  dsimp only
  split
  · exact ⟨nofun, remembers⟩
  next child? memos answered =>
    obtain ⟨first, kept⟩ := answers answered
    refine ⟨fun _ same => by cases same; exact first, ?_⟩
    intro other memosOther found
    simp only [NameMap.get?_insert] at found
    split at found
    next here =>
      cases found
      rw [here]
      exact kept
    · exact remembers other memosOther found

/-- Where the provider is not disturbed, every query has an answer. -/
theorem exists_childTransform
    (undisturbed : registry.sources.provider.disruptions = NameMap.empty) :
    ∃ child?,
      (registry.childTransform descriptor side name).1 = .ok child? := by
  have calm (children : List Transform) :
      ChildTransforms.placeCrash? children (some registry.sources.provider)
        side name = none := by
    refine ChildTransforms.placeCrash?_eq_none ?_ children side name
    rintro _ ⟨⟩
    exact undisturbed
  unfold childTransform ChildTransforms.lookup
  simp only [calm, Option.none_or, Option.bind_some,
    Provider.crash?_eq_none undisturbed, ite_self]
  split
  next crash answered =>
    split at answered
    · cases answered
    · split at answered <;> cases answered
  · exact ⟨_, rfl⟩

end Registry

namespace Pool

variable {sources : Sources} {pool : Pool}

theorem Tours.remembersAll (tours : Tours sources pool) :
    (pool.registry sources).RemembersAll := by
  induction tours with
  | start => exact fun _ _ none => nomatch none
  | ask _ thread operation held ih => exact ih
  | step _ step ih =>
    cases step with
    | begin thread idle next => exact ih
    | finish thread busy => exact ih
    | @act thread operation action next answer store busy performed =>
      intro name memos found
      change store.memos.get? name = some memos at found
      rw [Store.perform_memos performed] at found
      exact ih name memos found
  | @query pool tours descriptor gave side name ih =>
    have kept := (@Registry.first?_of_childTransform _ _ side name ih
      (tours.lives.hasChildren gave)).2
    unfold Registry.RemembersAll at kept
    rw [Registry.childTransform_sources] at kept
    exact kept

/-- What the child transform says that a type gives for another.  It is the
first transform that is registered below the type and applies to the other, if
the assembly of the type gets as far as its transforms, and there is none
otherwise.  The bindings of the other type agree, if its assembly gets that
far. -/
structure ChildAgrees (sources : Sources) (pool : Pool) (sup sub : TypeName)
    (child? : Option Transform) : Prop where
  first : ∀ transform, child? = some transform ↔
    sources.Indexes sup ∧ ∃ before after,
      sources.transforms.registered = before ++ transform :: after ∧
        transform.AppliesBelow sources.provider sup sub ∧
          ∀ other ∈ before, ¬ other.AppliesBelow sources.provider sup sub
  nothing : child? = none ↔ ¬ sources.Indexes sup ∨
    ∀ other ∈ sources.transforms.registered,
      ¬ other.AppliesBelow sources.provider sup sub
  bound : ∀ body transform, pool.store.published? sub = some body →
    sources.Indexes sub → child? = some transform →
      ∃ binding ∈ body.parts.bindings,
        binding.transform = transform ∧ binding.IsRegistered
  found : ∀ body, pool.store.published? sub = some body →
    sources.Indexes sup → ∀ binding ∈ body.parts.bindings,
      binding.IsRegistered → binding.transform.normal ≠ sup →
        sources.provider.DescendsFrom binding.transform.normal sup →
          child?.isSome
  bare : ∀ body, pool.store.published? sub = some body →
    ¬ sources.Indexes sub → body.parts.bindings = []
  indexes : ∀ name body, sources.provider.table.contains name = true →
    pool.store.published? name = some body → body.failure? = none →
      sources.Indexes name

/-- The children of a type, as long as its assembly gets to them. -/
theorem Tours.child_eq (tours : Tours sources pool)
    (undisturbed : sources.provider.disruptions = NameMap.empty)
    {sup sub : TypeName} {entry : Entry}
    (cached : pool.store.entries.get? sup = some entry)
    (isPublished : entry.isPublished = true)
    (known : sources.provider.table.contains sup = true)
    {child? : Option Transform}
    (answered : ((pool.registry sources).childTransform
      (.cached sup entry.identity) .normal sub).1 = .ok child?) :
    (sources.Indexes sup → child? = ChildTransforms.first?
      (sources.transforms.childrenOf sup sources.provider)
        (some sources.provider) .normal sub) ∧
      (¬ sources.Indexes sup → child? = none) := by
  obtain ⟨body, published⟩ := Option.isSome_iff_exists.1 isPublished
  have given : (pool.registry sources).body (.cached sup entry.identity) =
      body := by
    have found : pool.store.body? (.cached sup entry.identity) = some body :=
      Option.bind_eq_some_iff.2
        ⟨entry, Store.entryFor?_eq_some.2 ⟨cached, rfl⟩, published⟩
    exact congrArg (·.getD (Body.blank sup)) found
  have children := (tours.lives.isOutlined
    (Store.published?_eq_some.2 ⟨entry, cached, published⟩)).children
  have first := (Registry.first?_of_childTransform tours.remembersAll
    (tours.lives.hasChildren_cached sup entry.identity)).1 child? answered
  rw [given, children] at first
  have outlines := Sources.outlines_iff_indexes undisturbed known
  constructor
  · intro indexes
    rw [(outlines.2 indexes).isIndexed.children] at first
    exact first
  · intro fails
    rw [(Sources.isBare_outlined (mt outlines.1 fails)).2] at first
    exact first

/-- Whatever was looked up and asked for before, a published type gives the
child transform that the hierarchy says, and descendants are bound to it. -/
theorem childAgrees_of_tours (tours : Tours sources pool)
    (undisturbed : sources.provider.disruptions = NameMap.empty)
    {sup sub : TypeName} {entry : Entry}
    (cached : pool.store.entries.get? sup = some entry)
    (isPublished : entry.isPublished = true)
    (supKnown : sources.provider.table.contains sup = true)
    (subKnown : sources.provider.table.contains sub = true) :
    ∃ child?, ((pool.registry sources).childTransform
        (.cached sup entry.identity) .normal sub).1 = .ok child? ∧
      ChildAgrees sources pool sup sub child? := by
  obtain ⟨child?, answered⟩ := @Registry.exists_childTransform
    (pool.registry sources) (.cached sup entry.identity) .normal sub undisturbed
  refine ⟨child?, answered, ?_⟩
  obtain ⟨reached, stopped⟩ := tours.child_eq undisturbed cached isPublished
    supKnown answered
  have first (transform : Transform) : child? = some transform ↔
      sources.Indexes sup ∧ ∃ before after,
        sources.transforms.registered = before ++ transform :: after ∧
          transform.AppliesBelow sources.provider sup sub ∧
            ∀ other ∈ before,
              ¬ other.AppliesBelow sources.provider sup sub := by
    by_cases indexes : sources.Indexes sup
    · rw [reached indexes, TransformCatalogue.first?_childrenOf_eq_some_iff]
      exact (and_iff_right indexes).symm
    · rw [stopped indexes]
      exact ⟨nofun, fun given => (indexes given.1).elim⟩
  have nothing : child? = none ↔ ¬ sources.Indexes sup ∨
      ∀ other ∈ sources.transforms.registered,
        ¬ other.AppliesBelow sources.provider sup sub := by
    by_cases indexes : sources.Indexes sup
    · rw [reached indexes, TransformCatalogue.first?_childrenOf_eq_none_iff]
      exact (or_iff_right (not_not_intro indexes)).symm
    · exact ⟨fun _ => .inl indexes, fun _ => stopped indexes⟩
  have outlines := Sources.outlines_iff_indexes undisturbed subKnown
  constructor
  case first => exact first
  case nothing => exact nothing
  case bound =>
    intro body transform published indexes given
    obtain ⟨_, before, after, listed, below, _⟩ := (first transform).1 given
    have bindings := (tours.lives.isOutlined published).bindings
    obtain ⟨binding, member, same, isRegistered⟩ :=
      (outlines.2 indexes).isIndexed.exists_binding
        (listed ▸ List.mem_append_right _ List.mem_cons_self) below.applies
    exact ⟨binding, bindings ▸ member, same, isRegistered⟩
  case found =>
    intro body published indexes binding member isRegistered strict below
    rw [(tours.lives.isOutlined published).bindings] at member
    have reaches : sources.Outlines sub := by
      by_contra fails
      rw [(Sources.isBare_outlined fails).1] at member
      cases member
    obtain ⟨listed, applies⟩ :=
      reaches.isIndexed.of_isRegistered member isRegistered
    rw [Option.isSome_iff_ne_none]
    intro absent
    rcases nothing.1 absent with fails | never
    · exact fails indexes
    · exact never _ listed ⟨strict, below, applies⟩
  case bare =>
    intro body published fails
    rw [(tours.lives.isOutlined published).bindings]
    exact (Sources.isBare_outlined (mt outlines.1 fails)).1
  case indexes =>
    intro name body known published ready
    exact (Sources.outlines_iff_indexes undisturbed known).1
      ((tours.lives.isOutlined published).ready ready)

/-- Shapes whose hierarchy goes in a circle, with transforms for all of them. -/
def shapes : Sources where
  provider := Provider.ofTable <| FactsTable.empty.insertAll [
    { name := "Disc", supertypes := ["Round"] },
    { name := "Round", supertypes := ["Shape"] },
    { name := "Shape", supertypes := ["Disc"] }]
  transforms := {
    registered := ["Shape", "Round", "Disc"].map fun name =>
      .oneWay name "String" .done }

def shaped : Pool :=
  (List.replicate 20 0).foldl (advance shapes)
    (((List.replicate 20 0).foldl (advance shapes)
      ((start fun _ => []).ask 0 (.get "Shape"))).ask 0 (.get "Disc"))

theorem shaped_tours : Tours shapes shaped := by
  refine tours_advance (.ask ?_ 0 (.get "Disc") nofun) _
  exact tours_advance (Tours.start.ask 0 (.get "Shape") nofun) _

theorem childAgrees_of_shapes :
    ∃ entry child?, Tours shapes shaped ∧
      shaped.store.entries.get? "Shape" = some entry ∧
        entry.isPublished = true ∧
          ((shaped.registry shapes).childTransform
            (.cached "Shape" entry.identity) .normal "Disc").1 = .ok child? ∧
            ChildAgrees shapes shaped "Shape" "Disc" child? := by
  have isPublished : (shaped.store.entries.get? "Shape").any
      Entry.isPublished = true := by
    decide +kernel
  have supKnown : shapes.provider.table.contains "Shape" = true := by
    decide +kernel
  have subKnown : shapes.provider.table.contains "Disc" = true := by
    decide +kernel
  obtain ⟨entry, found, published⟩ := (Option.any_eq_true _ _).1 isPublished
  obtain ⟨child?, answered, agrees⟩ := childAgrees_of_tours shaped_tours rfl
    found published supKnown subKnown
  exact ⟨entry, child?, shaped_tours, found, published, answered, agrees⟩

/-- A type that names an unknown transform, and one with a transform below. -/
def tagged : Sources where
  provider := Provider.ofTable <| FactsTable.empty.insertAll [
    { name := "T", tags := [.transform "nope"] },
    { name := "U", supertypes := ["T"] }]
  transforms := { registered := [.oneWay "U" "S" .done] }

/-- A transform is registered below, yet the type does not give it. -/
theorem child_eq_none_of_tagged :
    let registry := (Session.performAll tagged 0 [.get "T"]).registry
    ∃ entry, registry.store.entries.get? "T" = some entry ∧
      entry.isPublished = true ∧
        (registry.childTransform (.cached "T" entry.identity) .normal "U").1 =
            .ok none ∧
          tagged.provider.DescendsFrom "U" "T" ∧
            ∃ transform ∈ tagged.transforms.registered,
              transform.AppliesBelow tagged.provider "T" "U" := by
  intro registry
  have known : tagged.provider.table.contains "T" = true := by
    decide +kernel
  have unknown : ¬ tagged.Indexes "T" := fun indexes =>
    Bool.false_ne_true (indexes.transforms
      { name := "T", tags := [.transform "nope"] } rfl "nope"
      List.mem_cons_self)
  have below : tagged.provider.DescendsFrom "U" "T" :=
    .single ⟨{ name := "U", supertypes := ["T"] }, rfl, List.mem_cons_self⟩
  have orderly := Session.performAll_orderly tagged 0 [.get "T"]
  obtain ⟨outcome, _, served⟩ :=
    (Session.start_orderly tagged 0).perform_get "T"
  obtain ⟨entry, found⟩ := Option.isSome_iff_exists.1
    (orderly.isCached_of_hasEntered served.entered)
  have published := orderly.settled.published "T" entry found
  refine ⟨entry, found, published, ?_, below, _, List.mem_cons_self, by decide,
    below, .refl⟩
  have own : ∀ operation ∈ [Operation.get "T"], ∀ reference,
      operation ≠ .follow reference := by
    rintro operation member reference rfl
    cases List.mem_singleton.1 member
  obtain ⟨pool, tours, isIn⟩ := (Session.performAll_onTour tagged 0 own).tours
  obtain ⟨child?, answered⟩ := @Registry.exists_childTransform
    (pool.registry tagged) (.cached "T" entry.identity) .normal "U" rfl
  have stopped := tours.child_eq rfl (isIn.store ▸ found) published known
    answered
  rw [stopped.2 unknown, isIn.registry_eq orderly] at answered
  exact answered

end Pool

end TypeAtlas
