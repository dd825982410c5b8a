import Mathlib.Data.List.Forall2
import TypeAtlas.Proofs.Registry.ClosedFacts
import TypeAtlas.Proofs.Registry.Publishing

/-!
# Outlines in bodies

All that a body says of its type, but for references and the verdict on beans,
comes from the outline of the type, whether assembly failed or not, and whatever
was looked up before.  An outline takes the transforms of a type last, so that a
type has all of them or, where the outline fails, none.
-/

namespace TypeAtlas

namespace Sources

variable {sources : Sources} {name : TypeName}

/-- The parts of a type that its outline leaves, where it ends or fails. -/
def outlined (sources : Sources) (name : TypeName) : Parts :=
  ((ExceptT.run (Assembly.outline sources name)).run (Parts.blank name)).2

/-- Whether the outline of a type comes to its end. -/
def Outlines (sources : Sources) (name : TypeName) : Prop :=
  ∃ given, ((ExceptT.run (Assembly.outline sources name)).run
    (Parts.blank name)).1 = .ok given

end Sources

/-- Whether a body has the parts that its type is outlined with, the verdict
apart.  It is ready only if the outline came to its end. -/
structure Body.IsOutlined (sources : Sources) (name : TypeName)
    (body : Body) : Prop where
  parts : ∃ bean, body.parts = { sources.outlined name with bean }
  ready : body.failure? = none → sources.Outlines name

namespace Provider

theorem get?_of_known? {provider : Provider} {name : TypeName}
    {facts : TypeFacts} (known : provider.known? name = some facts) :
    provider.table.get? name = some facts := by
  unfold known? at known
  split at known
  · cases known
  · exact known

end Provider

namespace TransformCatalogue

variable {catalogue : TransformCatalogue} {facts : TypeFacts}
  {bindings bound : List Binding} {ancestors : List TypeName}

/-- Declared bindings are found one by one, if all that is named is known. -/
theorem forall₂_of_declaredBindings
    (declared : catalogue.declaredBindings facts = .ok bindings) :
    List.Forall₂ (fun name binding =>
        catalogue.named.get? name = some binding.transform ∧
          binding.origin = .declared name)
      (declaredNames facts) bindings := by
  unfold declaredBindings at declared
  generalize declaredNames facts = names at declared ⊢
  induction names generalizing bindings with
  | nil =>
    cases declared
    exact .nil
  | cons first rest ih =>
    rw [List.mapM_cons] at declared
    cases found : catalogue.named.get? first with
    | none => simp [found, bind, Except.bind] at declared
    | some transform =>
      simp only [found, bind, Except.bind] at declared
      split at declared
      · cases declared
      next others =>
        cases declared
        exact .cons ⟨found, rfl⟩ (ih others)

theorem exists_named_of_declaredBindings
    (declared : catalogue.declaredBindings facts = .ok bindings)
    {binding : Binding} (member : binding ∈ bindings) :
    ∃ name, catalogue.named.get? name = some binding.transform ∧
      binding.origin = .declared name := by
  have found := forall₂_of_declaredBindings declared
  generalize declaredNames facts = names at found
  clear declared
  induction found with
  | nil => cases member
  | @cons name _ _ _ first _ ih =>
    rcases List.mem_cons.1 member with rfl | later
    · exact ⟨name, first⟩
    · exact ih later

theorem contains_of_declaredBindings
    (declared : catalogue.declaredBindings facts = .ok bindings)
    {name : String} (member : name ∈ declaredNames facts) :
    catalogue.named.contains name = true := by
  have found := forall₂_of_declaredBindings declared
  generalize declaredNames facts = names at found member
  clear declared
  induction found with
  | nil => cases member
  | cons first _ ih =>
    rcases List.mem_cons.1 member with rfl | later
    · exact Option.isSome_iff_exists.2 ⟨_, first.1⟩
    · exact ih later

theorem bindingsFor_eq_ok
    (given : catalogue.bindingsFor facts ancestors = .ok bound) :
    ∃ declared, catalogue.declaredBindings facts = .ok declared ∧
      bound = catalogue.registeredBindings facts.name ancestors ++
        declared := by
  unfold bindingsFor at given
  cases found : catalogue.declaredBindings facts with
  | error error =>
    rw [found] at given
    cases given
  | ok declared =>
    rw [found] at given
    cases given
    exact ⟨declared, rfl, rfl⟩

end TransformCatalogue

namespace Parts

structure IsIndexed (parts : Parts) (sources : Sources) (name : TypeName) :
    Prop where
  indexes : sources.Indexes name
  children : parts.children =
    sources.transforms.childrenOf name sources.provider
  bindings : ∃ facts bound, sources.provider.known? name = some facts ∧
    sources.transforms.bindingsFor facts (sources.provider.ancestors facts) =
        .ok bound ∧
      parts.bindings = (Transform.discover? facts).toList.map
        (fun transform => ⟨transform, .swapMethod⟩) ++ bound

def IsBare (parts : Parts) : Prop :=
  parts.bindings = [] ∧ parts.children = []

end Parts

namespace Assembly

open Outlining

namespace Outlining

variable {parts : Parts}

theorem Leaves.bind_steady {holds : Except Stop α → Prop}
    {ensures : Except Stop β → Parts → Prop} {outlining : Outlining α}
    {next : α → Outlining β}
    (steady : Leaves (fun outcome left => left = parts ∧ holds outcome)
      outlining parts)
    (stops : ∀ stop, holds (.error stop) → ensures (.error stop) parts)
    (goesOn : ∀ value, holds (.ok value) →
      Leaves ensures (next value) parts) :
    Leaves ensures (outlining >>= next) parts := by
  apply Leaves.bind
  apply steady.mono
  rintro (stop | value) left ⟨rfl, held⟩
  · exact stops stop held
  · exact goesOn value held

theorem leaves_modify_bind {ensures : Except Stop α → Parts → Prop}
    {change : Parts → Parts} {next : Unit → Outlining α}
    (goesOn : Leaves ensures (next ()) (change parts)) :
    Leaves ensures (modify change >>= next) parts :=
  Leaves.bind goesOn

end Outlining

variable {sources : Sources} {name : TypeName} {parts : Parts}

theorem crashOn_leaves (crash? : Option Crash) :
    Leaves (fun _ left => left = parts ∧ True) (crashOn crash?) parts := by
  cases crash? <;> exact ⟨rfl, trivial⟩

theorem requestFacts_leaves (provider : Provider) (name : TypeName) :
    Leaves (fun outcome left => left = parts ∧
        outcome.toOption = provider.known? name)
      (requestFacts provider name) parts := by
  unfold requestFacts Provider.crash? Provider.facts Provider.known?
  cases provider.disruptions.get? name with
  | none => cases provider.table.get? name <;> exact ⟨rfl, rfl⟩
  | some disruption => cases disruption <;> exact ⟨rfl, rfl⟩

theorem bindingsOf_leaves (facts : TypeFacts) (ancestors : List TypeName) :
    Leaves (fun outcome left => left = parts ∧
        ∀ bindings, outcome = .ok bindings → ∃ bound,
          sources.transforms.bindingsFor facts ancestors = .ok bound ∧
            bindings = (Transform.discover? facts).toList.map
              (fun transform => ⟨transform, .swapMethod⟩) ++ bound)
      (bindingsOf sources facts ancestors) parts := by
  unfold bindingsOf
  cases bound : sources.transforms.bindingsFor facts ancestors with
  | error error => exact ⟨rfl, nofun⟩
  | ok bindings => exact ⟨rfl, fun _ same => by cases same; exact ⟨_, rfl, rfl⟩⟩

/-- Whether parts have one category, and no transforms. -/
structure IsBegun (category : Category) (parts : Parts) : Prop where
  bare : parts.IsBare
  category : parts.category = category

theorem requestImplementation_leaves {category : Category}
    (begun : IsBegun category parts) (name : TypeName) :
    Leaves (fun outcome left => IsBegun category left ∧
        ∀ given, outcome = .ok given → ∀ implementation,
          sources.config.implementations.get? name = some implementation →
            sources.provider.table.contains implementation = true)
      (requestImplementation sources name) parts := by
  unfold requestImplementation
  cases found : sources.config.implementations.get? name with
  | none => exact ⟨begun, fun _ _ => nofun⟩
  | some implementation =>
    have begun : IsBegun category
        { parts with implementation? := some implementation } :=
      ⟨begun.bare, begun.category⟩
    apply leaves_modify_bind
    refine Leaves.bind_steady (requestFacts_leaves _ _) ?_ ?_
    · exact fun _ _ => ⟨begun, nofun⟩
    · intro facts given
      refine ⟨begun, fun _ _ other same => ?_⟩
      cases same
      exact Option.isSome_iff_exists.2
        ⟨facts, Provider.get?_of_known? given.symm⟩

/-- What an outline leaves: the category, and all transforms or none. -/
def LeavesTransforms (sources : Sources) (name : TypeName) (parts : Parts) :
    Except Stop α → Prop
  | .ok _ => parts.IsIndexed sources name
  | .error _ => parts.IsBare

theorem outline_leaves (sources : Sources) (name : TypeName) :
    Leaves (fun outcome left => LeavesTransforms sources name left outcome ∧
        left.category = ((sources.provider.known? name).map
          TypeFacts.category).getD .other)
      (outline sources name) (Parts.blank name) := by
  refine Leaves.bind_steady (requestFacts_leaves _ _) ?_ ?_
  · intro stop unknown
    rw [← unknown]
    exact ⟨⟨rfl, rfl⟩, rfl⟩
  intro facts known
  have known : sources.provider.known? name = some facts := known.symm
  simp only [known, Option.map_some, Option.getD_some]
  -- From here on the category stays, and a failure leaves no transforms.
  have stops {left : Parts} (begun : IsBegun facts.category left)
      (stop : Stop) : LeavesTransforms sources name left
        (.error stop : Except Stop (TypeFacts × Bool)) ∧
          left.category = facts.category :=
    ⟨begun.bare, begun.category⟩
  apply leaves_modify_bind
  refine Leaves.bind_steady (crashOn_leaves _)
    (fun stop _ => stops ⟨⟨rfl, rfl⟩, rfl⟩ stop) fun _ _ => ?_
  apply leaves_modify_bind
  apply leaves_modify_bind
  have begun : IsBegun facts.category
      (({ (Parts.blank name).glance facts with
        ancestors := sources.provider.ancestors facts }).withMembers
          sources.provider facts) :=
    ⟨⟨rfl, rfl⟩, rfl⟩
  refine Leaves.bind_steady (bindingsOf_leaves facts _)
    (fun stop _ => stops begun stop) fun bindings found => ?_
  obtain ⟨bound, given, same⟩ := found bindings rfl
  refine Leaves.bind_steady (crashOn_leaves _)
    (fun stop _ => stops begun stop) fun _ _ => ?_
  apply Leaves.bind
  apply (requestImplementation_leaves begun name).mono
  rintro (stop | implementation?) left ⟨begun, implemented⟩
  · exact stops begun stop
  dsimp only [Outlining.GoesOn]
  refine Leaves.bind_steady (crashOn_leaves _)
    (fun stop _ => stops begun stop) fun _ _ => ?_
  apply leaves_modify_bind
  refine ⟨⟨⟨fun other told => ?_, implemented _ rfl⟩, rfl, facts, bound,
    known, given, same⟩, begun.category⟩
  cases (Provider.get?_of_known? known).symm.trans told
  obtain ⟨declared, declares, _⟩ := TransformCatalogue.bindingsFor_eq_ok given
  exact fun _ => TransformCatalogue.contains_of_declaredBindings declares

end Assembly

namespace Sources

variable {sources : Sources} {name : TypeName}

/-- A type has the category of its facts, even if its outline fails. -/
theorem outlined_category (sources : Sources) (name : TypeName) :
    (sources.outlined name).category =
      ((sources.provider.known? name).map TypeFacts.category).getD .other :=
  (Assembly.outline_leaves sources name).2

theorem Outlines.isIndexed (outlines : sources.Outlines name) :
    (sources.outlined name).IsIndexed sources name := by
  obtain ⟨given, ended⟩ := outlines
  have leaves := (Assembly.outline_leaves sources name).1
  rw [ended] at leaves
  exact leaves

theorem isBare_outlined (fails : ¬ sources.Outlines name) :
    (sources.outlined name).IsBare := by
  have leaves := (Assembly.outline_leaves sources name).1
  cases ended : ((ExceptT.run (Assembly.outline sources name)).run
      (Parts.blank name)).1 with
  | ok given => exact (fails ⟨given, ended⟩).elim
  | error stop =>
    rw [ended] at leaves
    exact leaves

/-- The outline of a known type ends just when it gets to its transforms. -/
theorem outlines_iff_indexes
    (undisturbed : sources.provider.disruptions = NameMap.empty)
    (known : sources.provider.table.contains name = true) :
    sources.Outlines name ↔ sources.Indexes name := by
  refine ⟨fun outlines => outlines.isIndexed.indexes, fun indexes => ?_⟩
  have yields := Assembly.outline_yields undisturbed indexes known
  unfold Assembly.Outlining.Leaves at yields
  cases ended : ((ExceptT.run (Assembly.outline sources name)).run
      (Parts.blank name)).1 with
  | ok given => exact ⟨given, ended⟩
  | error stop =>
    rw [ended] at yields
    exact yields.elim

/-- Once its outline has ended, nothing makes a type fail on its own. -/
theorem assembles_iff_outlines :
    sources.Assembles name ↔ sources.Outlines name := by
  obtain ⟨outcome, parts, outlined, _⟩ :=
    Assembly.outline_runFree sources name
  have ended : ((ExceptT.run (Assembly.outline sources name)).run
      (Parts.blank name)).1 = outcome :=
    congrArg Prod.fst outlined
  unfold Outlines
  rw [ended]
  cases outcome with
  | ok given =>
    exact iff_of_true (Assembly.assembles_of_outline outlined) ⟨given, rfl⟩
  | error stop =>
    unfold Assembles
    rw [Assembly.cacheFree_of_outline_error outlined]
    exact iff_of_false nofun nofun

/-- A type fails on its own unless it is known and gets to its transforms. -/
theorem assembles_iff
    (undisturbed : sources.provider.disruptions = NameMap.empty) :
    sources.Assembles name ↔
      sources.provider.table.contains name = true ∧ sources.Indexes name := by
  rw [assembles_iff_outlines]
  refine ⟨fun outlines => ⟨?_, outlines.isIndexed.indexes⟩,
    fun ⟨known, indexes⟩ =>
      (outlines_iff_indexes undisturbed known).2 indexes⟩
  obtain ⟨facts, _, known, _⟩ := outlines.isIndexed.bindings
  exact Option.isSome_iff_exists.2 ⟨facts, Provider.get?_of_known? known⟩

end Sources

namespace Assembly

/-- An assembly leaves what the outline does, if neither taking references nor
the verdict changes the parts. -/
theorem assemble_isOutlined {contract : Contract} {sources : Sources}
    {past : Past} {name : TypeName}
    {reference : TypeExpr → Assembling Procedure TypeRef}
    {introspect : TypeFacts → Bool → Assembling Procedure (Option BeanVerdict)}
    (takes : ∀ facts past, Meets contract
      (fun _ _ left => left.parts = sources.outlined name)
      (takeReferences sources reference facts) past
      { Body.blank name with parts := sources.outlined name })
    (judges : ∀ facts hasImplementation past body, Meets contract
      (fun _ _ left => left.parts = body.parts)
      (verdict sources reference introspect facts hasImplementation) past
      body) :
    Meets contract
      (fun _ => Lookup.LeavesFitting
        (fun name body => body.IsOutlined sources name) name)
      (assemble sources reference introspect name) past (Body.blank name) := by
  have fails {body : Body} (stop : Stop)
      (same : body.parts = sources.outlined name) :
      Lookup.LeavesFitting (fun name body => body.IsOutlined sources name) name
        (.error stop) body :=
    fun _ _ => ⟨⟨_, same⟩, nofun⟩
  generalize ended : ((ExceptT.run (outline sources name)).run
    (Parts.blank name)).1 = outcome
  have outlined : (liftOutline (outline sources name)).runFree
      (Body.blank name) =
        (outcome, { Body.blank name with parts := sources.outlined name }) := by
    rw [← ended]
    rfl
  unfold assemble
  apply Meets.bind
  apply meets_outline outlined
  rcases outcome with stop | ⟨facts, hasImplementation⟩
  · exact fails stop rfl
  apply Meets.bind
  apply (takes facts past).mono
  rintro later (stop | _) left same
  · exact fails stop same
  apply Meets.bind
  refine (judges facts hasImplementation later left).mono ?_
  rintro latest (stop | bean) end_ sameToo
  · exact fails stop (sameToo.trans same)
  · refine meets_modify ⟨⟨bean, ?_⟩, fun _ => ⟨_, ended⟩⟩
    rw [sameToo, same]

end Assembly

namespace Lookup

/-- Every assembly leaves what its outline does, whatever it looks up. -/
theorem assemblesFitting_isOutlined (sources : Sources) (thread : ThreadId) :
    AssemblesFitting (fun name body => body.IsOutlined sources name)
      { sources, thread } := by
  intro build builds name past
  have lookups := publishes_congruence { sources, thread } builds
  have references (expression : TypeExpr) :
      Assembly.KeepsParts (fun name body => body.IsOutlined sources name)
        (Assembly.lift (takeReference build expression)) :=
    Assembly.keepsParts_lift (lookups.takeReference fun _ _ => trivial)
  have scripts (facts : TypeFacts) (hasImplementation : Bool)
      (steps : List IntrospectionStep) :
      Assembly.KeepsParts (fun name body => body.IsOutlined sources name)
        (Assembly.lift (followScript { sources, thread } build facts
          hasImplementation steps)) :=
    Assembly.keepsParts_lift (lookups.followScript _ _ fun _ _ => trivial)
  refine Assembly.assemble_isOutlined (fun facts past => ?_)
    (fun facts hasImplementation => ?_)
  · have takes := Assembly.keepsParts_congruence.takeReferences_keeps
      fun expression (_ : expression ∈ Assembly.holdings sources facts) =>
        references expression
    exact takes past { Body.blank name with parts := sources.outlined name }
  · exact Assembly.keepsParts_congruence.verdict_keeps
      (fun expression _ => references expression) (scripts facts _ _)

@[simp]
theorem specialized_parts (body : Body) (references : List TypeRef) :
    (specialized body references).parts = body.parts := by
  unfold specialized
  split <;> rfl

@[simp]
theorem specialized_failure? (body : Body) (references : List TypeRef) :
    (specialized body references).failure? = body.failure? := by
  unfold specialized
  split <;> rfl

end Lookup

namespace Body.IsOutlined

variable {sources : Sources} {name : TypeName} {body : Body}

theorem category (isOutlined : body.IsOutlined sources name) :
    body.parts.category =
      ((sources.provider.known? name).map TypeFacts.category).getD .other := by
  obtain ⟨bean, same⟩ := isOutlined.parts
  rw [same]
  exact sources.outlined_category name

theorem children (isOutlined : body.IsOutlined sources name) :
    body.parts.children = (sources.outlined name).children := by
  obtain ⟨bean, same⟩ := isOutlined.parts
  rw [same]

theorem bindings (isOutlined : body.IsOutlined sources name) :
    body.parts.bindings = (sources.outlined name).bindings := by
  obtain ⟨bean, same⟩ := isOutlined.parts
  rw [same]

/-- Specializations have the parts of the body that they come from. -/
theorem specialized (isOutlined : body.IsOutlined sources name)
    (references : List TypeRef) :
    (Lookup.specialized body references).IsOutlined sources name where
  parts := by
    rw [Lookup.specialized_parts]
    exact isOutlined.parts
  ready := by
    rw [Lookup.specialized_failure?]
    exact isOutlined.ready

end Body.IsOutlined

namespace Pool

/-- Bodies in a live registry are outlined, those of failures included. -/
theorem Lives.isOutlined {sources : Sources} {pool : Pool}
    (lives : Lives sources pool) {name : TypeName} {body : Body}
    (published : pool.store.published? name = some body) :
    body.IsOutlined sources name :=
  (lives.publishes (Lookup.assemblesFitting_isOutlined sources)).published
    name body published

end Pool

end TypeAtlas
