import TypeAtlas.Proofs.Registry.Attempts
import TypeAtlas.Proofs.Registry.Stages

/-!
# Cached bodies are generic

Assembly refers to what the facts of a name say that it holds, for whatever
expression the name is looked up.  So nothing that is cached refers to the type
arguments of an expression: specializations stay outside of the cache.
-/

namespace TypeAtlas

/-- Whether a body holds only what another one holds in the same place. -/
structure Body.HoldsWithin (body whole : Body) : Prop where
  element : ∀ reference, body.element? = some reference →
    whole.element? = some reference
  key : ∀ reference, body.key? = some reference → whole.key? = some reference
  value : ∀ reference, body.value? = some reference →
    whole.value? = some reference
  args : body.args = []

/-- Whether a body refers to no arguments but those that its facts declare. -/
def Body.IsGeneric (sources : Sources) (name : TypeName) (body : Body) : Prop :=
  body.withoutSlots.HoldsWithin (sources.whole name)

namespace Body.HoldsWithin

variable {body whole : Body}

theorem fill (held : body.HoldsWithin whole) (stage : Stage) :
    (stage.fill whole body).HoldsWithin whole := by
  cases stage with
  | elementOrKey =>
    exact ⟨fun _ same => same, fun _ same => same, held.value, held.args⟩
  | value => exact ⟨held.element, held.key, fun _ same => same, held.args⟩
  | _ => exact ⟨held.element, held.key, held.value, held.args⟩

theorem filledBy (whole : Body) (name : TypeName) (stages : List Stage) :
    (whole.filledBy name stages).HoldsWithin whole := by
  have blank : (Body.blank name).HoldsWithin whole :=
    ⟨nofun, nofun, nofun, rfl⟩
  exact List.foldlRecOn (motive := (HoldsWithin · whole)) stages _ blank
    fun _ held stage _ => held.fill stage

end Body.HoldsWithin

namespace Assembly

variable {contract : Contract} {sources : Sources} {name : TypeName}
  {past : Past} {body : Body}
  {reference : TypeExpr → Assembling Procedure TypeRef}

theorem isGeneric_of_filledBy {stages : List Stage}
    (filled : body.withoutSlots = (sources.whole name).filledBy name stages) :
    body.IsGeneric sources name := by
  unfold Body.IsGeneric
  rw [filled]
  exact .filledBy _ name stages

theorem Draws.steady {holds : α → Prop} {assembling : Assembling Procedure α}
    (draws : Draws contract holds assembling) : Steady contract assembling :=
  fun past body => (draws past body).mono fun _ _ _ ⟨same, _⟩ => same

/-- Where assembly stops or what it is told by scripts makes no difference. -/
theorem assemble_isGeneric
    {introspect : TypeFacts → Bool → Assembling Procedure (Option BeanVerdict)}
    (references : DrawsReferences contract reference)
    (introspects : ∀ facts hasImplementation,
      Steady contract (introspect facts hasImplementation))
    (name : TypeName) :
    Meets contract
      (fun _ => Lookup.LeavesFitting (Body.IsGeneric sources) name)
      (assemble sources reference introspect name) past (Body.blank name) := by
  obtain ⟨outcome, parts, outlined, leaves, _⟩ := outline_runStages sources name
  have stops {left : Body} (stop : Stop)
      (generic : left.IsGeneric sources name) :
      Lookup.LeavesFitting (Body.IsGeneric sources) name (.error stop) left :=
    fun _ _ => ⟨generic.element, generic.key, generic.value, generic.args⟩
  unfold assemble
  apply Meets.bind
  apply meets_outline outlined
  rcases outcome with stop | ⟨facts, hasImplementation⟩
  · obtain ⟨done, _, _, _, filled⟩ := leaves
    exact stops stop (isGeneric_of_filledBy filled)
  obtain ⟨known, rfl, rfl⟩ := leaves
  apply Meets.bind
  apply (takeReferences_leaves known references).mono
  rintro later (stop | _) left held
  · obtain ⟨done, _, _, _, filled⟩ := held
    exact stops stop (isGeneric_of_filledBy filled)
  have generic : left.IsGeneric sources name :=
    isGeneric_of_filledBy (held.trans (filledBy_holding known).symm)
  have judges : Steady contract (verdict sources reference introspect facts
      (sources.config.implementations.contains name)) :=
    (steady_sequential contract).verdict_keeps
      (fun expression _ => (references expression).steady) (introspects _ _)
  refine judges.meets_bind (fun _ stop => stops stop generic)
    fun latest bean => meets_modify ?_
  exact ⟨generic.element, generic.key, generic.value, generic.args⟩

end Assembly

open Assembly

theorem Sources.isWithin_whole (sources : Sources) (name : TypeName) :
    (sources.whole name).IsWithin (sources.categoryOf name) := by
  unfold Sources.whole Sources.categoryOf
  cases sources.provider.known? name with
  | none => exact .blank _ name _
  | some facts =>
    have outlined := Body.IsWithin.blank facts.category name
      (outlinedBy sources name facts)
    have held : (holding sources facts
        (outlinedBody sources name facts)).IsWithin facts.category := by
      unfold holding
      cases category : facts.category with
      | array =>
        rw [category] at outlined
        cases facts.arrayOf with
        | none => exact outlined
        | some component => exact outlined.withElement (by decide) _
      | elementContainer =>
        rw [category] at outlined
        exact outlined.withElement (by decide) _
      | pairContainer | beanMap =>
        rw [category] at outlined
        exact (outlined.withKey (by decide) _).withValue (by decide) _
      | _ =>
        rw [category] at outlined
        exact outlined
    exact ⟨held.element, held.key, held.value, held.args⟩

theorem Body.IsGeneric.isWithin {sources : Sources} {name : TypeName}
    {body : Body} (generic : body.IsGeneric sources name) :
    body.IsWithin (sources.categoryOf name) := by
  have whole := sources.isWithin_whole name
  have holds {own all : Option TypeRef}
      (same : ∀ reference, own.map TypeRef.withoutSlot = some reference →
        all = some reference) (given : own.isSome) : all.isSome := by
    obtain ⟨reference, rfl⟩ := Option.isSome_iff_exists.1 given
    exact Option.isSome_iff_exists.2 ⟨_, same _ rfl⟩
  exact ⟨fun given => whole.element (holds generic.element given),
    fun given => whole.key (holds generic.key given),
    fun given => whole.value (holds generic.value given),
    List.map_eq_nil_iff.1 generic.args⟩

theorem Lookup.assemblesFitting_isGeneric (agent : Agent) :
    AssemblesFitting (Body.IsGeneric agent.sources) agent := by
  intro build builds name past
  refine Assembly.assemble_isGeneric (takeReference_draws agent builds)
    (fun facts hasImplementation => ?_) name
  have follows : Publishes (Body.IsGeneric agent.sources)
      (followScript agent build facts hasImplementation
        ((agent.sources.scripts.get? facts.name).getD [])) :=
    (publishes_congruence agent builds).followScript facts hasImplementation
      fun _ _ => trivial
  exact fun past _ =>
    Assembly.Meets.lift ((follows past).mono fun _ _ _ => rfl)

/-- However threads interleave, no specialization is in the cache. -/
theorem Pool.Lives.isGeneric {sources : Sources} {pool : Pool}
    (lives : Lives sources pool) :
    pool.store.Fits (Body.IsGeneric sources) :=
  (lives.publishes fun thread =>
    Lookup.assemblesFitting_isGeneric { sources, thread }).published

end TypeAtlas
