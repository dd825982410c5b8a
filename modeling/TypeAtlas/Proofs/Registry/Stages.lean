import Mathlib.Data.List.Basic
import Mathlib.Logic.Relation
import TypeAtlas.Proofs.Registry.Readiness
import TypeAtlas.Proofs.Registry.Shapes
import TypeAtlas.Proofs.Registry.Tours

/-!
# Assembly by stages

Assembly fills a body stage by stage, and each stage has fields of its own.
Wherever it stops, the stages before have filled in what assembly without a
cache does, and the fields of the others are as they are in a blank body.
-/

namespace TypeAtlas

/-- The stages of assembly, in their order. -/
inductive Stage where
  /-- The category, the flags and the default value. -/
  | traits
  | ancestors
  | publicMethods
  | remoteableMethods
  /-- The members that set names and parents, and the bean dictionary. -/
  | members
  | implementation
  /-- The recipes, the transforms and those of descendants. -/
  | transforms
  | elementOrKey
  | value
  | verdict
  deriving Repr, DecidableEq

def Body.judged (body : Body) (bean : BeanVerdict) : Body :=
  { body with parts := { body.parts with bean } }

namespace Stage

def outlining : List Stage :=
  [.traits, .ancestors, .publicMethods, .remoteableMethods, .members,
   .implementation, .transforms]

def all : List Stage :=
  outlining ++ [.elementOrKey, .value, .verdict]

/-- A body with the fields of a stage, which are those of a whole body. -/
def fill (whole body : Body) : Stage → Body
  | .traits =>
    { body with
      parts :=
        { body.parts with
          category := whole.parts.category
          isDelegate := whole.parts.isDelegate
          isAbstract := whole.parts.isAbstract
          isInterface := whole.parts.isInterface
          isPrimitive := whole.parts.isPrimitive
          requiresEnclosing := whole.parts.requiresEnclosing
          defaultValue? := whole.parts.defaultValue? } }
  | .ancestors =>
    { body with
      parts := { body.parts with ancestors := whole.parts.ancestors } }
  | .publicMethods =>
    { body with
      parts := { body.parts with publicMethods := whole.parts.publicMethods } }
  | .remoteableMethods =>
    { body with
      parts :=
        { body.parts with
          remoteableMethods? := whole.parts.remoteableMethods? } }
  | .members =>
    { body with
      parts :=
        { body.parts with
          nameProperty? := whole.parts.nameProperty?
          parentProperty? := whole.parts.parentProperty?
          beanDictionary := whole.parts.beanDictionary } }
  | .implementation =>
    { body with
      parts :=
        { body.parts with implementation? := whole.parts.implementation? } }
  | .transforms =>
    { body with
      parts :=
        { body.parts with
          recipes := whole.parts.recipes
          bindings := whole.parts.bindings
          children := whole.parts.children } }
  | .elementOrKey =>
    { body with element? := whole.element?, key? := whole.key? }
  | .value => { body with value? := whole.value? }
  | .verdict => body.judged whole.parts.bean

end Stage

/-- The body of a type that some stages have filled as in a whole body. -/
def Body.filledBy (whole : Body) (name : TypeName) (stages : List Stage) :
    Body :=
  stages.foldl (Stage.fill whole) (Body.blank name)

namespace Assembly

def contextOf (sources : Sources) (name : TypeName) (bindings : List Binding) :
    Construction.Context where
  implementation? :=
    (sources.config.implementations.get? name).bind sources.provider.known?
  rootType := sources.config.rootType
  surrogates := bindings.map fun binding => binding.transform.surrogate
  provider? := some sources.provider

/-- The bindings of a type of which all transforms that it names are known. -/
def bindingsIn (sources : Sources) (facts : TypeFacts) : List Binding :=
  (Transform.discover? facts).toList.map (fun transform =>
      ⟨transform, .swapMethod⟩) ++
    ((sources.transforms.bindingsFor facts
      (sources.provider.ancestors facts)).toOption.getD [])

/-- The parts of a known type, up to its members. -/
def describedBy (sources : Sources) (name : TypeName) (facts : TypeFacts) :
    Parts :=
  ({ (Parts.blank name).glance facts with
      ancestors := sources.provider.ancestors facts }).withMembers
    sources.provider facts

/-- The parts of a known type, whatever it is that its outline may fail of. -/
def outlinedBy (sources : Sources) (name : TypeName) (facts : TypeFacts) :
    Parts :=
  let bindings := bindingsIn sources facts
  { describedBy sources name facts with
    implementation? := sources.config.implementations.get? name
    recipes := Construction.discover facts facts.category
      (contextOf sources name bindings)
    bindings
    children := sources.transforms.childrenOf name sources.provider }

/-- The body of a known type, when its outline has ended. -/
def outlinedBody (sources : Sources) (name : TypeName) (facts : TypeFacts) :
    Body :=
  { Body.blank name with parts := outlinedBy sources name facts }

end Assembly

open Assembly

/-- The body of a type with each of its fields, whatever may fail. -/
def Sources.whole (sources : Sources) (name : TypeName) : Body :=
  match sources.provider.known? name with
  | none => Body.blank name
  | some facts =>
    completed sources facts (sources.config.implementations.contains name)
      (outlinedBody sources name facts)

namespace Assembly

variable {sources : Sources} {name : TypeName} {facts : TypeFacts}

@[simp]
theorem holding_parts (body : Body) :
    (holding sources facts body).parts = body.parts := by
  unfold holding
  cases facts.category with
  | array => cases facts.arrayOf <;> rfl
  | _ => rfl

theorem whole_of_known (known : sources.provider.known? name = some facts) :
    sources.whole name =
      completed sources facts (sources.config.implementations.contains name)
        (outlinedBody sources name facts) := by
  unfold Sources.whole
  rw [known]

theorem filledBy_of_subset (known : sources.provider.known? name = some facts)
    {stages : List Stage} (within : stages ⊆ Stage.outlining) :
    (sources.whole name).filledBy name stages =
      (outlinedBody sources name facts).filledBy name stages := by
  refine List.foldl_ext _ _ _ fun body stage member => ?_
  rw [whole_of_known known]
  have among := within member
  cases stage with
  | elementOrKey => exact absurd among (by decide)
  | value => exact absurd among (by decide)
  | verdict => exact absurd among (by decide)
  | _ => simp only [Stage.fill, completed, holding_parts]

/-- Whether some of the first stages, but not all, have filled a body. -/
def IsUnfinished (sources : Sources) (name : TypeName) (body : Body) : Prop :=
  ∃ done missing, Stage.all = done ++ missing ∧ missing ≠ [] ∧
    body.withoutSlots = (sources.whole name).filledBy name done

/-- What an outline leaves: all of its stages or, where it stops, the first. -/
def LeavesStages (sources : Sources) (name : TypeName) :
    Except Stop (TypeFacts × Bool) → Parts → Prop
  | .ok (facts, hasImplementation), left =>
    sources.provider.known? name = some facts ∧
      hasImplementation = sources.config.implementations.contains name ∧
        left = outlinedBy sources name facts
  | .error _, left =>
    IsUnfinished sources name { Body.blank name with parts := left }

open Outlining

variable {parts : Parts}

theorem requestImplementation_leaves_known
    (bare : parts.implementation? = none) :
    Leaves (fun outcome left =>
        left = { parts with
          implementation? := sources.config.implementations.get? name } ∧
        ∀ given, outcome = .ok given →
          given.isSome = sources.config.implementations.contains name ∧
            given = (sources.config.implementations.get? name).bind
              sources.provider.known?)
      (requestImplementation sources name) parts := by
  unfold requestImplementation NameMap.contains
  cases sources.config.implementations.get? name with
  | none =>
    refine ⟨?_, fun given same => ?_⟩
    · exact congrArg (fun given => { parts with implementation? := given }) bare
    · cases same
      exact ⟨rfl, rfl⟩
  | some implementation =>
    apply leaves_modify_bind
    refine Leaves.bind_steady (requestFacts_leaves _ _) ?_ ?_
    · exact fun _ _ => ⟨rfl, nofun⟩
    · intro facts given
      refine ⟨rfl, fun _ same => ?_⟩
      cases same
      exact ⟨rfl, given⟩

theorem outline_leaves_stages (sources : Sources) (name : TypeName) :
    Leaves (LeavesStages sources name) (outline sources name)
      (Parts.blank name) := by
  refine Leaves.bind_steady (requestFacts_leaves _ _) ?_ ?_
  · exact fun _ _ => ⟨[], Stage.all, rfl, nofun, rfl⟩
  intro facts known
  have known : sources.provider.known? name = some facts := known.symm
  have stops (done missing : List Stage) (split : Stage.all = done ++ missing)
      (some : missing ≠ []) (within : done ⊆ Stage.outlining)
      (left : Parts) (undecided : Undecided left)
      (filled : ({ Body.blank name with parts := left } : Body) =
        (outlinedBody sources name facts).filledBy name done) :
      IsUnfinished sources name { Body.blank name with parts := left } := by
    refine ⟨done, missing, split, some, ?_⟩
    rw [withoutSlots_outlined undecided, filled,
      filledBy_of_subset known within]
  apply leaves_modify_bind
  refine Leaves.bind_steady (crashOn_leaves _) (fun _ _ => ?_) fun _ _ => ?_
  · exact stops [.traits] _ rfl nofun (by decide) _ rfl rfl
  apply leaves_modify_bind
  apply leaves_modify_bind
  have described := stops
    [.traits, .ancestors, .publicMethods, .remoteableMethods, .members] _ rfl
    nofun (by decide) (describedBy sources name facts) rfl rfl
  refine Leaves.bind_steady (bindingsOf_leaves facts _) (fun _ _ => described)
    fun bindings found => ?_
  obtain ⟨bound, given, same⟩ := found bindings rfl
  refine Leaves.bind_steady (crashOn_leaves _) (fun _ _ => described)
    fun _ _ => ?_
  apply Leaves.bind
  apply (requestImplementation_leaves_known rfl).mono
  have implemented := stops
    [.traits, .ancestors, .publicMethods, .remoteableMethods, .members,
      .implementation] _ rfl nofun (by decide)
    ({ describedBy sources name facts with
      implementation? := sources.config.implementations.get? name } : Parts)
    rfl rfl
  rintro (stop | implementation?) left ⟨rfl, requested⟩
  · exact implemented
  obtain ⟨implements, rfl⟩ := requested _ rfl
  dsimp only [Outlining.GoesOn]
  refine Leaves.bind_steady (crashOn_leaves _) (fun _ _ => implemented)
    fun _ _ => ?_
  apply leaves_modify_bind
  refine ⟨known, implements, ?_⟩
  have whole : bindings = bindingsIn sources facts := by
    rw [same, bindingsIn, given]
    rfl
  rw [whole]
  rfl

/-! ### Steps that take references -/

/-- Whether a step leaves the body as it is, and gives only what counts. -/
def Draws (contract : Contract) (holds : α → Prop)
    (assembling : Assembling Procedure α) : Prop :=
  ∀ past body, Meets contract
    (fun _ outcome left => left = body ∧
      ∀ value, outcome = .ok value → holds value)
    assembling past body

variable {contract : Contract} {past : Past} {body : Body}
  {reference : TypeExpr → Assembling Procedure TypeRef}

theorem Draws.meets_bind {ensures : Past → Except Stop β → Body → Prop}
    {holds : α → Prop} {assembling : Assembling Procedure α}
    {next : α → Assembling Procedure β}
    (draws : Draws contract holds assembling)
    (stops : ∀ later stop, ensures later (.error stop) body)
    (goesOn : ∀ later value, holds value →
      Meets contract ensures (next value) later body) :
    Meets contract ensures (assembling >>= next) past body := by
  apply Meets.bind
  apply (draws past body).mono
  rintro later (stop | value) _ ⟨rfl, held⟩
  · exact stops later stop
  · exact goesOn later value (held value rfl)

theorem Draws.bind {holds : α → Prop} {holdsLater : β → Prop}
    {assembling : Assembling Procedure α}
    {next : α → Assembling Procedure β}
    (draws : Draws contract holds assembling)
    (goesOn : ∀ value, holds value → Draws contract holdsLater (next value)) :
    Draws contract holdsLater (assembling >>= next) :=
  fun _ body => draws.meets_bind (fun _ _ => ⟨rfl, nofun⟩)
    fun later value held => goesOn value held later body

theorem draws_pure {holds : α → Prop} {value : α} (held : holds value) :
    Draws contract holds (pure value) := by
  intro _ _
  refine ⟨rfl, fun _ same => ?_⟩
  cases same
  exact held

/-- Whether references are taken to the expressions that are asked for. -/
def DrawsReferences (contract : Contract)
    (reference : TypeExpr → Assembling Procedure TypeRef) : Prop :=
  ∀ expression, Draws contract
    (fun given : TypeRef => given.withoutSlot = ⟨expression, 0⟩)
    (reference expression)

theorem property_draws (references : DrawsReferences contract reference)
    (draft : Bean.Draft) :
    Draws contract (fun given => given.withoutSlot = freeProperty draft)
      (property reference draft) := by
  refine (references draft.type).bind fun given same => draws_pure ?_
  simp only [BeanProperty.withoutSlot, freeProperty, same]

theorem mapM_property_draws (references : DrawsReferences contract reference)
    (drafts : List Bean.Draft) :
    Draws contract
      (fun given => given.map BeanProperty.withoutSlot =
        drafts.map freeProperty)
      (drafts.mapM (property reference)) := by
  induction drafts with
  | nil => exact draws_pure rfl
  | cons draft rest ih =>
    rw [List.mapM_cons]
    refine (property_draws references draft).bind fun first same => ?_
    refine ih.bind fun others sameToo => draws_pure ?_
    rw [List.map_cons, List.map_cons, same, sameToo]

theorem judge_draws (references : DrawsReferences contract reference)
    (facts : TypeFacts) (hasImplementation : Bool) :
    Draws contract
      (fun given => given.withoutSlots =
        freeJudgement sources facts hasImplementation)
      (judge sources reference facts hasImplementation) := by
  unfold judge freeJudgement
  cases Bean.objection? facts sources.config hasImplementation with
  | some reason => exact draws_pure rfl
  | none =>
    refine (mapM_property_draws references _).bind fun given same => ?_
    apply draws_pure
    simp only [BeanVerdict.withoutSlots, same]
    rfl

/-- Where introspection decides nothing, the verdict is that of the members. -/
theorem verdict_draws (references : DrawsReferences contract reference)
    (facts : TypeFacts) (hasImplementation : Bool) :
    Draws contract
      (fun given => given.withoutSlots =
        freeVerdict sources facts hasImplementation)
      (verdict sources reference (fun _ _ => pure none) facts
        hasImplementation) := by
  unfold verdict freeVerdict
  cases facts.category == .other with
  | false => exact draws_pure rfl
  | true =>
    have undecided : Draws contract (· = none)
        (pure none : Assembling Procedure (Option BeanVerdict)) :=
      draws_pure rfl
    exact undecided.bind fun _ same =>
      same ▸ judge_draws references facts hasImplementation

theorem isUnfinished_outlinedBody
    (known : sources.provider.known? name = some facts) :
    IsUnfinished sources name (outlinedBody sources name facts) := by
  refine ⟨Stage.outlining, _, rfl, nofun, ?_⟩
  rw [filledBy_of_subset known (List.Subset.refl _)]
  rfl

/-- Taking the references is all that is left before the verdict. -/
theorem filledBy_holding (known : sources.provider.known? name = some facts) :
    (sources.whole name).filledBy name
        (Stage.outlining ++ [.elementOrKey, .value]) =
      holding sources facts (outlinedBody sources name facts) := by
  rw [whole_of_known known]
  unfold completed holding outlinedBody
  cases facts.category with
  | array => cases facts.arrayOf <;> rfl
  | _ => rfl

theorem filledBy_all (known : sources.provider.known? name = some facts) :
    (sources.whole name).filledBy name Stage.all = sources.whole name := by
  have split : Stage.all =
      (Stage.outlining ++ [.elementOrKey, .value]) ++ [.verdict] := rfl
  have filled := filledBy_holding known
  unfold Body.filledBy at filled ⊢
  rw [split, List.foldl_append, filled, whole_of_known known]
  rfl

/-- What taking references leaves: all stages but the verdict, or fewer. -/
def LeavesHeld (sources : Sources) (name : TypeName) (facts : TypeFacts) :
    Except Stop Unit → Body → Prop
  | .ok _, left => left.withoutSlots =
      holding sources facts (outlinedBody sources name facts)
  | .error _, left => IsUnfinished sources name left

theorem takeReferences_leaves
    (known : sources.provider.known? name = some facts)
    (references : DrawsReferences contract reference) :
    Meets contract (fun _ => LeavesHeld sources name facts)
      (takeReferences sources reference facts) past
      (outlinedBody sources name facts) := by
  have stops := isUnfinished_outlinedBody known
  have keyed (pairs : facts.category = .pairContainer ∨
      facts.category = .beanMap) (key : TypeRef)
      (same : key.withoutSlot = ⟨typeArgument sources facts 0, 0⟩) :
      IsUnfinished sources name
        { outlinedBody sources name facts with key? := some key } := by
    refine ⟨Stage.outlining ++ [.elementOrKey], _, rfl, nofun, ?_⟩
    rw [whole_of_known known]
    unfold completed holding Body.withoutSlots
    rcases pairs with category | category <;>
    · simp only [category, Option.map_some, same]
      rfl
  unfold takeReferences LeavesHeld holding
  cases category : facts.category with
  | array =>
    cases facts.arrayOf with
    | none => exact rfl
    | some component =>
      refine (references component).meets_bind (fun _ _ => stops)
        fun _ element same => meets_modify ?_
      simp only [Body.withoutSlots, Option.map_some, same]
      rfl
  | elementContainer =>
    refine (references _).meets_bind (fun _ _ => stops)
      fun _ element same => meets_modify ?_
    simp only [Body.withoutSlots, Option.map_some, same]
    rfl
  | pairContainer | beanMap =>
    refine (references _).meets_bind (fun _ _ => stops)
      fun _ key same => Meets.bind (meets_modify ?_)
    dsimp only [GoesOn]
    refine (references _).meets_bind
      (fun _ _ => keyed (by simp [category]) key same)
      fun _ value sameToo => meets_modify ?_
    simp only [Body.withoutSlots, Option.map_some, same, sameToo]
    rfl
  | _ => exact rfl

end Assembly

/-- Whether a body is filled by the first stages as assembly without a cache
fills it, by all of them just if it is ready, and else has blank fields. -/
structure Body.IsCutOff (sources : Sources) (name : TypeName) (body : Body) :
    Prop where
  stages : ∃ done missing, Stage.all = done ++ missing ∧
    (body.failure? = none ↔ missing = []) ∧
      body.withoutSlots =
        { (sources.whole name).filledBy name done with
          failure? := body.failure? }
  /-- A type that fails on its own is left as it is without a cache. -/
  stopped : ¬ sources.Assembles name →
    body.withoutSlots =
      { (cacheFree sources name).2 with failure? := body.failure? }

namespace Assembly

variable {sources : Sources} {name : TypeName} {facts : TypeFacts}
  {contract : Contract} {past : Past} {body : Body}
  {reference : TypeExpr → Assembling Procedure TypeRef}

theorem IsUnfinished.isCutOff (unfinished : IsUnfinished sources name body)
    (stopped : ¬ sources.Assembles name →
      body.withoutSlots = (cacheFree sources name).2)
    (reason : String) :
    ({ body with failure? := some reason } : Body).IsCutOff sources name := by
  obtain ⟨done, missing, split, some, filled⟩ := unfinished
  refine ⟨⟨done, missing, split, iff_of_false nofun some, ?_⟩, fun fails => ?_⟩
  · rw [← filled]
    rfl
  · rw [← stopped fails]
    rfl

theorem outline_runStages (sources : Sources) (name : TypeName) :
    ∃ outcome parts,
      (liftOutline (outline sources name)).runFree (Body.blank name) =
          (outcome, { Body.blank name with parts }) ∧
        LeavesStages sources name outcome parts ∧
          Outlining.Undecided parts := by
  have undecided {outcome : Except Stop (TypeFacts × Bool)} {parts : Parts}
      {holds : TypeFacts × Bool → Prop}
      (sound : Outlining.Sound holds outcome parts) :
      Outlining.Undecided parts := by
    cases outcome <;> exact sound.2
  exact ⟨_, _, rfl, outline_leaves_stages sources name, undecided outline_sound⟩

/-- Without a cache, only the outline stops the stages before they are done. -/
theorem cacheFree_eq_whole (assembles : sources.Assembles name) :
    (cacheFree sources name).2 = sources.whole name := by
  obtain ⟨outcome, parts, outlined, leaves, _⟩ := outline_runStages sources name
  rcases outcome with stop | ⟨facts, hasImplementation⟩
  · unfold Sources.Assembles at assembles
    rw [cacheFree_of_outline_error outlined] at assembles
    cases assembles
  · obtain ⟨known, rfl, rfl⟩ := leaves
    rw [cacheFree_of_outline outlined, whole_of_known known]
    rfl

/-- Assembly leaves the first stages, and all of them if nothing stops it. -/
theorem assemble_isCutOff (references : DrawsReferences contract reference)
    (name : TypeName) :
    Meets contract
      (fun _ => Lookup.LeavesFitting
        (fun name body => body.IsCutOff sources name) name)
      (assemble sources reference (fun _ _ => pure none) name) past
      (Body.blank name) := by
  obtain ⟨outcome, parts, outlined, leaves, undecided⟩ :=
    outline_runStages sources name
  unfold assemble
  apply Meets.bind
  apply meets_outline outlined
  rcases outcome with stop | ⟨facts, hasImplementation⟩
  · refine fun _ _ => IsUnfinished.isCutOff leaves (fun _ => ?_) _
    rw [cacheFree_of_outline_error outlined]
    exact withoutSlots_outlined undecided
  obtain ⟨known, rfl, rfl⟩ := leaves
  have assembles := assembles_of_outline outlined
  have stops {left : Body} (stop : Stop)
      (unfinished : IsUnfinished sources name left) :
      Lookup.LeavesFitting (fun name body => body.IsCutOff sources name) name
        (.error stop) left :=
    fun _ _ => unfinished.isCutOff (fun fails => (fails assembles).elim) _
  apply Meets.bind
  apply (takeReferences_leaves known references).mono
  rintro later (stop | _) left held
  · exact stops stop held
  have filled : left.withoutSlots = (sources.whole name).filledBy name
      (Stage.outlining ++ [.elementOrKey, .value]) :=
    held.trans (filledBy_holding known).symm
  refine (verdict_draws references facts _).meets_bind
    (fun _ stop => stops stop ⟨_, [.verdict], rfl, nofun, filled⟩)
    fun latest bean same => meets_modify ?_
  have ready : left.failure? = none := congrArg Body.failure? filled
  have whole : (left.judged bean).withoutSlots = sources.whole name :=
    calc (left.judged bean).withoutSlots
      _ = left.withoutSlots.judged bean.withoutSlots := rfl
      _ = sources.whole name := by
        rw [held, same, whole_of_known known]
        rfl
  refine ⟨⟨Stage.all, [], rfl, iff_of_true ready rfl, ?_⟩,
    fun fails => (fails assembles).elim⟩
  rw [filledBy_all known, ← whole]
  rfl

end Assembly

namespace Lookup

theorem takeReference_draws (agent : Agent) {build : Builder}
    {fits : TypeName → Body → Prop} (builds : BuildsFitting fits build) :
    Assembly.DrawsReferences (publishing fits)
      fun expression => Assembly.lift (takeReference build expression) := by
  intro expression past body
  have looks : Publishes fits (expression.names.forM fun name => do
      let _ ← getNested build name) :=
    (publishes_congruence agent builds).looks fun _ _ => trivial
  apply Assembly.Meets.lift
  apply Meets.bind
  apply (looks past).mono
  rintro later (stop | _) _
  · exact ⟨rfl, nofun⟩
  refine meets_perform_bind trivial fun slot _ => meets_pure ⟨rfl, ?_⟩
  rintro _ ⟨⟩
  rfl

theorem assembly_of_isPlain {sources : Sources} (plain : sources.IsPlain)
    (thread : ThreadId) (build : Builder) (name : TypeName) :
    assembly { sources, thread } build name =
      Assembly.assemble sources
        (fun expression => Assembly.lift (takeReference build expression))
        (fun _ _ => pure none) name := by
  unfold assembly
  congr 1
  funext facts hasImplementation
  rw [plain]
  rfl

theorem assemblesFitting_isCutOff {sources : Sources}
    (plain : sources.IsPlain) (thread : ThreadId) :
    AssemblesFitting (fun name body => body.IsCutOff sources name)
      { sources, thread } := by
  intro build builds name past
  rw [assembly_of_isPlain plain]
  exact Assembly.assemble_isCutOff
    (takeReference_draws { sources, thread } builds) name

end Lookup

namespace Pool

/-- However threads interleave, what is cached for a type has its fields from
the first stages and no others, and all of them if it is ready.  The category is
the first field of all. -/
theorem isCutOff_of_lives {sources : Sources} {pool : Pool} {name : TypeName}
    {body : Body} (lives : Lives sources pool) (plain : sources.IsPlain)
    (published : pool.store.published? name = some body) :
    body.IsCutOff sources name ∧
      (sources.Assembles name →
        (cacheFree sources name).2 = sources.whole name) ∧
      ∀ facts, sources.provider.known? name = some facts →
        body.parts.category = facts.category := by
  have fits := lives.publishes (Lookup.assemblesFitting_isCutOff plain)
  refine ⟨fits.published name body published, cacheFree_eq_whole,
    fun facts known => ?_⟩
  rw [(lives.isOutlined published).category, known]
  rfl

/-- An array is known, although it failed on what it holds. -/
theorem isCutOff_of_missing :
    let sources := Sources.ofArrays [("A", "X")]
    ∃ pool body, Lives sources pool ∧ sources.IsPlain ∧
      pool.store.published? "A" = some body ∧ sources.Assembles "A" ∧
        body.failure? ≠ none ∧ body.IsCutOff sources "A" ∧
          body.parts.category = .array := by
  intro sources
  have plain : sources.IsPlain := rfl
  have known : sources.provider.known? "A" =
      some { name := "A", arrayOf := some (.named "X") } := rfl
  have assembles : sources.Assembles "A" := by
    decide +kernel
  have missing : ¬ sources.Assembles "X" := by
    decide +kernel
  have held : (cacheFree sources "A").2.referred = ["X"] := by
    decide +kernel
  have refers : sources.Refers "A" "X" :=
    ⟨assembles, held ▸ List.mem_singleton.2 rfl⟩
  obtain ⟨cached, fails⟩ := Session.isReady_get plain 0
    fun sound => missing (sound "X" (.single refers))
  have own : ∀ operation ∈ [Operation.get "A"], ∀ reference,
      operation ≠ .follow reference := by
    rintro operation member reference rfl
    cases List.mem_singleton.1 member
  have onTour := Session.performAll_onTour sources 0 own
  obtain ⟨pool, tours, isIn⟩ := onTour.tours
  obtain ⟨body, published⟩ := onTour.orderly.exists_published cached
  have failed : body.failure? ≠ none := by
    intro ready
    rw [Session.isReady_of_published published, ready] at fails
    cases fails
  rw [← isIn.store] at published
  obtain ⟨cut, -, category⟩ := isCutOff_of_lives tours.lives plain published
  exact ⟨pool, body, tours.lives, plain, published, assembles, failed, cut,
    category _ known⟩

end Pool

end TypeAtlas
