import TypeAtlas.Proofs.Registry.Backing

/-!
# What assemblies and operations record

An assembly takes every reference that it fills in, whether it comes to its end
or not, so the body that is published in the end is covered by the ledger.  From
this follows that all builds, and with them all operations, uphold the ledger.
-/

namespace TypeAtlas

namespace Records

variable {records : Records} {body : Body}

theorem mem_references {reference : TypeRef} :
    reference ∈ body.references ↔
      body.element? = some reference ∨ body.key? = some reference ∨
        body.value? = some reference ∨ reference ∈ body.args ∨
          reference ∈ body.parts.bean.references := by
  unfold Body.references BeanVerdict.references
  cases body.parts.bean <;> simp

theorem Covers.of_mem {other : Body} (covers : records.Covers body)
    (held : ∀ reference ∈ other.references,
      reference ∈ body.references ∨ records.Backs reference) :
    records.Covers other :=
  fun reference member => (held reference member).elim (covers reference) id

theorem Covers.withElement {element : TypeRef} (covers : records.Covers body)
    (backs : records.Backs element) :
    records.Covers { body with element? := some element } := by
  apply covers.of_mem
  intro reference
  grind [mem_references]

theorem Covers.withKey {key : TypeRef} (covers : records.Covers body)
    (backs : records.Backs key) :
    records.Covers { body with key? := some key } := by
  apply covers.of_mem
  intro reference
  grind [mem_references]

theorem Covers.withValue {value : TypeRef} (covers : records.Covers body)
    (backs : records.Backs value) :
    records.Covers { body with value? := some value } := by
  apply covers.of_mem
  intro reference
  grind [mem_references]

theorem Covers.withBean {bean : BeanVerdict} (covers : records.Covers body)
    (backs : ∀ reference ∈ bean.references, records.Backs reference) :
    records.Covers { body with parts := { body.parts with bean } } := by
  apply covers.of_mem
  intro reference
  grind [mem_references]

/-- A specialization refers to what its base does, and to its arguments. -/
theorem Covers.specialized {references : List TypeRef}
    (covers : records.Covers body)
    (backs : ∀ reference ∈ references, records.Backs reference) :
    records.Covers (Lookup.specialized body references) := by
  apply covers.of_mem
  intro reference
  unfold Lookup.specialized Body.specialize
  split <;> grind [mem_references]

theorem covers_outlined {name : TypeName} {parts : Parts}
    (undecided : Assembly.Outlining.Undecided parts) :
    records.Covers { Body.blank name with parts } := by
  intro reference member
  have judged : reference ∈ parts.bean.references := by
    simpa [mem_references, Body.blank] using member
  rw [undecided] at judged
  cases judged

theorem covers_argumentList {references : List TypeRef}
    (backs : ∀ reference ∈ references, records.Backs reference) :
    records.Covers (Body.argumentList references) := by
  intro reference member
  have listed : reference ∈ references := by
    simpa [mem_references, Body.argumentList, BeanVerdict.references]
      using member
  exact backs reference listed

end Records

namespace Assembly

/-- A step of assembly leaves a body that the ledger covers, and what it gives
is as told. -/
def Fills (thread : ThreadId) (holds : Ledger → α → Prop)
    (assembling : Assembling Procedure α) (ledger : Ledger) (body : Body) :
    Prop :=
  Procedure.Upholds thread True
    (fun later (result : Except Stop α × Body) =>
      later.Covers result.2 ∧ Lookup.Gives True holds later result.1)
    ((ExceptT.run assembling).run body) ledger

variable {thread : ThreadId} {ledger : Ledger} {body : Body}

theorem Fills.bind {holds : Ledger → α → Prop}
    {holdsLater : Ledger → β → Prop} {assembling : Assembling Procedure α}
    {next : α → Assembling Procedure β}
    (fills : Fills thread holds assembling ledger body)
    (goesOn : ∀ value later left, ledger.Within later → later.Covers left →
      holds later value → Fills thread holdsLater (next value) later left) :
    Fills thread holdsLater (assembling >>= next) ledger body := by
  apply Procedure.Upholds.bind
  apply Procedure.Upholds.weaken fills
  rintro later ⟨outcome, left⟩ grows ⟨covers, held⟩
  cases outcome with
  | ok value => exact goesOn value later left grows covers held
  | error stop => exact ⟨covers, trivial⟩

theorem fills_pure {holds : Ledger → α → Prop} {value : α}
    (covers : ledger.Covers body) (held : holds ledger value) :
    Fills thread holds (pure value) ledger body :=
  ⟨covers, held⟩

theorem fills_modify {change : Body → Body}
    (covers : ledger.Covers (change body)) :
    Fills thread (fun _ _ => True) (modify change) ledger body :=
  ⟨covers, trivial⟩

theorem fills_lift {holds : Ledger → α → Prop} {lookup : Lookup α}
    (covers : ledger.Covers body)
    (upholds : Lookup.Upholds thread True (Lookup.Gives True holds) lookup
      ledger) :
    Fills thread holds (lift lookup) ledger body := by
  apply Procedure.Upholds.bind
  apply Procedure.Upholds.weaken upholds
  intro later outcome grows given
  exact ⟨covers.mono grows, given⟩

variable {agent : Lookup.Agent} {build : Lookup.Builder}
  {sources : Sources} {facts : TypeFacts}

open Lookup

abbrev referenceOf (build : Builder) (expression : TypeExpr) :
    Assembling Procedure TypeRef :=
  lift (takeReference build expression)

theorem reference_fills (builds : BuildsUpholding agent build)
    {expression : TypeExpr} (covers : ledger.Covers body) :
    Fills agent.thread (fun later reference => later.Backs reference)
      (referenceOf build expression) ledger body := by
  apply fills_lift covers
  apply (takeReference_upholds (provides_of_builds builds _ ledger)).weaken
  intro later outcome _ given
  cases outcome with
  | ok reference => exact given.2
  | error stop => trivial

theorem takeReferences_fills (builds : BuildsUpholding agent build)
    (covers : ledger.Covers body) :
    Fills agent.thread (fun _ _ => True)
      (takeReferences sources (referenceOf build) facts) ledger body := by
  unfold takeReferences
  cases facts.category with
  | array =>
    cases facts.arrayOf with
    | none => exact fills_pure covers trivial
    | some component =>
      apply (reference_fills builds covers).bind
      intro element later left _ covers backs
      exact fills_modify (covers.withElement backs)
  | elementContainer =>
    apply (reference_fills builds covers).bind
    intro element later left _ covers backs
    exact fills_modify (covers.withElement backs)
  | pairContainer | beanMap =>
    apply (reference_fills builds covers).bind
    intro key later left _ covers backs
    apply (fills_modify (covers.withKey backs)).bind
    intro _ latest left _ covers _
    apply (reference_fills builds covers).bind
    intro value end_ left _ covers backs
    exact fills_modify (covers.withValue backs)
  | _ => exact fills_pure covers trivial

theorem property_fills (builds : BuildsUpholding agent build)
    (draft : Bean.Draft) (covers : ledger.Covers body) :
    Fills agent.thread (fun later property => later.Backs property.type)
      (property (referenceOf build) draft) ledger body := by
  apply (reference_fills builds covers).bind
  intro reference later left _ covers backs
  exact fills_pure covers backs

theorem mapM_property_fills (builds : BuildsUpholding agent build)
    (drafts : List Bean.Draft) (covers : ledger.Covers body) :
    Fills agent.thread
      (fun later properties => ∀ property ∈ properties,
        later.Backs property.type)
      (drafts.mapM (property (referenceOf build))) ledger body := by
  induction drafts generalizing ledger body with
  | nil => exact fills_pure covers fun _ member => nomatch member
  | cons draft rest ih =>
    rw [List.mapM_cons]
    apply (property_fills builds draft covers).bind
    intro property later left _ covers backs
    apply (ih covers).bind
    intro properties latest left further covers backed
    refine fills_pure covers fun other member => ?_
    rcases List.mem_cons.1 member with rfl | member
    · exact backs.mono further
    · exact backed other member

theorem fills_outline {outlining : Outlining α} {outcome : Except Stop α}
    {left : Body}
    (outlined : (liftOutline outlining).runFree body = (outcome, left))
    (covers : ledger.Covers left) :
    Fills thread (fun _ _ => True) (liftOutline outlining) ledger body := by
  cases outlined
  refine ⟨covers, ?_⟩
  unfold Gives
  split <;> trivial

theorem outline_fills (sources : Sources) (name : TypeName)
    (ledger : Ledger) :
    Fills thread (fun _ _ => True) (liftOutline (outline sources name)) ledger
      (Body.blank name) := by
  obtain ⟨outcome, parts, outlined, sound⟩ := outline_runFree sources name
  apply fills_outline outlined
  apply Records.covers_outlined
  cases outcome with
  | ok value => exact sound.2
  | error stop => exact sound.2

/-- Whether a verdict refers only to what was taken. -/
def Vouches (ledger : Ledger) (bean : BeanVerdict) : Prop :=
  ∀ reference ∈ bean.references, ledger.Backs reference

theorem judge_fills (builds : BuildsUpholding agent build)
    (hasImplementation : Bool) (covers : ledger.Covers body) :
    Fills agent.thread Vouches
      (judge sources (referenceOf build) facts hasImplementation)
      ledger body := by
  unfold judge
  cases Bean.objection? facts sources.config hasImplementation with
  | some reason => exact fills_pure covers fun _ member => nomatch member
  | none =>
    apply (mapM_property_fills builds _ covers).bind
    intro properties later left _ covers backed
    refine fills_pure covers fun reference member => ?_
    obtain ⟨property, listed, rfl⟩ := List.mem_map.1 member
    exact backed property listed

theorem verdict_fills (builds : BuildsUpholding agent build)
    {introspect : TypeFacts → Bool → Assembling Procedure (Option BeanVerdict)}
    {hasImplementation : Bool}
    (introspects : ∀ later left, later.Covers left →
      Fills agent.thread
        (fun _ verdict? => ∀ verdict, verdict? = some verdict →
          verdict.references = [])
        (introspect facts hasImplementation) later left)
    (covers : ledger.Covers body) :
    Fills agent.thread Vouches
      (verdict sources (referenceOf build) introspect facts hasImplementation)
      ledger body := by
  unfold verdict
  cases facts.category == .other with
  | false => exact fills_pure covers fun _ member => nomatch member
  | true =>
    apply (introspects ledger body covers).bind
    intro verdict? later left _ covers decided
    cases verdict? with
    | some verdict =>
      refine fills_pure covers fun reference member => ?_
      rw [decided verdict rfl] at member
      cases member
    | none => exact judge_fills builds hasImplementation covers

end Assembly

namespace Lookup

open Assembly

variable {agent : Agent} {build : Builder} {ledger : Ledger}

theorem assembly_fills (builds : BuildsUpholding agent build)
    (name : TypeName) (ledger : Ledger) :
    Fills agent.thread (fun _ _ => True) (assembly agent build name) ledger
      (Body.blank name) := by
  apply (outline_fills agent.sources name ledger).bind
  rintro ⟨facts, hasImplementation⟩ later left _ covers _
  apply (takeReferences_fills builds covers).bind
  intro _ latest left _ covers _
  refine (verdict_fills builds ?_ covers).bind ?_
  · intro later left covers
    exact fills_lift covers
      (followScript_upholds builds facts hasImplementation _ later)
  · intro bean end_ left _ covers vouches
    exact fills_modify (covers.withBean vouches)

theorem buildWith_upholds (builds : BuildsUpholding agent build)
    (name : TypeName) (identity : Nat) (ledger : Ledger) :
    Upholds agent.thread True (fun _ _ => True)
      (buildWith agent build name identity) ledger := by
  refine upholds_quietly_bind trivial fun _ later _ => ?_
  apply Upholds.lift_bind (assembly_fills builds name later)
  rintro ⟨outcome, body⟩ latest _ ⟨covers, _⟩
  cases outcome with
  | ok _ =>
    apply (upholds_publish covers).surely_bind
    intro _ end_ _ _
    have counts : Upholds agent.thread True (Gives False fun _ _ => True)
        (perform (.recordBuild false)) end_ := upholds_quietly trivial
    exact counts.weaken fun _ _ _ _ => trivial
  | error stop =>
    cases failure : Stop.failure? stop with
    | none =>
      simp only [failure]
      exact upholds_throw trivial
    | some error =>
      simp only [failure]
      have covers : latest.Covers
          { body with failure? := some error.message } := covers
      apply (upholds_publish covers).surely_bind
      intro _ end_ _ _
      exact upholds_quietly_bind trivial fun _ _ _ => upholds_throw trivial

theorem build_upholds (agent : Agent) (depth : Nat) :
    BuildsUpholding agent (Lookup.build agent depth) := by
  induction depth with
  | zero => exact fun _ _ _ => upholds_throw trivial
  | succ depth ih => exact buildWith_upholds ih

theorem builder_upholds (agent : Agent) :
    BuildsUpholding agent (builder agent) :=
  build_upholds agent _

end Lookup

namespace Operation

open Lookup

def expression? : Operation → Option TypeExpr
  | .get name => some (.named name)
  | .resolve expression => some expression
  | .lookup text => (TypeExpr.parse text).toOption
  | .specialize name args => some ⟨name, args⟩
  | .argumentList _ => none
  | .follow reference => some reference.expr

/-- What an operation gives, by the ledger: what its expression resolves to,
where a reference leads for good, and a body that refers only to what was
taken. -/
structure Fulfils (operation : Operation) (ledger : Ledger)
    (outcome : Except Stop Descriptor) : Prop where
  settles : ∀ expression, operation.expression? = some expression →
    Settles True expression ledger outcome
  leads : ∀ reference, operation = .follow reference →
    Leads (reference.expr.isParameterized = true) reference ledger outcome
  covers : ∀ number expression body,
    outcome = .ok (.detached number expression body) → ledger.Covers body

theorem covers_of_settles {fails : Prop} {expression other : TypeExpr}
    {ledger : Ledger} {outcome : Except Stop Descriptor} {number : Nat}
    {body : Body} (settles : Settles fails expression ledger outcome)
    (same : outcome = .ok (.detached number other body)) :
    ledger.Covers body := by
  subst same
  cases settles with
  | plain _ names =>
    obtain ⟨_, _, impossible⟩ := names
    cases impossible
  | dropped _ _ _ names =>
    obtain ⟨_, _, impossible⟩ := names
    cases impossible
  | specialized _ published _ _ backs =>
    exact (ledger.covered _ _ published).specialized backs

theorem persists_leads {fails : Prop} {reference : TypeRef} :
    Persists (Leads fails reference) := by
  intro ledger later outcome grows leads
  refine ⟨persists_settles _ _ _ grows leads.settles, ?_⟩
  intro descriptor same parameterized
  exact grows.targets _ _ (leads.kept descriptor same parameterized)

theorem persists_fulfils (operation : Operation) :
    Persists operation.Fulfils := by
  intro ledger later outcome grows fulfils
  refine ⟨fun expression asked => ?_, fun reference asked => ?_, ?_⟩
  · exact persists_settles _ _ _ grows (fulfils.settles expression asked)
  · exact persists_leads _ _ _ grows (fulfils.leads reference asked)
  · intro number expression body same
    exact (fulfils.covers number expression body same).mono grows

variable {agent : Agent} {ledger : Ledger}

theorem fulfils_of_settles {operation : Operation} {expression : TypeExpr}
    {outcome : Except Stop Descriptor}
    (asked : operation.expression? = some expression)
    (others : ∀ reference, operation ≠ .follow reference)
    (settles : Settles True expression ledger outcome) :
    operation.Fulfils ledger outcome where
  settles other same := by
    cases asked.symm.trans same
    exact settles
  leads reference same := (others reference same).elim
  covers _ _ _ same := covers_of_settles settles same

theorem follow_fulfils (reference : TypeRef) (backs : ledger.Backs reference) :
    Upholds agent.thread True (Operation.follow reference).Fulfils
      (Lookup.follow agent (builder agent) reference) ledger := by
  have fulfils {later : Ledger} {outcome : Except Stop Descriptor}
      (leads : Leads (reference.expr.isParameterized = true) reference later
        outcome) :
      (Operation.follow reference).Fulfils later outcome := by
    refine ⟨fun expression same => ?_, fun other same => ?_,
      fun _ _ _ same => covers_of_settles leads.settles same⟩
    · cases same
      cases outcome with
      | ok descriptor => exact leads.settles
      | error stop => exact .inl trivial
    · cases same
      exact leads
  cases parameterized : reference.expr.isParameterized with
  | true =>
    have provides := provides_of_builds (builder_upholds agent)
      reference.expr.names ledger
    apply (follow_upholds backs provides).weaken
    intro later outcome _ leads
    refine fulfils ⟨?_, leads.kept⟩
    cases outcome with
    | ok descriptor => exact leads.settles
    | error stop => exact .inl parameterized
  | false =>
    have head := backs.caches _ reference.expr.name_mem_names
    have nested : Lookup.follow agent (builder agent) reference =
        getNested (builder agent) reference.expr.name := by
      unfold Lookup.follow
      rw [parameterized]
      rfl
    rw [nested]
    apply (getNested_cached head).weaken
    intro later outcome _ given
    refine fulfils ⟨?_, fun _ _ impossible => ?_⟩
    · cases outcome with
      | ok descriptor => exact .plain parameterized given
      | error stop => exact given.elim
    · rw [parameterized] at impossible
      cases impossible

/-- Every operation upholds the ledger and gives what the ledger says. -/
theorem request_upholds (agent : Agent) (operation : Operation)
    (backs : ∀ reference, operation = .follow reference →
      ledger.Backs reference) :
    Upholds agent.thread True operation.Fulfils
      (operation.request agent (builder agent)) ledger := by
  have builds := builder_upholds agent
  have resolves {operation : Operation} {expression : TypeExpr}
      (asked : operation.expression? = some expression)
      (others : ∀ reference, operation ≠ .follow reference) :
      Upholds agent.thread True operation.Fulfils
        (Lookup.resolve agent (builder agent) expression) ledger := by
    apply (resolve_upholds_of_names
      (provides_of_builds builds _ ledger)).weaken
    intro later outcome _ settles
    exact fulfils_of_settles asked others settles
  cases operation with
  | get name =>
    apply (getByName_upholds builds name ledger).weaken
    intro later outcome _ given
    refine fulfils_of_settles rfl nofun ?_
    cases outcome with
    | ok descriptor => exact .plain rfl given
    | error stop => exact .inl trivial
  | resolve expression => exact resolves rfl nofun
  | specialize name args => exact resolves rfl nofun
  | lookup text =>
    apply (lookupText_upholds builds text ledger).weaken
    intro later outcome _ settles
    cases parsed : TypeExpr.parse text with
    | ok expression =>
      have asked : (Operation.lookup text).expression? = some expression := by
        simp [expression?, parsed, Except.toOption]
      rw [parsed] at settles
      exact fulfils_of_settles asked nofun settles
    | error fault =>
      rw [parsed] at settles
      subst settles
      refine ⟨fun expression asked => ?_, fun _ same => ?_,
        fun _ _ _ same => ?_⟩
      · simp [expression?, parsed, Except.toOption] at asked
      · cases same
      · cases same
  | argumentList types =>
    have provides := provides_of_builds builds (TypeExpr.namesOfList types)
      ledger
    apply (mapM_takeReference_upholds provides).bind
    · rintro references later _ ⟨_, backs⟩
      refine upholds_quietly_bind trivial fun number latest further => ?_
      refine upholds_pure ⟨fun _ asked => ?_, fun _ same => ?_,
        fun _ _ _ same => ?_⟩
      · cases asked
      · cases same
      · cases same
        exact Records.covers_argumentList fun reference member =>
          (backs reference member).mono further
    · intro _ _ _ _
      refine ⟨fun _ asked => ?_, fun _ same => ?_, fun _ _ _ same => ?_⟩
      · cases asked
      · cases same
      · cases same
  | follow reference => exact follow_fulfils reference (backs reference rfl)

end Operation

end TypeAtlas
