import TypeAtlas.Proofs.Registry.Discipline

/-!
# Assemblies keep the discipline

An assembly takes references only to types that the sources mention, so there
is room for it in the bound on depth.  Where no scripts are followed, it goes
step by step as the assembly without a cache does, until one of the types that
it refers to fails.
-/

namespace TypeAtlas

open Past Lookup

namespace Assembly

/-- What a step of assembly ensures.  Where no scripts are followed, the lookups
in it fare as those of given names, and it leaves what the step without a cache
leaves. -/
structure Follows (sources : Sources) (names : List TypeName) (past : Past)
    (body : Body) (free : Except Stop β × Body) (strip : α → β) (later : Past)
    (outcome : Except Stop α) (left : Body) : Prop where
  grows : Extends past later
  concludes : Concludes outcome
  intact : left.failure? = body.failure?
  fares : sources.IsPlain → Fares sources names past later outcome
  mirrors : sources.IsPlain → ∀ value, outcome = .ok value →
    free = (.ok (strip value), left.withoutSlots)

variable {agent : Agent} {calm : Prop} {depth : Nat} {build : Builder}
  {past : Past} {body : Body} {names others : List TypeName}

theorem Follows.bind {assembling : Assembling Procedure α}
    {next : α → Assembling Procedure β} {free : Assembling Id γ}
    {nextFree : γ → Assembling Id δ} {strip : α → γ} {stripLater : β → δ}
    (first : Meets (discipline agent calm)
      (Follows agent.sources names past body
        (free.runFree body.withoutSlots) strip)
      assembling past body)
    (second : ∀ value later left, Extends past later →
      Meets (discipline agent calm)
        (Follows agent.sources others later left
          ((nextFree (strip value)).runFree left.withoutSlots) stripLater)
        (next value) later left) :
    Meets (discipline agent calm)
      (Follows agent.sources (names ++ others) past body
        ((free >>= nextFree).runFree body.withoutSlots) stripLater)
      (assembling >>= next) past body := by
  refine Meets.bind (first.mono ?_)
  rintro later (stop | value) left follows
  · exact ⟨follows.grows, follows.concludes, follows.intact,
      fun plain => (follows.fares plain).stopped others,
      fun _ _ same => nomatch same⟩
  · refine (second value later left follows.grows).mono ?_
    intro latest outcome end_ further
    refine ⟨follows.grows.trans further.grows, further.concludes,
      further.intact.trans follows.intact, fun plain => ?_,
      fun plain result same => ?_⟩
    · exact (follows.fares plain).trans follows.grows further.grows
        (further.fares plain)
    · rw [runFree_bind, follows.mirrors plain value rfl]
      exact further.mirrors plain result same

theorem pure_follows {value : α} {valueFree : β} {strip : α → β}
    (same : strip value = valueFree) :
    Meets (discipline agent calm)
      (Follows agent.sources [] past body
        ((pure valueFree : Assembling Id β).runFree body.withoutSlots) strip)
      (pure value) past body := by
  subst same
  refine meets_pure ⟨Extends.refl past, trivial, rfl, fun _ => ?_, ?_⟩
  · exact ⟨fun _ member => (List.not_mem_nil member).elim,
      fun _ => Steady.refl agent.sources past⟩
  · intro _ _ same
    cases same
    rfl

theorem modify_follows {change changeFree : Body → Body}
    (same : (change body).withoutSlots = changeFree body.withoutSlots)
    (intact : (change body).failure? = body.failure?) :
    Meets (discipline agent calm)
      (Follows agent.sources [] past body
        ((modify changeFree : Assembling Id Unit).runFree body.withoutSlots)
        id)
      (modify change) past body := by
  refine meets_modify ⟨Extends.refl past, trivial, intact, fun _ => ?_, ?_⟩
  · exact ⟨fun _ member => (List.not_mem_nil member).elim,
      fun _ => Steady.refl agent.sources past⟩
  · intro _ _ _
    exact congrArg (Prod.mk (Except.ok ())) same.symm

theorem reference_follows (builds : BuildsWithin agent calm depth build)
    {expression : TypeExpr}
    (room : HasRoom agent.sources depth expression.names past) :
    Meets (discipline agent calm)
      (Follows agent.sources expression.names past body
        ((wrap expression).runFree body.withoutSlots) TypeRef.withoutSlot)
      (lift (takeReference build expression)) past body := by
  refine Meets.lift ((takeReference_keeps builds room).mono ?_)
  rintro later outcome ⟨grows, fares, wraps⟩
  refine ⟨grows, fares.answers.concludes, rfl, fun _ => fares, ?_⟩
  rintro _ reference rfl
  obtain ⟨given, slot⟩ := reference
  cases wraps
  rfl

theorem meets_outline {contract : Contract} {outlining : Outlining α}
    {ensures : Past → Except Stop α → Body → Prop}
    {outcome : Except Stop α} {left : Body}
    (outlined : (liftOutline outlining).runFree body = (outcome, left))
    (ensured : ensures past outcome left) :
    Meets contract ensures (liftOutline outlining) past body := by
  cases outlined
  exact ensured

theorem Follows.after_modify {change changeFree : Body → Body}
    {next : Assembling Procedure α} {nextFree : Assembling Id β}
    {strip : α → β}
    (same : (change body).withoutSlots = changeFree body.withoutSlots)
    (intact : (change body).failure? = body.failure?)
    (rest : Meets (discipline agent calm)
      (Follows agent.sources names past (change body)
        (nextFree.runFree (change body).withoutSlots) strip)
      next past (change body)) :
    Meets (discipline agent calm)
      (Follows agent.sources names past body
        ((modify changeFree >>= fun _ => nextFree).runFree body.withoutSlots)
        strip)
      (modify change >>= fun _ => next) past body := by
  refine Meets.bind (meets_modify (rest.mono fun later outcome left follows =>
    { follows with intact := follows.intact.trans intact, mirrors := ?_ }))
  intro plain value ended
  rw [runFree_bind]
  change nextFree.runFree (changeFree body.withoutSlots) = _
  rw [← same]
  exact follows.mirrors plain value ended

theorem takeReferences_follows (builds : BuildsWithin agent calm depth build)
    {facts : TypeFacts}
    (room : HasRoom agent.sources depth
      (TypeExpr.namesOfList (holdings agent.sources facts)) past) :
    Meets (discipline agent calm)
      (Follows agent.sources
        (TypeExpr.namesOfList (holdings agent.sources facts)) past body
        ((takeReferences agent.sources wrap facts).runFree body.withoutSlots)
        id)
      (takeReferences agent.sources
        (fun expression => lift (takeReference build expression)) facts)
      past body := by
  revert room
  unfold holdings takeReferences
  cases facts.category with
  | array =>
    cases facts.arrayOf with
    | none =>
      simp only [Option.toList, TypeExpr.namesOfList]
      exact fun _ => pure_follows rfl
    | some component =>
      simp only [Option.toList, TypeExpr.namesOfList]
      intro room
      have roomFirst := room.of_subset (List.subset_append_left _ _)
      exact Follows.bind (reference_follows builds roomFirst)
        fun _ _ _ _ => modify_follows rfl rfl
  | elementContainer =>
    simp only [TypeExpr.namesOfList]
    intro room
    have roomFirst := room.of_subset (List.subset_append_left _ _)
    exact Follows.bind (reference_follows builds roomFirst)
      fun _ _ _ _ => modify_follows rfl rfl
  | pairContainer | beanMap =>
    simp only [TypeExpr.namesOfList]
    intro room
    have roomFirst := room.of_subset (List.subset_append_left _ _)
    have roomSecond := (room.of_subset
      (List.subset_append_right _ _)).of_subset (List.subset_append_left _ _)
    refine Follows.bind (reference_follows builds roomFirst)
      fun _ later left grows => ?_
    refine Follows.after_modify rfl rfl ?_
    exact Follows.bind (reference_follows builds (roomSecond.extends grows))
      fun _ _ _ _ => modify_follows rfl rfl
  | _ =>
    simp only [TypeExpr.namesOfList]
    exact fun _ => pure_follows rfl

theorem property_follows (builds : BuildsWithin agent calm depth build)
    {draft : Bean.Draft}
    (room : HasRoom agent.sources depth draft.type.names past) :
    Meets (discipline agent calm)
      (Follows agent.sources draft.type.names past body
        ((property wrap draft).runFree body.withoutSlots)
        BeanProperty.withoutSlot)
      (property (fun expression => lift (takeReference build expression)) draft)
      past body := by
  rw [← List.append_nil draft.type.names]
  exact Follows.bind (reference_follows builds room) fun _ _ _ _ =>
    pure_follows rfl

theorem mapM_property_follows (builds : BuildsWithin agent calm depth build)
    {drafts : List Bean.Draft}
    (room : HasRoom agent.sources depth
      (TypeExpr.namesOfList (drafts.map Bean.Draft.type)) past) :
    Meets (discipline agent calm)
      (Follows agent.sources
        (TypeExpr.namesOfList (drafts.map Bean.Draft.type)) past body
        ((drafts.mapM (property wrap)).runFree body.withoutSlots)
        (List.map BeanProperty.withoutSlot))
      (drafts.mapM (property fun expression =>
        lift (takeReference build expression))) past body := by
  induction drafts generalizing past body with
  | nil =>
    simp only [List.map_nil, TypeExpr.namesOfList]
    exact pure_follows rfl
  | cons draft rest ih =>
    simp only [List.map_cons, TypeExpr.namesOfList] at room ⊢
    have roomFirst := room.of_subset (List.subset_append_left _ _)
    have roomRest := room.of_subset (List.subset_append_right _ _)
    rw [List.mapM_cons, List.mapM_cons]
    refine Follows.bind (property_follows builds roomFirst)
      fun property later left grows => ?_
    rw [← List.append_nil (TypeExpr.namesOfList (rest.map Bean.Draft.type))]
    exact Follows.bind (ih (roomRest.extends grows)) fun properties _ _ _ =>
      pure_follows rfl

theorem judge_follows (builds : BuildsWithin agent calm depth build)
    {facts : TypeFacts} {hasImplementation : Bool}
    (room : HasRoom agent.sources depth
      (TypeExpr.namesOfList
        ((drafts agent.sources facts hasImplementation).map
          Bean.Draft.type)) past) :
    Meets (discipline agent calm)
      (Follows agent.sources
        (TypeExpr.namesOfList
          ((drafts agent.sources facts hasImplementation).map
            Bean.Draft.type)) past body
        ((judge agent.sources wrap facts hasImplementation).runFree
          body.withoutSlots)
        BeanVerdict.withoutSlots)
      (judge agent.sources
        (fun expression => lift (takeReference build expression)) facts
        hasImplementation) past body := by
  revert room
  unfold drafts judge
  cases Bean.objection? facts agent.sources.config hasImplementation with
  | some reason =>
    simp only [List.map_nil, TypeExpr.namesOfList]
    exact fun _ => pure_follows rfl
  | none =>
    intro room
    dsimp only at room ⊢
    rw [← List.append_nil (TypeExpr.namesOfList _)]
    exact Follows.bind (mapM_property_follows builds room)
      fun properties _ _ _ => pure_follows rfl

theorem verdict_follows (builds : BuildsWithin agent calm depth build)
    {facts : TypeFacts} {hasImplementation : Bool}
    {introspect : TypeFacts → Bool → Assembling Procedure (Option BeanVerdict)}
    (room : HasRoom agent.sources depth
      (TypeExpr.namesOfList
        (judgedTypes agent.sources facts hasImplementation)) past)
    (introspects : Meets (discipline agent calm)
      (fun later outcome left =>
        Extends past later ∧ Concludes outcome ∧
          left.failure? = body.failure?)
      (introspect facts hasImplementation) past body)
    (plainly : agent.sources.IsPlain →
      introspect facts hasImplementation = pure none) :
    Meets (discipline agent calm)
      (Follows agent.sources
        (TypeExpr.namesOfList
          (judgedTypes agent.sources facts hasImplementation)) past body
        ((verdict agent.sources wrap (fun _ _ => pure none) facts
          hasImplementation).runFree body.withoutSlots)
        BeanVerdict.withoutSlots)
      (verdict agent.sources
        (fun expression => lift (takeReference build expression)) introspect
        facts hasImplementation) past body := by
  revert room
  unfold judgedTypes verdict
  cases facts.category == .other with
  | false => exact fun _ => pure_follows rfl
  | true =>
    intro room
    by_cases plain : agent.sources.IsPlain
    · simp only [if_true, plainly plain]
      exact judge_follows builds room
    · refine Meets.bind (introspects.mono ?_)
      rintro later (stop | verdict?) left ⟨grows, concludes, intact⟩
      · exact ⟨grows, concludes, intact, fun isPlain => (plain isPlain).elim,
          fun isPlain => (plain isPlain).elim⟩
      cases verdict? with
      | some verdict =>
        refine meets_pure ⟨grows, trivial, intact,
          fun isPlain => (plain isPlain).elim,
          fun isPlain => (plain isPlain).elim⟩
      | none =>
        refine (judge_follows builds (room.extends grows)).mono ?_
        intro latest outcome end_ follows
        exact ⟨grows.trans follows.grows, follows.concludes,
          follows.intact.trans intact, fun isPlain => (plain isPlain).elim,
          fun isPlain => (plain isPlain).elim⟩

/-- What follows the outline of a type refers to what was asked for. -/
theorem completion_follows (builds : BuildsWithin agent calm depth build)
    {facts : TypeFacts} {hasImplementation : Bool}
    {introspect : TypeFacts → Bool → Assembling Procedure (Option BeanVerdict)}
    (room : HasRoom agent.sources depth
      (requested agent.sources facts hasImplementation) past)
    (introspects : ∀ later left, Extends past later →
      Meets (discipline agent calm)
        (fun latest outcome end_ =>
          Extends later latest ∧ Concludes outcome ∧
            end_.failure? = left.failure?)
        (introspect facts hasImplementation) later left)
    (plainly : agent.sources.IsPlain →
      introspect facts hasImplementation = pure none) :
    Meets (discipline agent calm)
      (Follows agent.sources
        (requested agent.sources facts hasImplementation) past body
        ((completion agent.sources facts hasImplementation).runFree
          body.withoutSlots)
        id)
      (do
        let reference (expression : TypeExpr) : Assembling Procedure TypeRef :=
          lift (takeReference build expression)
        takeReferences agent.sources reference facts
        let bean ← verdict agent.sources reference introspect facts
          hasImplementation
        modify fun body => { body with parts := { body.parts with bean } })
      past body := by
  have roomFirst := room.of_subset (List.subset_append_left _ _)
  have roomRest := room.of_subset (List.subset_append_right _ _)
  refine Follows.bind (takeReferences_follows builds roomFirst)
    fun _ later left grows => ?_
  rw [← List.append_nil (TypeExpr.namesOfList (judgedTypes _ _ _))]
  exact Follows.bind
    (verdict_follows builds (roomRest.extends grows)
      (introspects later left grows) plainly)
    fun _ _ _ _ => modify_follows rfl rfl

/-- What an assembly ensures of its outcome and of the body that it leaves. -/
structure Ends (sources : Sources) (name : TypeName) (past later : Past)
    (outcome : Except Stop Unit) (left : Body) : Prop where
  grows : Extends past later
  concludes : Concludes outcome
  intact : left.failure? = none
  ready : sources.IsPlain → outcome = .ok () →
    cacheFree sources name = (.ok (), left.withoutSlots) ∧
      (∀ other ∈ left.referred, hasEntered later other = true) ∧
        Steady sources past later
  failed : sources.IsPlain → ∀ stop, outcome = .error stop →
    ¬ sources.Assembles name ∧ later = past ∨
      (∃ culprit, Spares sources (some culprit) past later) ∧
        ∃ names, (∀ other ∈ names, sources.Refers name other) ∧
          Blames past later names

/-- An assembly that fails on its own ends before it asks for a name. -/
theorem Ends.unmoved {sources : Sources} {name : TypeName}
    {later : Past} {outcome : Except Stop Unit} {left : Body}
    (ends : Ends sources name past later outcome left)
    (plain : sources.IsPlain) (failing : ¬ sources.Assembles name) :
    later = past := by
  rcases outcome with stop | _
  · rcases ends.failed plain stop rfl with ⟨_, same⟩ |
      ⟨_, names, refers, blames⟩
    · exact same
    · obtain ⟨other, member, _⟩ := blames
      exact (failing (refers other member).1).elim
  · exact (failing (congrArg Prod.fst (ends.ready plain rfl).1)).elim

end Assembly

namespace Lookup

open Assembly (Ends Follows)

variable {agent : Agent} {calm : Prop} {depth : Nat} {build : Builder}
  {past : Past}

theorem script_keeps (builds : BuildsWithin agent calm depth build)
    (facts : TypeFacts) (hasImplementation : Bool)
    (few : remaining agent.sources past ≤ depth)
    (calmly : calm → agent.sources.IsCalm) :
    Meets (discipline agent calm)
      (Keeps past fun _ outcome => Concludes outcome)
      (followScript agent build facts hasImplementation
        ((agent.sources.scripts.get? facts.name).getD [])) past := by
  cases found : agent.sources.scripts.get? facts.name with
  | none => exact pure_keeps trivial
  | some steps =>
    have known := NameMap.mem_values_of_get? found
    refine followScript_keeps builds facts hasImplementation
      (.inr ⟨few, fun name member => ?_⟩)
      fun isCalm => calmly isCalm steps known
    have told := List.mem_flatMap.2 ⟨steps, known, member⟩
    simp only [Sources.mentioned, List.mem_cons, List.mem_append]
    exact .inr (.inr (.inr told))

theorem assembly_ends (builds : BuildsWithin agent calm depth build)
    (name : TypeName) (few : remaining agent.sources past ≤ depth)
    (calmly : calm → agent.sources.IsCalm) :
    Assembly.Meets (discipline agent calm) (Ends agent.sources name past)
      (assembly agent build name) past (Body.blank name) := by
  obtain ⟨outcome, parts, outlined, sound⟩ :=
    Assembly.outline_runFree agent.sources name
  unfold assembly Assembly.assemble
  refine Assembly.Meets.bind (Assembly.meets_outline outlined ?_)
  -- An outline asks for no names, so one that fails leaves the past as it is.
  rcases outcome with stop | ⟨facts, hasImplementation⟩
  · have failed := Assembly.cacheFree_of_outline_error outlined
    refine ⟨Extends.refl past, sound.1, rfl, nofun, fun _ _ _ => ?_⟩
    refine .inl ⟨?_, rfl⟩
    unfold Sources.Assembles
    rw [failed]
    exact nofun
  obtain ⟨known, undecided⟩ := sound
  have room : HasRoom agent.sources depth
      (Assembly.requested agent.sources facts hasImplementation) past :=
    .inr ⟨few, Assembly.requested_subset known hasImplementation⟩
  refine (Assembly.completion_follows builds room ?_ ?_).mono ?_
  · intro later left grows
    have fewLater := Nat.le_trans (grows.remaining_le agent.sources) few
    exact Assembly.Meets.lift ((script_keeps builds facts hasImplementation
      fewLater calmly).mono fun _ _ kept => ⟨kept.1, kept.2, rfl⟩)
  · intro plain
    unfold Sources.IsPlain at plain
    simp only [plain, NameMap.get?_empty, Option.getD_none]
    rfl
  · intro later outcome left follows
    have refers := Assembly.refers_iff_of_outline outlined
    refine ⟨follows.grows, follows.concludes, follows.intact,
      fun plain ended => ?_, fun plain stop ended => ?_⟩
    · have fares := follows.fares plain
      have mirrored := follows.mirrors plain () ended
      rw [Assembly.withoutSlots_outlined undecided,
        ← Assembly.cacheFree_eq_completion outlined] at mirrored
      rw [ended] at fares
      refine ⟨mirrored, fun other member => fares.1 other ?_, fares.2 plain⟩
      refine (refers other).1 ⟨congrArg Prod.fst mirrored, ?_⟩
      rw [mirrored, Body.referred_withoutSlots]
      exact member
    · have fares := follows.fares plain
      rw [ended] at fares
      exact .inr ⟨fares.1.2 plain, _, fun other => (refers other).2, fares.2⟩

/-- A build that ends well or badly, after the assembly inside it. -/
theorem built_of_extends {sources : Sources} {later : Past} {name : TypeName}
    {identity : Nat} {outer : List (TypeName × Nat)}
    {outcome : Except Stop Unit} (body : Body)
    (begun : unfinished past = (name, identity) :: outer)
    (grows : Extends (⟨.mark (.building name), ()⟩ :: past) later)
    (unmoved : sources.IsPlain → ¬ sources.Assembles name →
      later = ⟨.mark (.building name), ()⟩ :: past)
    (ends : outcome = .ok () ∧ body.failure? = none ∧
        (sources.IsPlain → sources.Assembles name ∧
          Steady sources (⟨.mark (.building name), ()⟩ :: past) later) ∨
      (∃ reason, outcome = .error (.error (.initialization name reason)) ∧
        body.failure? = some reason) ∧
          (sources.IsPlain → ∃ culprit,
            (¬ sources.Assembles name → culprit = name) ∧
              Spares sources (some culprit)
                (⟨.mark (.building name), ()⟩ :: past) later)) :
    Built sources past name identity outer
      (⟨.recordBuild body.failure?.isSome, ()⟩ ::
        ⟨.publish name identity body, ()⟩ :: later) outcome := by
  obtain ⟨deeds, rfl, balanced, same⟩ := grows
  refine ⟨⟨⟨.recordBuild body.failure?.isSome, ()⟩ ::
    ⟨.publish name identity body, ()⟩ ::
      (deeds ++ [⟨.mark (.building name), ()⟩]), by simp, ?_, ?_⟩, ?_,
    ⟨body, by simp⟩, fun plain failing => ?_, ?_⟩
  · simpa using balanced.build name identity body
  · have missed := balanced.missed
    simp [List.countP_cons, Deed.countsMiss, Deed.countsBuild]
    omega
  · simp only [unfinished, same, begun, List.tail_cons]
  · rw [unmoved plain failing]
    exact EntersOnly.refl name past
  · rcases ends with ⟨rfl, ready, steady⟩ | ⟨⟨reason, rfl, failed⟩, spares⟩
    · refine .inl ⟨rfl, fun plain => ?_⟩
      obtain ⟨assembles, steady⟩ := steady plain
      refine ⟨assembles, ?_, ((steady.spares.since rfl).cons rfl).cons rfl⟩
      simpa [failures, Deed.isFailing, ready] using steady.failures
    · refine .inr ⟨⟨reason, rfl⟩, fun plain => ?_, ?_⟩
      · obtain ⟨culprit, own, spared⟩ := spares plain
        exact ⟨culprit, own, ((spared.since rfl).cons rfl).cons rfl⟩
      · simp [hasFailed, Deed.fails, failed]

theorem buildWith_built (builds : BuildsWithin agent calm depth build)
    {name : TypeName} {identity : Nat} {outer : List (TypeName × Nat)}
    (few : remaining agent.sources past ≤ depth)
    (begun : unfinished past = (name, identity) :: outer)
    (calmly : calm → agent.sources.IsCalm) :
    Meets (discipline agent calm)
      (Built agent.sources past name identity outer)
      (buildWith agent build name identity) past := by
  refine meets_perform_bind ⟨identity, outer, begun⟩ fun _ _ => ?_
  have fewLater : remaining agent.sources
      (⟨.mark (.building name), ()⟩ :: past) ≤ depth :=
    Nat.le_trans (remaining_append_le agent.sources
      [⟨.mark (.building name), ()⟩] past) few
  refine Meets.lift_bind (Procedure.Meets.mono
    (assembly_ends builds name fewLater calmly) ?_)
  rintro later ⟨outcome, body⟩ ends
  dsimp only at ends
  have within : unfinished later = (name, identity) :: outer := by
    obtain ⟨_, _, _, same⟩ := ends.grows
    exact same.trans begun
  rcases outcome with stop | _
  · obtain ⟨error, failure⟩ : ∃ error, Stop.failure? stop = some error := by
      cases stop with
      | error error => exact ⟨error, rfl⟩
      | crash crash => exact ⟨_, rfl⟩
      | blocked name => exact ends.concludes.elim
      | exhausted => exact ends.concludes.elim
    simp only [failure]
    have entered := hasEntered_of_mem (made_of_mem_unfinished
      (begun ▸ List.mem_cons_self : (name, identity) ∈ unfinished past))
    refine meets_perform_bind ⟨⟨outer, within⟩, fun plain => ?_⟩ fun _ _ => ?_
    · refine ⟨nofun, fun _ => (ends.failed plain stop rfl).imp And.left ?_⟩
      rintro ⟨_, names, refers, blames⟩
      obtain ⟨deeds, rfl, _, _⟩ := ends.grows
      exact ⟨_, names, List.suffix_append _ _, entered, refers, blames⟩
    · refine meets_perform_bind trivial fun _ _ => meets_throw ?_
      refine built_of_extends { body with failure? := some error.message } begun
        ends.grows ends.unmoved (.inr ⟨⟨_, rfl, rfl⟩, fun plain => ?_⟩)
      rcases ends.failed plain stop rfl with ⟨_, rfl⟩ |
        ⟨⟨culprit, spares⟩, names, refers, other, member, _⟩
      · exact ⟨name, fun _ => rfl, Spares.refl _ _ _⟩
      · exact ⟨culprit, fun failing => (failing (refers other member).1).elim,
          spares⟩
  · refine meets_perform_bind ⟨⟨outer, within⟩, fun plain => ?_⟩ fun _ _ => ?_
    · obtain ⟨cached, entered, _⟩ := ends.ready plain rfl
      exact ⟨fun _ => ⟨cached, entered⟩,
        fun failed => (failed ends.intact).elim⟩
    · refine meets_perform trivial fun _ _ => ?_
      have built := built_of_extends body begun ends.grows ends.unmoved
        (.inl ⟨rfl, ends.intact, fun plain =>
          ⟨congrArg Prod.fst (ends.ready plain rfl).1,
            (ends.ready plain rfl).2.2⟩⟩)
      rw [ends.intact] at built
      exact built

/-- Builds keep the discipline, as deep as they may be inside each other. -/
theorem build_within (calmly : calm → agent.sources.IsCalm) (depth : Nat) :
    BuildsWithin agent calm depth (Lookup.build agent depth) := by
  induction depth with
  | zero => exact fun _ _ _ _ few => (Nat.not_lt_zero _ few).elim
  | succ depth ih =>
    exact fun _ _ _ _ few begun =>
      buildWith_built ih (Nat.le_of_lt_succ few) begun calmly

theorem builder_within (calmly : calm → agent.sources.IsCalm) :
    BuildsWithin agent calm agent.sources.depthBound (builder agent) :=
  build_within calmly _

theorem hasRoom_depthBound (sources : Sources) (names : List TypeName)
    (past : Past) : HasRoom sources sources.depthBound names past :=
  .inl (Nat.lt_of_le_of_lt (remaining_le sources past)
    (Nat.lt_add_of_pos_right Nat.two_pos))

end Lookup

end TypeAtlas
