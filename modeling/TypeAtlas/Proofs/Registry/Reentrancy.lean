import TypeAtlas.Proofs.Registry.Attempts
import TypeAtlas.Proofs.Registry.Moments

/-!
# Lookups from inside of builds

A collaborator may look up any type while its own thread is in the middle of
builds.  A lookup that would have to wait for one of them is refused, and leaves
everything as it is.  No other lookup is refused so: what it waits for has been
published already, so that a thread that acts alone never waits at all.
-/

namespace TypeAtlas

open Past Lookup

/-- How a top-level lookup of a name is to end, by whether its own thread was in
the middle of building that name. -/
structure EndsWell (building : Prop) (head : TypeName)
    (outcome : Except Stop Descriptor) (store later : Store) : Prop where
  refused_iff : outcome = .error (.error (.reentrantLookup head)) ↔ building
  unchanged : building → later = store
  published : ¬ building → ∀ descriptor, outcome = .ok descriptor →
    ∃ body, later.body? descriptor = some body
  failed : ¬ building → ∀ stop, outcome = .error stop →
    stop.IsError ∧ ∀ name, stop ≠ .error (.reentrantLookup name)

theorem EndsWell.of_not_building {building : Prop} {head : TypeName}
    {outcome : Except Stop Descriptor} {store later : Store}
    (free : ¬ building)
    (published : ∀ descriptor, outcome = .ok descriptor →
      ∃ body, later.body? descriptor = some body)
    (failed : ∀ stop, outcome = .error stop →
      stop.IsError ∧ ∀ name, stop ≠ .error (.reentrantLookup name)) :
    EndsWell building head outcome store later where
  refused_iff :=
    ⟨fun refused => ((failed _ refused).2 head rfl).elim,
      fun is => (free is).elim⟩
  unchanged is := (free is).elim
  published _ := published
  failed _ := failed

namespace Lookup

variable {agent : Agent} {calm : Prop} {depth : Nat} {build : Builder}
  {past : Past}

/-- Whether a lookup is refused only where its own thread builds a name. -/
def RefusedOnlyOf (past : Past) (name : TypeName)
    (outcome : Except Stop α) : Prop :=
  ∀ other, outcome = .error (.error (.reentrantLookup other)) →
    ∃ identity, (name, identity) ∈ unfinished past

theorem Fares.refusedOnlyOf {sources : Sources} {names : List TypeName}
    {later since : Past} {stop : Stop}
    (fares : Fares sources names past later (.error stop : Except Stop α))
    (name : TypeName) :
    RefusedOnlyOf since name (.error stop : Except Stop β) := by
  rintro other ⟨⟩
  exact fares.1.1.elim

/-- An expression is refused only for its head, which is looked up first. -/
theorem resolve_refused (builds : BuildsWithin agent calm depth build)
    {expression : TypeExpr}
    (room : HasRoom agent.sources depth expression.names past)
    (idle : calm → unfinished past = []) :
    Meets (discipline agent calm)
      (Keeps past fun _ outcome => RefusedOnlyOf past expression.name outcome)
      (resolve agent build expression) past := by
  have names := expression.names_eq
  have headRoom : HasRoom agent.sources depth [expression.name] past :=
    room.of_subset (by simp [names])
  refine Keeps.bind (getByName_keeps builds headRoom idle)
    (fun base later grows served => ?_) fun later stop served => ?_
  · split
    · exact pure_keeps nofun
    have awaited : Meets (discipline agent calm)
        (Keeps later fun latest outcome =>
          Performs (.await base) latest outcome)
        (await base) later := by
      refine perform_keeps _ ⟨.inl served.secures, fun isCalm => ?_⟩
        fun _ => rfl
      obtain ⟨_, _, _, same⟩ := grows
      exact same.trans (idle isCalm)
    refine Keeps.bind awaited (fun body latest further _ => ?_)
      fun _ _ performed => performed.elim
    split
    · exact pure_keeps nofun
    split
    · exact throw_keeps nofun
    have argumentRoom : HasRoom agent.sources depth
        (TypeExpr.namesOfList expression.args) latest := by
      refine ((room.extends grows).extends further).of_subset ?_
      rw [names]
      exact List.subset_cons_self _ _
    refine Keeps.bind (mapM_takeReference_fares builds argumentRoom)
      (fun _ _ _ _ => ?_) fun _ _ fares => fares.refusedOnlyOf _
    exact Keeps.bind (perform_keeps _ trivial fun _ => rfl)
      (fun _ _ _ _ => pure_keeps nofun) fun _ _ performed => performed.elim
  · rcases served.fared with fares | ⟨_, begun⟩
    · exact fares.refusedOnlyOf _
    · exact fun _ _ => begun

/-- Where the thread itself is building the head, nothing else is done. -/
theorem run_resolve_of_building {store : Store} {entry : Entry}
    {expression : TypeExpr}
    (found : store.entries.get? expression.name = some entry)
    (own : entry.builder = agent.thread)
    (unpublished : entry.isPublished = false) :
    ∃ deeds, (ExceptT.run (resolve agent build expression)).run agent.thread
        store =
      { outcome := .ok (.error (.error (.reentrantLookup expression.name)))
        deeds
        store } := by
  have entered : store.perform agent.thread (.enter expression.name) =
      .ok (.present entry.identity agent.thread false, store) := by
    simp only [Store.perform, found, own, unpublished]
  have marked (mark : Mark) : store.perform agent.thread (.mark mark) =
      .ok ((), store) := rfl
  refine ⟨[⟨.mark (.asked .topLevel expression.name), ()⟩,
    ⟨.enter expression.name, .present entry.identity agent.thread false⟩,
    ⟨.mark (.answered .topLevel expression.name
      (.error (.error (.reentrantLookup expression.name)))), ()⟩], ?_⟩
  change Procedure.run _ (.act (.mark _) fun _ => .act (.enter _) _) _ = _
  simp only [Procedure.run, marked, entered, Procedure.andThen,
    Function.comp_apply, ExceptT.bindCont, Bool.not_false, Bool.true_and,
    beq_self_eq_true, if_true]
  rfl

end Lookup

/-- A request for an expression that waits is one to resolve it. -/
theorem Operation.request_eq_resolve {operation : Operation}
    {expression : TypeExpr} (asked : operation.expression? = some expression)
    (topLevel : operation.IsTopLevel) :
    operation.request = Registry.resolve expression := by
  funext agent build
  cases operation with
  | get name =>
    cases asked
    exact (bind_pure (getByName agent build name)).symm
  | resolve expression =>
    cases asked
    rfl
  | specialize name args =>
    cases asked
    rfl
  | lookup text =>
    cases parsed : TypeExpr.parse text with
    | error fault => simp [expression?, parsed, Except.toOption] at asked
    | ok given =>
      simp only [expression?, parsed, Except.toOption,
        Option.some.injEq] at asked
      subst asked
      change lookupText agent build text = Lookup.resolve agent build given
      unfold lookupText
      rw [parsed]
      rfl
  | argumentList types => cases asked
  | follow reference => exact topLevel.elim

namespace Past.Genuine

variable {sources : Sources} {thread : ThreadId} {past ended : Past}

/-- A top-level lookup of a name that took place has ended well. -/
theorem lookedUp_endsWell (genuine : Genuine sources thread past)
    {name : TypeName} {begun : Past} {outcome : Except Stop Descriptor}
    (lookedUp : LookedUp past ⟨.topLevel, name, begun⟩ ended outcome) :
    EndsWell (name ∈ stack begun) name outcome (storeAfter thread begun)
      (storeAfter thread ended) := by
  have course := genuine.course lookedUp
  have within := (List.suffix_cons _ _).trans lookedUp.answered
  have genuineEnd := genuine.of_suffix within
  have asked := genuineEnd.of_suffix lookedUp.asked
  have genuineBegin := asked.of_suffix (List.suffix_cons _ _)
  have building : name ∈ stack begun ↔ _ :=
    genuineBegin.mem_stack_iff asked.traced.1
  cases course with
  | refused =>
    obtain ⟨⟨entry, found, _, _, unpublished⟩, same⟩ :=
      genuineEnd.replays.exists_of_present
    have member : name ∈ stack begun := building.2 ⟨entry, found, unpublished⟩
    exact ⟨⟨fun _ => member, fun _ => rfl⟩, fun _ => same,
      fun free => (free member).elim, fun free => (free member).elim⟩
  | @hit identity builder isPublished body others =>
    obtain ⟨⟨entry, found, _, own, told⟩, _⟩ :=
      (genuineEnd.replays.of_suffix ⟨[_, _], rfl⟩).exists_of_present
    have published : entry.isPublished = true := by
      rw [told]
      refine others.resolve_right fun different => different ?_
      exact own.symm.trans (genuineBegin.builder_eq found)
    have free : name ∉ stack begun := by
      intro member
      obtain ⟨other, foundToo, unpublished⟩ := building.1 member
      cases found.symm.trans foundToo
      rw [published] at unpublished
      cases unpublished
    refine .of_not_building free ?_ fun _ failed => nomatch failed
    rintro _ ⟨⟩
    exact ⟨body, genuineEnd.faithful.coherent.confirmed thread
      ⟨.await (.cached name identity), body⟩
      (List.mem_map_of_mem (by simp))⟩
  | @built _ identity inner body ends =>
    have absent :=
      (genuineEnd.replays.of_suffix ends.made_suffix).absent_of_made
    have free : name ∉ stack begun := by
      intro member
      obtain ⟨entry, found, _⟩ := building.1 member
      cases absent.symm.trans found
    have published : (storeAfter thread (recorded name identity body
        inner)).body? (.cached name identity) = some body :=
      genuineEnd.body?_of_published (by simp [recorded])
    rcases body.outcome_cases name with ⟨_, same⟩ | ⟨reason, _, same⟩
    · rw [same]
      refine .of_not_building free ?_ fun _ failed => nomatch failed
      rintro _ ⟨⟩
      exact ⟨body, published⟩
    · rw [same]
      refine .of_not_building free (fun _ served => nomatch served) ?_
      rintro _ ⟨⟩
      refine ⟨trivial, fun other refused => ?_⟩
      cases refused

/-- Whatever is asked for at a moment of a lookup ends well. -/
theorem request_endsWell (genuine : Genuine sources thread past)
    (aligned : Aligned past) {operation : Operation} {expression : TypeExpr}
    (asked : operation.expression? = some expression)
    (topLevel : operation.IsTopLevel) :
    let registry : Registry := { sources, store := storeAfter thread past }
    EndsWell (expression.name ∈ stack past) expression.name
      (registry.run operation.request thread).1 registry.store
      (registry.run operation.request thread).2.store := by
  rw [Operation.request_eq_resolve asked topLevel]
  by_cases member : expression.name ∈ stack past
  · obtain ⟨entry, found, unpublished⟩ :=
      (genuine.mem_stack_iff aligned).1 member
    obtain ⟨deeds, ran⟩ := @run_resolve_of_building { sources, thread }
      (builder { sources, thread }) _ _ expression found
      (genuine.builder_eq found) unpublished
    have outcome : ({ sources, store := storeAfter thread past } :
        Registry).run (Registry.resolve expression) thread =
          (.error (.error (.reentrantLookup expression.name)),
            { sources, store := storeAfter thread past }) := by
      simp only [Registry.run, if_true, Registry.Request.procedure,
        Registry.resolve, ran, Registry.outcomeOf]
    simp only [outcome]
    exact ⟨⟨fun _ => member, fun _ => rfl⟩, fun _ => rfl,
      fun free => (free member).elim, fun free => (free member).elim⟩
  · have builds := @builder_within { sources, thread } False False.elim
    have quiet (other : ThreadId) (different : other ≠ thread) :
        unfinished ((alone thread past).past other) = [] := by
      rw [past_alone_of_ne different]
      rfl
    have room := hasRoom_depthBound sources expression.names
      ((alone thread past).past thread)
    obtain ⟨_, outcome, ended, _, refused⟩ := genuine.faithful.run
      (resolve_refused builds room False.elim) quiet
    obtain ⟨after, _, endedToo, _, answers, secures⟩ := genuine.faithful.run
      (resolve_keeps builds room False.elim) quiet
    cases Except.ok.inj (endedToo.symm.trans ended)
    have ran : (((Registry.resolve expression).procedure sources thread).run
        thread (storeAfter thread past)).outcome = .ok outcome :=
      ended
    simp only [Registry.run, if_true, Registry.outcomeOf, ran]
    refine .of_not_building member ?_ ?_
    · rintro descriptor rfl
      exact after.coherent.secured secures
    · rintro stop rfl
      refine ⟨answers, ?_⟩
      rintro other rfl
      obtain ⟨identity, begun⟩ := refused other rfl
      rw [past_alone] at begun
      refine member ?_
      rw [← aligned]
      exact List.mem_map_of_mem begun

end Past.Genuine

namespace Session

variable {sources : Sources} {thread : ThreadId} {session : Session}

/-- Whether no operation was refused for a build. -/
def NoneRefused (session : Session) : Prop :=
  ∀ operation outcome, (operation, outcome) ∈ session.answers →
    ∀ name, outcome ≠ .error (.error (.reentrantLookup name))

/-- Whether a thread that acts alone never waits, and is refused nothing but
what it is building itself. -/
structure NeverWaits (sources : Sources) (thread : ThreadId)
    (session : Session) : Prop where
  /-- The deeds of the thread tell the store of each moment. -/
  store : session.registry.store =
    storeAfter thread (session.history.past thread)
  /-- No operation is blocked. -/
  answered : ∀ operation outcome, (operation, outcome) ∈ session.answers →
    Answers outcome
  noneRefused : session.NoneRefused
  /-- What was waited for had been published before. -/
  awaited : ∀ before descriptor body,
    ⟨.await descriptor, body⟩ :: before <:+ session.history.past thread →
      (storeAfter thread before).body? descriptor = some body
  /-- Each lookup that was begun was answered. -/
  begun : ∀ kind name begun,
    ⟨.mark (.asked kind name), ()⟩ :: begun <:+ session.history.past thread →
      ∃ ended outcome, LookedUp (session.history.past thread)
        ⟨kind, name, begun⟩ ended outcome
  /-- Each top-level lookup of a name was refused just inside a build of it. -/
  lookedUp : ∀ name begun ended outcome,
    LookedUp (session.history.past thread) ⟨.topLevel, name, begun⟩ ended
        outcome →
      EndsWell (name ∈ stack begun) name outcome (storeAfter thread begun)
        (storeAfter thread ended)
  /-- Whatever else might have been asked for instead of one of the lookups,
  from inside the same builds, would be refused just inside a build of its
  head. -/
  requested : ∀ kind name begun,
    ⟨.mark (.asked kind name), ()⟩ :: begun <:+ session.history.past thread →
      ∀ operation : Operation, ∀ expression,
        operation.expression? = some expression → operation.IsTopLevel →
          let registry : Registry :=
            { sources, store := storeAfter thread begun }
          EndsWell (expression.name ∈ stack begun) expression.name
            (registry.run operation.request thread).1 registry.store
            (registry.run operation.request thread).2.store

/-- A lookup that a thread ends with, when it builds nothing, is not refused. -/
theorem Chronicled.not_refused (chronicled : Chronicled sources thread session)
    {past : Past} {name : TypeName}
    (requested : Requested past (session.history.past thread)
      (.error (.reentrantLookup name))) : False := by
  rcases requested with own | ⟨⟨⟨kind, asked, begun⟩, ended, _, _, lookedUp,
    last⟩, _⟩
  · exact own
  · have genuine := chronicled.genuine
    obtain ⟨rfl, ⟨⟩, same⟩ | ⟨_, _, _, _, _, _, ⟨⟩, _⟩ :=
      (genuine.course lookedUp).of_error rfl
    have building := (genuine.lookedUp_endsWell lookedUp).refused_iff.1 rfl
    have nothing := chronicled.stack
    rw [last] at nothing
    have free : Past.stack begun = [] := same.symm.trans nothing
    rw [free] at building
    cases building

theorem performAll_noneRefused (sources : Sources) (thread : ThreadId)
    (operations : List Operation) :
    (performAll sources thread operations).NoneRefused := by
  refine @Chronicled.performAll_induction sources thread NoneRefused
    (fun _ _ member => (List.not_mem_nil member).elim) ?_ operations
  intro session operation chronicled orderly earlier
  obtain ⟨after, deeds, outcome, past, answers, ends⟩ :=
    chronicled.perform orderly operation
  intro other result member name same
  rw [answers] at member
  rcases List.mem_cons.1 member with here | before
  · cases here
    have requested := ends _ same
    rw [← past] at requested
    exact after.not_refused requested
  · exact earlier other result before name same

/-- Whatever collaborators do, and whatever they look up from inside of builds,
a thread that acts alone never waits: a top-level lookup is refused if and only
if the thread is in the middle of building what it asks for. -/
theorem performAll_neverWaits (sources : Sources) (thread : ThreadId)
    (operations : List Operation) :
    (performAll sources thread operations).NeverWaits sources thread := by
  have orderly := performAll_orderly sources thread operations
  have chronicled := performAll_chronicled sources thread operations
  have genuine := chronicled.genuine
  refine ⟨chronicled.store, orderly.answered,
    performAll_noneRefused sources thread operations,
    fun before descriptor body awaited => ?_, fun kind name begun asked => ?_,
    fun name begun ended outcome lookedUp => ?_,
    fun kind name begun asked operation expression given topLevel => ?_⟩
  · exact (genuine.of_suffix awaited).replays.published_of_await
  · exact genuine.exists_lookedUp_of_asked chronicled.inquiries asked
  · exact genuine.lookedUp_endsWell lookedUp
  · have moment := genuine.of_suffix asked
    exact (moment.of_suffix (List.suffix_cons _ _)).request_endsWell
      moment.traced.1 given topLevel

/-- A script is refused the type that it is run for. -/
example :
    let sources : Sources :=
      { provider :=
          Provider.ofTable (FactsTable.empty.insertAll [{ name := "Loop" }])
        scripts := NameMap.ofList [("Loop", [.get "Loop"])] }
    let reports := (performAll sources 0 [.get "Loop"]).registry.store.reports
    (reports.filterMap fun
      | .introspecting name finding => some (name, finding)
      | .call _ => none) =
        [("Loop", .error (.reentrantLookup "Loop"))] := by
  decide +kernel

end Session

end TypeAtlas
