import TypeAtlas.Proofs.Registry.Attempts
import TypeAtlas.Proofs.Registry.Confinement
import TypeAtlas.Proofs.Registry.Deliveries
import TypeAtlas.Proofs.Registry.Generic
import TypeAtlas.Proofs.Registry.LazyReferences
import TypeAtlas.Proofs.Registry.Outlined
import TypeAtlas.Proofs.Registry.ReferenceClosure

/-!
# Lookups that begin at rest

While nothing is built, a store is at rest, and a lookup that a thread then
begins comes to its end and leaves the store at rest.  All that was cached is as
before, and all that is new was asked for, in turn, by the names that the lookup
is for.  If it fails, so did the build of one of these names, for the first
time.  Requests go on from one such lookup to the next.
-/

namespace TypeAtlas

open Past Lookup

/-- Whether lookups of some names ask for a name, in turn. -/
def Sources.IsAskedFor (sources : Sources) (names : List TypeName)
    (name : TypeName) : Prop :=
  ∃ asked ∈ names, Relation.ReflTransGen sources.AsksFor asked name

/-- Without scripts, that are the names which references lead to. -/
theorem Sources.isAskedFor_iff_isReached {sources : Sources}
    (plain : sources.IsPlain) {names : List TypeName} {name : TypeName} :
    sources.IsAskedFor names name ↔ Session.IsReached sources names name := by
  have same : sources.AsksFor = sources.Refers := by
    funext asked other
    exact propext (asksFor_iff_refers plain)
  unfold IsAskedFor
  rw [same]
  rfl

namespace Store

variable {sources : Sources} {store later latest : Store}
  {names others : List TypeName} {name : TypeName} {thread : ThreadId}

/-- Whether a store is as live registries have it while nothing is built. -/
structure IsAtRest (sources : Sources) (store : Store) : Prop where
  published : ∀ name entry, store.entries.get? name = some entry →
    entry.isPublished = true
  faithful : ∃ history, Faithful sources False store history
  recorded : ∃ ledger : Ledger, ledger.store = store
  outlined : store.Fits (Body.IsOutlined sources)
  generic : store.Fits (Body.IsGeneric sources)

/-- What lookups of some names leave that were begun at rest.  All is published,
and nothing that was cached has changed. -/
structure LeavesAtRest (sources : Sources) (names : List TypeName)
    (store later : Store) : Prop where
  published : ∀ name entry, later.entries.get? name = some entry →
    entry.isPublished = true
  generic : later.Fits (Body.IsGeneric sources)
  kept : ∀ name entry, store.entries.get? name = some entry →
    later.entries.get? name = some entry
  added : ∀ name entry, store.entries.get? name = none →
    later.entries.get? name = some entry → sources.IsAskedFor names name
  unused : store.fresh ≤ later.fresh

/-- Whether a name has become cached since, and its build has failed. -/
def FailsSince (store later : Store) (name : TypeName) : Prop :=
  store.entries.get? name = none ∧
    ∃ body, later.published? name = some body ∧ body.failure? ≠ none

theorem LeavesAtRest.trans (first : store.LeavesAtRest sources names later)
    (second : later.LeavesAtRest sources others latest) :
    store.LeavesAtRest sources (names ++ others) latest where
  published := second.published
  generic := second.generic
  kept name entry found := second.kept name entry (first.kept name entry found)
  added name entry absent found := by
    cases midway : later.entries.get? name with
    | some earlier =>
      obtain ⟨asked, member, leads⟩ := first.added name earlier absent midway
      exact ⟨asked, List.mem_append_left _ member, leads⟩
    | none =>
      obtain ⟨asked, member, leads⟩ := second.added name entry midway found
      exact ⟨asked, List.mem_append_right _ member, leads⟩
  unused := Nat.le_trans first.unused second.unused

theorem LeavesAtRest.mono (leaves : store.LeavesAtRest sources names later)
    (subset : names ⊆ others) : store.LeavesAtRest sources others later where
  published := leaves.published
  generic := leaves.generic
  kept := leaves.kept
  added name entry absent found := by
    obtain ⟨asked, member, leads⟩ := leaves.added name entry absent found
    exact ⟨asked, subset member, leads⟩
  unused := leaves.unused

theorem LeavesAtRest.body? (leaves : store.LeavesAtRest sources names later)
    {identity : Nat} {body : Body}
    (told : store.body? (.cached name identity) = some body) :
    later.body? (.cached name identity) = some body := by
  obtain ⟨entry, found, numbered, given⟩ := body?_cached_eq_some.1 told
  exact body?_cached_eq_some.2
    ⟨entry, leaves.kept name entry found, numbered, given⟩

theorem LeavesAtRest.failsSince
    (leaves : store.LeavesAtRest sources names later)
    (fails : later.FailsSince latest name) : store.FailsSince latest name := by
  refine ⟨Option.eq_none_iff_forall_not_mem.2 fun entry found => ?_, fails.2⟩
  cases fails.1.symm.trans (leaves.kept name entry found)

theorem LeavesAtRest.useNumber
    (leaves : store.LeavesAtRest sources names later) :
    store.LeavesAtRest sources names later.useNumber :=
  ⟨leaves.published, leaves.generic, leaves.kept, leaves.added,
    Nat.le_succ_of_le leaves.unused⟩

theorem fresh_le_of_perform {action : Action} {answer : action.Answer}
    (performed : store.perform thread action = .ok (answer, later)) :
    store.fresh ≤ later.fresh := by
  cases action with
  | enter name | publish name identity body | await descriptor
  | keepTarget slot target =>
    simp only [perform] at performed
    split at performed <;> cases performed
    all_goals first | exact Nat.le_refl _ | exact Nat.le_succ _
  | takeNumber =>
    cases performed
    exact Nat.le_succ _
  | _ =>
    cases performed
    exact Nat.le_refl _

theorem fresh_le_run (procedure : Procedure α) (thread : ThreadId)
    (store : Store) :
    store.fresh ≤ (procedure.run thread store).store.fresh := by
  induction procedure generalizing store with
  | done value => exact Nat.le_refl _
  | act action next ih =>
    cases performed : store.perform thread action with
    | error descriptor =>
      simp only [Procedure.run, performed]
      exact Nat.le_refl _
    | ok result =>
      simp only [Procedure.run, performed]
      exact Nat.le_trans (fresh_le_of_perform performed)
        (ih result.1 result.2)

end Store

namespace Coherent

variable {store later : Store} {history : History} {thread : ThreadId}
  {deeds : List Deed}

/-- Only the thread that acted has made what is new since. -/
theorem made_since (coherent : Coherent store history)
    (after : Coherent later (History.ofDeeds thread deeds ++ history))
    {name : TypeName} {entry : Entry}
    (absent : store.entries.get? name = none)
    (found : later.entries.get? name = some entry) :
    (⟨.enter name, .made entry.identity⟩ : Deed) ∈ deeds := by
  rcases List.mem_append.1 (after.made name entry found) with since | before
  · have own := History.mem_past.2 since
    rw [History.eq_of_mem_ofDeeds since, ← List.append_nil
      (History.ofDeeds thread deeds), History.past_ofDeeds] at own
    simpa using own
  · obtain ⟨old, located, _⟩ := coherent.confirmed _ _ before
    rw [(Store.entryFor?_eq_some.1 located).1] at absent
    cases absent

/-- What is blamed for a failure became cached since, and has failed. -/
theorem failsSince_of_blames (coherent : Coherent store history)
    {after : History} (coherentLater : Coherent later after)
    (kept : ∀ name entry, store.entries.get? name = some entry →
      later.entries.get? name = some entry)
    {names : List TypeName}
    (blames : Blames (history.past thread) (after.past thread) names) :
    ∃ name ∈ names, store.FailsSince later name := by
  obtain ⟨name, member, fresh, fails⟩ := blames
  obtain ⟨identity, body, told, failed⟩ := hasFailed_iff.1 fails
  obtain ⟨entry, located, own, published⟩ :=
    coherentLater.confirmed thread _ (History.mem_past.1 told)
  have found := (Store.entryFor?_eq_some.1 located).1
  refine ⟨name, member, Option.eq_none_iff_forall_not_mem.2 fun old here => ?_,
    body, Store.published?_eq_some.2 ⟨entry, found, published⟩, failed⟩
  -- An entry that was there would have been made by another thread.
  cases (kept name old here).symm.trans found
  have made := coherent.made name entry here
  rw [own] at made
  rw [hasEntered_of_mem (History.mem_past.2 made)] at fresh
  cases fresh

end Coherent

namespace Lookup

variable {agent : Agent} {names : List TypeName}

/-- What lookups of some names keep to, so that they leave stores at rest. -/
structure IsRestful (agent : Agent) (names : List TypeName)
    (holds : Ledger → α → Prop) (lookup : Lookup α) : Prop where
  fares : ∀ past, unfinished past = [] →
    Meets (discipline agent False) (Keeps past (Fares agent.sources names past))
      lookup past
  upholds : ∀ ledger, Upholds agent.thread True (Gives True holds) lookup ledger
  publishes : ∀ fits, AssemblesFitting fits agent → Publishes fits lookup
  confined : Confined (agent.sources.IsAskedFor names) lookup

theorem builder_asksInTurn (agent : Agent) (names : List TypeName) :
    BuildsConfined (agent.sources.IsAskedFor names) (builder agent) :=
  builder_confined agent fun _ _ ⟨asked, member, leads⟩ asks =>
    ⟨asked, member, leads.tail asks⟩

theorem getByName_isRestful (agent : Agent) (name : TypeName) :
    IsRestful agent [name] (fun ledger descriptor =>
      ledger.Names name descriptor) (getByName agent (builder agent) name) where
  fares past finished := by
    refine (getByName_keeps (builder_within False.elim)
      (hasRoom_depthBound agent.sources [name] past) False.elim).mono ?_
    rintro later outcome ⟨grows, serves⟩
    refine ⟨grows, serves.fared.resolve_right fun ⟨_, identity, begun⟩ => ?_⟩
    rw [finished] at begun
    cases begun
  upholds := getByName_upholds (builder_upholds agent) name
  publishes _ assembles :=
    getByName_publishes (builder_publishes assembles) name
  confined := getByName_confined (builder_asksInTurn agent [name])
    ⟨name, List.mem_singleton.2 rfl, .refl⟩

theorem takeReferences_isRestful (agent : Agent) (args : List TypeExpr) :
    IsRestful agent (TypeExpr.namesOfList args) (Takes args)
      (args.mapM (takeReference (builder agent))) where
  fares past _ := mapM_takeReference_fares (builder_within False.elim)
    (hasRoom_depthBound agent.sources _ past)
  upholds ledger := mapM_takeReference_upholds
    (provides_of_builds (builder_upholds agent) _ ledger)
  publishes _ assembles :=
    have congruence := publishes_congruence agent (builder_publishes assembles)
    congruence.mapM (takeReference (builder agent)) fun _ _ =>
      congruence.takeReference fun _ _ => trivial
  confined :=
    have congruence := confined_congruence agent
      (builder_asksInTurn agent (TypeExpr.namesOfList args))
    congruence.mapM (takeReference (builder agent)) fun _ member =>
      congruence.takeReference fun name within =>
        ⟨name, TypeExpr.names_subset_namesOfList member within, .refl⟩

end Lookup

/-- What a lookup of some names comes to that a thread began at rest. -/
structure Procedure.Run.EndsAtRest (run : Procedure.Run (Except Stop α))
    (sources : Sources) (thread : ThreadId) (names : List TypeName)
    (holds : Ledger → α → Prop) (store : Store) (outcome : Except Stop α) :
    Prop where
  ended : run.outcome = .ok outcome
  rests : run.store.IsAtRest sources
  leaves : store.LeavesAtRest sources names run.store
  confirmed : ∀ deed ∈ run.deeds, run.store.Confirms thread deed
  made : ∀ name entry, store.entries.get? name = none →
    run.store.entries.get? name = some entry →
      (⟨.enter name, .made entry.identity⟩ : Deed) ∈ run.deeds
  given : ∀ value, outcome = .ok value →
    ∃ ledger : Ledger, ledger.store = run.store ∧ holds ledger value
  failed : ∀ stop, outcome = .error stop →
    stop.IsInitialization ∧ ∃ name ∈ names, store.FailsSince run.store name

namespace Store.IsAtRest

variable {sources : Sources} {store : Store} {names : List TypeName}
  {holds : Ledger → α → Prop} {lookup : Lookup α} {thread : ThreadId}

theorem run (rests : store.IsAtRest sources)
    (restful : IsRestful { sources, thread } names holds lookup) :
    ∃ outcome, ((ExceptT.run lookup).run thread store).EndsAtRest sources
      thread names holds store outcome := by
  obtain ⟨published, ⟨history, faithful⟩, ⟨ledger, same⟩, outlined, generic⟩ :=
    rests
  have finished := faithful.coherent.published_iff.1 published
  obtain ⟨after, outcome, ended, grows, fares⟩ :=
    faithful.run (restful.fares _ (finished thread)) fun other _ =>
      finished other
  obtain ⟨later, within, sameLater, -, gives⟩ :=
    Procedure.Upholds.run (restful.upholds ledger)
  have stillOutlined : ((ExceptT.run lookup).run thread store).store.Fits _ :=
    outlined.run
      (restful.publishes _ (assemblesFitting_isOutlined sources thread) [])
  have stillGeneric : ((ExceptT.run lookup).run thread store).store.Fits _ :=
    generic.run
      (restful.publishes _ (assemblesFitting_isGeneric { sources, thread }) [])
  subst same
  have kept (name : TypeName) (entry : Entry)
      (found : ledger.store.entries.get? name = some entry) :=
    (sameLater ▸ within.entries).get?_of_published found
      (published name entry found)
  have idle : ∀ other, unfinished ((History.ofDeeds thread
      ((ExceptT.run lookup).run thread ledger.store).deeds ++
        history).past other) = [] := by
    intro other
    by_cases same : other = thread
    · obtain ⟨_, _, _, still⟩ := grows
      rw [same, still, finished]
    · rw [History.past_ofDeeds_of_ne same, finished]
  have still := after.coherent.published_iff.2 idle
  refine ⟨outcome, ended, ⟨still, ⟨_, after⟩, ⟨later, sameLater⟩, stillOutlined,
    stillGeneric⟩, ⟨still, stillGeneric, kept, ?_, Store.fresh_le_run _ _ _⟩,
    ?_, fun _ _ => faithful.coherent.made_since after.coherent, ?_, ?_⟩
  · intro name entry absent found
    refine (Store.exists_of_run (restful.confined []) found).resolve_left ?_
    rintro ⟨old, present⟩
    rw [absent] at present
    cases present
  · intro deed member
    refine after.coherent.confirmed thread deed (History.mem_past.1 ?_)
    rw [History.past_ofDeeds]
    exact List.mem_append_left _ (List.mem_reverse.2 member)
  · rintro value rfl
    exact ⟨later, sameLater, gives _ ended⟩
  · rintro stop rfl
    obtain ⟨⟨initialization, _⟩, blames⟩ := fares
    exact ⟨initialization, faithful.coherent.failsSince_of_blames
      after.coherent kept blames⟩

end Store.IsAtRest

namespace Procedure

variable {thread : ThreadId} {store later latest : Store}

/-- Whether a procedure that runs alone ends with a value, and in a store. -/
structure EndsWith (procedure : Procedure α) (thread : ThreadId) (store : Store)
    (value : α) (later : Store) : Prop where
  outcome : (procedure.run thread store).outcome = .ok value
  store : (procedure.run thread store).store = later

theorem EndsWith.act {action : Action} {next : action.Answer → Procedure α}
    {answer : action.Answer} {value : α}
    (performed : store.perform thread action = .ok (answer, later))
    (rest : (next answer).EndsWith thread later value latest) :
    (act action next).EndsWith thread store value latest := by
  constructor
  · simp only [run, performed]
    exact rest.outcome
  · simp only [run, performed]
    exact rest.store

theorem EndsWith.bind {procedure : Procedure α} {next : α → Procedure β}
    {value : α} {result : β}
    (first : procedure.EndsWith thread store value later)
    (second : (next value).EndsWith thread later result latest) :
    (procedure >>= next).EndsWith thread store result latest := by
  induction procedure generalizing store with
  | done given =>
    cases first.outcome
    cases first.store
    exact second
  | act action goesOn ih =>
    obtain ⟨outcome, ended⟩ := first
    cases performed : store.perform thread action with
    | error descriptor =>
      simp only [run, performed] at outcome
      cases outcome
    | ok given =>
      simp only [run, performed] at outcome ended
      exact .act performed (ih given.1 ⟨outcome, ended⟩)

end Procedure

namespace Lookup

variable {agent : Agent} {build : Builder} {thread : ThreadId}
  {store later latest : Store}

/-- Whether a lookup that runs alone comes to an outcome, and to a store. -/
def ComesTo (lookup : Lookup α) (thread : ThreadId) (store : Store)
    (outcome : Except Stop α) (later : Store) : Prop :=
  Procedure.EndsWith (ExceptT.run lookup) thread store outcome later

theorem comesTo_pure (value : α) (thread : ThreadId) (store : Store) :
    (pure value : Lookup α).ComesTo thread store (.ok value) store :=
  ⟨rfl, rfl⟩

theorem comesTo_fail (error : Error) (thread : ThreadId) (store : Store) :
    (fail error : Lookup α).ComesTo thread store (.error (.error error))
      store :=
  ⟨rfl, rfl⟩

theorem comesTo_perform {action : Action} {answer : action.Answer}
    (performed : store.perform thread action = .ok (answer, later)) :
    (perform action).ComesTo thread store (.ok answer) later :=
  .act performed ⟨rfl, rfl⟩

theorem ComesTo.bind {lookup : Lookup α} {next : α → Lookup β} {value : α}
    {outcome : Except Stop β}
    (first : lookup.ComesTo thread store (.ok value) later)
    (second : (next value).ComesTo thread later outcome latest) :
    (lookup >>= next).ComesTo thread store outcome latest :=
  Procedure.EndsWith.bind first second

theorem ComesTo.stopped {lookup : Lookup α} {stop : Stop}
    (stopped : lookup.ComesTo thread store (.error stop) later)
    (next : α → Lookup β) :
    (lookup >>= next).ComesTo thread store (.error stop) later :=
  Procedure.EndsWith.bind stopped ⟨rfl, rfl⟩

end Lookup

theorem Registry.run_of_comesTo {request : Request α} {sources : Sources}
    {thread : ThreadId} {store later : Store} {outcome : Except Stop α}
    (comes : (request { sources, thread } (builder { sources, thread })).ComesTo
      thread store outcome later) :
    ({ sources, store } : Registry).run request thread =
      (outcome, { sources, store := later }) := by
  simp only [Registry.run, if_true, outcomeOf, Request.procedure, comes.outcome,
    comes.store]

/-- A name that is looked up for the first time is built, there and then. -/
theorem Procedure.Run.EndsAtRest.built {sources : Sources} {thread : ThreadId}
    {name : TypeName} {store : Store} {outcome : Except Stop Descriptor}
    (ends : ((ExceptT.run (getByName { sources, thread }
      (builder { sources, thread }) name)).run thread store).EndsAtRest sources
        thread [name] (fun ledger descriptor => ledger.Names name descriptor)
        store outcome)
    (absent : store.entries.get? name = none) :
    ∃ identity body,
      ((ExceptT.run (getByName { sources, thread }
        (builder { sources, thread }) name)).run thread store).store.body?
          (.cached name identity) = some body ∧
        outcome = (body.outcome name).map fun _ => .cached name identity := by
  have aligned : Aligned [] := rfl
  obtain ⟨-, noted⟩ := (getByName_notes (builder_traced { sources, thread })
    name aligned).run_lawful (fun _ _ => trivial) trivial thread store
  obtain ⟨ended, deeds, -, -, course⟩ := noted outcome ends.ended
  rw [List.append_nil] at deeds
  have concludes : Concludes outcome := by
    cases outcome with
    | ok descriptor => trivial
    | error stop => exact (ends.failed stop rfl).1.isError.isFailure
  have confirmed (deed : Deed) (member : deed ∈ ended) :=
    ends.confirmed deed (List.mem_reverse.1
      (deeds ▸ List.mem_cons_of_mem _ member))
  cases course concludes with
  | refused => exact (ends.failed _ rfl).1.elim
  | hit =>
    -- Whoever finds the entry has not made it, and nobody else acts.
    obtain ⟨entry, located, _⟩ := confirmed ⟨.enter name, .present _ _ _⟩
      (.tail _ (.tail _ (.head _)))
    have made := ends.made name entry absent
      (Store.entryFor?_eq_some.1 located).1
    rw [← List.mem_reverse, deeds] at made
    simp at made
  | @built _ identity inner body built =>
    obtain ⟨entry, located, _, told⟩ :=
      confirmed ⟨.publish name identity body, ()⟩ (.tail _ (.head _))
    have found := Store.entryFor?_eq_some.1 located
    exact ⟨identity, body, Store.body?_cached_eq_some.2
      ⟨entry, found.1, found.2, told⟩, rfl⟩

/-- What looking a name up at rest comes to.  Its body has been published then,
and only the lookup that the failed build was begun for ends with the
failure. -/
structure Store.GetsAtRest (sources : Sources) (thread : ThreadId)
    (name : TypeName) (store : Store) (identity : Nat) (body : Body)
    (outcome : Except Stop Descriptor) (later : Store) : Prop where
  comes : (getByName { sources, thread } (builder { sources, thread })
    name).ComesTo thread store outcome later
  rests : later.IsAtRest sources
  leaves : store.LeavesAtRest sources [name] later
  told : later.body? (.cached name identity) = some body
  served : store.entries.get? name ≠ none ∨ body.failure? = none →
    outcome = .ok (.cached name identity)
  failed : store.entries.get? name = none → ∀ reason,
    body.failure? = some reason →
      outcome = .error (.error (.initialization name reason))

theorem Store.IsAtRest.getByName {sources : Sources} {store : Store}
    (rests : store.IsAtRest sources) (name : TypeName) (thread : ThreadId) :
    ∃ identity body outcome later, Store.GetsAtRest sources thread name store
      identity body outcome later := by
  obtain ⟨outcome, ends⟩ :=
    rests.run (getByName_isRestful { sources, thread } name)
  have comes : (Lookup.getByName { sources, thread }
      (builder { sources, thread }) name).ComesTo thread store outcome _ :=
    ⟨ends.ended, rfl⟩
  cases before : store.entries.get? name with
  | some entry =>
    obtain ⟨body, told⟩ :=
      Option.isSome_iff_exists.1 (rests.published name entry before)
    have given {later : Store} (found : later.entries.get? name = some entry) :
        later.body? (.cached name entry.identity) = some body :=
      Store.body?_cached_eq_some.2 ⟨entry, found, rfl, told⟩
    have served : ({ sources, store } : Registry).run (Registry.get name)
        thread = (.ok (.cached name entry.identity), _) :=
      Registry.run_get_of_published thread rfl (given before)
    rw [Registry.run_of_comesTo comes] at served
    refine ⟨entry.identity, body, outcome, _, comes, ends.rests, ends.leaves,
      given (ends.leaves.kept name entry before),
      fun _ => congrArg Prod.fst served, ?_⟩
    rw [before]
    rintro ⟨⟩
  | none =>
    obtain ⟨identity, body, told, rfl⟩ := ends.built before
    refine ⟨identity, body, _, _, comes, ends.rests, ends.leaves, told, ?_, ?_⟩
    · intro served
      rw [Body.outcome, served.resolve_left (fun cached => cached before)]
      rfl
    · intro _ reason failed
      rw [Body.outcome, failed]
      rfl

theorem Pool.Lives.isAtRest {sources : Sources} {pool : Pool}
    (lives : Lives sources pool) (quiet : pool.IsQuiet) :
    pool.store.IsAtRest sources where
  published := quiet
  faithful := ⟨pool.history, lives.orderly.faithful⟩
  recorded := by
    obtain ⟨ledger, accounted⟩ := lives.accounted
    exact ⟨ledger, accounted.same⟩
  outlined _ _ := lives.isOutlined
  generic := lives.isGeneric

end TypeAtlas
