import TypeAtlas.Proofs.Registry.Congruence
import TypeAtlas.Proofs.Registry.Live

/-!
# What is published

Bodies may be required to fit the names that they are published for.  Where all
that assemblies leave fits, nothing else is ever published, whatever a registry
is asked for, and whatever scripts look up from inside of assemblies.  So every
body in the store of a live registry fits its name.
-/

namespace TypeAtlas

variable {fits : TypeName → Body → Prop}

/-- What publishes no bodies but those that fit their names. -/
def publishing (fits : TypeName → Body → Prop) : Contract where
  allows _
    | .publish name _ body => fits name body
    | _ => True
  promises _ _ := True

namespace Lookup

def Publishes (fits : TypeName → Body → Prop) (lookup : Lookup α) : Prop :=
  ∀ past, Meets (publishing fits) (fun _ _ => True) lookup past

theorem Publishes.bind {lookup : Lookup α} {next : α → Lookup β}
    (publishes : Publishes fits lookup)
    (goesOn : ∀ value, Publishes fits (next value)) :
    Publishes fits (lookup >>= next) := by
  intro past
  apply Meets.bind
  apply (publishes past).mono
  rintro later (stop | value) _
  · trivial
  · exact goesOn value later

theorem Publishes.attempt_bind {lookup : Lookup α}
    {next : Except Stop α → Lookup β} (publishes : Publishes fits lookup)
    (goesOn : ∀ outcome, Publishes fits (next outcome)) :
    Publishes fits (attempt lookup >>= next) := by
  intro past
  apply Meets.attempt_bind
  apply (publishes past).mono
  intro later outcome _
  exact goesOn outcome later

theorem publishes_perform_bind {action : Action}
    {next : action.Answer → Lookup α}
    (allowed : (publishing fits).allows [] action)
    (goesOn : ∀ answer, Publishes fits (next answer)) :
    Publishes fits (perform action >>= next) := by
  intro past
  have allowedNow : (publishing fits).allows past action := allowed
  exact meets_perform_bind allowedNow fun answer _ => goesOn answer _

theorem publishes_perform {action : Action}
    (allowed : (publishing fits).allows [] action) :
    Publishes fits (perform action) := by
  intro past
  have allowedNow : (publishing fits).allows past action := allowed
  exact meets_perform allowedNow fun _ _ => trivial

theorem publishes_of_isFree {action : Action} (free : action.isFree = true) :
    Publishes fits (perform action) := by
  apply publishes_perform
  cases action with
  | publish name identity body => cases free
  | _ => trivial

theorem publishes_pure (value : α) : Publishes fits (pure value) :=
  fun _ => trivial

theorem publishes_throw (stop : Stop) :
    Publishes fits (throw stop : Lookup α) :=
  fun _ => trivial

theorem Publishes.noted {kind : LookupKind} {name : TypeName}
    {lookup : Lookup Descriptor} (publishes : Publishes fits lookup) :
    Publishes fits (noted kind name lookup) := by
  intro past
  apply Meets.noted trivial
  apply (publishes _).mono
  intro _ _ _
  exact ⟨trivial, trivial⟩

def BuildsFitting (fits : TypeName → Body → Prop) (build : Builder) : Prop :=
  ∀ name identity, Publishes fits (build name identity)

section Lookups

variable {agent : Agent} {build : Builder}

theorem getNested_publishes (builds : BuildsFitting fits build)
    (name : TypeName) : Publishes fits (getNested build name) := by
  apply Publishes.noted
  refine publishes_perform_bind trivial fun found => ?_
  cases found with
  | present identity builder isPublished => exact publishes_pure _
  | made identity =>
    exact (builds name identity).bind fun _ => publishes_pure _

theorem getByName_publishes (builds : BuildsFitting fits build)
    (name : TypeName) : Publishes fits (getByName agent build name) := by
  apply Publishes.noted
  refine publishes_perform_bind trivial fun found => ?_
  cases found with
  | present identity builder isPublished =>
    dsimp only
    split
    · exact publishes_throw _
    · refine publishes_perform_bind trivial fun _ => ?_
      exact publishes_perform_bind trivial fun _ => publishes_pure _
  | made identity =>
    refine publishes_perform_bind trivial fun _ => ?_
    exact (builds name identity).bind fun _ => publishes_pure _

theorem find_publishes {lookup : Lookup Descriptor}
    (publishes : Publishes fits lookup) : Publishes fits (find lookup) := by
  apply publishes.attempt_bind
  rintro ((error | crash | name | _) | descriptor)
  · exact publishes_pure _
  · exact publishes_throw _
  · exact publishes_throw _
  · exact publishes_throw _
  · exact publishes_perform_bind trivial fun _ => publishes_pure _

theorem publishes_congruence (agent : Agent)
    (builds : BuildsFitting fits build) :
    Congruence agent (fun _ => True) build build
      fun lookup _ => Publishes fits lookup where
  pure := publishes_pure
  throw _ := publishes_throw _
  bind := Publishes.bind
  perform free := publishes_of_isFree free
  find := find_publishes
  nested _ := getNested_publishes builds _
  topLevel _ := getByName_publishes builds _
  attend _ second :=
    (getByName_publishes builds _).bind fun base =>
      publishes_perform_bind trivial (second base)

/-- Whether what an assembly leaves fits, with the failure that it ended in. -/
def LeavesFitting (fits : TypeName → Body → Prop) (name : TypeName) :
    Except Stop Unit → Body → Prop
  | .ok _, body => fits name body
  | .error stop, body => ∀ error, Stop.failure? stop = some error →
      fits name { body with failure? := some error.message }

def AssemblesFitting (fits : TypeName → Body → Prop) (agent : Agent) : Prop :=
  ∀ build, BuildsFitting fits build → ∀ name past,
    Assembly.Meets (publishing fits) (fun _ => LeavesFitting fits name)
      (assembly agent build name) past (Body.blank name)

theorem buildWith_publishes (assembles : AssemblesFitting fits agent)
    (builds : BuildsFitting fits build) :
    BuildsFitting fits (buildWith agent build) := by
  intro name identity
  refine publishes_perform_bind trivial fun _ past => ?_
  apply Meets.lift_bind
  apply Procedure.Meets.mono (assembles build builds name past)
  rintro later ⟨outcome, body⟩ leaves
  cases outcome with
  | ok _ =>
    have publishes : Publishes fits (do
        publish name identity body
        perform (.recordBuild false)) :=
      publishes_perform_bind leaves fun _ => publishes_perform trivial
    exact publishes later
  | error stop =>
    cases failure : Stop.failure? stop with
    | none =>
      simp only [failure]
      exact publishes_throw _ later
    | some error =>
      simp only [failure]
      have publishes : Publishes fits (do
          publish name identity { body with failure? := some error.message }
          perform (.recordBuild true)
          (fail (.initialization name error.message) : Lookup Unit)) :=
        publishes_perform_bind (leaves error failure) fun _ =>
          publishes_perform_bind trivial fun _ => publishes_throw _
      exact publishes later

theorem builder_publishes (assembles : AssemblesFitting fits agent) :
    BuildsFitting fits (builder agent) := by
  unfold builder
  induction agent.sources.depthBound with
  | zero => exact fun _ _ => publishes_throw _
  | succ depth ih => exact buildWith_publishes assembles ih

end Lookups

end Lookup

namespace Assembly

/-- Whether a step of assembly publishes fitting bodies only, and leaves the
parts of its own body as they are. -/
def KeepsParts (fits : TypeName → Body → Prop)
    (assembling : Assembling Procedure α) : Prop :=
  ∀ past body,
    Meets (publishing fits) (fun _ _ left => left.parts = body.parts)
      assembling past body

theorem KeepsParts.bind {assembling : Assembling Procedure α}
    {next : α → Assembling Procedure β}
    (keeps : KeepsParts fits assembling)
    (goesOn : ∀ value, KeepsParts fits (next value)) :
    KeepsParts fits (assembling >>= next) := by
  intro past body
  apply Meets.bind
  apply (keeps past body).mono
  rintro later (stop | value) left same
  · exact same
  · have after := goesOn value later left
    exact after.mono fun _ _ _ sameToo => sameToo.trans same

theorem keepsParts_pure (value : α) : KeepsParts fits (pure value) :=
  fun _ _ => rfl

theorem keepsParts_modify {change : Body → Body}
    (same : ∀ body, (change body).parts = body.parts) :
    KeepsParts fits (modify change) :=
  fun _ body => meets_modify (same body)

theorem keepsParts_lift {lookup : Lookup α}
    (publishes : Lookup.Publishes fits lookup) :
    KeepsParts fits (lift lookup) := by
  intro past body
  apply Meets.lift
  exact (publishes past).mono fun _ _ _ => rfl

theorem keepsParts_congruence :
    Congruence fun step _ => KeepsParts fits step where
  pure := keepsParts_pure
  modifies keeps := keepsParts_modify fun body => (keeps body).1
  bind := KeepsParts.bind

end Assembly

namespace Operation

open Lookup

/-- What is given where no expression is asked for is an argument list. -/
def Lists (operation : Operation) (outcome : Except Stop Descriptor) : Prop :=
  operation.expression? = none → ∀ descriptor, outcome = .ok descriptor →
    ∃ number references, descriptor =
      .detached number (.named Body.argumentListName)
        (Body.argumentList references)

theorem request_publishes {agent : Agent}
    (assembles : AssemblesFitting fits agent) (operation : Operation)
    (past : Past) :
    Meets (publishing fits) (fun _ => operation.Lists)
      (operation.request agent (builder agent)) past := by
  have lookups := publishes_congruence agent (builder_publishes assembles)
  have others (asked : operation.expression? ≠ none) :
      Meets (publishing fits) (fun _ => operation.Lists)
        (operation.request agent (builder agent)) past :=
    (lookups.request operation (fun _ _ => trivial) past).mono
      fun _ _ _ none => (asked none).elim
  cases operation with
  | lookup text =>
    cases parsed : TypeExpr.parse text with
    | ok expression =>
      exact others (by simp [expression?, parsed, Except.toOption])
    | error fault =>
      have refuses : lookupText agent (builder agent) text =
          fail (.typeExpr fault) := by
        unfold lookupText
        rw [parsed]
        rfl
      change Meets _ _ (lookupText agent (builder agent) text) past
      rw [refuses]
      rintro _ _ ⟨⟩
  | argumentList types =>
    have takes : Publishes fits
        (types.mapM (takeReference (builder agent))) :=
      lookups.mapM (takeReference (builder agent)) fun _ _ =>
        lookups.takeReference fun _ _ => trivial
    apply Meets.bind
    apply (takes past).mono
    rintro later (stop | references) _
    · rintro _ _ ⟨⟩
    · refine meets_perform_bind trivial fun number _ => meets_pure ?_
      rintro _ _ ⟨⟩
      exact ⟨number, references, rfl⟩
  | _ => exact others (Option.some_ne_none _)

end Operation

namespace Store

variable {store later : Store} {thread : ThreadId}

/-- Whether all bodies that are published fit their names. -/
def Fits (fits : TypeName → Body → Prop) (store : Store) : Prop :=
  ∀ name body, store.published? name = some body → fits name body

theorem Fits.of_entries_eq (held : store.Fits fits)
    (same : later.entries = store.entries) : later.Fits fits := by
  intro name body published
  apply held
  simpa only [published?, same] using published

theorem Fits.perform {action : Action} {answer : action.Answer} {past : Past}
    (held : store.Fits fits) (allowed : (publishing fits).allows past action)
    (performed : store.perform thread action = .ok (answer, later)) :
    later.Fits fits := by
  cases action with
  | enter asked =>
    simp only [Store.perform] at performed
    split at performed
    · cases performed
      exact held
    · cases performed
      intro name body published
      obtain ⟨entry, found, given⟩ := published?_eq_some.1 published
      simp only [setEntry, useNumber, NameMap.get?_insert] at found
      split at found
      · cases found
        cases given
      · exact held name body (published?_eq_some.2 ⟨entry, found, given⟩)
  | publish asked identity told =>
    simp only [Store.perform] at performed
    split at performed
    next old present =>
      cases performed
      intro name body published
      obtain ⟨entry, found, given⟩ := published?_eq_some.1 published
      simp only [setEntry, NameMap.get?_insert] at found
      split at found
      next same =>
        cases found
        cases same
        simp only [Entry.publish, Option.or_eq_some_iff] at given
        rcases given with before | ⟨_, now⟩
        · exact held _ body (published?_eq_some.2
            ⟨old, (entryFor?_eq_some.1 present).1, before⟩)
        · cases now
          exact allowed
      · exact held name body (published?_eq_some.2 ⟨entry, found, given⟩)
    · cases performed
      exact held
  | await descriptor =>
    simp only [Store.perform] at performed
    split at performed
    · cases performed
      exact held
    · cases performed
  | keepTarget slot target =>
    simp only [Store.perform] at performed
    split at performed
    · cases performed
      exact held
    · cases performed
      exact held.of_entries_eq rfl
  | _ =>
    cases performed
    exact held.of_entries_eq rfl

theorem Fits.run {ensures : Past → α → Prop} {procedure : Procedure α}
    {past : Past} (held : store.Fits fits)
    (meets : procedure.Meets (publishing fits) ensures past) :
    (procedure.run thread store).store.Fits fits := by
  induction procedure generalizing store past with
  | done value => exact held
  | act action next ih =>
    obtain ⟨allowed, goesOn⟩ := meets
    cases performed : store.perform thread action with
    | error descriptor =>
      simp only [Procedure.run, performed]
      exact held
    | ok result =>
      obtain ⟨answer, later⟩ := result
      simp only [Procedure.run, performed]
      exact ih answer (held.perform allowed performed)
        (goesOn answer trivial)

end Store

namespace Pool

variable {sources : Sources} {pool later : Pool}

/-- Whether all that threads have published fits, and goes on to do so. -/
structure Publishes (fits : TypeName → Body → Prop) (pool : Pool) : Prop where
  published : pool.store.Fits fits
  busy : ∀ thread operation procedure,
    (pool.workers thread).current? = some (operation, procedure) →
      ∃ past, procedure.Meets (publishing fits) (fun _ => operation.Lists) past
  answered : ∀ thread operation outcome,
    (operation, outcome) ∈ (pool.workers thread).answers →
      operation.Lists outcome

theorem Publishes.setWorker (publishes : pool.Publishes fits)
    {thread : ThreadId} {worker : Worker}
    (busy : ∀ operation procedure,
      worker.current? = some (operation, procedure) → ∃ past,
        procedure.Meets (publishing fits) (fun _ => operation.Lists) past)
    (answered : ∀ operation outcome, (operation, outcome) ∈ worker.answers →
      operation.Lists outcome) :
    (pool.setWorker thread worker).Publishes fits := by
  refine ⟨publishes.published, fun other => ?_, fun other => ?_⟩
  · by_cases same : other = thread
    · subst same
      rw [setWorker_self]
      exact busy
    · rw [setWorker_of_ne same]
      exact publishes.busy other
  · by_cases same : other = thread
    · subst same
      rw [setWorker_self]
      exact answered
    · rw [setWorker_of_ne same]
      exact publishes.answered other

theorem Publishes.step (publishes : pool.Publishes fits)
    (assembles : ∀ thread, Lookup.AssemblesFitting fits { sources, thread })
    (step : Step sources pool later) : later.Publishes fits := by
  cases step with
  | @begin thread operation rest idle next =>
    refine publishes.setWorker ?_ (publishes.answered thread)
    intro asked procedure current
    cases current
    exact ⟨[], operation.request_publishes (assembles thread) []⟩
  | @finish thread operation outcome busy =>
    obtain ⟨_, lists⟩ := publishes.busy thread operation _ busy
    refine publishes.setWorker nofun fun other result member => ?_
    rcases List.mem_cons.1 member with here | earlier
    · cases here
      exact lists
    · exact publishes.answered thread other result earlier
  | @act thread operation action next answer store busy performed =>
    obtain ⟨past, allowed, goesOn⟩ := publishes.busy thread operation _ busy
    have recorded :
        (pool.record thread ⟨action, answer⟩ store).Publishes fits :=
      ⟨publishes.published.perform allowed performed, publishes.busy,
        publishes.answered⟩
    refine recorded.setWorker ?_ (recorded.answered thread)
    intro asked procedure current
    cases current
    exact ⟨_, goesOn answer trivial⟩

/-- However threads interleave, what a live registry publishes fits. -/
theorem Lives.publishes (lives : Lives sources pool)
    (assembles : ∀ thread, Lookup.AssemblesFitting fits { sources, thread }) :
    pool.Publishes fits := by
  induction lives with
  | refl =>
    have blank : (start fun _ => []).Publishes fits := by
      refine ⟨?_, ?_, ?_⟩
      · exact fun _ _ none => nomatch none
      · exact fun _ _ _ none => nomatch none
      · exact fun _ _ _ none => nomatch none
    exact blank
  | @tail middle _ _ moves ih =>
    cases moves with
    | step step => exact ih.step assembles step
    | ask thread operation held =>
      exact ih.setWorker (ih.busy thread) (ih.answered thread)
    | query descriptor side name =>
      obtain ⟨memos, same⟩ := (middle.registry sources).childTransform_store
        descriptor side name
      refine ⟨?_, ih.busy, ih.answered⟩
      unfold query
      rw [same]
      exact ih.published.of_entries_eq rfl

end Pool

end TypeAtlas
