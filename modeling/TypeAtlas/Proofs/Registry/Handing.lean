import TypeAtlas.Proofs.Registry.Publishing

/-!
# What is handed out

A registry hands descriptors out in answers, to the scripts that look them up
from inside of assemblies, and as the targets that it keeps for references.
They are cached ones, specializations of published bodies, or argument lists.
So where all that is published fits its name, whatever holds of these three
kinds of descriptors holds of all that are ever handed out.
-/

namespace TypeAtlas

variable {fits : TypeName → Body → Prop} {good : Descriptor → Prop}

/-- What publishes bodies that fit and hands out descriptors that are good, and
relies on what others have published and kept. -/
def handing (fits : TypeName → Body → Prop) (good : Descriptor → Prop) :
    Contract where
  allows _
    | .publish name _ body => fits name body
    | .await descriptor => ∃ name identity, descriptor = .cached name identity
    | .look descriptor => good descriptor
    | .keepTarget _ target => good target
    | _ => True
  promises _
    | ⟨.await descriptor, body⟩ => fits descriptor.name body
    | ⟨.readTarget _, target?⟩ =>
      ∀ target : Descriptor, target? = some target → good target
    | ⟨.keepTarget _ _, kept⟩ => good kept
    | _ => True

/-- Whether descriptors are good, if the bodies that they come from fit. -/
structure Suits (fits : TypeName → Body → Prop) (good : Descriptor → Prop) :
    Prop where
  cached : ∀ name identity, good (.cached name identity)
  specialized : ∀ number expression body references,
    fits expression.name body →
      body.parts.category.arity? = some references.length →
        good (.detached number expression (Lookup.specialized body references))
  argumentList : ∀ number references,
    good (.detached number (.named Body.argumentListName)
      (Body.argumentList references))

namespace Lookup

def Only (holds : α → Prop) : Except Stop α → Prop
  | .ok value => holds value
  | .error _ => True

/-- Whether a lookup hands out what is good, and ends in what is wanted. -/
def Hands (fits : TypeName → Body → Prop) (good : Descriptor → Prop)
    (holds : α → Prop) (lookup : Lookup α) : Prop :=
  ∀ past, Meets (handing fits good) (fun _ => Only holds) lookup past

section Steps

variable {holds : α → Prop} {wanted : β → Prop} {lookup : Lookup α}

theorem Hands.bind {next : α → Lookup β} (hands : Hands fits good holds lookup)
    (goesOn : ∀ value, holds value → Hands fits good wanted (next value)) :
    Hands fits good wanted (lookup >>= next) := by
  intro past
  apply Meets.bind
  apply (hands past).mono
  rintro later (stop | value) held
  · trivial
  · exact goesOn value held later

theorem Hands.attempt_bind {next : Except Stop α → Lookup β}
    (hands : Hands fits good holds lookup)
    (goesOn : ∀ outcome, Only holds outcome →
      Hands fits good wanted (next outcome)) :
    Hands fits good wanted (attempt lookup >>= next) := by
  intro past
  apply Meets.attempt_bind
  apply (hands past).mono
  intro later outcome held
  exact goesOn outcome held later

theorem Hands.mono {weaker : α → Prop} (hands : Hands fits good holds lookup)
    (implies : ∀ value, holds value → weaker value) :
    Hands fits good weaker lookup := by
  intro past
  apply (hands past).mono
  rintro later (stop | value) held
  · trivial
  · exact implies value held

theorem hands_pure {value : α} (held : holds value) :
    Hands fits good holds (pure value) :=
  fun _ => held

theorem hands_throw (stop : Stop) :
    Hands fits good holds (throw stop : Lookup α) :=
  fun _ => trivial

theorem hands_perform_bind {action : Action} {next : action.Answer → Lookup α}
    (allowed : (handing fits good).allows [] action)
    (goesOn : ∀ answer, (handing fits good).promises [] ⟨action, answer⟩ →
      Hands fits good holds (next answer)) :
    Hands fits good holds (perform action >>= next) := by
  intro past
  have allowedNow : (handing fits good).allows past action := allowed
  refine meets_perform_bind allowedNow fun answer promised => ?_
  exact goesOn answer promised _

theorem hands_perform {action : Action} {holds : action.Answer → Prop}
    (allowed : (handing fits good).allows [] action)
    (held : ∀ answer, (handing fits good).promises [] ⟨action, answer⟩ →
      holds answer) :
    Hands fits good holds (perform action) := by
  intro past
  have allowedNow : (handing fits good).allows past action := allowed
  exact meets_perform allowedNow held

theorem Hands.noted {kind : LookupKind} {name : TypeName}
    {lookup : Lookup Descriptor} {holds : Descriptor → Prop}
    (hands : Hands fits good holds lookup) :
    Hands fits good holds (noted kind name lookup) := by
  intro past
  apply Meets.noted trivial
  exact (hands _).mono fun _ _ held => ⟨trivial, held⟩

theorem forM_hands {items : List α} {look : α → Lookup Unit}
    (each : ∀ item, Hands fits good (fun _ => True) (look item)) :
    Hands fits good (fun _ => True) (items.forM look) := by
  induction items with
  | nil => exact hands_pure trivial
  | cons item rest ih => exact (each item).bind fun _ _ => ih

theorem mapM_hands {items : List α} {look : α → Lookup β}
    (each : ∀ item, Hands fits good (fun _ => True) (look item)) :
    Hands fits good (fun values => values.length = items.length)
      (items.mapM look) := by
  induction items with
  | nil => exact hands_pure rfl
  | cons item rest ih =>
    rw [List.mapM_cons]
    refine (each item).bind fun value _ => ?_
    refine ih.bind fun values held => hands_pure ?_
    rw [List.length_cons, List.length_cons, held]

end Steps

def BuildsHanding (fits : TypeName → Body → Prop) (good : Descriptor → Prop)
    (build : Builder) : Prop :=
  ∀ name identity, Hands fits good (fun _ => True) (build name identity)

section Lookups

variable {agent : Agent} {build : Builder}

theorem getNested_hands (builds : BuildsHanding fits good build)
    (name : TypeName) :
    Hands fits good (fun descriptor => ∃ identity,
      descriptor = .cached name identity) (getNested build name) := by
  apply Hands.noted
  refine hands_perform_bind trivial fun found _ => ?_
  cases found with
  | present identity builder isPublished => exact hands_pure ⟨identity, rfl⟩
  | made identity =>
    exact (builds name identity).bind fun _ _ => hands_pure ⟨identity, rfl⟩

theorem getByName_hands (builds : BuildsHanding fits good build)
    (name : TypeName) :
    Hands fits good (fun descriptor => ∃ identity,
      descriptor = .cached name identity) (getByName agent build name) := by
  apply Hands.noted
  refine hands_perform_bind trivial fun found _ => ?_
  cases found with
  | present identity builder isPublished =>
    dsimp only
    split
    · exact hands_throw _
    · refine hands_perform_bind ⟨name, identity, rfl⟩ fun _ _ => ?_
      exact hands_perform_bind trivial fun _ _ => hands_pure ⟨identity, rfl⟩
  | made identity =>
    refine hands_perform_bind trivial fun _ _ => ?_
    exact (builds name identity).bind fun _ _ => hands_pure ⟨identity, rfl⟩

theorem takeReference_hands (builds : BuildsHanding fits good build)
    (expression : TypeExpr) :
    Hands fits good (fun _ => True) (takeReference build expression) := by
  have looks : Hands fits good (fun _ => True)
      (expression.names.forM fun name => do
        let _ ← getNested build name) :=
    forM_hands fun name =>
      (getNested_hands builds name).bind fun _ _ => hands_pure trivial
  apply looks.bind
  intro _ _
  exact hands_perform_bind trivial fun _ _ => hands_pure trivial

variable (suits : Suits fits good)
include suits

theorem resolve_hands (builds : BuildsHanding fits good build)
    (expression : TypeExpr) :
    Hands fits good good (resolve agent build expression) := by
  apply (getByName_hands builds expression.name).bind
  rintro _ ⟨identity, rfl⟩
  have plain : Hands fits good good
      (pure (.cached expression.name identity) : Lookup Descriptor) :=
    hands_pure (suits.cached _ _)
  split
  · exact plain
  refine hands_perform_bind ⟨_, _, rfl⟩ fun body fit => ?_
  split
  · exact plain
  next arity takes =>
    split
    · exact hands_throw _
    next enough =>
      apply (mapM_hands (takeReference_hands builds)).bind
      intro references given
      refine hands_perform_bind trivial fun number _ => hands_pure ?_
      apply suits.specialized number expression body references fit
      rw [takes, given, Decidable.not_not.1 enough]

theorem follow_hands (builds : BuildsHanding fits good build)
    (reference : TypeRef) :
    Hands fits good good (follow agent build reference) := by
  unfold follow
  split
  · apply (getNested_hands builds _).mono
    rintro _ ⟨identity, rfl⟩
    exact suits.cached _ _
  refine hands_perform_bind trivial fun target? kept => ?_
  cases target? with
  | some target => exact hands_pure (kept target rfl)
  | none =>
    apply (resolve_hands suits builds reference.expr).bind
    intro target held
    exact hands_perform held fun _ promised => promised

theorem lookupText_hands (builds : BuildsHanding fits good build)
    (text : String) :
    Hands fits good good (lookupText agent build text) := by
  unfold lookupText
  cases TypeExpr.parse text with
  | error fault => exact hands_throw _
  | ok expression => exact resolve_hands suits builds expression

theorem referText_hands (builds : BuildsHanding fits good build)
    (text : String) :
    Hands fits good good (referText agent build text) := by
  unfold referText
  cases TypeExpr.parse text with
  | error fault => exact hands_throw _
  | ok expression =>
    apply (takeReference_hands builds expression).bind
    intro reference _
    exact follow_hands suits builds reference

omit suits in
/-- A script is handed what a lookup finds, and so sees good descriptors. -/
theorem find_hands {lookup : Lookup Descriptor}
    (hands : Hands fits good good lookup) :
    Hands fits good (fun _ => True) (find lookup) := by
  apply hands.attempt_bind
  rintro ((error | crash | name | _) | descriptor) held
  · exact hands_pure trivial
  · exact hands_throw _
  · exact hands_throw _
  · exact hands_throw _
  · exact hands_perform_bind held fun _ _ => hands_pure trivial

theorem followScript_hands (builds : BuildsHanding fits good build)
    (facts : TypeFacts) (hasImplementation : Bool)
    (steps : List IntrospectionStep) :
    Hands fits good (fun _ => True)
      (followScript agent build facts hasImplementation steps) := by
  induction steps with
  | nil => exact hands_pure trivial
  | cons step rest ih =>
    have goOn (finding : Finding) (_ : True) :
        Hands fits good (fun _ => True) (do
          perform (.report (.introspecting facts.name finding))
          followScript agent build facts hasImplementation rest) :=
      hands_perform_bind trivial fun _ _ => ih
    cases step with
    | crash crash => exact hands_throw _
    | reject reason => exact hands_pure trivial
    | fail reason => exact hands_throw _
    | acceptEmpty => exact hands_pure trivial
    | survey => exact goOn _ trivial
    | get name =>
      have gets : Hands fits good good (getByName agent build name) := by
        apply (getByName_hands builds name).mono
        rintro _ ⟨identity, rfl⟩
        exact suits.cached _ _
      exact (find_hands gets).bind goOn
    | lookup text =>
      exact (find_hands (lookupText_hands suits builds text)).bind goOn
    | reference text =>
      exact (find_hands (referText_hands suits builds text)).bind goOn

omit suits

def AssemblesHanding (fits : TypeName → Body → Prop)
    (good : Descriptor → Prop) (agent : Agent) : Prop :=
  ∀ build, BuildsHanding fits good build → ∀ name past,
    Assembly.Meets (handing fits good) (fun _ => LeavesFitting fits name)
      (assembly agent build name) past (Body.blank name)

theorem buildWith_hands (assembles : AssemblesHanding fits good agent)
    (builds : BuildsHanding fits good build) :
    BuildsHanding fits good (buildWith agent build) := by
  intro name identity
  refine hands_perform_bind trivial fun _ _ past => ?_
  apply Meets.lift_bind
  apply Procedure.Meets.mono (assembles build builds name past)
  rintro later ⟨outcome, body⟩ leaves
  cases outcome with
  | ok _ =>
    have publishes : Hands fits good (fun _ => True) (do
        publish name identity body
        perform (.recordBuild false)) :=
      hands_perform_bind leaves fun _ _ =>
        hands_perform trivial fun _ _ => trivial
    exact publishes later
  | error stop =>
    cases failure : Stop.failure? stop with
    | none =>
      simp only [failure]
      trivial
    | some error =>
      simp only [failure]
      have publishes : Hands fits good (fun _ => True) (do
          publish name identity { body with failure? := some error.message }
          perform (.recordBuild true)
          (fail (.initialization name error.message) : Lookup Unit)) :=
        hands_perform_bind (leaves error failure) fun _ _ =>
          hands_perform_bind trivial fun _ _ => hands_throw _
      exact publishes later

theorem builder_hands (assembles : AssemblesHanding fits good agent) :
    BuildsHanding fits good (builder agent) := by
  unfold builder
  induction agent.sources.depthBound with
  | zero => exact fun _ _ => hands_throw _
  | succ depth ih => exact buildWith_hands assembles ih

end Lookups

end Lookup

open Lookup

/-- Whatever a registry is asked for, what it gives is good. -/
theorem Operation.request_hands {agent : Agent} (suits : Suits fits good)
    (assembles : AssemblesHanding fits good agent) (operation : Operation) :
    Hands fits good good (operation.request agent (builder agent)) := by
  have builds := builder_hands assembles
  cases operation with
  | get name =>
    apply (getByName_hands builds name).mono
    rintro _ ⟨identity, rfl⟩
    exact suits.cached _ _
  | resolve expression => exact resolve_hands suits builds expression
  | specialize name args => exact resolve_hands suits builds ⟨name, args⟩
  | lookup text => exact lookupText_hands suits builds text
  | follow reference => exact follow_hands suits builds reference
  | argumentList types =>
    apply (mapM_hands (takeReference_hands builds)).bind
    intro references _
    refine hands_perform_bind trivial fun number _ => hands_pure ?_
    exact suits.argumentList number references

namespace Store

variable {store later : Store} {thread : ThreadId} {past : Past}

def KeepsGood (good : Descriptor → Prop) (store : Store) : Prop :=
  ∀ slot target, (slot, target) ∈ store.targets → good target

theorem KeepsGood.of_lookup {slot : Nat} {target : Descriptor}
    (keeps : store.KeepsGood good)
    (kept : store.targets.lookup slot = some target) : good target := by
  obtain ⟨before, after, split, _⟩ := List.lookup_eq_some_iff.1 kept
  exact keeps slot target (by simp [split])

theorem Fits.perform_handing {action : Action} {answer : action.Answer}
    (held : store.Fits fits) (allowed : (handing fits good).allows past action)
    (performed : store.perform thread action = .ok (answer, later)) :
    later.Fits fits := by
  have publishes : (publishing fits).allows past action := by
    cases action <;> first | exact allowed | exact trivial
  exact held.perform publishes performed

theorem KeepsGood.perform {action : Action} {answer : action.Answer}
    (keeps : store.KeepsGood good)
    (allowed : (handing fits good).allows past action)
    (performed : store.perform thread action = .ok (answer, later)) :
    later.KeepsGood good := by
  cases action with
  | enter name =>
    simp only [Store.perform] at performed
    split at performed
    · cases performed
      exact keeps
    · cases performed
      exact keeps
  | publish name identity body =>
    simp only [Store.perform] at performed
    split at performed
    · cases performed
      exact keeps
    · cases performed
      exact keeps
  | await descriptor =>
    simp only [Store.perform] at performed
    split at performed
    · cases performed
      exact keeps
    · cases performed
  | keepTarget slot target =>
    simp only [Store.perform] at performed
    split at performed
    · cases performed
      exact keeps
    · cases performed
      intro other kept member
      rcases List.mem_cons.1 member with here | before
      · cases here
        exact allowed
      · exact keeps other kept before
  | _ =>
    cases performed
    exact keeps

/-- What a procedure relies on, the store keeps. -/
theorem promised_of_handing {action : Action} {answer : action.Answer}
    (held : store.Fits fits) (keeps : store.KeepsGood good)
    (allowed : (handing fits good).allows past action)
    (performed : store.perform thread action = .ok (answer, later)) :
    (handing fits good).promises past ⟨action, answer⟩ := by
  cases action with
  | await descriptor =>
    obtain ⟨name, identity, rfl⟩ := allowed
    simp only [Store.perform] at performed
    split at performed
    next body found =>
      cases performed
      exact held name _ (published?_of_body? found)
    · cases performed
  | readTarget slot =>
    cases performed
    exact fun target kept => keeps.of_lookup kept
  | keepTarget slot target =>
    simp only [Store.perform] at performed
    split at performed
    next kept found =>
      cases performed
      exact keeps.of_lookup found
    · cases performed
      exact allowed
  | _ => trivial

end Store

namespace Pool

variable {sources : Sources} {pool later : Pool}

/-- Whether all that the threads of a pool publish and hand out is good. -/
structure Hands (fits : TypeName → Body → Prop) (good : Descriptor → Prop)
    (pool : Pool) : Prop where
  published : pool.store.Fits fits
  kept : pool.store.KeepsGood good
  looked : ∀ thread descriptor snapshot,
    (thread, (⟨.look descriptor, snapshot⟩ : Deed)) ∈ pool.history →
      good descriptor
  busy : ∀ thread operation procedure,
    (pool.workers thread).current? = some (operation, procedure) →
      ∃ past, procedure.Meets (handing fits good) (fun _ => Only good) past
  answered : ∀ thread operation descriptor,
    (operation, .ok descriptor) ∈ (pool.workers thread).answers →
      good descriptor

theorem Hands.setWorker (hands : pool.Hands fits good) {thread : ThreadId}
    {worker : Worker}
    (busy : ∀ operation procedure,
      worker.current? = some (operation, procedure) → ∃ past,
        procedure.Meets (handing fits good) (fun _ => Only good) past)
    (answered : ∀ operation descriptor,
      (operation, .ok descriptor) ∈ worker.answers → good descriptor) :
    (pool.setWorker thread worker).Hands fits good := by
  refine ⟨hands.published, hands.kept, hands.looked, fun other => ?_,
    fun other => ?_⟩
  · by_cases same : other = thread
    · subst same
      rw [setWorker_self]
      exact busy
    · rw [setWorker_of_ne same]
      exact hands.busy other
  · by_cases same : other = thread
    · subst same
      rw [setWorker_self]
      exact answered
    · rw [setWorker_of_ne same]
      exact hands.answered other

theorem Hands.step (hands : pool.Hands fits good) (suits : Suits fits good)
    (assembles : ∀ thread, AssemblesHanding fits good { sources, thread })
    (step : Step sources pool later) : later.Hands fits good := by
  cases step with
  | @begin thread operation rest idle next =>
    refine hands.setWorker ?_ (hands.answered thread)
    intro asked procedure current
    cases current
    exact ⟨[], operation.request_hands suits (assembles thread) []⟩
  | @finish thread operation outcome busy =>
    obtain ⟨_, only⟩ := hands.busy thread operation _ busy
    refine hands.setWorker nofun fun other descriptor member => ?_
    rcases List.mem_cons.1 member with here | earlier
    · cases here
      exact only
    · exact hands.answered thread other descriptor earlier
  | @act thread operation action next answer store busy performed =>
    obtain ⟨past, allowed, goesOn⟩ := hands.busy thread operation _ busy
    have recorded :
        (pool.record thread ⟨action, answer⟩ store).Hands fits good := by
      refine ⟨hands.published.perform_handing allowed performed,
        hands.kept.perform allowed performed, ?_, hands.busy, hands.answered⟩
      intro other descriptor snapshot member
      rcases List.mem_cons.1 member with here | before
      · cases here
        exact allowed
      · exact hands.looked other descriptor snapshot before
    refine recorded.setWorker ?_ (recorded.answered thread)
    intro asked procedure current
    cases current
    exact ⟨_, goesOn answer (Store.promised_of_handing hands.published
      hands.kept allowed performed)⟩

/-- However threads interleave, all that a live registry hands out is good. -/
theorem Lives.hands (lives : Lives sources pool) (suits : Suits fits good)
    (assembles : ∀ thread, AssemblesHanding fits good { sources, thread }) :
    pool.Hands fits good := by
  induction lives with
  | refl =>
    have blank : (start fun _ => []).Hands fits good := by
      refine ⟨?_, ?_, ?_, ?_, ?_⟩
      · exact fun _ _ none => nomatch none
      · exact fun _ _ none => nomatch none
      · exact fun _ _ _ none => nomatch none
      · exact fun _ _ _ none => nomatch none
      · exact fun _ _ _ none => nomatch none
    exact blank
  | @tail middle _ _ moves ih =>
    cases moves with
    | step step => exact ih.step suits assembles step
    | ask thread operation held =>
      exact ih.setWorker (ih.busy thread) (ih.answered thread)
    | query descriptor side name =>
      obtain ⟨memos, same⟩ := (middle.registry sources).childTransform_store
        descriptor side name
      refine ⟨?_, ?_, ih.looked, ih.busy, ih.answered⟩
      · unfold query
        rw [same]
        exact ih.published.of_entries_eq rfl
      · unfold query
        rw [same]
        exact ih.kept

end Pool

end TypeAtlas
