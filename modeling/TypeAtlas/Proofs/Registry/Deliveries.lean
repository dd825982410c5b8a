import TypeAtlas.Proofs.Registry.Moments

/-!
# Failures are delivered once

The failure of a type goes to the lookup that its only build was begun for.  It
may be passed on from there, to a collaborator or to whoever asked for an
operation, but no other lookup ever ends with it.  All later lookups give the
descriptor, which keeps the words that were delivered as its state.
-/

namespace TypeAtlas

open Lookup

def isFailureOf (name : TypeName) : Except Stop Descriptor → Bool
  | .error (.error (.initialization failed _)) => failed == name
  | _ => false

theorem isFailureOf_iff {name : TypeName} {outcome : Except Stop Descriptor} :
    isFailureOf name outcome = true ↔
      ∃ reason, outcome = .error (.error (.initialization name reason)) := by
  unfold isFailureOf
  split
  next failed reason => simp
  next others =>
    refine ⟨nofun, ?_⟩
    rintro ⟨reason, rfl⟩
    exact (others name reason rfl).elim

namespace Deed

/-- Whether a lookup ended with the failure of a name. -/
def delivers (name : TypeName) : Deed → Bool
  | ⟨.mark (.answered _ _ outcome), _⟩ => isFailureOf name outcome
  | _ => false

def relays (name : TypeName) : Deed → Bool
  | ⟨.report (.introspecting _ (.error error)), _⟩ =>
    isFailureOf name (.error (.error error))
  | _ => false

theorem exists_of_delivers {name : TypeName} {deed : Deed}
    (delivers : deed.delivers name = true) :
    ∃ kind asked reason, deed = ⟨.mark (.answered kind asked
      (.error (.error (.initialization name reason)))), ()⟩ := by
  unfold Deed.delivers at delivers
  split at delivers
  next kind asked outcome _ =>
    obtain ⟨reason, rfl⟩ := isFailureOf_iff.1 delivers
    exact ⟨kind, asked, reason, rfl⟩
  · cases delivers

theorem exists_of_relays {name : TypeName} {deed : Deed}
    (relays : deed.relays name = true) :
    ∃ type reason, deed = ⟨.report (.introspecting type
      (.error (.initialization name reason))), ()⟩ := by
  unfold Deed.relays at relays
  split at relays
  next type error _ =>
    obtain ⟨reason, same⟩ := isFailureOf_iff.1 relays
    cases same
    exact ⟨type, reason, rfl⟩
  · cases relays

end Deed

theorem Store.exists_of_body? {store : Store} {name : TypeName}
    {identity : Nat} {body : Body}
    (published : store.body? (.cached name identity) = some body) :
    ∃ entry, store.entries.get? name = some entry ∧
      entry.identity = identity ∧ entry.isPublished = true := by
  obtain ⟨entry, located, told⟩ := Option.bind_eq_some_iff.1 published
  obtain ⟨found, numbered⟩ := Store.entryFor?_eq_some.1 located
  refine ⟨entry, found, numbered, ?_⟩
  rw [Entry.isPublished, told]
  rfl

theorem Procedure.run_act {thread : ThreadId} {store later last : Store}
    {action : Action} {answer : action.Answer}
    {next : action.Answer → Procedure α} {outcome : Except Descriptor α}
    {deeds : List Deed}
    (performed : store.perform thread action = .ok (answer, later))
    (rest : (next answer).run thread later =
      { outcome, deeds, store := last }) :
    (Procedure.act action next).run thread store =
      { outcome, deeds := ⟨action, answer⟩ :: deeds, store := last } := by
  simp only [Procedure.run, performed, rest]

/-- A published body is given at once, and nothing but the hit is recorded. -/
theorem Registry.run_get_of_published {registry : Registry} {name : TypeName}
    {identity : Nat} {body : Body} (thread : ThreadId)
    (alive : registry.alive = true)
    (published : registry.store.body? (.cached name identity) = some body) :
    registry.run (Registry.get name) thread = (.ok (.cached name identity),
      { registry with store := registry.store.recordHit }) := by
  obtain ⟨entry, found, numbered, ready⟩ := Store.exists_of_body? published
  have entered : registry.store.perform thread (.enter name) =
      .ok (.present identity entry.builder true, registry.store) := by
    simp only [Store.perform, found, numbered, ready]
  have awaited : registry.store.perform thread
      (.await (.cached name identity)) = .ok (body, registry.store) := by
    simp only [Store.perform, published]
  have marked (store : Store) (mark : Mark) :
      store.perform thread (.mark mark) = .ok ((), store) := rfl
  have ran : ((Registry.get name).procedure registry.sources thread).run thread
      registry.store =
    { outcome := .ok (.ok (.cached name identity))
      deeds := [⟨.mark (.asked .topLevel name), ()⟩,
        ⟨.enter name, .present identity entry.builder true⟩,
        ⟨.await (.cached name identity), body⟩, ⟨.recordHit, ()⟩,
        ⟨.mark (.answered .topLevel name (.ok (.cached name identity))), ()⟩]
      store := registry.store.recordHit } := by
    exact Procedure.run_act (marked _ _) (Procedure.run_act entered
      (Procedure.run_act awaited (Procedure.run_act rfl
        (Procedure.run_act (marked _ _) rfl))))
  simp only [Registry.run, alive, if_true, ran, Registry.outcomeOf]

namespace Past

/-- The words for why a build failed, between its beginning and its end: those
for a crash, those of an error of its own, or those of the failure of a type
that it refers to, which was the last thing that it heard of. -/
inductive Words (sources : Sources) (name : TypeName) (past inner : Past) :
    String → Prop where
  | outlineCrash {crash : Crash}
    (stopped : sources.outlineOutcome name = .error (.crash crash)) :
    Words sources name past inner
      s!"Panicked during assembly: {crash.report}"
  | outlineError {error : Error}
    (stopped : sources.outlineOutcome name = .error (.error error)) :
    Words sources name past inner error.message
  | scriptCrash {outline : TypeFacts × Bool} {crash : Crash}
    (outlined : sources.outlineOutcome name = .ok outline)
    (decision : sources.decision? name = some (.crash crash)) :
    Words sources name past inner
      s!"Panicked during assembly: {crash.report}"
  | scriptError {outline : TypeFacts × Bool} {reason : String}
    (outlined : sources.outlineOutcome name = .ok outline)
    (decision : sources.decision? name = some (.fail reason)) :
    Words sources name past inner (Error.instantiation name reason).message
  | reference {outline : TypeFacts × Bool} {other : TypeName}
    {reason : String} {begun ended : Past}
    (outlined : sources.outlineOutcome name = .ok outline)
    (within : past <:+ begun)
    (failed : LookedUp inner ⟨.nested, other, begun⟩ ended
      (.error (.error (.initialization other reason))))
    (last : inner = ⟨.mark (.answered .nested other
      (.error (.error (.initialization other reason)))), ()⟩ :: ended) :
    Words sources name past inner
      s!"Initialization of '{other}' failed: {reason}"

/-- What a lookup does from its beginning on that finds a published body. -/
def served (thread : ThreadId) (kind : LookupKind) (name : TypeName)
    (identity : Nat) (body : Body) (begun : Past) : Past :=
  let found : Past := ⟨.enter name, .present identity thread true⟩ ::
    ⟨.mark (.asked kind name), ()⟩ :: begun
  match kind with
  | .topLevel =>
    ⟨.recordHit, ()⟩ :: ⟨.await (.cached name identity), body⟩ :: found
  | .nested => found

/-- What there is to a lookup that ended with the failure of a name.  It made
the entry, its build was the only one of the name, and what was published then
is found by all later lookups. -/
structure Fails (sources : Sources) (thread : ThreadId) (past : Past)
    (inquiry : Inquiry) (ended : Past) (name : TypeName) (reason : String)
    (identity : Nat) (body : Body) (inner : Past) : Prop where
  asked : inquiry.name = name
  /-- The lookup made the entry, and then began the build. -/
  builds : ⟨.mark (.building name), ()⟩ ::
    opened inquiry.kind name identity inquiry.begun <:+ inner
  /-- It ended when the body was published and the build recorded. -/
  published : ended = recorded name identity body inner
  /-- No other build of the name was ever begun. -/
  builtOnce : past.countP (·.builds name) = 1
  state : body.state = .failed body.parts.category reason
  words : Words sources name (⟨.mark (.building name), ()⟩ ::
    opened inquiry.kind name identity inquiry.begun) inner reason
  /-- The body is that of the name from then on. -/
  kept : ∀ moment, ended <:+ moment → moment <:+ past →
    (storeAfter thread moment).body? (.cached name identity) = some body
  /-- All later lookups find it, and neither build nor report anything. -/
  replayed : ∀ kind begun, ended <:+ begun →
    ⟨.mark (.asked kind name), ()⟩ :: begun <:+ past →
      LookedUp past ⟨kind, name, begun⟩
        (served thread kind name identity body begun)
        (.ok (.cached name identity))
  /-- A request for it finds it as well, at all later moments. -/
  given : ∀ moment, ended <:+ moment → moment <:+ past →
    let registry : Registry := { sources, store := storeAfter thread moment }
    registry.run (Registry.get name) thread = (.ok (.cached name identity),
      { registry with store := registry.store.recordHit })

/-- No more collaborators hear of a failure than there were deliveries of it. -/
theorem Lawful.countP_relays_le {agent : Agent} {past : Past}
    {deeds : List Deed} (traced : Lawful (tracing agent) (deeds ++ past))
    (rested : stack past = []) (name : TypeName) :
    deeds.countP (Deed.relays name) +
        (deeds.head?.any (Deed.delivers name)).toNat ≤
      deeds.countP (Deed.delivers name) := by
  induction deeds with
  | nil => exact Nat.le_refl 0
  | cons deed deeds ih =>
    have before := ih traced.2
    rw [List.head?_cons, Option.any_some]
    cases relays : deed.relays name with
    | false =>
      rw [List.countP_cons_of_neg (by simp [relays])]
      cases delivers : deed.delivers name with
      | false =>
        rw [List.countP_cons_of_neg (by simp [delivers])]
        exact Nat.le_trans (Nat.le_add_right _ _) before
      | true =>
        rw [List.countP_cons_of_pos delivers]
        exact Nat.succ_le_succ (Nat.le_trans (Nat.le_add_right _ _) before)
    | true =>
      -- A collaborator hears of a failure right after it was delivered.
      obtain ⟨type, reason, rfl⟩ := Deed.exists_of_relays relays
      obtain ⟨inside, own | ⟨_, _, ⟨inquiry, ended, _, _, _, last⟩, _⟩⟩ :=
        traced.1
      · exact own.elim
      rw [List.countP_cons_of_pos relays,
        List.countP_cons_of_neg (by simp [Deed.delivers])]
      cases deeds with
      | nil =>
        change (stack past).head? = some type at inside
        rw [rested] at inside
        cases inside
      | cons first deeds =>
        cases (List.cons.inj last).1
        have delivers : Deed.delivers name ⟨.mark (.answered inquiry.kind
            inquiry.name (.error (.error (.initialization name reason)))),
              ()⟩ = true :=
          isFailureOf_iff.2 ⟨reason, rfl⟩
        rw [List.head?_cons, Option.any_some, delivers] at before
        exact before

namespace Genuine

variable {sources : Sources} {thread : ThreadId} {past ended inner : Past}
  {name : TypeName} {reason : String} {inquiry : Inquiry}

/-- The words for a failure are those for what the assembly stopped with. -/
theorem words (genuine : Genuine sources thread inner) {stop : Stop}
    {error : Error} (cause : Cause sources name past inner stop)
    (failure : Stop.failure? stop = some error) :
    Words sources name past inner error.message := by
  rcases cause with stopped | ⟨outlined, interruption⟩
  · cases stop with
    | error error =>
      cases failure
      exact .outlineError stopped
    | crash crash =>
      cases failure
      exact .outlineCrash stopped
    | blocked name => cases failure
    | exhausted => cases failure
  cases interruption with
  | scriptCrash decision =>
    cases failure
    exact .scriptCrash outlined decision
  | scriptFailure decision =>
    cases failure
    exact .scriptError outlined decision
  | reference delivers =>
    obtain ⟨⟨⟨kind, other, begun⟩, ended, nested, since, lookedUp, last⟩, _⟩ :=
      delivers
    subst nested
    obtain ⟨⟨⟩, _⟩ | ⟨_, _, _, reason, _, _, rfl, _⟩ :=
      (genuine.course lookedUp).of_error rfl
    cases failure
    exact .reference outlined since lookedUp last

/-- A failure was delivered just after its body was published. -/
theorem exists_recorded (genuine : Genuine sources thread past)
    (lookedUp : LookedUp past inquiry ended
      (.error (.error (.initialization name reason)))) :
    inquiry.name = name ∧ ∃ identity body inner,
      ended = recorded name identity body inner ∧
        body.failure? = some reason ∧
          BuildEnds sources name (opened inquiry.kind name identity
            inquiry.begun) inner body := by
  obtain ⟨_, ⟨⟩, _⟩ | ⟨identity, body, inner, _, same, told, ⟨⟩, ends⟩ :=
    (genuine.course lookedUp).of_error rfl
  exact ⟨rfl, identity, body, inner, same, told, ends⟩

/-- No failure of a name is delivered without a body being published for it. -/
theorem countP_delivers_le (genuine : Genuine sources thread past)
    (name : TypeName) :
    past.countP (Deed.delivers name) ≤
      (past.drop 2).countP (Deed.publishes name) := by
  induction past with
  | nil => exact Nat.le_refl 0
  | cons deed past ih =>
    have before := ih (genuine.of_suffix (List.suffix_cons deed past))
    cases delivers : deed.delivers name with
    | false =>
      rw [List.countP_cons_of_neg (by simp [delivers])]
      refine Nat.le_trans before ?_
      change (past.drop (1 + 1)).countP _ ≤ (past.drop 1).countP _
      rw [← List.drop_drop]
      exact (List.drop_sublist 1 (past.drop 1)).countP_le
    | true =>
      obtain ⟨kind, asked, reason, rfl⟩ := Deed.exists_of_delivers delivers
      obtain ⟨begun, lookedUp⟩ :=
        genuine.exists_lookedUp_of_answered (List.suffix_refl _)
      obtain ⟨_, identity, body, inner, rfl, _⟩ :=
        genuine.exists_recorded lookedUp
      have published : Deed.publishes name
          ⟨.publish name identity body, ()⟩ = true :=
        beq_self_eq_true name
      rw [List.countP_cons_of_pos delivers]
      change _ + 1 ≤ (⟨.publish name identity body, ()⟩ :: inner).countP _
      rw [List.countP_cons_of_pos published]
      exact Nat.succ_le_succ before

/-- The failure of a name is delivered once at the most. -/
theorem countP_delivers_le_one (genuine : Genuine sources thread past)
    (name : TypeName) : past.countP (Deed.delivers name) ≤ 1 := by
  have published := genuine.faithful.entries.published name
  rw [count_alone] at published
  have few : past.countP (Deed.publishes name) ≤ 1 := by
    rw [published]
    exact Bool.toNat_le _
  have dropped := (List.drop_sublist 2 past).countP_le
    (p := Deed.publishes name)
  exact Nat.le_trans (genuine.countP_delivers_le name)
    (Nat.le_trans dropped few)

/-- A body that was published is found by all lookups that begin later. -/
theorem lookedUp_served (genuine : Genuine sources thread past)
    (closed : inquiries past = []) {kind : LookupKind} {identity : Nat}
    {body : Body} {begun : Past}
    (published : (⟨.publish name identity body, ()⟩ : Deed) ∈ begun)
    (asked : ⟨.mark (.asked kind name), ()⟩ :: begun <:+ past) :
    LookedUp past ⟨kind, name, begun⟩
      (served thread kind name identity body begun)
      (.ok (.cached name identity)) := by
  obtain ⟨ended, outcome, lookedUp⟩ :=
    genuine.exists_lookedUp_of_asked closed asked
  have course := genuine.course lookedUp
  have genuineEnd := genuine.of_suffix
    ((List.suffix_cons _ _).trans lookedUp.answered)
  have genuineAsked := genuineEnd.of_suffix lookedUp.asked
  obtain ⟨entry, found, numbered, ready⟩ := Store.exists_of_body?
    (genuineAsked.body?_of_published (List.mem_cons_of_mem _ published))
  have own := genuineAsked.builder_eq found
  -- What the lookup found is the entry of the body, which is published.
  have present {number : Nat} {builder : ThreadId} {isPublished : Bool}
      (replays : Replays thread (⟨.enter name,
        .present number builder isPublished⟩ ::
          ⟨.mark (.asked kind name), ()⟩ :: begun)) :
      number = identity ∧ builder = thread ∧ isPublished = true := by
    obtain ⟨⟨other, foundToo, rfl, rfl, rfl⟩, _⟩ := replays.exists_of_present
    cases found.symm.trans foundToo
    exact ⟨numbered, own, ready⟩
  cases course with
  | found =>
    obtain ⟨rfl, rfl, rfl⟩ := present genuineEnd.replays
    exact lookedUp
  | refused =>
    obtain ⟨_, _, ⟨⟩⟩ := present genuineEnd.replays
  | hit =>
    obtain ⟨rfl, rfl, rfl⟩ :=
      present (genuineEnd.replays.of_suffix ⟨[_, _], rfl⟩)
    have awaited := (genuineEnd.replays.of_suffix ⟨[_], rfl⟩).published_of_await
    have known := (genuineEnd.of_suffix ⟨[_, _], rfl⟩).body?_of_published
      (List.mem_cons_of_mem _ (List.mem_cons_of_mem _ published))
    cases known.symm.trans awaited
    exact lookedUp
  | built ends =>
    have absent :=
      (genuineEnd.replays.of_suffix ends.made_suffix).absent_of_made
    cases absent.symm.trans found

/-- Where a thread has ended all that it began, its store is settled. -/
theorem settled (genuine : Genuine sources thread past)
    (rested : Extends [] past) :
    Settled (storeAfter thread past) (alone thread past) := by
  refine genuine.faithful.settled fun other => ?_
  by_cases own : other = thread
  · rw [own, past_alone]
    exact rested
  · rw [past_alone_of_ne own]
    exact Extends.refl []

/-- A lookup that ended with a failure was the only one that could. -/
theorem fails (genuine : Genuine sources thread past)
    (rested : Extends [] past) (closed : inquiries past = [])
    (lookedUp : LookedUp past inquiry ended
      (.error (.error (.initialization name reason)))) :
    ∃ identity body inner, Fails sources thread past inquiry ended name reason
      identity body inner := by
  obtain ⟨asked, identity, body, inner, rfl, failed, ends⟩ :=
    genuine.exists_recorded lookedUp
  have within : recorded name identity body inner <:+ past :=
    (List.suffix_cons _ _).trans lookedUp.answered
  have published {moment : Past}
      (since : recorded name identity body inner <:+ moment) :
      (⟨.publish name identity body, ()⟩ : Deed) ∈ moment :=
    since.subset (by simp [recorded])
  have known {moment : Past}
      (since : recorded name identity body inner <:+ moment)
      (reached : moment <:+ past) :
      (storeAfter thread moment).body? (.cached name identity) = some body :=
    (genuine.of_suffix reached).body?_of_published (published since)
  refine ⟨identity, body, inner, asked, ends.begins, rfl, ?_, ?_, ?_,
    fun moment => known, fun kind begun since =>
      genuine.lookedUp_served closed (published since),
    fun moment since reached => ?_⟩
  · obtain ⟨entry, found, _⟩ :=
      Store.exists_of_body? (known within (List.suffix_refl past))
    have built := (genuine.settled rested).builtOnce name
    rw [count_alone, found] at built
    exact built
  · rw [Body.state, failed]
  · obtain ⟨stop, error, failure, rfl, cause⟩ := ends.explained reason failed
    exact (genuine.of_suffix (List.IsSuffix.trans ⟨[_, _], rfl⟩ within)).words
      cause failure
  · exact Registry.run_get_of_published thread rfl (known since reached)

end Genuine

end Past

open Past

namespace Session

variable {sources : Sources} {thread : ThreadId} {session : Session}

/-- How often anybody was given the failure of a name: whoever asked for an
operation, or a collaborator that asked for a type. -/
def deliveries (thread : ThreadId) (session : Session) (name : TypeName) :
    Nat :=
  session.answers.countP (fun answer => isFailureOf name answer.2) +
    (session.history.past thread).countP (Deed.relays name)

def FailuresLookedUp (thread : ThreadId) (session : Session) : Prop :=
  ∀ operation name reason,
    (operation, .error (.error (.initialization name reason))) ∈
        session.answers →
      ∃ inquiry ended, LookedUp (session.history.past thread) inquiry ended
        (.error (.error (.initialization name reason)))

/-- Whether a failure is delivered only once in a session of one thread, to the
lookup that its build was begun for, and found as the state of its name by all
others. -/
structure FailsOnce (sources : Sources) (thread : ThreadId)
    (session : Session) : Prop where
  /-- The deeds of the thread tell the registry. -/
  registry : session.registry =
    { sources, store := storeAfter thread (session.history.past thread) }
  /-- A lookup that ended with a failure was the only one that could. -/
  fails : ∀ inquiry ended name reason,
    LookedUp (session.history.past thread) inquiry ended
        (.error (.error (.initialization name reason))) →
      ∃ identity body inner, Fails sources thread (session.history.past thread)
        inquiry ended name reason identity body inner
  /-- A failure that an operation ended with is that of such a lookup. -/
  answered : session.FailuresLookedUp thread
  /-- The operation itself begins the lookup whose failure it ends with. -/
  requested : ∀ operation : Operation, ∀ name reason,
    (session.registry.run operation.request thread).1 =
        .error (.error (.initialization name reason)) →
      ∃ inquiry ended, session.history.past thread <:+ inquiry.begun ∧
        LookedUp ((session.perform thread operation).history.past thread)
          inquiry ended (.error (.error (.initialization name reason)))
  /-- A collaborator hears of a failure from the lookup that just ended so,
  which it began inside of the build that it works for. -/
  told : ∀ type name reason before,
    ⟨.report (.introspecting type (.error (.initialization name reason))), ()⟩
        :: before <:+ session.history.past thread →
      ∃ since inquiry ended, (Past.stack since).head? = some type ∧
        since <:+ inquiry.begun ∧
        LookedUp before inquiry ended
          (.error (.error (.initialization name reason))) ∧
        before = ⟨.mark (.answered inquiry.kind inquiry.name
          (.error (.error (.initialization name reason)))), ()⟩ :: ended
  deliveredOnce : ∀ name,
    (session.history.past thread).countP (Deed.delivers name) ≤ 1 ∧
      session.deliveries thread name ≤ 1

theorem Chronicled.requested (chronicled : Chronicled sources thread session)
    (orderly : Orderly sources thread session) {operation : Operation}
    {name : TypeName} {reason : String}
    (failed : (session.registry.run operation.request thread).1 =
      .error (.error (.initialization name reason))) :
    ∃ inquiry ended, session.history.past thread <:+ inquiry.begun ∧
      LookedUp ((session.perform thread operation).history.past thread)
        inquiry ended (.error (.error (.initialization name reason))) := by
  obtain ⟨_, deeds, outcome, past, answers, ends⟩ :=
    chronicled.perform orderly operation
  cases (congrArg Prod.snd (List.cons.inj answers).1).symm.trans failed
  rcases ends _ rfl with own | ⟨⟨inquiry, ended, _, since, lookedUp, _⟩, _⟩
  · exact own.elim
  · rw [← past] at lookedUp
    exact ⟨inquiry, ended, since, lookedUp⟩

theorem Chronicled.deliveries_le
    (chronicled : Chronicled sources thread session)
    (orderly : Orderly sources thread session) (operation : Operation)
    {name : TypeName}
    (earlier : session.deliveries thread name ≤
      (session.history.past thread).countP (Deed.delivers name)) :
    (session.perform thread operation).deliveries thread name ≤
      ((session.perform thread operation).history.past thread).countP
        (Deed.delivers name) := by
  obtain ⟨after, deeds, outcome, past, answers, ends⟩ :=
    chronicled.perform orderly operation
  have traced := after.genuine.traced
  rw [past] at traced
  have relayed := traced.countP_relays_le chronicled.stack name
  have last : (isFailureOf name outcome).toNat ≤
      (deeds.head?.any (Deed.delivers name)).toNat := by
    cases failed : isFailureOf name outcome with
    | false => exact Nat.zero_le _
    | true =>
      obtain ⟨reason, rfl⟩ := isFailureOf_iff.1 failed
      rcases ends _ rfl with
        own | ⟨⟨inquiry, ended, _, since, lookedUp, same⟩, _⟩
      · exact own.elim
      cases deeds with
      | nil =>
        -- A lookup that the operation begins is not over before it.
        have before := since.length_le
        have within := lookedUp.asked.length_le
        rw [List.nil_append] at same
        rw [same] at before
        simp only [List.length_cons] at before within
        omega
      | cons first deeds =>
        cases (List.cons.inj same).1
        rw [List.head?_cons, Option.any_some]
        exact Nat.le_of_eq (congrArg Bool.toNat failed.symm)
  rw [deliveries] at earlier
  rw [deliveries, answers, past, List.countP_append, List.countP_append]
  have counted : ((operation, outcome) :: session.answers).countP
      (fun answer => isFailureOf name answer.2) =
    session.answers.countP (fun answer => isFailureOf name answer.2) +
      (isFailureOf name outcome).toNat := by
    rw [List.countP_cons]
    cases isFailureOf name outcome <;> rfl
  omega

/-- Whoever was given a failure was given one that was delivered. -/
theorem performAll_deliveries_le (sources : Sources) (thread : ThreadId)
    (operations : List Operation) (name : TypeName) :
    let session := performAll sources thread operations
    session.deliveries thread name ≤
      (session.history.past thread).countP (Deed.delivers name) :=
  @Chronicled.performAll_induction sources thread
    (fun session => session.deliveries thread name ≤
      (session.history.past thread).countP (Deed.delivers name))
    (Nat.le_refl 0)
    (fun _ operation chronicled orderly earlier =>
      chronicled.deliveries_le orderly operation earlier)
    operations

theorem performAll_failuresLookedUp (sources : Sources) (thread : ThreadId)
    (operations : List Operation) :
    (performAll sources thread operations).FailuresLookedUp thread := by
  refine @Chronicled.performAll_induction sources thread
    (FailuresLookedUp thread)
    (fun _ _ _ member => (List.not_mem_nil member).elim) ?_ operations
  intro session operation chronicled orderly earlier other name reason member
  obtain ⟨_, deeds, _, past, _⟩ := chronicled.perform orderly operation
  rcases List.mem_cons.1 member with here | before
  · obtain ⟨inquiry, ended, _, lookedUp⟩ :=
      chronicled.requested orderly (congrArg Prod.snd here).symm
    exact ⟨inquiry, ended, lookedUp⟩
  · obtain ⟨inquiry, ended, lookedUp⟩ := earlier other name reason before
    refine ⟨inquiry, ended, lookedUp.of_suffix ?_⟩
    rw [past]
    exact List.suffix_append deeds _

/-- Whatever collaborators do, a failure is delivered only once: to the lookup
that the only build of its name was begun for.  All others find it as the state
of the name, with the same words. -/
theorem performAll_failsOnce (sources : Sources) (thread : ThreadId)
    (operations : List Operation) :
    (performAll sources thread operations).FailsOnce sources thread := by
  have orderly := performAll_orderly sources thread operations
  have chronicled := performAll_chronicled sources thread operations
  have genuine := chronicled.genuine
  refine ⟨?_, fun inquiry ended name reason lookedUp =>
      genuine.fails orderly.rested chronicled.inquiries lookedUp,
    performAll_failuresLookedUp sources thread operations,
    fun operation name reason => chronicled.requested orderly,
    fun type name reason before told => ?_, fun name => ?_⟩
  · have sourced := orderly.sourced
    have alive := orderly.alive
    rw [← chronicled.store]
    generalize (performAll sources thread operations).registry = registry at *
    cases registry
    cases sourced
    cases alive
    rfl
  · obtain ⟨_, own | ⟨since, inside, ⟨inquiry, ended, _, began, lookedUp,
      last⟩, _⟩⟩ := (genuine.of_suffix told).traced.1
    · exact own.elim
    · exact ⟨since, inquiry, ended, inside, began, lookedUp, last⟩
  · have once := genuine.countP_delivers_le_one name
    exact ⟨once, Nat.le_trans
      (performAll_deliveries_le sources thread operations name) once⟩

end Session

end TypeAtlas
