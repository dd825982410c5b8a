import TypeAtlas.Proofs.Registry.Causes
import TypeAtlas.Proofs.Registry.Sessions

/-!
# Moments of a session

A thread that acts alone finds the store as its own deeds have left it.  So what
it has done at any moment of a session tells the store of that moment, which is
as faithful to the history so far as the store at the end.  By the end, each
lookup that was begun has its answer, and has gone one of a few ways.
-/

namespace TypeAtlas

open Lookup

namespace Past

/-- The store that the deeds of a thread leave, if no other thread acts. -/
def storeAfter (thread : ThreadId) : Past → Store
  | [] => {}
  | ⟨action, _⟩ :: past =>
    match (storeAfter thread past).perform thread action with
    | .ok (_, store) => store
    | .error _ => storeAfter thread past

/-- Whether each deed of a thread had the answer that the store had for it. -/
def Replays (thread : ThreadId) : Past → Prop
  | [] => True
  | ⟨action, answer⟩ :: past =>
    (storeAfter thread past).perform thread action =
        .ok (answer, storeAfter thread (⟨action, answer⟩ :: past)) ∧
      Replays thread past

def alone (thread : ThreadId) (past : Past) : History :=
  past.map fun deed => (thread, deed)

theorem past_alone (thread : ThreadId) (past : Past) :
    (alone thread past).past thread = past := by
  induction past with
  | nil => rfl
  | cons deed past ih =>
    rw [alone, List.map_cons, History.past_cons_self]
    exact congrArg (deed :: ·) ih

theorem past_alone_of_ne {thread other : ThreadId} (different : other ≠ thread)
    (past : Past) : (alone thread past).past other = [] := by
  refine List.eq_nil_iff_forall_not_mem.2 fun deed member => ?_
  obtain ⟨_, _, same⟩ := List.mem_map.1 (History.mem_past.1 member)
  exact different (congrArg Prod.fst same).symm

theorem count_alone (thread : ThreadId) (past : Past) (holds : Deed → Bool) :
    (alone thread past).count holds = past.countP holds := by
  rw [History.count, alone, List.countP_map]
  rfl

variable {thread : ThreadId} {past earlier : Past}

theorem Replays.of_suffix (replays : Replays thread past)
    (suffix : earlier <:+ past) : Replays thread earlier := by
  obtain ⟨later, rfl⟩ := suffix
  induction later with
  | nil => exact replays
  | cons deed later ih => exact ih replays.2

theorem Replays.cons {action : Action} {answer : action.Answer} {store : Store}
    (replays : Replays thread past)
    (performed : (storeAfter thread past).perform thread action =
      .ok (answer, store)) :
    Replays thread (⟨action, answer⟩ :: past) ∧
      storeAfter thread (⟨action, answer⟩ :: past) = store := by
  have after : storeAfter thread (⟨action, answer⟩ :: past) = store := by
    simp only [storeAfter, performed]
  refine ⟨⟨?_, replays⟩, after⟩
  rw [after]
  exact performed

/-- What a run adds to the deeds of a thread leads to the store at its end. -/
theorem Replays.run (replays : Replays thread past) (procedure : Procedure α) :
    let run := procedure.run thread (storeAfter thread past)
    Replays thread (run.deeds.reverse ++ past) ∧
      storeAfter thread (run.deeds.reverse ++ past) = run.store := by
  induction procedure generalizing past with
  | done value => exact ⟨replays, rfl⟩
  | act action next ih =>
    cases performed : (storeAfter thread past).perform thread action with
    | error descriptor =>
      simp only [Procedure.run, performed]
      exact ⟨replays, rfl⟩
    | ok result =>
      obtain ⟨answer, store⟩ := result
      obtain ⟨further, after⟩ := replays.cons performed
      have rest := ih answer further
      rw [after] at rest
      simpa only [Procedure.run, performed, List.reverse_cons,
        List.append_assoc, List.singleton_append] using rest

theorem Replays.exists_of_present {name : TypeName} {identity : Nat}
    {builder : ThreadId} {isPublished : Bool}
    (replays : Replays thread
      (⟨.enter name, .present identity builder isPublished⟩ :: past)) :
    (∃ entry, (storeAfter thread past).entries.get? name = some entry ∧
      entry.identity = identity ∧ entry.builder = builder ∧
        entry.isPublished = isPublished) ∧
    storeAfter thread
        (⟨.enter name, .present identity builder isPublished⟩ :: past) =
      storeAfter thread past := by
  have performed := replays.1
  generalize storeAfter thread
    (⟨.enter name, .present identity builder isPublished⟩ :: past) = store
    at performed ⊢
  simp only [Store.perform] at performed
  split at performed
  next entry found =>
    cases performed
    exact ⟨⟨entry, found, rfl, rfl, rfl⟩, rfl⟩
  · cases performed

theorem Replays.absent_of_made {name : TypeName} {identity : Nat}
    (replays : Replays thread (⟨.enter name, .made identity⟩ :: past)) :
    (storeAfter thread past).entries.get? name = none := by
  have performed := replays.1
  simp only [Store.perform] at performed
  split at performed
  · cases performed
  next absent => exact absent

theorem Replays.published_of_await {descriptor : Descriptor} {body : Body}
    (replays : Replays thread (⟨.await descriptor, body⟩ :: past)) :
    (storeAfter thread past).body? descriptor = some body := by
  have performed := replays.1
  generalize storeAfter thread (⟨.await descriptor, body⟩ :: past) = store
    at performed
  simp only [Store.perform] at performed
  split at performed
  next found published =>
    cases performed
    exact published
  · cases performed

/-- Whether a thread may have done so by itself: all its deeds were in order,
and had the answers that the store had for them. -/
structure Genuine (sources : Sources) (thread : ThreadId) (past : Past) :
    Prop where
  replays : Replays thread past
  disciplined : Lawful (discipline { sources, thread } False) past
  traced : Lawful (tracing { sources, thread }) past

namespace Genuine

variable {sources : Sources}

theorem of_suffix (genuine : Genuine sources thread past)
    (suffix : earlier <:+ past) : Genuine sources thread earlier where
  replays := genuine.replays.of_suffix suffix
  disciplined := genuine.disciplined.of_suffix suffix
  traced := genuine.traced.of_suffix suffix

/-- At each moment the store is faithful to what was done so far. -/
theorem faithful (genuine : Genuine sources thread past) :
    Faithful sources False (storeAfter thread past) (alone thread past) := by
  induction past with
  | nil => exact Faithful.init sources False
  | cons deed past ih =>
    have before := ih (genuine.of_suffix (List.suffix_cons deed past))
    refine before.perform ?_ genuine.replays.1
    rw [past_alone]
    exact genuine.disciplined.1

/-- All entries are the thread's own. -/
theorem builder_eq (genuine : Genuine sources thread past) {name : TypeName}
    {entry : Entry}
    (found : (storeAfter thread past).entries.get? name = some entry) :
    entry.builder = thread := by
  obtain ⟨_, _, same⟩ :=
    List.mem_map.1 (genuine.faithful.coherent.made name entry found)
  exact (congrArg Prod.fst same).symm

/-- At a moment that is no part of a build's beginning or end, the names that
are being built are those with an entry that is not published. -/
theorem mem_stack_iff (genuine : Genuine sources thread past)
    (aligned : Aligned past) {name : TypeName} :
    name ∈ stack past ↔ ∃ entry,
      (storeAfter thread past).entries.get? name = some entry ∧
        entry.isPublished = false := by
  have pending := genuine.faithful.coherent.unfinished thread name
  rw [past_alone] at pending
  rw [← aligned, List.mem_map]
  constructor
  · rintro ⟨⟨_, identity⟩, member, rfl⟩
    obtain ⟨entry, found, _, blank⟩ := (pending identity).1 member
    refine ⟨entry, (Store.entryFor?_eq_some.1 found).1, ?_⟩
    rw [Entry.isPublished, blank]
    rfl
  · rintro ⟨entry, found, unpublished⟩
    refine ⟨(name, entry.identity), (pending entry.identity).2 ⟨entry,
      Store.entryFor?_eq_some.2 ⟨found, rfl⟩, genuine.builder_eq found, ?_⟩,
      rfl⟩
    exact Option.isNone_iff_eq_none.1
      (Option.isSome_eq_false_iff.1 unpublished)

theorem body?_of_published (genuine : Genuine sources thread past)
    {name : TypeName} {identity : Nat} {body : Body}
    (published : (⟨.publish name identity body, ()⟩ : Deed) ∈ past) :
    (storeAfter thread past).body? (.cached name identity) = some body := by
  obtain ⟨entry, found, _, told⟩ := genuine.faithful.coherent.confirmed thread _
    (List.mem_map_of_mem published)
  exact Option.bind_eq_some_iff.2 ⟨entry, found, told⟩

end Genuine

end Past

open Past

theorem Procedure.Meets.run_lawful {contract : Contract}
    {ensures : Past → α → Prop} {procedure : Procedure α} {past : Past}
    (meets : procedure.Meets contract ensures past)
    (promises : ∀ past deed, contract.promises past deed)
    (lawful : Lawful contract past) (thread : ThreadId) (store : Store) :
    let run := procedure.run thread store
    Lawful contract (run.deeds.reverse ++ past) ∧
      ∀ value, run.outcome = .ok value →
        ensures (run.deeds.reverse ++ past) value := by
  induction procedure generalizing past store with
  | done value =>
    refine ⟨lawful, fun _ same => ?_⟩
    cases same
    exact meets
  | act action next ih =>
    obtain ⟨allowed, goesOn⟩ := meets
    cases performed : store.perform thread action with
    | error descriptor =>
      simp only [Procedure.run, performed]
      refine ⟨lawful, fun _ same => ?_⟩
      cases same
    | ok result =>
      obtain ⟨answer, later⟩ := result
      have rest := ih answer (goesOn answer (promises past _))
        ⟨allowed, lawful⟩ later
      simpa only [Procedure.run, performed, List.reverse_cons,
        List.append_assoc, List.singleton_append] using rest

section Inquiries

variable {later begun : Past} {kind : LookupKind} {name : TypeName}

/-- A lookup that was begun is still open, or it was answered. -/
theorem Past.Lawful.open_or_answered {agent : Agent}
    (lawful : Lawful (tracing agent)
      (later ++ ⟨.mark (.asked kind name), ()⟩ :: begun)) :
    (∃ inner, inquiries (later ++ ⟨.mark (.asked kind name), ()⟩ :: begun) =
      inner ++ ⟨kind, name, begun⟩ :: inquiries begun) ∨
    ∃ rest outcome span,
      later = rest ++ ⟨.mark (.answered kind name outcome), ()⟩ :: span ∧
        inquiries (span ++ ⟨.mark (.asked kind name), ()⟩ :: begun) =
          ⟨kind, name, begun⟩ :: inquiries begun := by
  induction later with
  | nil => exact .inl ⟨[], rfl⟩
  | cons deed later ih =>
    rcases ih lawful.2 with ⟨inner, same⟩ | ⟨rest, outcome, span, rfl, same⟩
    · obtain ⟨action, answer⟩ := deed
      cases action with
      | mark mark =>
        cases mark with
        | asked other asking => exact .inl ⟨_ :: inner, congrArg _ same⟩
        | building other => exact .inl ⟨inner, same⟩
        | answered other asked outcome =>
          -- Only the latest lookup that is open can be the one answered.
          obtain ⟨⟨since, latest, _⟩, _⟩ := lawful
          change inquiries (later ++ _) = _ at latest
          rw [same] at latest
          cases inner with
          | nil =>
            cases latest
            exact .inr ⟨[], outcome, later, rfl, same⟩
          | cons open_ inner => exact .inl ⟨inner, congrArg List.tail same⟩
      | _ => exact .inl ⟨inner, same⟩
    · exact .inr ⟨deed :: rest, outcome, span, rfl, same⟩

theorem Course.asked {agent : Agent} {past : Past}
    {outcome : Except Stop Descriptor}
    (course : Course agent name begun kind past outcome) :
    ⟨.mark (.asked kind name), ()⟩ :: begun <:+ past := by
  cases course with
  | found => exact ⟨[_], rfl⟩
  | refused => exact ⟨[_], rfl⟩
  | hit => exact ⟨[_, _, _], rfl⟩
  | built ends => exact (List.suffix_cons _ _).trans ends.made_suffix

namespace Past

namespace Genuine

variable {sources : Sources} {thread : ThreadId} {past ended : Past}
  {outcome : Except Stop Descriptor}

/-- What was answered is the latest lookup, which has gone its course. -/
theorem exists_course (genuine : Genuine sources thread past)
    (answered : ⟨.mark (.answered kind name outcome), ()⟩ :: ended <:+ past) :
    ∃ begun, inquiries ended = ⟨kind, name, begun⟩ :: inquiries begun ∧
      Course { sources, thread } name begun kind ended outcome := by
  obtain ⟨_, ⟨settled, _⟩, ⟨begun, latest, course⟩, _⟩ :=
    genuine.of_suffix answered
  have answers : Answers outcome := by
    cases outcome with
    | ok descriptor => trivial
    | error stop => exact settled
  exact ⟨begun, latest, course answers.concludes⟩

theorem exists_lookedUp_of_answered (genuine : Genuine sources thread past)
    (answered : ⟨.mark (.answered kind name outcome), ()⟩ :: ended <:+ past) :
    ∃ begun, LookedUp past ⟨kind, name, begun⟩ ended outcome := by
  obtain ⟨begun, latest, course⟩ := genuine.exists_course answered
  exact ⟨begun, course.asked, latest, answered⟩

theorem course (genuine : Genuine sources thread past) {inquiry : Inquiry}
    (lookedUp : LookedUp past inquiry ended outcome) :
    Course { sources, thread } inquiry.name inquiry.begun inquiry.kind ended
      outcome := by
  obtain ⟨begun, latest, course⟩ := genuine.exists_course lookedUp.answered
  have same := lookedUp.latest.symm.trans latest
  obtain ⟨kind, name, since⟩ := inquiry
  cases same
  exact course

/-- A lookup that was begun took place, if none is left open. -/
theorem exists_lookedUp_of_asked (genuine : Genuine sources thread past)
    (closed : inquiries past = [])
    (asked : ⟨.mark (.asked kind name), ()⟩ :: begun <:+ past) :
    ∃ ended outcome, LookedUp past ⟨kind, name, begun⟩ ended outcome := by
  obtain ⟨later, rfl⟩ := asked
  rcases genuine.traced.open_or_answered with
    ⟨inner, same⟩ | ⟨rest, outcome, span, rfl, latest⟩
  · rw [closed] at same
    cases inner <;> cases same
  · refine ⟨_, outcome, List.suffix_append span _, latest, ?_⟩
    rw [List.append_assoc]
    exact List.suffix_append rest _

end Genuine

end Past

end Inquiries

namespace Session

variable {sources : Sources} {thread : ThreadId} {session : Session}

/-- What holds at the start, and after each operation, holds at the end. -/
theorem performAll_induction {holds : Session → Prop}
    (start : holds (start sources))
    (perform : ∀ session operation, Orderly sources thread session →
      holds session → holds (session.perform thread operation))
    (operations : List Operation) :
    holds (performAll sources thread operations) := by
  have goesOn : ∀ (operations : List Operation) (session : Session),
      Orderly sources thread session → holds session →
        holds (operations.foldl (Session.perform thread) session) := by
    intro operations
    induction operations with
    | nil => exact fun _ _ held => held
    | cons operation rest ih =>
      exact fun session orderly held =>
        ih _ (orderly.perform operation)
          (perform session operation orderly held)
  exact goesOn operations _ (start_orderly sources thread) start

/-- Whether what a session's thread did is genuine, and nothing is left open. -/
structure Chronicled (sources : Sources) (thread : ThreadId)
    (session : Session) : Prop where
  genuine : Genuine sources thread (session.history.past thread)
  store : session.registry.store =
    storeAfter thread (session.history.past thread)
  inquiries : Past.inquiries (session.history.past thread) = []
  stack : Past.stack (session.history.past thread) = []

theorem past_perform (thread : ThreadId)
    (alive : session.registry.alive = true) (operation : Operation) :
    let run := (operation.request.procedure session.registry.sources thread).run
      thread session.registry.store
    (session.perform thread operation).history.past thread =
        run.deeds.reverse ++ session.history.past thread ∧
      (session.perform thread operation).registry.store = run.store ∧
        (session.perform thread operation).answers =
          (operation, Registry.outcomeOf run) :: session.answers := by
  refine ⟨History.past_ofDeeds _ _ _, ?_, ?_⟩
  · simp [Session.perform, Registry.run, alive]
  · simp [Session.perform, Registry.run, alive]

/-- What an operation adds to what was done, and to the answers. -/
theorem Chronicled.perform (chronicled : Chronicled sources thread session)
    (orderly : Orderly sources thread session) (operation : Operation) :
    Chronicled sources thread (session.perform thread operation) ∧
      ∃ deeds outcome,
        (session.perform thread operation).history.past thread =
            deeds ++ session.history.past thread ∧
          (session.perform thread operation).answers =
              (operation, outcome) :: session.answers ∧
            ∀ stop, outcome = .error stop →
              Requested (session.history.past thread)
                (deeds ++ session.history.past thread) stop := by
  have after := orderly.perform operation
  obtain ⟨past, store, answers⟩ :=
    past_perform thread orderly.alive operation
  obtain ⟨_, _, _, idle⟩ := orderly.rested
  have aligned : Aligned (session.history.past thread) := by
    unfold Aligned
    rw [idle, chronicled.stack]
    rfl
  rw [orderly.sourced, chronicled.store] at past store answers
  have meets : (operation.request.procedure sources thread).Meets
      (tracing { sources, thread })
      (fun later outcome =>
        LeavesNothing (session.history.past thread) later outcome ∧
          ∀ stop, outcome = .error stop →
            Requested (session.history.past thread) later stop)
      (session.history.past thread) :=
    operation.request_traced { sources, thread } _ aligned
  obtain ⟨traced, ensured⟩ := meets.run_lawful
    (fun _ _ => trivial) chronicled.genuine.traced thread
    (storeAfter thread (session.history.past thread))
  obtain ⟨replays, led⟩ := chronicled.genuine.replays.run
    (operation.request.procedure sources thread)
  generalize (operation.request.procedure sources thread).run thread
    (storeAfter thread (session.history.past thread)) = run at *
  have answered : Answers (Registry.outcomeOf run) :=
    after.answered operation _ (answers ▸ List.mem_cons_self)
  obtain ⟨outcome, ended⟩ : ∃ outcome, run.outcome = .ok outcome := by
    cases ended : run.outcome with
    | ok outcome => exact ⟨outcome, rfl⟩
    | error descriptor =>
      rw [Registry.outcomeOf, ended] at answered
      exact answered.elim
  have same : Registry.outcomeOf run = outcome := by
    rw [Registry.outcomeOf, ended]
  rw [same] at answered answers
  obtain ⟨leaves, ends⟩ := ensured outcome ended
  refine ⟨⟨⟨?_, after.faithful.lawful thread, ?_⟩, ?_, ?_, ?_⟩,
    run.deeds.reverse, outcome, past, answers, ends⟩
  · rw [past]
    exact replays
  · rw [past]
    exact traced
  · rw [store, past]
    exact led.symm
  · rw [past, leaves.inquiries]
    exact chronicled.inquiries
  · rw [past, leaves.stack answered.concludes]
    exact chronicled.stack

theorem performAll_chronicled (sources : Sources) (thread : ThreadId)
    (operations : List Operation) :
    Chronicled sources thread (performAll sources thread operations) := by
  refine performAll_induction ⟨⟨trivial, trivial, trivial⟩,
    rfl, rfl, rfl⟩ (fun session operation orderly chronicled => ?_) operations
  exact (chronicled.perform orderly operation).1

/-- For an induction, all that is known of the session so far may be used. -/
theorem Chronicled.performAll_induction {holds : Session → Prop}
    (start : holds (start sources))
    (perform : ∀ session operation, Chronicled sources thread session →
      Orderly sources thread session → holds session →
        holds (session.perform thread operation))
    (operations : List Operation) :
    holds (performAll sources thread operations) := by
  have both := @Session.performAll_induction sources thread
    (fun session => Chronicled sources thread session ∧ holds session)
    ⟨performAll_chronicled sources thread [], start⟩
    (fun session operation orderly ⟨chronicled, held⟩ =>
      ⟨(chronicled.perform orderly operation).1,
        perform session operation chronicled orderly held⟩)
    operations
  exact both.2

end Session

end TypeAtlas
