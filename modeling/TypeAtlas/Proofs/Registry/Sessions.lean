import TypeAtlas.Proofs.Registry.Faithful
import TypeAtlas.Proofs.Registry.Operations

/-!
# Sessions

In a session one thread makes a registry do one operation after the other,
while no other thread acts.  Every operation comes to an answer, and leaves a
registry in which all that was begun has ended and was counted.
-/

namespace TypeAtlas

open Past Lookup

/-- A registry with what was done to it and what came of that. -/
structure Session where
  registry : Registry
  history : History := []
  /-- The operations and their outcomes, the latest first. -/
  answers : List (Operation × Except Stop Descriptor) := []

namespace Session

def start (sources : Sources) : Session :=
  { registry := { sources } }

def perform (thread : ThreadId) (session : Session) (operation : Operation) :
    Session where
  registry := (session.registry.run operation.request thread).2
  history :=
    History.ofDeeds thread
      ((operation.request.procedure session.registry.sources thread).run
        thread session.registry.store).deeds ++ session.history
  answers :=
    (operation, (session.registry.run operation.request thread).1) ::
      session.answers

/-- The session in which a thread does operations, one after the other. -/
def performAll (sources : Sources) (thread : ThreadId)
    (operations : List Operation) : Session :=
  operations.foldl (perform thread) (start sources)

/-- Whether a session is at rest, after deeds that kept the discipline. -/
structure Orderly (sources : Sources) (thread : ThreadId) (session : Session) :
    Prop where
  sourced : session.registry.sources = sources
  alive : session.registry.alive = true
  faithful : Faithful sources False session.registry.store session.history
  alone : ∀ other deed, (other, deed) ∈ session.history → other = thread
  rested : Extends [] (session.history.past thread)
  answered : ∀ operation outcome, (operation, outcome) ∈ session.answers →
    Answers outcome

variable {sources : Sources} {thread : ThreadId} {session : Session}

theorem start_orderly (sources : Sources) (thread : ThreadId) :
    Orderly sources thread (start sources) where
  sourced := rfl
  alive := rfl
  faithful := Faithful.init sources False
  alone _ _ member := (List.not_mem_nil member).elim
  rested := Extends.refl []
  answered _ _ member := (List.not_mem_nil member).elim

theorem Orderly.past_eq_nil (orderly : Orderly sources thread session)
    {other : ThreadId} (different : other ≠ thread) :
    session.history.past other = [] :=
  List.eq_nil_iff_forall_not_mem.2 fun deed member =>
    different (orderly.alone other deed (History.mem_past.1 member))

theorem Orderly.settled (orderly : Orderly sources thread session) :
    Settled session.registry.store session.history := by
  refine orderly.faithful.settled fun other => ?_
  by_cases own : other = thread
  · rw [own]
    exact orderly.rested
  · rw [orderly.past_eq_nil own]
    exact Extends.refl []

theorem Orderly.perform_ensures (orderly : Orderly sources thread session)
    (operation : Operation)
    {ensures : Past → Except Stop Descriptor → Prop}
    (meets : (operation.request.procedure sources thread).Meets
      (discipline { sources, thread } False) ensures
      (session.history.past thread)) :
    Faithful sources False (session.perform thread operation).registry.store
        (session.perform thread operation).history ∧
      ∃ outcome,
        (session.perform thread operation).answers =
          (operation, outcome) :: session.answers ∧
        ensures ((session.perform thread operation).history.past thread)
          outcome := by
  obtain ⟨after, outcome, ended, ensured⟩ := orderly.faithful.run meets
    fun other different => by rw [orderly.past_eq_nil different]; rfl
  obtain ⟨rfl, alive, _, _, _, _⟩ := orderly
  have ran : session.registry.run operation.request thread =
      (outcome, { session.registry with
        store := ((operation.request.procedure session.registry.sources
          thread).run thread session.registry.store).store }) := by
    simp [Registry.run, alive, Registry.outcomeOf, ended]
  refine ⟨?_, outcome, ?_, ensured⟩
  · simp only [perform, ran]
    exact after
  · simp only [perform, ran]

theorem Orderly.perform (orderly : Orderly sources thread session)
    (operation : Operation) :
    Orderly sources thread (session.perform thread operation) := by
  have keeps : (operation.request.procedure sources thread).Meets
      (discipline { sources, thread } False)
      (Keeps (session.history.past thread) operation.Ensures)
      (session.history.past thread) :=
    operation.keeps False.elim False.elim
  obtain ⟨faithful, outcome, answers, grows, ensures⟩ :=
    orderly.perform_ensures operation keeps
  refine ⟨?_, ?_, faithful, fun other deed member => ?_,
    orderly.rested.trans grows, fun other result member => ?_⟩
  · rw [← orderly.sourced]
    simp only [Session.perform, Registry.run]
    split <;> rfl
  · simp only [Session.perform, Registry.run, orderly.alive, if_true]
  · rcases List.mem_append.1 member with done | earlier
    · exact History.eq_of_mem_ofDeeds done
    · exact orderly.alone other deed earlier
  · rw [answers] at member
    rcases List.mem_cons.1 member with here | earlier
    · cases here
      exact ensures.answers
    · exact orderly.answered other result earlier

theorem performAll_orderly (sources : Sources) (thread : ThreadId)
    (operations : List Operation) :
    Orderly sources thread (performAll sources thread operations) := by
  have goesOn : ∀ (operations : List Operation) (session : Session),
      Orderly sources thread session →
        Orderly sources thread (operations.foldl (perform thread) session) := by
    intro operations
    induction operations with
    | nil => exact fun _ orderly => orderly
    | cons operation rest ih =>
      exact fun session orderly => ih _ (orderly.perform operation)
  exact goesOn operations (start sources) (start_orderly sources thread)

/-- Whatever collaborators do, and whatever one thread asks of a registry, each
of its operations comes to an answer and leaves the registry settled. -/
theorem performAll_settled (sources : Sources) (thread : ThreadId)
    (operations : List Operation) :
    let session := performAll sources thread operations
    (∀ operation outcome, (operation, outcome) ∈ session.answers →
      Answers outcome) ∧ Settled session.registry.store session.history :=
  have orderly := performAll_orderly sources thread operations
  ⟨orderly.answered, orderly.settled⟩

end Session

end TypeAtlas
