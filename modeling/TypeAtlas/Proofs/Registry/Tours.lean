import TypeAtlas.Proofs.Registry.Live
import TypeAtlas.Proofs.Registry.Sessions

/-!
# Tours of a registry

On a tour, threads look types up in a registry and ask child transforms of the
descriptors that they were given.  What a session does with a registry, a thread
does on a tour on which no other thread acts, so that whatever holds on tours
holds in sessions.
-/

namespace TypeAtlas

namespace Pool

variable {sources : Sources} {pool later : Pool} {thread : ThreadId}
  {operation : Operation} {outcome : Except Stop Descriptor}

def Gave (pool : Pool) (descriptor : Descriptor) : Prop :=
  (∃ name identity, descriptor = .cached name identity) ∨
    ∃ thread operation,
      (operation, .ok descriptor) ∈ (pool.workers thread).answers

/-- The pools that come of a registry in which nothing was looked up, where
child transforms are asked for of descriptors that were given. -/
inductive Tours (sources : Sources) : Pool → Prop where
  | start : Tours sources (start fun _ => [])
  | ask {pool : Pool} (tours : Tours sources pool) (thread : ThreadId)
    (operation : Operation)
    (held : ∀ reference, operation = .follow reference →
      pool.Holds reference) :
    Tours sources (pool.ask thread operation)
  | step {pool later : Pool} (tours : Tours sources pool)
    (step : Step sources pool later) : Tours sources later
  | query {pool : Pool} (tours : Tours sources pool) {descriptor : Descriptor}
    (gave : pool.Gave descriptor) (side : ChildTransforms.Side)
    (name : TypeName) : Tours sources (pool.query sources descriptor side name)

theorem Tours.lives (tours : Tours sources pool) : Lives sources pool := by
  induction tours with
  | start => exact .refl
  | ask _ thread operation held ih => exact ih.tail (.ask thread operation held)
  | step _ step ih => exact ih.tail (.step step)
  | query _ _ side name ih => exact ih.tail (.query _ side name)

theorem Tours.steps (tours : Tours sources pool)
    (steps : Relation.ReflTransGen (Step sources) pool later) :
    Tours sources later := by
  induction steps with
  | refl => exact tours
  | tail _ step ih => exact ih.step step

theorem tours_advance (tours : Tours sources pool) (turns : List ThreadId) :
    Tours sources (turns.foldl (advance sources) pool) := by
  induction turns generalizing pool with
  | nil => exact tours
  | cons thread rest ih =>
    rcases step_advance sources pool thread with same | step
    · rw [List.foldl_cons, same]
      exact ih tours
    · exact ih (tours.step step)

/-- The steps of a thread do what its procedure does when it is run alone. -/
theorem exists_steps_of_run {procedure : Procedure (Except Stop Descriptor)}
    (busy : (pool.workers thread).current? = some (operation, procedure))
    (ended : (procedure.run thread pool.store).outcome = .ok outcome) :
    ∃ later, Relation.ReflTransGen (Step sources) pool later ∧
      later.store = (procedure.run thread pool.store).store ∧
      later.history = History.ofDeeds thread
        (procedure.run thread pool.store).deeds ++ pool.history ∧
      later.workers thread = { pool.workers thread with
        current? := some (operation, .done outcome) } := by
  induction procedure generalizing pool with
  | done value =>
    cases ended
    exact ⟨pool, .refl, rfl, rfl, by rw [← busy]⟩
  | act action next ih =>
    cases performed : pool.store.perform thread action with
    | error descriptor =>
      rw [Procedure.run, performed] at ended
      cases ended
    | ok result =>
      obtain ⟨answer, store⟩ := result
      have step : Step sources pool _ := .act thread busy performed
      simp only [Procedure.run, performed, History.ofDeeds_cons] at ended ⊢
      obtain ⟨later, steps, stored, recorded, worker⟩ := @ih answer
        ((pool.record thread ⟨action, answer⟩ store).setWorker thread
          { pool.workers thread with
            current? := some (operation, next answer) })
        (by rw [setWorker_self]) ended
      rw [setWorker_self] at worker
      exact ⟨later, steps.head step, stored, recorded, worker⟩

/-- An idle thread comes to the end of what it is asked for. -/
theorem exists_steps_of_ask
    {answers : List (Operation × Except Stop Descriptor)}
    (idle : pool.workers thread = { answers })
    (ended : ((operation.request.procedure sources thread).run thread
      pool.store).outcome = .ok outcome) :
    ∃ later,
      Relation.ReflTransGen (Step sources) (pool.ask thread operation) later ∧
        later.store = ((operation.request.procedure sources thread).run thread
          pool.store).store ∧
        later.history = History.ofDeeds thread
          ((operation.request.procedure sources thread).run thread
            pool.store).deeds ++ pool.history ∧
        later.workers thread =
          { answers := (operation, outcome) :: answers } := by
  let begun := (pool.ask thread operation).setWorker thread
    { answers, current? :=
        some (operation, operation.request.procedure sources thread) }
  have asked : (pool.ask thread operation).workers thread =
      { answers, waiting := [operation] } := by
    rw [ask, setWorker_self, idle]
    rfl
  have begins : Step sources (pool.ask thread operation) begun := by
    have step : Step sources (pool.ask thread operation) _ :=
      .begin thread (by rw [asked]) (by rw [asked])
    rwa [asked] at step
  obtain ⟨later, steps, stored, recorded, worker⟩ :=
    @exists_steps_of_run sources begun thread operation outcome _
      (by rw [setWorker_self]) ended
  rw [setWorker_self] at worker
  have finishes : Step sources later _ := .finish thread (by rw [worker])
  rw [worker] at finishes
  exact ⟨_, (steps.head begins).tail finishes, stored, recorded,
    setWorker_self _ _ _⟩

end Pool

namespace Session

open Pool

variable {sources : Sources} {session : Session} {thread : ThreadId}
  {pool : Pool}

/-- Whether one thread of a pool has done what was done in a session. -/
structure IsIn (session : Session) (thread : ThreadId) (pool : Pool) :
    Prop where
  store : pool.store = session.registry.store
  history : pool.history = session.history
  worker : pool.workers thread = { answers := session.answers }

theorem IsIn.registry_eq (isIn : session.IsIn thread pool)
    (orderly : Orderly sources thread session) :
    pool.registry sources = session.registry := by
  rw [Pool.registry, isIn.store, ← orderly.sourced, ← orderly.alive]

theorem Orderly.exists_ended (orderly : Orderly sources thread session)
    (operation : Operation) :
    ∃ outcome, ((operation.request.procedure sources thread).run thread
      session.registry.store).outcome = .ok outcome := by
  have keeps : (operation.request.procedure sources thread).Meets
      (Lookup.discipline { sources, thread } False)
      (Lookup.Keeps (session.history.past thread) operation.Ensures)
      (session.history.past thread) :=
    operation.keeps False.elim False.elim
  obtain ⟨_, outcome, ended, _⟩ := orderly.faithful.run keeps
    fun other different => by rw [orderly.past_eq_nil different]; rfl
  exact ⟨outcome, ended⟩

/-- What a session does next, the thread does when it is asked for it. -/
theorem Orderly.exists_steps (orderly : Orderly sources thread session)
    (isIn : session.IsIn thread pool) (operation : Operation) :
    ∃ later,
      Relation.ReflTransGen (Step sources) (pool.ask thread operation) later ∧
        (session.perform thread operation).IsIn thread later := by
  obtain ⟨outcome, ended⟩ := orderly.exists_ended operation
  rw [← isIn.store] at ended
  obtain ⟨later, steps, stored, recorded, worker⟩ :=
    exists_steps_of_ask isIn.worker ended
  rw [isIn.store] at ended stored recorded
  have ran : session.registry.run operation.request thread =
      (outcome, { session.registry with
        store := ((operation.request.procedure sources thread).run thread
          session.registry.store).store }) := by
    simp [Registry.run, orderly.alive, orderly.sourced, Registry.outcomeOf,
      ended]
  refine ⟨later, steps, ?_, ?_, ?_⟩
  · rw [stored, Session.perform, ran]
  · rw [recorded, Session.perform, orderly.sourced, isIn.history]
  · rw [worker, Session.perform, ran]

/-- Whether a session is in order, and is what one thread does on a tour. -/
structure OnTour (sources : Sources) (thread : ThreadId) (session : Session) :
    Prop where
  orderly : Orderly sources thread session
  tours : ∃ pool, Tours sources pool ∧ session.IsIn thread pool

theorem start_onTour (sources : Sources) (thread : ThreadId) :
    OnTour sources thread (start sources) where
  orderly := start_orderly sources thread
  tours := ⟨_, .start, rfl, rfl, rfl⟩

theorem OnTour.perform (onTour : OnTour sources thread session)
    {operation : Operation} (own : ∀ reference, operation ≠ .follow reference) :
    OnTour sources thread (session.perform thread operation) := by
  obtain ⟨pool, tours, isIn⟩ := onTour.tours
  obtain ⟨later, steps, isInLater⟩ := onTour.orderly.exists_steps isIn operation
  have asked := tours.ask thread operation
    fun reference same => (own reference same).elim
  exact ⟨onTour.orderly.perform operation, later, asked.steps steps, isInLater⟩

theorem performAll_onTour (sources : Sources) (thread : ThreadId)
    {operations : List Operation}
    (own : ∀ operation ∈ operations, ∀ reference,
      operation ≠ .follow reference) :
    OnTour sources thread (performAll sources thread operations) := by
  have goesOn (session : Session) (onTour : OnTour sources thread session) :
      OnTour sources thread
        (operations.foldl (Session.perform thread) session) := by
    induction operations generalizing session with
    | nil => exact onTour
    | cons operation rest ih =>
      refine ih (fun other member => own other (List.mem_cons_of_mem _ member))
        _ (onTour.perform (own operation List.mem_cons_self))
  exact goesOn (start sources) (start_onTour sources thread)

end Session

end TypeAtlas
