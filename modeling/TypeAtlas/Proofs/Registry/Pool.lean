import TypeAtlas.Proofs.Registry.Faithful
import TypeAtlas.Proofs.Registry.Operations

/-!
# Threads that share a registry

Each thread of a pool does its own operations, one after the other, on one
store.  A step is an action of one thread, so the actions of all threads
interleave in every way there is.  Where the collaborators are calm, each name
is made by one thread, which alone assembles and publishes it, all lookups of
the name give the same descriptor, and the pool never comes to a standstill.
-/

namespace TypeAtlas

open Past Lookup

/-- A thread with the operations that it has to do and has done. -/
structure Worker where
  waiting : List Operation := []
  /-- The operation in hand, with what is left to do of it. -/
  current? : Option (Operation × Procedure (Except Stop Descriptor)) := none
  answers : List (Operation × Except Stop Descriptor) := []

def Worker.IsFinished (worker : Worker) : Prop :=
  worker.waiting = [] ∧ worker.current? = none

/-- The threads of a registry with their store and its history. -/
structure Pool where
  store : Store := {}
  history : History := []
  workers : ThreadId → Worker

namespace Pool

def start (work : ThreadId → List Operation) : Pool :=
  { workers := fun thread => { waiting := work thread } }

def setWorker (pool : Pool) (thread : ThreadId) (worker : Worker) : Pool :=
  { pool with
    workers := fun other => if other = thread then worker
      else pool.workers other }

def record (pool : Pool) (thread : ThreadId) (deed : Deed) (store : Store) :
    Pool :=
  { pool with store, history := (thread, deed) :: pool.history }

inductive Step (sources : Sources) (pool : Pool) : Pool → Prop where
  | begin (thread : ThreadId) {operation : Operation} {rest : List Operation}
    (idle : (pool.workers thread).current? = none)
    (next : (pool.workers thread).waiting = operation :: rest) :
    Step sources pool (pool.setWorker thread
      { pool.workers thread with
        waiting := rest
        current? := some
          (operation, operation.request.procedure sources thread) })
  | act (thread : ThreadId) {operation : Operation} {action : Action}
    {next : action.Answer → Procedure (Except Stop Descriptor)}
    {answer : action.Answer} {store : Store}
    (busy : (pool.workers thread).current? =
      some (operation, .act action next))
    (performed : pool.store.perform thread action = .ok (answer, store)) :
    Step sources pool
      ((pool.record thread ⟨action, answer⟩ store).setWorker thread
        { pool.workers thread with
          current? := some (operation, next answer) })
  | finish (thread : ThreadId) {operation : Operation}
    {outcome : Except Stop Descriptor}
    (busy : (pool.workers thread).current? = some (operation, .done outcome)) :
    Step sources pool (pool.setWorker thread
      { pool.workers thread with
        current? := none
        answers := (operation, outcome) :: (pool.workers thread).answers })

/-- The pools that come of given work, in whatever order the threads act. -/
inductive Reachable (sources : Sources) (work : ThreadId → List Operation) :
    Pool → Prop where
  | start : Reachable sources work (start work)
  | step {pool later : Pool} (reachable : Reachable sources work pool)
    (step : Step sources pool later) : Reachable sources work later

def advance (sources : Sources) (pool : Pool) (thread : ThreadId) : Pool :=
  let worker := pool.workers thread
  match worker.current?, worker.waiting with
  | none, [] => pool
  | none, operation :: rest =>
    pool.setWorker thread { worker with
      waiting := rest
      current? := some
        (operation, operation.request.procedure sources thread) }
  | some (operation, .done outcome), _ =>
    pool.setWorker thread { worker with
      current? := none
      answers := (operation, outcome) :: worker.answers }
  | some (operation, .act action next), _ =>
    match pool.store.perform thread action with
    | .error _ => pool
    | .ok (answer, store) =>
      (pool.record thread ⟨action, answer⟩ store).setWorker thread
        { worker with current? := some (operation, next answer) }

/-- The pool that comes of given work where threads take turns as listed. -/
def runTurns (sources : Sources) (work : ThreadId → List Operation)
    (turns : List ThreadId) : Pool :=
  turns.foldl (advance sources) (start work)

/-- Whether a thread is waiting for a descriptor that is not published. -/
def Waits (pool : Pool) (thread : ThreadId) : Prop :=
  ∃ operation descriptor next,
    (pool.workers thread).current? =
        some (operation, .act (.await descriptor) next) ∧
      pool.store.body? descriptor = none

/-- Whether a thread is where its past allows it to be. -/
def OnCourse (sources : Sources) (calm : Prop) (thread : ThreadId)
    (past : Past) :
    Option (Operation × Procedure (Except Stop Descriptor)) → Prop
  | none => Extends [] past
  | some (operation, procedure) => ∃ begun, Extends [] begun ∧
    procedure.Meets (discipline { sources, thread } calm)
      (Keeps begun operation.Ensures) past

/-- Whether all threads of a pool keep the discipline. -/
structure Orderly (sources : Sources) (calm : Prop) (pool : Pool) : Prop where
  faithful : Faithful sources calm pool.store pool.history
  onCourse : ∀ thread, OnCourse sources calm thread (pool.history.past thread)
    (pool.workers thread).current?
  answered : ∀ thread operation outcome,
    (operation, outcome) ∈ (pool.workers thread).answers →
      operation.Ensures (pool.history.past thread) outcome

variable {sources : Sources} {calm : Prop}
  {work : ThreadId → List Operation} {pool later : Pool}

@[simp]
theorem setWorker_self (pool : Pool) (thread : ThreadId) (worker : Worker) :
    (pool.setWorker thread worker).workers thread = worker :=
  if_pos rfl

theorem setWorker_of_ne {thread other : ThreadId} (different : other ≠ thread)
    (worker : Worker) :
    (pool.setWorker thread worker).workers other = pool.workers other :=
  if_neg different

theorem Step.exists_eq_advance (step : Step sources pool later) :
    ∃ thread, later = pool.advance sources thread := by
  cases step with
  | begin thread idle next => exact ⟨thread, by simp [advance, idle, next]⟩
  | act thread busy performed =>
    exact ⟨thread, by simp [advance, busy, performed]⟩
  | finish thread busy => exact ⟨thread, by simp [advance, busy]⟩

theorem step_advance (sources : Sources) (pool : Pool) (thread : ThreadId) :
    pool.advance sources thread = pool ∨
      Step sources pool (pool.advance sources thread) := by
  cases current : (pool.workers thread).current? with
  | none =>
    cases waiting : (pool.workers thread).waiting with
    | nil => exact .inl (by simp [advance, current, waiting])
    | cons operation rest =>
      have began : Step sources pool _ := .begin thread current waiting
      exact .inr (by simpa [advance, current, waiting] using began)
  | some task =>
    obtain ⟨operation, procedure⟩ := task
    cases procedure with
    | done outcome =>
      have finished : Step sources pool _ := .finish thread current
      exact .inr (by simpa [advance, current] using finished)
    | act action next =>
      cases performed : pool.store.perform thread action with
      | error descriptor => exact .inl (by simp [advance, current, performed])
      | ok result =>
        have acted : Step sources pool _ := .act thread current performed
        exact .inr (by simpa [advance, current, performed] using acted)

/-- What a pool comes to depends on the turns that its threads take alone. -/
theorem reachable_iff_exists_turns :
    Reachable sources work pool ↔
      ∃ turns, pool = runTurns sources work turns := by
  constructor
  · intro reachable
    induction reachable with
    | start => exact ⟨[], rfl⟩
    | step _ step ih =>
      obtain ⟨turns, rfl⟩ := ih
      obtain ⟨thread, rfl⟩ := step.exists_eq_advance
      exact ⟨turns ++ [thread], by simp [runTurns]⟩
  · rintro ⟨turns, rfl⟩
    unfold runTurns
    have goesOn : ∀ (turns : List ThreadId) (pool : Pool),
        Reachable sources work pool →
          Reachable sources work (turns.foldl (advance sources) pool) := by
      intro turns
      induction turns with
      | nil => exact fun _ reachable => reachable
      | cons thread rest ih =>
        intro pool reachable
        rcases step_advance sources pool thread with same | step
        · exact ih _ (same.symm ▸ reachable)
        · exact ih _ (reachable.step step)
    exact goesOn turns (start work) .start

theorem start_orderly (sources : Sources) (calm : Prop)
    (work : ThreadId → List Operation) :
    Orderly sources calm (start work) where
  faithful := Faithful.init sources calm
  onCourse _ := Extends.refl []
  answered _ _ _ member := (List.not_mem_nil member).elim

theorem Orderly.setWorker (orderly : Orderly sources calm pool)
    {thread : ThreadId} {worker : Worker}
    (onCourse : OnCourse sources calm thread (pool.history.past thread)
      worker.current?)
    (answered : ∀ operation outcome, (operation, outcome) ∈ worker.answers →
      operation.Ensures (pool.history.past thread) outcome) :
    Orderly sources calm (pool.setWorker thread worker) := by
  refine ⟨orderly.faithful, fun other => ?_, fun other => ?_⟩
  · by_cases same : other = thread
    · subst same
      rw [setWorker_self]
      exact onCourse
    · rw [setWorker_of_ne same]
      exact orderly.onCourse other
  · by_cases same : other = thread
    · subst same
      rw [setWorker_self]
      exact answered
    · rw [setWorker_of_ne same]
      exact orderly.answered other

/-- Every step of a thread leaves all threads on their course. -/
theorem Orderly.step (orderly : Orderly sources calm pool)
    (calmly : calm → sources.IsCalm) (step : Step sources pool later) :
    Orderly sources calm later := by
  cases step with
  | begin thread idle next =>
    have rested := orderly.onCourse thread
    rw [idle] at rested
    refine orderly.setWorker ⟨_, rested, ?_⟩ (orderly.answered thread)
    obtain ⟨_, _, _, none⟩ := rested
    exact Operation.keeps _ calmly fun _ => none
  | finish thread busy =>
    have course := orderly.onCourse thread
    rw [busy] at course
    obtain ⟨begun, rested, grows, ensures⟩ := course
    refine orderly.setWorker (rested.trans grows) fun other result member => ?_
    rcases List.mem_cons.1 member with here | earlier
    · cases here
      exact ensures
    · exact orderly.answered thread other result earlier
  | @act thread operation action next answer store busy performed =>
    have course := orderly.onCourse thread
    rw [busy] at course
    obtain ⟨begun, rested, allowed, goesOn⟩ := course
    have promised := goesOn answer
      (orderly.faithful.coherent.promised performed)
    -- The past of a thread grows by its own deeds alone.
    refine ⟨orderly.faithful.perform allowed performed, fun other => ?_,
      fun other operation outcome member => ?_⟩
    · by_cases same : other = thread
      · subst same
        rw [setWorker_self]
        refine ⟨begun, rested, ?_⟩
        change Procedure.Meets _ _ _
          (History.past ((other, ⟨action, answer⟩) :: pool.history) other)
        rw [History.past_cons_self]
        exact promised
      · rw [setWorker_of_ne same]
        change OnCourse sources calm other
          (History.past ((thread, ⟨action, answer⟩) :: pool.history) other) _
        rw [History.past_cons_of_ne (Ne.symm same)]
        exact orderly.onCourse other
    · change operation.Ensures
        (History.past ((thread, ⟨action, answer⟩) :: pool.history) other) _
      by_cases same : other = thread
      · subst same
        rw [setWorker_self] at member
        rw [History.past_cons_self]
        exact (orderly.answered other operation outcome member).append
          [⟨action, answer⟩]
      · rw [setWorker_of_ne same] at member
        rw [History.past_cons_of_ne (Ne.symm same)]
        exact orderly.answered other operation outcome member

theorem Reachable.orderlyWhere (calmly : calm → sources.IsCalm)
    (reachable : Reachable sources work pool) : Orderly sources calm pool := by
  induction reachable with
  | start => exact start_orderly sources calm work
  | step _ step ih => exact ih.step calmly step

theorem Reachable.orderly (calm : sources.IsCalm)
    (reachable : Reachable sources work pool) : Orderly sources True pool :=
  reachable.orderlyWhere fun _ => calm

theorem Orderly.unfinished_eq_nil_of_await
    (orderly : Orderly sources True pool)
    {thread : ThreadId} {operation : Operation} {descriptor : Descriptor}
    {next : Body → Procedure (Except Stop Descriptor)}
    (busy : (pool.workers thread).current? =
      some (operation, .act (.await descriptor) next)) :
    unfinished (pool.history.past thread) = [] := by
  have course := orderly.onCourse thread
  rw [busy] at course
  obtain ⟨_, _, ⟨_, idle⟩, _⟩ := course
  exact idle trivial

theorem Orderly.rested (orderly : Orderly sources calm pool)
    {thread : ThreadId} (finished : (pool.workers thread).IsFinished) :
    Extends [] (pool.history.past thread) := by
  have course := orderly.onCourse thread
  rw [finished.2] at course
  exact course

/-- A thread that is busy goes on, or waits for what another one assembles. -/
theorem Orderly.step_or_waits (orderly : Orderly sources calm pool)
    {thread : ThreadId}
    {task : Operation × Procedure (Except Stop Descriptor)}
    (busy : (pool.workers thread).current? = some task) :
    (∃ later, Step sources pool later) ∨
      ∃ operation descriptor next other,
        (pool.workers thread).current? =
            some (operation, .act (.await descriptor) next) ∧
          (descriptor.name, descriptor.identity) ∈
            unfinished (pool.history.past other) := by
  have course := orderly.onCourse thread
  obtain ⟨operation, procedure⟩ := task
  cases procedure with
  | done outcome => exact .inl ⟨_, .finish thread busy⟩
  | act action next =>
    rw [busy] at course
    obtain ⟨_, _, allowed, _⟩ := course
    cases performed : pool.store.perform thread action with
    | ok result => exact .inl ⟨_, .act thread busy performed⟩
    | error descriptor =>
      obtain ⟨rfl, other, _, member⟩ :=
        orderly.faithful.coherent.blocked allowed performed
      exact .inr ⟨operation, descriptor, next, other, busy, member⟩

/-- A thread that has an assembly to end can go on with it. -/
theorem Orderly.step_of_unfinished (orderly : Orderly sources True pool)
    {thread : ThreadId}
    (begun : unfinished (pool.history.past thread) ≠ []) :
    ∃ later, Step sources pool later := by
  cases current : (pool.workers thread).current? with
  | none =>
    have course := orderly.onCourse thread
    rw [current] at course
    obtain ⟨_, _, _, none⟩ := course
    exact (begun none).elim
  | some task =>
    rcases orderly.step_or_waits current with goesOn | ⟨_, _, _, _, awaits, _⟩
    · exact goesOn
    · exact (begun (orderly.unfinished_eq_nil_of_await awaits)).elim

/-- As long as some thread has work left, some thread can take a step. -/
theorem Orderly.progress (orderly : Orderly sources True pool)
    {thread : ThreadId} (unfinished : ¬ (pool.workers thread).IsFinished) :
    ∃ later, Step sources pool later := by
  cases current : (pool.workers thread).current? with
  | none =>
    cases waiting : (pool.workers thread).waiting with
    | nil => exact (unfinished ⟨waiting, current⟩).elim
    | cons operation rest => exact ⟨_, .begin thread current waiting⟩
  | some task =>
    -- Whoever is waited for has an assembly to end, and so does not wait.
    rcases orderly.step_or_waits current with goesOn | ⟨_, _, _, _, _, member⟩
    · exact goesOn
    · exact orderly.step_of_unfinished (List.ne_nil_of_mem member)

/-- What holds of the threads of a pool at any time.  Each name is made once, by
the thread that assembles and publishes it, and every lookup of it gives that
one descriptor, which is published where the lookup is not from an assembly. -/
structure SingleFlight (sources : Sources) (pool : Pool) : Prop where
  madeOnce : ∀ name, pool.history.count (·.makes name) ≤ 1
  publishedOnce : ∀ name, pool.history.count (·.publishes name) ≤ 1
  ownWork : ∀ thread deed name, (thread, deed) ∈ pool.history →
    deed.builds name = true ∨ deed.publishes name = true →
      ∃ identity, (thread, (⟨.enter name, .made identity⟩ : Deed)) ∈
        pool.history
  served : ∀ thread operation descriptor, operation.IsTopLevel →
    (operation, .ok descriptor) ∈ (pool.workers thread).answers →
      ∃ body, pool.store.body? descriptor = some body
  agreed : ∀ thread other name descriptor another,
    (.get name, .ok descriptor) ∈ (pool.workers thread).answers →
      (.get name, .ok another) ∈ (pool.workers other).answers →
        descriptor = another
  returned : ∀ thread kind name descriptor,
    (thread, (⟨.mark (.answered kind name (.ok descriptor)), ()⟩ : Deed)) ∈
      pool.history →
        ∃ entry, pool.store.entries.get? name = some entry ∧
          descriptor = .cached name entry.identity ∧
            (kind = .topLevel → entry.isPublished = true)
  waiting : ∀ thread, pool.Waits thread → ∀ name entry,
    pool.store.entries.get? name = some entry → entry.builder = thread →
      entry.isPublished = true
  progress : (∃ thread, ¬ (pool.workers thread).IsFinished) →
    ∃ later, Step sources pool later
  settled : (∀ thread, (pool.workers thread).IsFinished) →
    Settled pool.store pool.history

theorem Orderly.made_of_own (orderly : Orderly sources calm pool)
    {thread : ThreadId} {deed : Deed} {name : TypeName}
    (member : (thread, deed) ∈ pool.history)
    (own : deed.builds name = true ∨ deed.publishes name = true) :
    ∃ identity, (thread, (⟨.enter name, .made identity⟩ : Deed)) ∈
      pool.history := by
  obtain ⟨later, earlier, same, allowed⟩ :=
    (orderly.faithful.lawful thread).allowed (History.mem_past.2 member)
  have begun : ∃ identity outer,
      unfinished earlier = (name, identity) :: outer := by
    obtain ⟨action, answer⟩ := deed
    rcases own with builds | publishes
    · unfold Deed.builds at builds
      split at builds
      next heading =>
        cases heading
        rw [← beq_iff_eq.1 builds]
        exact allowed
      · cases builds
    · unfold Deed.publishes at publishes
      split at publishes
      next heading =>
        cases heading
        rw [← beq_iff_eq.1 publishes]
        exact ⟨_, allowed.1⟩
      · cases publishes
  obtain ⟨identity, outer, begun⟩ := begun
  refine ⟨identity, History.mem_past.1 ?_⟩
  rw [same]
  exact List.mem_append_right _ (List.mem_cons_of_mem _
    (made_of_mem_unfinished (begun ▸ List.mem_cons_self)))

theorem Orderly.agreed (orderly : Orderly sources calm pool)
    {thread other : ThreadId} {name : TypeName}
    {descriptor another : Descriptor}
    (first : (.get name, .ok descriptor) ∈ (pool.workers thread).answers)
    (second : (.get name, .ok another) ∈ (pool.workers other).answers) :
    descriptor = another := by
  have noted := History.mem_past.1
    ((orderly.answered thread _ _ first).noted name rfl)
  have notedToo := History.mem_past.1
    ((orderly.answered other _ _ second).noted name rfl)
  obtain ⟨entry, found, rfl, _⟩ := orderly.faithful.entry_of_answered noted
  obtain ⟨_, foundToo, rfl, _⟩ := orderly.faithful.entry_of_answered notedToo
  cases found.symm.trans foundToo
  rfl

theorem Orderly.published_of_waits (orderly : Orderly sources True pool)
    {thread : ThreadId} (waits : pool.Waits thread) {name : TypeName}
    {entry : Entry} (found : pool.store.entries.get? name = some entry)
    (own : entry.builder = thread) : entry.isPublished = true := by
  obtain ⟨operation, descriptor, next, busy, _⟩ := waits
  refine Option.isSome_iff_ne_none.2 fun blank => ?_
  have pending := (orderly.faithful.coherent.unfinished thread name
    entry.identity).2
      ⟨entry, Store.entryFor?_eq_some.2 ⟨found, rfl⟩, own, blank⟩
  rw [orderly.unfinished_eq_nil_of_await busy] at pending
  cases pending

/-- However threads interleave, the pool is orderly. -/
theorem singleFlight_of_reachable (calm : sources.IsCalm)
    (reachable : Reachable sources work pool) : SingleFlight sources pool where
  madeOnce name := by
    rw [(reachable.orderly calm).faithful.entries.made]
    exact Bool.toNat_le _
  publishedOnce name := by
    rw [(reachable.orderly calm).faithful.entries.published]
    exact Bool.toNat_le _
  ownWork _ _ _ member own := (reachable.orderly calm).made_of_own member own
  returned _ _ _ _ member :=
    (reachable.orderly calm).faithful.entry_of_answered member
  served thread _ _ topLevel member :=
    (reachable.orderly calm).faithful.coherent.secured
      (((reachable.orderly calm).answered thread _ _ member).secures topLevel)
  agreed _ _ _ _ _ first second :=
    (reachable.orderly calm).agreed first second
  waiting _ waits _ _ found own :=
    (reachable.orderly calm).published_of_waits waits found own
  progress := fun ⟨_, busy⟩ => (reachable.orderly calm).progress busy
  settled finished := (reachable.orderly calm).faithful.settled fun thread =>
    (reachable.orderly calm).rested (finished thread)

/-- Two threads that ask for an array which holds itself through another. -/
theorem singleFlight_of_circle :
    let sources := Sources.ofArrays [("A", "B"), ("B", "A")]
    let pool := runTurns sources (fun _ => [.get "A"])
      [0, 0, 1, 0, 0, 0, 1, 1]
    sources.IsCalm ∧ pool.Waits 1 ∧ SingleFlight sources pool := by
  intro sources pool
  have calm : sources.IsCalm := by
    intro steps member
    exact absurd member List.not_mem_nil
  have waits : pool.Waits 1 := ⟨_, _, _, rfl, rfl⟩
  exact ⟨calm, waits, singleFlight_of_reachable calm
    (reachable_iff_exists_turns.2 ⟨_, rfl⟩)⟩

end Pool

end TypeAtlas
