import Mathlib.Logic.Relation
import TypeAtlas.Proofs.Registry.Pool

/-!
# Threads that wait for each other

A thread that waits does so for an assembly that another thread has begun and
not ended.  Where scripts issue no top-level lookups it has no assembly of its
own to end, so nobody waits for it.  Scripts that do issue them can make two
threads wait for each other from inside their assemblies: a lookup is refused
only when its own thread assembles the name.  Threads on such a cycle never
take a step again.
-/

namespace TypeAtlas

open Past Lookup

/-- Sources that know plain types only, and the scripts that are followed. -/
def Sources.ofScripts (scripts : List (TypeName × List IntrospectionStep)) :
    Sources where
  provider := Provider.ofTable <| FactsTable.empty.insertAll <|
    scripts.map fun (name, _) => { name }
  scripts := NameMap.ofList scripts

namespace Pool

/-- The thread that has begun the assembly that a thread waits for, if any. -/
def awaitedThread? (pool : Pool) (thread : ThreadId) : Option ThreadId :=
  match (pool.workers thread).current? with
  | some (_, .act (.await (.cached name identity)) _) =>
    ((pool.store.entryFor? name identity).filter
      fun entry => !entry.isPublished).map Entry.builder
  | _ => none

/-- Whether a thread waits for a descriptor whose assembly another thread has
begun and not ended. -/
def WaitsFor (pool : Pool) (thread other : ThreadId) : Prop :=
  pool.awaitedThread? thread = some other

/-- Whether each of some threads waits for one of them. -/
def Deadlocked (pool : Pool) (threads : ThreadId → Prop) : Prop :=
  ∀ thread, threads thread → ∃ other, threads other ∧
    pool.WaitsFor thread other

variable {sources : Sources} {calm : Prop}
  {work : ThreadId → List Operation} {pool later : Pool}
  {thread other : ThreadId}

instance : Decidable (pool.WaitsFor thread other) :=
  inferInstanceAs (Decidable (_ = _))

theorem waitsFor_iff :
    pool.WaitsFor thread other ↔ ∃ operation name identity next entry,
      (pool.workers thread).current? =
          some (operation, .act (.await (.cached name identity)) next) ∧
        pool.store.entryFor? name identity = some entry ∧
          entry.body? = none ∧ entry.builder = other := by
  unfold WaitsFor awaitedThread?
  constructor
  · intro awaited
    split at awaited
    next operation name identity next busy =>
      obtain ⟨entry, kept, own⟩ := Option.map_eq_some_iff.1 awaited
      obtain ⟨found, unpublished⟩ := Option.filter_eq_some_iff.1 kept
      have blank : entry.body? = none := by
        simpa [Entry.isPublished] using unpublished
      exact ⟨operation, name, identity, next, entry, busy, found, blank, own⟩
    · cases awaited
  · rintro ⟨operation, name, identity, next, entry, busy, found, blank, own⟩
    subst own
    simp only [busy, found, Entry.isPublished]
    exact Option.map_eq_some_iff.2
      ⟨entry, Option.filter_eq_some_iff.2 ⟨rfl, by simp [blank]⟩, rfl⟩

theorem Orderly.begun_of_waitsFor (orderly : Orderly sources calm pool)
    (waits : pool.WaitsFor thread other) :
    unfinished (pool.history.past other) ≠ [] := by
  obtain ⟨_, name, identity, _, entry, _, found, blank, own⟩ :=
    waitsFor_iff.1 waits
  have begun : (name, identity) ∈ unfinished (pool.history.past other) :=
    (orderly.faithful.coherent.unfinished other name identity).2
      ⟨entry, found, own, blank⟩
  exact List.ne_nil_of_mem begun

theorem Orderly.ne_of_waitsFor (orderly : Orderly sources calm pool)
    (waits : pool.WaitsFor thread other) : other ≠ thread := by
  obtain ⟨operation, name, identity, next, entry, busy, found, blank, own⟩ :=
    waitsFor_iff.1 waits
  have course := orderly.onCourse thread
  rw [busy] at course
  obtain ⟨_, _, allowed, _⟩ := course
  have stuck : pool.store.perform thread (.await (.cached name identity)) =
      .error (.cached name identity) := by
    simp [Store.perform, Store.body?, found, blank]
  obtain ⟨_, builder, different, member⟩ :=
    orderly.faithful.coherent.blocked allowed stuck
  obtain ⟨another, foundToo, theirs, _⟩ :=
    (orderly.faithful.coherent.unfinished _ _ _).1 member
  have same : entry = another := Option.some.inj (found.symm.trans foundToo)
  subst same
  rw [← own, theirs]
  exact different

/-- A thread that waits is not waited for, where scripts are calm. -/
theorem Orderly.not_waitsFor_of_waitsFor (orderly : Orderly sources True pool)
    (waits : pool.WaitsFor thread other) (another : ThreadId) :
    ¬ pool.WaitsFor another thread := by
  intro awaited
  obtain ⟨_, _, _, _, _, busy, _⟩ := waitsFor_iff.1 waits
  have idle := orderly.unfinished_eq_nil_of_await busy
  exact orderly.begun_of_waitsFor awaited idle

/-- No thread ever waits for itself.  Where scripts issue no top-level lookups
no threads wait for each other in a cycle, and where they do, every thread on a
cycle is inside an assembly that it has to end. -/
theorem waitsFor_of_reachable (reachable : Reachable sources work pool) :
    (∀ thread, ¬ pool.WaitsFor thread thread) ∧
    (sources.IsCalm → ∀ thread,
      ¬ Relation.TransGen pool.WaitsFor thread thread) ∧
    ∀ thread, Relation.TransGen pool.WaitsFor thread thread →
      unfinished (pool.history.past thread) ≠ [] := by
  have orderly : Orderly sources False pool := reachable.orderlyWhere False.elim
  refine ⟨fun thread waits => orderly.ne_of_waitsFor waits rfl,
    fun calm thread cycle => ?_, fun thread cycle => ?_⟩
  · have calmly := reachable.orderly calm
    obtain ⟨next, waits, _⟩ := Relation.TransGen.head'_iff.1 cycle
    obtain ⟨last, _, awaited⟩ := Relation.TransGen.tail'_iff.1 cycle
    exact calmly.not_waitsFor_of_waitsFor waits last awaited
  · obtain ⟨last, _, awaited⟩ := Relation.TransGen.tail'_iff.1 cycle
    exact orderly.begun_of_waitsFor awaited

theorem WaitsFor.perform_eq_error (waits : pool.WaitsFor thread other)
    {operation : Operation} {action : Action}
    {next : action.Answer → Procedure (Except Stop Descriptor)}
    (busy : (pool.workers thread).current? =
      some (operation, .act action next)) :
    ∃ descriptor, pool.store.perform thread action = .error descriptor := by
  obtain ⟨_, name, identity, _, entry, waiting, found, blank, _⟩ :=
    waitsFor_iff.1 waits
  rw [waiting] at busy
  cases busy
  exact ⟨.cached name identity, by
    simp [Store.perform, Store.body?, found, blank]⟩

theorem WaitsFor.of_setWorker {worker : Worker} {busy : ThreadId}
    (waits : pool.WaitsFor thread other) (different : thread ≠ busy) :
    (pool.setWorker busy worker).WaitsFor thread other := by
  unfold WaitsFor awaitedThread?
  rw [setWorker_of_ne different]
  exact waits

theorem Orderly.waitsFor_record (orderly : Orderly sources calm pool)
    {busy : ThreadId} {operation : Operation} {action : Action}
    {next : action.Answer → Procedure (Except Stop Descriptor)}
    {answer : action.Answer} {store : Store}
    (current : (pool.workers busy).current? =
      some (operation, .act action next))
    (performed : pool.store.perform busy action = .ok (answer, store))
    (waits : pool.WaitsFor thread other) (different : other ≠ busy) :
    (pool.record busy ⟨action, answer⟩ store).WaitsFor thread other := by
  obtain ⟨waited, name, identity, rest, entry, waiting, found, blank, own⟩ :=
    waitsFor_iff.1 waits
  refine waitsFor_iff.2
    ⟨waited, name, identity, rest, entry, waiting, ?_, blank, own⟩
  have course := orderly.onCourse busy
  rw [current] at course
  obtain ⟨_, _, allowed, _⟩ := course
  obtain ⟨present, numbered⟩ := Store.entryFor?_eq_some.1 found
  refine Store.entryFor?_eq_some.2 ⟨?_, numbered⟩
  -- Only the entry that the acting thread makes or publishes is changed.
  cases orderly.faithful.coherent.changes allowed performed with
  | quiet same => exact (congrArg (·.get? name) same).trans present
  | @make made new absent _ _ same =>
    have elsewhere : name ≠ made := by
      rintro rfl
      rw [absent] at present
      cases present
    change store.entries.get? name = some entry
    rw [same, NameMap.get?_insert, if_neg elsewhere]
    exact present
  | @publish published number outer old _ begun known _ same =>
    have elsewhere : name ≠ published := by
      rintro rfl
      obtain ⟨held, heldFound, mine, _⟩ :=
        (orderly.faithful.coherent.unfinished busy name number).1
          (begun ▸ List.mem_cons_self)
      have heldPresent := (Store.entryFor?_eq_some.1 heldFound).1
      rw [present] at heldPresent
      cases heldPresent
      exact different (own.symm.trans mine)
    change store.entries.get? name = some entry
    rw [same, NameMap.get?_insert, if_neg elsewhere]
    exact present

theorem Orderly.deadlocked_step (orderly : Orderly sources calm pool)
    {threads : ThreadId → Prop} (deadlocked : pool.Deadlocked threads)
    (step : Step sources pool later) : later.Deadlocked threads := by
  intro thread member
  obtain ⟨other, memberToo, waits⟩ := deadlocked thread member
  refine ⟨other, memberToo, ?_⟩
  obtain ⟨_, _, _, _, _, current, _⟩ := waitsFor_iff.1 waits
  -- A thread that waits is busy and stuck, so it is never the one that acts.
  cases step with
  | begin acting idle _ =>
    have different : thread ≠ acting := by
      rintro rfl
      rw [current] at idle
      cases idle
    exact waits.of_setWorker different
  | finish acting ended =>
    have different : thread ≠ acting := by
      rintro rfl
      rw [current] at ended
      cases ended
    exact waits.of_setWorker different
  | act acting going performed =>
    have unstuck : ¬ threads acting := by
      intro stuck
      obtain ⟨_, _, awaits⟩ := deadlocked acting stuck
      obtain ⟨descriptor, error⟩ := awaits.perform_eq_error going
      rw [error] at performed
      cases performed
    have different : thread ≠ acting := fun same => unstuck (same ▸ member)
    have differentToo : other ≠ acting := fun same =>
      unstuck (same ▸ memberToo)
    have recorded :=
      orderly.waitsFor_record going performed waits differentToo
    exact recorded.of_setWorker different

/-- Threads that are deadlocked have done all that they will ever do. -/
theorem deadlocked_of_steps (reachable : Reachable sources work pool)
    {threads : ThreadId → Prop} (deadlocked : pool.Deadlocked threads)
    (steps : Relation.ReflTransGen (Step sources) pool later) :
    Reachable sources work later ∧ later.Deadlocked threads := by
  induction steps with
  | refl => exact ⟨reachable, deadlocked⟩
  | tail _ step ih =>
    obtain ⟨reached, stuck⟩ := ih
    have orderly : Orderly sources False _ := reached.orderlyWhere False.elim
    exact ⟨reached.step step, orderly.deadlocked_step stuck step⟩

theorem WaitsFor.not_isFinished (waits : pool.WaitsFor thread other) :
    ¬ (pool.workers thread).IsFinished := by
  rintro ⟨_, idle⟩
  obtain ⟨_, _, _, _, _, busy, _⟩ := waitsFor_iff.1 waits
  rw [idle] at busy
  cases busy

/-- Two types whose scripts look each other up. -/
def crossing : Sources :=
  .ofScripts [("A", [.get "B"]), ("B", [.get "A"])]

def crossers (thread : ThreadId) : List Operation :=
  if thread = 0 then [.get "A"] else [.get "B"]

/-- Each thread has begun its own type, and then the other's is looked up. -/
def crossed : Pool :=
  runTurns crossing crossers [0, 0, 0, 0, 0, 1, 1, 1, 1, 1, 0, 0, 1, 1]

theorem crossed_waitsFor : crossed.WaitsFor 0 1 ∧ crossed.WaitsFor 1 0 := by
  unfold WaitsFor
  decide +kernel

theorem crossed_not_waitsFor_self :
    Reachable crossing crossers crossed ∧
      ¬ crossed.WaitsFor 0 0 ∧ ¬ crossed.WaitsFor 1 1 := by
  have reachable : Reachable crossing crossers crossed :=
    reachable_iff_exists_turns.2 ⟨_, rfl⟩
  have alone := (waitsFor_of_reachable reachable).1
  exact ⟨reachable, alone 0, alone 1⟩

/-- Two types whose scripts look each other up, asked for by a thread each: the
threads may come to wait for each other, and then never finish. -/
theorem deadlocked_of_crossing :
    Reachable crossing crossers crossed ∧
      Relation.TransGen crossed.WaitsFor 0 0 ∧
        ∀ later, Relation.ReflTransGen (Step crossing) crossed later →
          ¬ (later.workers 0).IsFinished ∧ ¬ (later.workers 1).IsFinished := by
  have reachable : Reachable crossing crossers crossed :=
    reachable_iff_exists_turns.2 ⟨_, rfl⟩
  obtain ⟨first, second⟩ := crossed_waitsFor
  have deadlocked :
      crossed.Deadlocked fun thread => thread = 0 ∨ thread = 1 := by
    rintro thread (rfl | rfl)
    · exact ⟨1, .inr rfl, first⟩
    · exact ⟨0, .inl rfl, second⟩
  refine ⟨reachable, .tail (.single first) second, fun later steps => ?_⟩
  have stuck := (deadlocked_of_steps reachable deadlocked steps).2
  obtain ⟨_, _, waits⟩ := stuck 0 (.inl rfl)
  obtain ⟨_, _, waitsToo⟩ := stuck 1 (.inr rfl)
  exact ⟨waits.not_isFinished, waitsToo.not_isFinished⟩

end Pool

end TypeAtlas
