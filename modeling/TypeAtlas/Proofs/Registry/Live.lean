import Mathlib.Logic.Relation
import TypeAtlas.Proofs.Registry.Covering

/-!
# Live registries

Threads may be asked for more at any time, references may be followed once they
stand in a body that was published or given, and child transforms may be asked
for in between.  Through all of this the store has a ledger.  So once a name is
cached, every lookup of it gives the one descriptor that it is cached as, and
what was published for it stays as it is.
-/

namespace TypeAtlas

open Past Lookup

namespace Pool

def registry (sources : Sources) (pool : Pool) : Registry :=
  { sources, store := pool.store }

/-- Whether a reference stands in a body that was published or given. -/
def Holds (pool : Pool) (reference : TypeRef) : Prop :=
  (∃ name body, pool.store.published? name = some body ∧
    reference ∈ body.references) ∨
  ∃ thread operation number expression body,
    (operation, .ok (.detached number expression body)) ∈
        (pool.workers thread).answers ∧
      reference ∈ body.references

def ask (pool : Pool) (thread : ThreadId) (operation : Operation) : Pool :=
  pool.setWorker thread
    { pool.workers thread with
      waiting := (pool.workers thread).waiting ++ [operation] }

def query (sources : Sources) (pool : Pool) (descriptor : Descriptor)
    (side : ChildTransforms.Side) (name : TypeName) : Pool :=
  { pool with
    store :=
      ((pool.registry sources).childTransform descriptor side name).2.store }

/-- What may happen next to a live registry. -/
inductive Moves (sources : Sources) (pool : Pool) : Pool → Prop where
  | ask (thread : ThreadId) (operation : Operation)
    (held : ∀ reference, operation = .follow reference →
      pool.Holds reference) :
    Moves sources pool (pool.ask thread operation)
  | step {later : Pool} (step : Step sources pool later) :
    Moves sources pool later
  | query (descriptor : Descriptor) (side : ChildTransforms.Side)
    (name : TypeName) :
    Moves sources pool (pool.query sources descriptor side name)

/-- Whether one pool comes of another one in some number of moves. -/
abbrev Leads (sources : Sources) : Pool → Pool → Prop :=
  Relation.ReflTransGen (Moves sources)

/-- Whether a pool comes of a registry in which nothing was looked up. -/
abbrev Lives (sources : Sources) : Pool → Prop :=
  Leads sources (start fun _ => [])

/-- Whether a ledger accounts for all that the threads of a pool do. -/
structure Accounted (pool : Pool) (ledger : Ledger) : Prop where
  same : ledger.store = pool.store
  asked : ∀ thread reference,
    .follow reference ∈ (pool.workers thread).waiting → ledger.Backs reference
  busy : ∀ thread operation procedure,
    (pool.workers thread).current? = some (operation, procedure) →
      procedure.Upholds thread True operation.Fulfils ledger
  answered : ∀ thread operation outcome,
    (operation, outcome) ∈ (pool.workers thread).answers →
      operation.Fulfils ledger outcome

variable {sources : Sources} {calm : Prop} {pool later : Pool}
  {ledger : Ledger} {thread : ThreadId}

theorem Accounted.backs (accounted : pool.Accounted ledger)
    {reference : TypeRef} (holds : pool.Holds reference) :
    ledger.Backs reference := by
  rcases holds with ⟨name, body, published, member⟩ |
    ⟨thread, operation, number, expression, body, given, member⟩
  · rw [← accounted.same] at published
    exact ledger.covered name body published reference member
  · have fulfils := accounted.answered thread operation _ given
    exact fulfils.covers number expression body rfl reference member

theorem Accounted.setWorker (accounted : pool.Accounted ledger)
    {worker : Worker}
    (asked : ∀ reference, .follow reference ∈ worker.waiting →
      ledger.Backs reference)
    (busy : ∀ operation procedure,
      worker.current? = some (operation, procedure) →
        procedure.Upholds thread True operation.Fulfils ledger)
    (answered : ∀ operation outcome, (operation, outcome) ∈ worker.answers →
      operation.Fulfils ledger outcome) :
    (pool.setWorker thread worker).Accounted ledger := by
  refine ⟨accounted.same, fun other => ?_, fun other => ?_, fun other => ?_⟩
  all_goals
    by_cases same : other = thread
    · subst same
      rw [setWorker_self]
      assumption
    · rw [setWorker_of_ne same]
      first
        | exact accounted.asked other
        | exact accounted.busy other
        | exact accounted.answered other

theorem Accounted.grow (accounted : pool.Accounted ledger) {store : Store}
    {history : History} {end_ : Ledger} (grows : ledger.Within end_)
    (same : end_.store = store) :
    ({ pool with store, history } : Pool).Accounted end_ where
  same := same
  asked thread reference member :=
    (accounted.asked thread reference member).mono grows
  busy thread operation procedure current :=
    (accounted.busy thread operation procedure current).later
      operation.persists_fulfils grows
  answered thread operation outcome member :=
    operation.persists_fulfils _ _ _ grows
      (accounted.answered thread operation outcome member)

theorem Accounted.step (accounted : pool.Accounted ledger)
    (step : Step sources pool later) :
    ∃ end_ : Ledger, ledger.Within end_ ∧ later.Accounted end_ := by
  cases step with
  | @begin thread operation rest idle next =>
    refine ⟨ledger, Records.Within.refl _, accounted.setWorker ?_ ?_
      (accounted.answered thread)⟩
    · intro reference member
      exact accounted.asked thread reference
        (next ▸ List.mem_cons_of_mem _ member)
    · intro asked procedure current
      cases current
      refine Operation.request_upholds { sources, thread } operation ?_
      rintro reference rfl
      exact accounted.asked thread reference (next ▸ List.mem_cons_self)
  | @finish thread operation outcome ended =>
    refine ⟨ledger, Records.Within.refl _, accounted.setWorker
      (accounted.asked thread) nofun ?_⟩
    intro other result member
    rcases List.mem_cons.1 member with here | earlier
    · cases here
      exact accounted.busy thread operation _ ended
    · exact accounted.answered thread other result earlier
  | @act thread operation action next answer store going performed =>
    -- The others are accounted for by growth alone, whatever was done.
    have upholds := accounted.busy thread operation _ going
    rw [← accounted.same] at performed
    obtain ⟨_, does⟩ := upholds ledger (Records.Within.refl _)
    obtain ⟨end_, grows, same, upheld⟩ := does answer store performed
    have recorded : (pool.record thread ⟨action, answer⟩ store).Accounted
        end_ := accounted.grow grows same
    refine ⟨end_, grows, recorded.setWorker (recorded.asked thread) ?_
      (recorded.answered thread)⟩
    intro asked procedure current
    cases current
    exact upheld

end Pool

namespace Registry

/-- A query for a child transform leaves all but the memos as they are. -/
theorem childTransform_store (registry : Registry) (descriptor : Descriptor)
    (side : ChildTransforms.Side) (name : TypeName) :
    ∃ memos, (registry.childTransform descriptor side name).2.store =
      { registry.store with memos } := by
  unfold childTransform
  dsimp only
  split
  · exact ⟨registry.store.memos, rfl⟩
  · exact ⟨_, rfl⟩

end Registry

namespace Pool

variable {sources : Sources} {calm : Prop} {pool later : Pool}
  {ledger : Ledger} {thread : ThreadId}

theorem Accounted.moves (accounted : pool.Accounted ledger)
    (moves : Moves sources pool later) :
    ∃ end_ : Ledger, ledger.Within end_ ∧ later.Accounted end_ := by
  cases moves with
  | step step => exact accounted.step step
  | ask thread operation held =>
    refine ⟨ledger, Records.Within.refl _, accounted.setWorker ?_
      (accounted.busy thread) (accounted.answered thread)⟩
    intro reference member
    rcases List.mem_append.1 member with before | now
    · exact accounted.asked thread reference before
    · exact accounted.backs (held reference (List.mem_singleton.1 now).symm)
  | query descriptor side name =>
    obtain ⟨memos, same⟩ := (pool.registry sources).childTransform_store
      descriptor side name
    have stays : ∃ end_ : Ledger, ledger.Within end_ ∧
        end_.store = { ledger.store with memos } :=
      ledger.exists_of_same rfl rfl (Nat.le_refl _)
    obtain ⟨end_, grows, stocked⟩ := stays
    refine ⟨end_, grows, accounted.grow grows ?_⟩
    rw [stocked, same, accounted.same]
    rfl

theorem Accounted.leads (accounted : pool.Accounted ledger)
    (leads : Leads sources pool later) :
    ∃ end_ : Ledger, ledger.Within end_ ∧ later.Accounted end_ := by
  induction leads with
  | refl => exact ⟨ledger, Records.Within.refl _, accounted⟩
  | tail _ moves ih =>
    obtain ⟨middle, grows, accounted⟩ := ih
    obtain ⟨end_, further, accounted⟩ := accounted.moves moves
    exact ⟨end_, grows.trans further, accounted⟩

theorem Lives.accounted (lives : Lives sources pool) :
    ∃ ledger : Ledger, pool.Accounted ledger := by
  have blank : (start fun _ => []).Accounted Ledger.blank := by
    refine ⟨rfl, ?_, ?_, ?_⟩
    · exact fun _ _ none => nomatch none
    · exact fun _ _ _ none => nomatch none
    · exact fun _ _ _ none => nomatch none
  obtain ⟨ledger, _, accounted⟩ := blank.leads lives
  exact ⟨ledger, accounted⟩

theorem Orderly.moves (orderly : Orderly sources False pool)
    (moves : Moves sources pool later) : Orderly sources False later := by
  cases moves with
  | step step => exact orderly.step False.elim step
  | ask thread operation _ =>
    exact orderly.setWorker (orderly.onCourse thread) (orderly.answered thread)
  | query descriptor side name =>
    obtain ⟨memos, same⟩ := (pool.registry sources).childTransform_store
      descriptor side name
    refine ⟨?_, orderly.onCourse, orderly.answered⟩
    unfold query
    rw [same]
    exact orderly.faithful.withMemos memos

theorem Lives.orderly (lives : Lives sources pool) :
    Orderly sources False pool := by
  induction lives with
  | refl => exact start_orderly sources False _
  | tail _ moves ih => exact ih.moves moves

theorem Moves.within (moves : Moves sources pool later) :
    pool.store.Within later.store := by
  cases moves with
  | ask thread operation _ => exact Store.Within.refl _
  | query descriptor side name =>
    obtain ⟨memos, same⟩ := (pool.registry sources).childTransform_store
      descriptor side name
    refine .of_entries_eq ?_
    unfold Pool.query
    rw [same]
    rfl
  | step step =>
    cases step with
    | begin thread idle next => exact Store.Within.refl _
    | finish thread ended => exact Store.Within.refl _
    | act thread going performed => exact Store.perform_within performed

theorem Leads.within (leads : Leads sources pool later) :
    pool.store.Within later.store := by
  induction leads with
  | refl => exact Store.Within.refl _
  | tail _ moves ih => exact ih.trans moves.within

/-- Whether a name stands for the descriptor of an entry and for nothing else.
It is cached as this, whatever asks for the name is given this, from inside of
assemblies as well, and a body that the entry has is the body of this. -/
structure Pinned (pool : Pool) (name : TypeName) (entry : Entry) : Prop where
  cached : ∃ later, pool.store.entries.get? name = some later ∧
    later.identity = entry.identity
  answered : ∀ thread operation descriptor,
    operation.expression? = some (.named name) →
      (operation, .ok descriptor) ∈ (pool.workers thread).answers →
        descriptor = .cached name entry.identity
  noted : ∀ thread kind descriptor,
    (thread, (⟨.mark (.answered kind name (.ok descriptor)), ()⟩ : Deed)) ∈
        pool.history →
      descriptor = .cached name entry.identity
  intact : ∀ body, entry.body? = some body →
    pool.store.body? (.cached name entry.identity) = some body

/-- Once a name is cached, it stands for the one descriptor in all that comes,
and once a body is published for it, that body never changes. -/
theorem pinned_of_leads (lives : Lives sources pool)
    (leads : Leads sources pool later) {name : TypeName} {entry : Entry}
    (found : pool.store.entries.get? name = some entry) :
    later.Pinned name entry := by
  have livesLater : Lives sources later := lives.trans leads
  obtain ⟨ledger, accounted⟩ := livesLater.accounted
  obtain ⟨entryLater, foundLater, within⟩ := leads.within name entry found
  have only {descriptor : Descriptor} {another : Entry}
      (present : later.store.entries.get? name = some another)
      (same : descriptor = .cached name another.identity) :
      descriptor = .cached name entry.identity := by
    cases foundLater.symm.trans present
    rw [same, within.identity]
  refine ⟨⟨entryLater, foundLater, within.identity⟩, ?_, ?_, ?_⟩
  · intro thread operation descriptor asked answered
    have fulfils := accounted.answered thread operation _ answered
    have resolves := fulfils.settles _ asked
    cases resolves with
    | plain _ names =>
      obtain ⟨another, present, same⟩ := names
      rw [accounted.same] at present
      exact only present same
    | dropped parameterized => cases parameterized
    | specialized parameterized => cases parameterized
  · intro thread kind descriptor member
    obtain ⟨another, present, same, _⟩ :=
      livesLater.orderly.faithful.entry_of_answered member
    exact only present same
  · intro body published
    refine Option.bind_eq_some_iff.2
      ⟨entryLater, ?_, within.body body published⟩
    exact Store.entryFor?_eq_some.2 ⟨foundLater, within.identity⟩

theorem leads_advance (sources : Sources) (pool : Pool)
    (turns : List ThreadId) :
    Leads sources pool (turns.foldl (advance sources) pool) := by
  induction turns generalizing pool with
  | nil => exact .refl
  | cons thread rest ih =>
    have further := ih (pool.advance sources thread)
    rcases step_advance sources pool thread with same | step
    · rw [same] at further
      rwa [List.foldl_cons, same]
    · exact .head (.step step) further

/-- Two arrays that hold each other. -/
def circle : Sources :=
  .ofArrays [("A", "B"), ("B", "A")]

def circled : Pool :=
  (List.replicate 20 0).foldl (advance circle)
    ((start fun _ => []).ask 0 (.get "A"))

def circledTwice : Pool :=
  (List.replicate 7 1).foldl (advance circle) (circled.ask 1 (.lookup "A"))

theorem circled_lives : Lives circle circled := by
  refine .head (.ask 0 (.get "A") nofun) ?_
  exact leads_advance circle _ (List.replicate 20 0)

theorem pinned_of_circled :
    Lives circle circled ∧ Leads circle circled circledTwice ∧
      (circledTwice.workers 1).answers.length = 1 ∧
        ∃ entry, circled.store.entries.get? "A" = some entry ∧
          entry.isPublished = true ∧ circledTwice.Pinned "A" entry := by
  have leads : Leads circle circled circledTwice := by
    refine .head (.ask 1 (.lookup "A") nofun) ?_
    exact leads_advance circle _ (List.replicate 7 1)
  have isPublished : (circled.store.entries.get? "A").any
      Entry.isPublished = true := by
    decide +kernel
  have answered : (circledTwice.workers 1).answers.length = 1 := by
    decide +kernel
  obtain ⟨entry, found, published⟩ := (Option.any_eq_true _ _).1 isPublished
  exact ⟨circled_lives, leads, answered, entry, found, published,
    pinned_of_leads circled_lives leads found⟩

end Pool

end TypeAtlas
