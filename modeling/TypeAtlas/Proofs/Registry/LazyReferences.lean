import TypeAtlas.Proofs.Registry.Live
import TypeAtlas.Proofs.Registry.Navigation

/-!
# References agree with lookups

All names in a reference are cached by the time that the reference can be seen.
A reference to a plain type leads at once to what is cached for it.  While no
assembly is going on, a reference to a specialization comes to the same as its
expression when that is looked up, and leads to the same descriptor for good.
So going from a descriptor through its references, argument by argument, comes
to the same as looking up the argument that is reached.
-/

namespace TypeAtlas

open Past Lookup

namespace Pool

variable {sources : Sources} {pool : Pool} {ledger : Ledger}

def IsQuiet (pool : Pool) : Prop :=
  ∀ name entry, pool.store.entries.get? name = some entry →
    entry.isPublished = true

theorem Accounted.isQuiet (accounted : pool.Accounted ledger)
    (quiet : pool.IsQuiet) : ledger.IsQuiet := by
  rintro name ⟨entry, found⟩
  rw [accounted.same] at found
  obtain ⟨body, given⟩ :=
    Option.isSome_iff_exists.1 (quiet name entry found)
  refine ⟨body, Store.published?_eq_some.2 ⟨entry, ?_, given⟩⟩
  rw [accounted.same]
  exact found

/-- What following references comes to in a live registry.  To a plain type it
leads at once, to a specialization for good, and along the arguments of an
expression to what resolving comes to, where no assembly is going on. -/
structure Navigable (sources : Sources) (pool : Pool) : Prop where
  cached : ∀ reference, pool.Holds reference →
    ∀ name ∈ reference.expr.names,
      name ∈ (pool.registry sources).cachedNames
  plain : ∀ thread reference, pool.Holds reference →
    reference.expr.isParameterized = false →
      ∃ entry,
        pool.store.entries.get? reference.expr.name = some entry ∧
          (pool.registry sources).run (Registry.follow reference) thread =
              (.ok (.cached reference.expr.name entry.identity),
                pool.registry sources) ∧
            ∀ asker outcome,
              (.follow reference, outcome) ∈ (pool.workers asker).answers →
                outcome = .ok (.cached reference.expr.name entry.identity)
  shared : ∀ thread other reference descriptor another,
    (.follow reference, .ok descriptor) ∈ (pool.workers thread).answers →
      (.follow reference, .ok another) ∈ (pool.workers other).answers →
        descriptor = another
  direct : pool.IsQuiet → ∀ thread other reference, pool.Holds reference →
    Agree ((pool.registry sources).run (Registry.follow reference) thread).1
      ((pool.registry sources).run (Registry.resolve reference.expr) other).1
  repeated : pool.IsQuiet → ∀ thread other reference descriptor later,
    pool.Holds reference →
      (pool.registry sources).run (Registry.follow reference) thread =
          (.ok descriptor, later) →
        later.run (Registry.follow reference) other = (.ok descriptor, later)
  along : pool.IsQuiet → ∀ thread other worker operation expression descriptor
      hops part,
    operation.expression? = some expression →
      (operation, .ok descriptor) ∈ (pool.workers worker).answers →
        pool.store.subexpression? expression hops = some part →
          ∃ outcome,
            (Registry.navigate thread (pool.registry sources) descriptor
                hops).1 = outcome.map some ∧
              Agree outcome ((pool.registry sources).run
                (Registry.resolve part) other).1

namespace Accounted

variable {reference : TypeRef} {thread other : ThreadId}

theorem registry_eq (accounted : pool.Accounted ledger) (sources : Sources) :
    pool.registry sources = ledger.registry sources := by
  simp only [registry, Ledger.registry, accounted.same]

theorem exists_entry (accounted : pool.Accounted ledger)
    (holds : pool.Holds reference) {name : TypeName}
    (member : name ∈ reference.expr.names) :
    ∃ entry, pool.store.entries.get? name = some entry := by
  rw [← accounted.same]
  exact (accounted.backs holds).caches name member

theorem leads_of_answered (accounted : pool.Accounted ledger)
    {outcome : Except Stop Descriptor}
    (answered : (.follow reference, outcome) ∈
      (pool.workers thread).answers) :
    Lookup.Leads (reference.expr.isParameterized = true) reference ledger
      outcome :=
  (accounted.answered thread _ _ answered).leads reference rfl

theorem plainly_answered (accounted : pool.Accounted ledger)
    (plain : reference.expr.isParameterized = false) {entry : Entry}
    (found : pool.store.entries.get? reference.expr.name = some entry)
    {outcome : Except Stop Descriptor}
    (answered : (.follow reference, outcome) ∈
      (pool.workers thread).answers) :
    outcome = .ok (.cached reference.expr.name entry.identity) := by
  have leads := accounted.leads_of_answered answered
  have surely : ¬reference.expr.isParameterized = true := by
    simp [plain]
  obtain ⟨descriptor, rfl, names⟩ :=
    named_of_settles leads.settles surely (.inl plain)
  rw [← accounted.same] at found
  cases names.unique ⟨entry, found, rfl⟩
  rfl

/-- Whoever follows a reference, it leads to one descriptor. -/
theorem shared (accounted : pool.Accounted ledger)
    {descriptor another : Descriptor}
    (here : (.follow reference, .ok descriptor) ∈
      (pool.workers thread).answers)
    (there : (.follow reference, .ok another) ∈
      (pool.workers other).answers) :
    descriptor = another := by
  have leads := accounted.leads_of_answered here
  have leadsToo := accounted.leads_of_answered there
  cases parameterized : reference.expr.isParameterized with
  | true =>
    have kept := leads.kept descriptor rfl parameterized
    have keptToo := leadsToo.kept another rfl parameterized
    exact Option.some.inj (kept.symm.trans keptToo)
  | false =>
    have surely : ¬reference.expr.isParameterized = true := by
      simp [parameterized]
    obtain ⟨_, same, names⟩ :=
      named_of_settles leads.settles surely (.inl parameterized)
    obtain ⟨_, sameToo, namesToo⟩ :=
      named_of_settles leadsToo.settles surely (.inl parameterized)
    cases same
    cases sameToo
    exact names.unique namesToo

theorem follow_agrees (accounted : pool.Accounted ledger)
    (quiet : pool.IsQuiet) (holds : pool.Holds reference) :
    Agree ((pool.registry sources).run (Registry.follow reference) thread).1
      ((pool.registry sources).run
        (Registry.resolve reference.expr) other).1 := by
  have backs := accounted.backs holds
  have published := (accounted.isQuiet quiet).published_of_backs backs
  obtain ⟨first, later, led, grows, leads⟩ :=
    Ledger.follow_run backs published sources thread
  have grounds := Ledger.grounds_of_names published
  obtain ⟨second, latest, resolved, growsToo, settles⟩ :=
    grounds.resolve_run sources other
  obtain ⟨body, head⟩ := grounds.head
  rw [accounted.registry_eq, led, resolved]
  exact agree_of_settles head grows growsToo leads.settles settles

theorem follow_repeats (accounted : pool.Accounted ledger)
    (quiet : pool.IsQuiet) (holds : pool.Holds reference)
    {descriptor : Descriptor} {later : Registry}
    (ran : (pool.registry sources).run (Registry.follow reference) thread =
      (.ok descriptor, later)) :
    later.run (Registry.follow reference) other = (.ok descriptor, later) := by
  have backs := accounted.backs holds
  have published := (accounted.isQuiet quiet).published_of_backs backs
  obtain ⟨outcome, end_, led, _, leads⟩ :=
    Ledger.follow_run backs published sources thread
  rw [accounted.registry_eq, led] at ran
  cases ran
  cases parameterized : reference.expr.isParameterized with
  | true =>
    exact Ledger.follow_run_of_kept parameterized
      (leads.kept descriptor rfl parameterized) other
  | false =>
    obtain ⟨_, same, entry, found, rfl⟩ :=
      named_of_settles leads.settles id (.inl parameterized)
    cases same
    exact Ledger.follow_run_of_plain parameterized found other

theorem navigate_agrees (accounted : pool.Accounted ledger)
    (quiet : pool.IsQuiet) {worker : ThreadId} {operation : Operation}
    {expression part : TypeExpr} {descriptor : Descriptor}
    {hops : List Registry.Hop}
    (asked : operation.expression? = some expression)
    (answered : (operation, .ok descriptor) ∈ (pool.workers worker).answers)
    (found : pool.store.subexpression? expression hops = some part) :
    ∃ outcome,
      (Registry.navigate thread (pool.registry sources) descriptor hops).1 =
          outcome.map some ∧
        Agree outcome
          ((pool.registry sources).run (Registry.resolve part) other).1 := by
  have fulfils := accounted.answered worker _ _ answered
  have resolves : ledger.Resolves expression descriptor :=
    fulfils.settles expression asked
  have grounds := (accounted.isQuiet quiet).grounds_of_resolves resolves
  rw [← accounted.same] at found
  obtain ⟨outcome, later, led, grows, settles⟩ :=
    grounds.navigate_settles (Records.Within.refl _) resolves found
  have groundsPart := grounds.subexpression found
  obtain ⟨direct, latest, resolved, growsToo, settlesToo⟩ :=
    groundsPart.resolve_run sources other
  obtain ⟨body, head⟩ := groundsPart.head
  refine ⟨outcome, ?_, ?_⟩
  · rw [accounted.registry_eq, led]
  · rw [accounted.registry_eq, resolved]
    exact agree_of_settles head grows growsToo settles settlesToo

end Accounted

/-- In a live registry, following references agrees with looking up. -/
theorem navigable_of_lives (lives : Lives sources pool) :
    Navigable sources pool := by
  obtain ⟨ledger, accounted⟩ := lives.accounted
  constructor
  case cached =>
    intro reference holds name member
    obtain ⟨entry, found⟩ := accounted.exists_entry holds member
    exact NameMap.mem_names_of_get? found
  case plain =>
    intro thread reference holds plain
    obtain ⟨entry, found⟩ :=
      accounted.exists_entry holds reference.expr.name_mem_names
    refine ⟨entry, found, ?_, fun asker outcome answered => ?_⟩
    · rw [accounted.registry_eq]
      rw [← accounted.same] at found
      exact Ledger.follow_run_of_plain plain found thread
    · exact accounted.plainly_answered plain found answered
  case shared =>
    intro thread other reference descriptor another here there
    exact accounted.shared here there
  case direct =>
    intro quiet thread other reference holds
    exact accounted.follow_agrees quiet holds
  case repeated =>
    intro quiet thread other reference descriptor later holds ran
    exact accounted.follow_repeats quiet holds ran
  case along =>
    intro quiet thread other worker operation expression descriptor hops part
      asked answered found
    exact accounted.navigate_agrees quiet asked answered found

def wasGiven (pool : Pool) (thread : ThreadId) (reference : TypeRef) : Bool :=
  (pool.workers thread).answers.any fun
    | (_, .ok (.detached _ _ body)) => body.references.contains reference
    | _ => false

theorem holds_of_wasGiven {thread : ThreadId} {reference : TypeRef}
    (given : pool.wasGiven thread reference = true) : pool.Holds reference := by
  obtain ⟨⟨operation, outcome⟩, answered, held⟩ := List.any_eq_true.1 given
  split at held
  next number expression body same =>
    cases same
    exact .inr ⟨thread, operation, number, expression, body, answered,
      List.contains_iff_mem.1 held⟩
  · cases held

def nestedArrays : TypeExpr :=
  ⟨"A", [⟨"B", [.named "A"]⟩]⟩

def innerArrays : TypeRef :=
  ⟨⟨"B", [.named "A"]⟩, 4⟩

def nested : Pool :=
  (List.replicate 29 0).foldl (advance circle)
    ((start fun _ => []).ask 0 (.resolve nestedArrays))

/-- Another thread has followed the reference that the array holds. -/
def nestedFollowed : Pool :=
  (List.replicate 15 1).foldl (advance circle)
    (nested.ask 1 (.follow innerArrays))

theorem nestedFollowed_lives : Lives circle nestedFollowed := by
  have resolved : Lives circle nested :=
    .head (.ask 0 (.resolve nestedArrays) nofun)
      (leads_advance circle _ (List.replicate 29 0))
  have given : nested.wasGiven 0 innerArrays = true := by
    decide +kernel
  refine resolved.trans (.head (.ask 1 (.follow innerArrays) ?_)
    (leads_advance circle _ (List.replicate 15 1)))
  intro reference same
  cases same
  exact holds_of_wasGiven given

theorem navigable_of_nested :
    Lives circle nestedFollowed ∧ nestedFollowed.IsQuiet ∧
      nestedFollowed.Holds innerArrays ∧
        (nestedFollowed.workers 1).answers.length = 1 ∧
          nestedFollowed.store.subexpression? nestedArrays
              [.element, .element] = some (.named "A") ∧
            Navigable circle nestedFollowed := by
  have published :
      nestedFollowed.store.entries.values.all Entry.isPublished = true := by
    decide +kernel
  have quiet : nestedFollowed.IsQuiet := by
    intro name entry found
    exact List.all_eq_true.1 published entry (NameMap.mem_values_of_get? found)
  have given : nestedFollowed.wasGiven 0 innerArrays = true := by
    decide +kernel
  have answered : (nestedFollowed.workers 1).answers.length = 1 := by
    decide +kernel
  have path : nestedFollowed.store.subexpression? nestedArrays
      [.element, .element] = some (.named "A") := by
    decide +kernel
  exact ⟨nestedFollowed_lives, quiet, holds_of_wasGiven given, answered, path,
    navigable_of_lives nestedFollowed_lives⟩

end Pool

end TypeAtlas
