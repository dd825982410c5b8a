import TypeAtlas.Proofs.Registry.Counts

/-!
# Lawful histories

Threads that keep the discipline leave a store that is coherent with its
history and counts it, whatever the order in which they act.  A thread that
acts alone is never made to wait, and so comes to the end of what it does.
-/

namespace TypeAtlas

open Past Lookup

namespace History

/-- Whether all deeds of all threads were allowed when they were done. -/
def Lawful (sources : Sources) (calm : Prop) (history : History) : Prop :=
  ∀ thread, Past.Lawful (discipline { sources, thread } calm)
    (history.past thread)

theorem Lawful.cons {sources : Sources} {calm : Prop} {history : History}
    {thread : ThreadId} {deed : Deed} (lawful : history.Lawful sources calm)
    (allowed : (discipline { sources, thread } calm).allows
      (history.past thread) deed.action) :
    Lawful sources calm ((thread, deed) :: history) := by
  intro other
  by_cases own : thread = other
  · subst own
    rw [past_cons_self]
    exact ⟨allowed, lawful thread⟩
  · rw [past_cons_of_ne own]
    exact lawful other

def ofDeeds (thread : ThreadId) (deeds : List Deed) : History :=
  (deeds.map fun deed => (thread, deed)).reverse

theorem ofDeeds_cons (thread : ThreadId) (deed : Deed) (deeds : List Deed)
    (history : History) :
    ofDeeds thread (deed :: deeds) ++ history =
      ofDeeds thread deeds ++ (thread, deed) :: history := by
  simp [ofDeeds]

theorem past_ofDeeds (thread : ThreadId) (deeds : List Deed)
    (history : History) :
    (ofDeeds thread deeds ++ history).past thread =
      deeds.reverse ++ history.past thread := by
  induction deeds generalizing history with
  | nil => rfl
  | cons deed deeds ih =>
    rw [ofDeeds_cons, ih, past_cons_self, List.reverse_cons, List.append_assoc]
    rfl

theorem eq_of_mem_ofDeeds {thread other : ThreadId} {deed : Deed}
    {deeds : List Deed} (member : (other, deed) ∈ ofDeeds thread deeds) :
    other = thread := by
  obtain ⟨_, _, same⟩ := List.mem_map.1 (List.mem_reverse.1 member)
  exact (congrArg Prod.fst same).symm

theorem past_ofDeeds_of_ne {thread other : ThreadId}
    (different : other ≠ thread) (deeds : List Deed) (history : History) :
    (ofDeeds thread deeds ++ history).past other = history.past other := by
  have apart : past (ofDeeds thread deeds) other = [] := by
    refine List.eq_nil_iff_forall_not_mem.2 fun deed member => ?_
    exact different (eq_of_mem_ofDeeds (mem_past.1 member))
  unfold past at apart ⊢
  rw [List.filterMap_append, apart, List.nil_append]

end History

/-- Whether a store is what came of a lawful history, and counts it. -/
structure Faithful (sources : Sources) (calm : Prop) (store : Store)
    (history : History) : Prop where
  coherent : Coherent store history
  lawful : history.Lawful sources calm
  entries : EntriesCounted store history
  stats : StatsCounted store history

/-- What holds of a store and its history when all assemblies have ended.
Nothing is left in progress, and the statistics count what was done. -/
structure Settled (store : Store) (history : History) : Prop where
  published : ∀ name entry, store.entries.get? name = some entry →
    entry.isPublished = true
  built : store.stats.builds = store.entries.size
  builtOnce : ∀ name, history.count (·.builds name) =
    (store.entries.get? name).isSome.toNat
  failed : store.stats.failures =
    store.entries.values.countP Entry.hasFailed
  looked : store.stats.hits + store.stats.misses =
    history.count Deed.endsLookup
  missed : store.stats.misses ≤ store.stats.builds

namespace Faithful

variable {sources : Sources} {calm : Prop} {store later : Store}
  {history : History} {thread : ThreadId}

theorem init (sources : Sources) (calm : Prop) : Faithful sources calm {} [] :=
  ⟨Coherent.init, fun _ => trivial, EntriesCounted.init, StatsCounted.init⟩

theorem perform (faithful : Faithful sources calm store history)
    {action : Action} {answer : action.Answer}
    (allowed : (discipline { sources, thread } calm).allows
      (history.past thread) action)
    (performed : store.perform thread action = .ok (answer, later)) :
    Faithful sources calm later ((thread, ⟨action, answer⟩) :: history) where
  coherent := faithful.coherent.perform allowed performed
  lawful := faithful.lawful.cons allowed
  entries := faithful.entries.perform faithful.coherent allowed performed
  stats := faithful.stats.perform performed

theorem withMemos (faithful : Faithful sources calm store history)
    (memos : NameMap ChildTransforms.Memos) :
    Faithful sources calm { store with memos } history where
  coherent :=
    { confirmed := faithful.coherent.confirmed
      made := faithful.coherent.made
      published := faithful.coherent.published
      unfinished := faithful.coherent.unfinished
      distinct := faithful.coherent.distinct }
  lawful := faithful.lawful
  entries := { faithful.entries with }
  stats := { faithful.stats with }

/-- Where each thread has ended all that it began, the store is settled. -/
theorem settled (faithful : Faithful sources calm store history)
    (rested : ∀ thread, Extends [] (history.past thread)) :
    Settled store history := by
  have balanced (thread : ThreadId) : Balanced (history.past thread) := by
    obtain ⟨deeds, same, balanced, _⟩ := rested thread
    rw [same, List.append_nil]
    exact balanced
  obtain ⟨coherent, _, entries, stats⟩ := faithful
  refine ⟨fun name entry found => ?_, ?_, fun name => ?_, ?_, ?_, ?_⟩
  · refine coherent.published_iff.2 (fun thread => ?_) name entry found
    obtain ⟨_, _, _, none⟩ := rested thread
    exact none
  · refine stats.built.symm.trans (Eq.trans ?_ entries.size)
    exact History.count_eq_of_past fun thread => (balanced thread).counted
  · refine Eq.trans ?_ (entries.made name)
    exact History.count_eq_of_past fun thread => (balanced thread).begun name
  · refine stats.failed.symm.trans (Eq.trans ?_ entries.failed)
    exact History.count_eq_of_past fun thread => (balanced thread).failed
  · refine stats.looked.symm.trans ?_
    exact History.count_eq_of_past fun thread => (balanced thread).looked
  · have missed := History.count_le_of_past fun thread =>
      (balanced thread).missed
    rwa [stats.missed, stats.built] at missed

/-- A lookup that gave a descriptor gave that of the entry of the name. -/
theorem entry_of_answered (faithful : Faithful sources calm store history)
    {kind : LookupKind} {name : TypeName} {descriptor : Descriptor}
    (member : (thread,
      (⟨.mark (.answered kind name (.ok descriptor)), ()⟩ : Deed)) ∈
        history) :
    ∃ entry, store.entries.get? name = some entry ∧
      descriptor = .cached name entry.identity ∧
        (kind = .topLevel → entry.isPublished = true) := by
  have coherent := faithful.coherent
  obtain ⟨later, earlier, same, identity, rfl, introduces, secures⟩ :=
    (faithful.lawful thread).allowed (History.mem_past.2 member)
  have within : history.past thread =
      (later ++ [⟨.mark (.answered kind name
        (.ok (.cached name identity))), ()⟩]) ++ earlier := by
    simp [same]
  have known := introduces.append (later ++ [⟨.mark (.answered kind name
    (.ok (.cached name identity))), ()⟩])
  rw [← within] at known
  obtain ⟨entry, found⟩ := coherent.introduced known
  obtain ⟨present, numbered⟩ := Store.entryFor?_eq_some.1 found
  refine ⟨entry, present, by rw [numbered], fun topLevel => ?_⟩
  have secured := (secures topLevel).append (later ++ [⟨.mark (.answered kind
    name (.ok (.cached name identity))), ()⟩])
  rw [← within] at secured
  obtain ⟨body, published⟩ := coherent.secured secured
  obtain ⟨_, foundToo, some⟩ := Option.bind_eq_some_iff.1 published
  cases found.symm.trans foundToo
  exact Option.isSome_iff_exists.2 ⟨body, some⟩

/-- A thread that keeps the discipline runs to its end, if no other thread has
begun an assembly that it did not end. -/
theorem run (faithful : Faithful sources calm store history)
    {ensures : Past → α → Prop} {procedure : Procedure α}
    (meets : procedure.Meets (discipline { sources, thread } calm) ensures
      (history.past thread))
    (alone : ∀ other, other ≠ thread →
      Past.unfinished (history.past other) = []) :
    let run := procedure.run thread store
    let after := History.ofDeeds thread run.deeds ++ history
    Faithful sources calm run.store after ∧
      ∃ value, run.outcome = .ok value ∧
        ensures (after.past thread) value := by
  induction procedure generalizing store history with
  | done value => exact ⟨faithful, value, rfl, meets⟩
  | act action next ih =>
    obtain ⟨allowed, goesOn⟩ := meets
    cases performed : store.perform thread action with
    | error descriptor =>
      obtain ⟨_, other, different, member⟩ :=
        faithful.coherent.blocked allowed performed
      rw [alone other different] at member
      cases member
    | ok result =>
      obtain ⟨answer, later⟩ := result
      have goesOn := goesOn answer (faithful.coherent.promised performed)
      rw [← History.past_cons_self thread ⟨action, answer⟩ history] at goesOn
      have rest := ih answer (faithful.perform allowed performed) goesOn ?_
      · simp only [Procedure.run, performed, History.ofDeeds_cons]
        exact rest
      · intro other different
        rw [History.past_cons_of_ne (Ne.symm different)]
        exact alone other different

end Faithful

end TypeAtlas
