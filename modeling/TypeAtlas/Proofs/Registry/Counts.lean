import TypeAtlas.Proofs.Registry.Coherence

/-!
# What a registry counts

The statistics of a registry count what its history tells of, and so do the
entries: each was made once, and those that are published were so once.
-/

namespace TypeAtlas

open Past Lookup

def Entry.hasFailed (entry : Entry) : Bool :=
  entry.body?.any fun body => body.failure?.isSome

namespace Deed

theorem isMaking_of_makes {deed : Deed} {name : TypeName}
    (makes : deed.makes name = true) : deed.isMaking = true := by
  unfold Deed.makes at makes
  split at makes
  · rfl
  · cases makes

theorem isPublishing_of_publishes {deed : Deed} {name : TypeName}
    (publishes : deed.publishes name = true) : deed.isPublishing = true := by
  unfold Deed.publishes at publishes
  split at publishes
  · rfl
  · cases publishes

theorem isPublishing_of_isFailing {deed : Deed}
    (failing : deed.isFailing = true) : deed.isPublishing = true := by
  unfold Deed.isFailing at failing
  split at failing
  · rfl
  · cases failing

theorem countsLookup_of_countsMiss {deed : Deed}
    (missed : deed.countsMiss = true) : deed.countsLookup = true := by
  unfold Deed.countsMiss at missed
  split at missed
  · rfl
  · cases missed

end Deed

def Stats.after (stats : Stats) (deed : Deed) : Stats where
  hits := stats.hits + (deed.countsLookup && !deed.countsMiss).toNat
  misses := stats.misses + deed.countsMiss.toNat
  builds := stats.builds + deed.countsBuild.toNat
  failures := stats.failures + deed.countsFailure.toNat

theorem Store.stats_of_perform {store later : Store} {thread : ThreadId}
    {action : Action} {answer : action.Answer}
    (performed : store.perform thread action = .ok (answer, later)) :
    later.stats = store.stats.after ⟨action, answer⟩ := by
  cases action with
  | enter name =>
    simp only [Store.perform] at performed
    split at performed <;> cases performed <;> rfl
  | publish name identity body =>
    simp only [Store.perform] at performed
    split at performed <;> cases performed <;> rfl
  | await descriptor =>
    simp only [Store.perform] at performed
    split at performed <;> cases performed
    rfl
  | keepTarget slot target =>
    simp only [Store.perform] at performed
    split at performed <;> cases performed <;> rfl
  | recordBuild failed =>
    cases performed
    cases failed <;> rfl
  | mark mark =>
    cases performed
    rcases mark with _ | ⟨_ | _, _, _⟩ | _ <;> rfl
  | _ =>
    cases performed
    rfl

/-- Whether the statistics of a store count what a history tells of. -/
structure StatsCounted (store : Store) (history : History) : Prop where
  looked : history.count Deed.countsLookup =
    store.stats.hits + store.stats.misses
  missed : history.count Deed.countsMiss = store.stats.misses
  built : history.count Deed.countsBuild = store.stats.builds
  failed : history.count Deed.countsFailure = store.stats.failures

structure EntriesCounted (store : Store) (history : History) : Prop where
  made : ∀ name, history.count (·.makes name) =
    (store.entries.get? name).isSome.toNat
  published : ∀ name, history.count (·.publishes name) =
    ((store.entries.get? name).any Entry.isPublished).toNat
  size : history.count Deed.isMaking = store.entries.size
  failed : history.count Deed.isFailing =
    store.entries.values.countP Entry.hasFailed

variable {store later : Store} {history : History} {thread : ThreadId}

namespace StatsCounted

theorem init : StatsCounted {} [] :=
  ⟨rfl, rfl, rfl, rfl⟩

theorem perform (counted : StatsCounted store history) {action : Action}
    {answer : action.Answer}
    (performed : store.perform thread action = .ok (answer, later)) :
    StatsCounted later ((thread, ⟨action, answer⟩) :: history) := by
  have stats := Store.stats_of_perform performed
  generalize (⟨action, answer⟩ : Deed) = deed at stats ⊢
  refine ⟨?_, ?_, ?_, ?_⟩
  · rw [History.count_cons, counted.looked, stats]
    cases missed : deed.countsMiss with
    | false =>
      simp only [Stats.after, missed, Bool.not_false, Bool.and_true]
      exact Nat.add_right_comm _ _ _
    | true =>
      simp only [Stats.after, missed, Deed.countsLookup_of_countsMiss missed]
      exact Nat.add_assoc _ _ _
  · rw [History.count_cons, counted.missed, stats]
    rfl
  · rw [History.count_cons, counted.built, stats]
    rfl
  · rw [History.count_cons, counted.failed, stats]
    rfl

end StatsCounted

namespace EntriesCounted

theorem init : EntriesCounted {} [] :=
  ⟨fun _ => rfl, fun _ => rfl, rfl, rfl⟩

theorem quiet (counted : EntriesCounted store history) {deed : Deed}
    (same : later.entries = store.entries) (making : ¬ deed.isMaking)
    (publishing : ¬ deed.isPublishing) :
    EntriesCounted later ((thread, deed) :: history) := by
  have notMade (name : TypeName) : deed.makes name = false :=
    Bool.eq_false_iff.2 fun makes => making (Deed.isMaking_of_makes makes)
  have notPublished (name : TypeName) : deed.publishes name = false :=
    Bool.eq_false_iff.2 fun publishes =>
      publishing (Deed.isPublishing_of_publishes publishes)
  have notFailed : deed.isFailing = false :=
    Bool.eq_false_iff.2 fun failing =>
      publishing (Deed.isPublishing_of_isFailing failing)
  refine ⟨fun name => ?_, fun name => ?_, ?_, ?_⟩
  · rw [History.count_cons, counted.made, same, notMade]
    rfl
  · rw [History.count_cons, counted.published, same, notPublished]
    rfl
  · rw [History.count_cons, counted.size, same, Bool.eq_false_iff.2 making]
    rfl
  · rw [History.count_cons, counted.failed, same, notFailed]
    rfl

theorem make (counted : EntriesCounted store history) {name : TypeName}
    (entry : Entry) (absent : store.entries.get? name = none)
    (blank : entry.body? = none)
    (same : later.entries = store.entries.insert name entry) :
    EntriesCounted later
      ((thread, ⟨.enter name, .made entry.identity⟩) :: history) := by
  have sizes := NameMap.countP_values_insert (fun _ => true) store.entries
    name entry
  have failures := NameMap.countP_values_insert Entry.hasFailed store.entries
    name entry
  rw [absent, Option.elim_none, ← same] at sizes failures
  refine ⟨fun other => ?_, fun other => ?_, ?_, ?_⟩
  · rw [History.count_cons, counted.made, same, NameMap.get?_insert]
    by_cases here : other = name
    · subst here
      simp [absent, Deed.makes]
    · simp [here, Deed.makes, Ne.symm here]
  · rw [History.count_cons, counted.published, same, NameMap.get?_insert]
    by_cases here : other = name
    · subst here
      simp [absent, Deed.publishes, Entry.isPublished, blank]
    · simp [here, Deed.publishes]
  · rw [History.count_cons, counted.size, NameMap.size_eq_countP,
      NameMap.size_eq_countP]
    exact sizes.symm
  · rw [History.count_cons, counted.failed]
    have unfailed : entry.hasFailed = false := by
      simp [Entry.hasFailed, blank]
    rw [unfailed] at failures
    exact failures.symm

theorem publish (counted : EntriesCounted store history) {name : TypeName}
    {identity : Nat} {entry : Entry} {body : Body}
    (present : store.entryFor? name identity = some entry)
    (blank : entry.body? = none)
    (same : later.entries = store.entries.insert name (entry.publish body)) :
    EntriesCounted later
      ((thread, ⟨.publish name identity body, ()⟩) :: history) := by
  obtain ⟨known, _⟩ := Store.entryFor?_eq_some.1 present
  have sizes := NameMap.countP_values_insert (fun _ => true) store.entries
    name (entry.publish body)
  have failures := NameMap.countP_values_insert Entry.hasFailed store.entries
    name (entry.publish body)
  rw [known, Option.elim_some, ← same] at sizes failures
  refine ⟨fun other => ?_, fun other => ?_, ?_, ?_⟩
  · rw [History.count_cons, counted.made, same, NameMap.get?_insert]
    by_cases here : other = name
    · subst here
      simp [known, Deed.makes]
    · simp [here, Deed.makes]
  · rw [History.count_cons, counted.published, same, NameMap.get?_insert]
    by_cases here : other = name
    · subst here
      simp [known, Deed.publishes, Entry.isPublished, Entry.publish, blank]
    · simp [here, Deed.publishes, Ne.symm here]
  · rw [History.count_cons, counted.size, NameMap.size_eq_countP,
      NameMap.size_eq_countP]
    exact (Nat.add_right_cancel sizes).symm
  · rw [History.count_cons, counted.failed]
    have unfailed : entry.hasFailed = false := by
      simp [Entry.hasFailed, blank]
    have failing : (entry.publish body).hasFailed = body.failure?.isSome := by
      simp [Entry.hasFailed, Entry.publish, blank]
    rw [unfailed, failing] at failures
    exact failures.symm

theorem perform (counted : EntriesCounted store history)
    (coherent : Coherent store history) {sources : Sources} {calm : Prop}
    {action : Action} {answer : action.Answer}
    (allowed : (discipline { sources, thread } calm).allows
      (history.past thread) action)
    (performed : store.perform thread action = .ok (answer, later)) :
    EntriesCounted later ((thread, ⟨action, answer⟩) :: history) := by
  cases coherent.changes allowed performed with
  | quiet same making publishing _ => exact counted.quiet same making publishing
  | make entry absent _ blank same => exact counted.make entry absent blank same
  | publish _ present blank same => exact counted.publish present blank same

end EntriesCounted

end TypeAtlas
