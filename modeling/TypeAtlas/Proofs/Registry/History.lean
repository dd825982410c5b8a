import TypeAtlas.Proofs.Registry.Past

/-!
# What all threads have done

A history is what the threads of a registry have done, the latest deed first.
Each deed tells something of the store, which stays true: entries are never
taken back, and a published body is never replaced.
-/

namespace TypeAtlas

/-- What all threads have done, the latest deed first. -/
abbrev History := List (ThreadId × Deed)

namespace History

def past (history : History) (thread : ThreadId) : Past :=
  history.filterMap fun (other, deed) =>
    if other = thread then some deed else none

def count (history : History) (holds : Deed → Bool) : Nat :=
  history.countP fun (_, deed) => holds deed

@[simp]
theorem past_nil (thread : ThreadId) : past [] thread = [] :=
  rfl

@[simp]
theorem past_cons_self (thread : ThreadId) (deed : Deed) (history : History) :
    past ((thread, deed) :: history) thread = deed :: past history thread := by
  simp [past]

theorem past_cons_of_ne {thread other : ThreadId} (different : other ≠ thread)
    (deed : Deed) (history : History) :
    past ((other, deed) :: history) thread = past history thread := by
  simp [past, different]

theorem mem_past {history : History} {thread : ThreadId} {deed : Deed} :
    deed ∈ past history thread ↔ (thread, deed) ∈ history := by
  simp [past]

theorem count_cons (history : History) (thread : ThreadId) (deed : Deed)
    (holds : Deed → Bool) :
    count ((thread, deed) :: history) holds =
      count history holds + (holds deed).toNat := by
  cases held : holds deed <;> simp [count, held]

/-- What is done by one thread and by the others makes up the history. -/
theorem count_eq_past_add (history : History) (thread : ThreadId)
    (holds : Deed → Bool) :
    count history holds =
      (past history thread).countP holds +
        count (history.filter fun (other, _) => other ≠ thread) holds := by
  induction history with
  | nil => rfl
  | cons event rest ih =>
    obtain ⟨other, deed⟩ := event
    rw [count_cons, ih]
    by_cases same : other = thread
    · subst same
      rw [past_cons_self, List.countP_cons,
        List.filter_cons_of_neg (by simp)]
      cases holds deed with
      | false => simp
      | true =>
        simp
        omega
    · rw [past_cons_of_ne same, List.filter_cons_of_pos (by simpa using same),
        count_cons]
      omega

theorem past_others_self (history : History) (thread : ThreadId) :
    past (history.filter fun (other, _) => other ≠ thread) thread = [] := by
  simp only [past, List.filterMap_filter, List.filterMap_eq_nil_iff]
  intro event _
  by_cases same : event.1 = thread <;> simp [same]

theorem past_others_of_ne {thread other : ThreadId} (different : other ≠ thread)
    (history : History) :
    past (history.filter fun (another, _) => another ≠ thread) other =
      past history other := by
  simp only [past, List.filterMap_filter]
  refine congrArg (fun choose => history.filterMap choose)
    (funext fun event => ?_)
  by_cases same : event.1 = other <;> simp [same, different]

theorem count_le_of_past {first second : Deed → Bool} {history : History}
    (each : ∀ thread, (past history thread).countP first ≤
      (past history thread).countP second) :
    count history first ≤ count history second := by
  induction length : history.length using Nat.strongRecOn
    generalizing history with
  | ind size ih =>
    cases history with
    | nil => exact Nat.le_refl 0
    | cons event rest =>
      obtain ⟨thread, deed⟩ := event
      rw [count_eq_past_add _ thread first, count_eq_past_add _ thread second]
      refine Nat.add_le_add (each thread) (ih _ ?_ (fun other => ?_) rfl)
      · rw [List.filter_cons_of_neg (by simp), ← length]
        exact Nat.lt_succ_of_le (List.length_filter_le _ _)
      · by_cases same : other = thread
        · rw [same, past_others_self]
          exact Nat.le_refl 0
        · rw [past_others_of_ne same]
          exact each other

theorem count_eq_of_past {first second : Deed → Bool} {history : History}
    (each : ∀ thread, (past history thread).countP first =
      (past history thread).countP second) :
    count history first = count history second :=
  Nat.le_antisymm (count_le_of_past fun thread => Nat.le_of_eq (each thread))
    (count_le_of_past fun thread => Nat.le_of_eq (each thread).symm)

end History

/-- Whether an entry is a later form of another one. -/
structure Entry.Within (entry later : Entry) : Prop where
  identity : later.identity = entry.identity
  builder : later.builder = entry.builder
  body : ∀ body, entry.body? = some body → later.body? = some body

theorem Entry.Within.trans {entry later latest : Entry}
    (first : entry.Within later) (second : later.Within latest) :
    entry.Within latest where
  identity := second.identity.trans first.identity
  builder := second.builder.trans first.builder
  body body published := second.body body (first.body body published)

theorem Entry.within_publish (entry : Entry) (body : Body) :
    entry.Within (entry.publish body) where
  identity := rfl
  builder := rfl
  body _ published := by simp [Entry.publish, published]

/-- Whether all entries of a store are still there, with their bodies. -/
def Store.Within (store later : Store) : Prop :=
  ∀ name entry, store.entries.get? name = some entry →
    ∃ laterEntry, later.entries.get? name = some laterEntry ∧
      entry.Within laterEntry

/-- What a deed tells of the store. -/
def Store.Confirms (store : Store) (thread : ThreadId) : Deed → Prop
  | ⟨.enter name, .made identity⟩ =>
    ∃ entry, store.entryFor? name identity = some entry ∧ entry.builder = thread
  | ⟨.enter name, .present identity builder isPublished⟩ =>
    ∃ entry, store.entryFor? name identity = some entry ∧
      entry.builder = builder ∧ (isPublished = true → entry.isPublished = true)
  | ⟨.publish name identity body, _⟩ =>
    ∃ entry, store.entryFor? name identity = some entry ∧
      entry.builder = thread ∧ entry.body? = some body
  | ⟨.await descriptor, body⟩ => store.body? descriptor = some body
  | _ => True

namespace Store

variable {store later latest : Store}

theorem entryFor?_eq_some {name : TypeName} {identity : Nat} {entry : Entry} :
    store.entryFor? name identity = some entry ↔
      store.entries.get? name = some entry ∧ entry.identity = identity := by
  simp [entryFor?]

theorem Within.refl (store : Store) : store.Within store :=
  fun _ entry found => ⟨entry, found, rfl, rfl, fun _ same => same⟩

theorem Within.trans (first : store.Within later)
    (second : later.Within latest) : store.Within latest := by
  intro name entry found
  obtain ⟨entryLater, foundLater, within⟩ := first name entry found
  obtain ⟨entryLatest, foundLatest, further⟩ :=
    second name entryLater foundLater
  exact ⟨entryLatest, foundLatest, within.trans further⟩

theorem Within.of_entries_eq (same : later.entries = store.entries) :
    store.Within later := by
  intro name entry found
  rw [same]
  exact Within.refl store name entry found

theorem Within.of_insert {name : TypeName} {entry : Entry}
    (same : later.entries = store.entries.insert name entry)
    (within : ∀ old, store.entries.get? name = some old → old.Within entry) :
    store.Within later := by
  intro other old found
  rw [same, NameMap.get?_insert]
  by_cases here : other = name
  · subst here
    exact ⟨entry, if_pos rfl, within old found⟩
  · exact ⟨old, (if_neg here).trans found, rfl, rfl, fun _ same => same⟩

/-- No action takes an entry back, or replaces a body. -/
theorem perform_within {thread : ThreadId} {action : Action}
    {answer : action.Answer}
    (performed : store.perform thread action = .ok (answer, later)) :
    store.Within later := by
  cases action with
  | enter name =>
    simp only [perform] at performed
    split at performed
    · cases performed
      exact Within.refl store
    next absent =>
      cases performed
      refine Within.of_insert rfl fun old found => ?_
      rw [absent] at found
      cases found
  | publish name identity body =>
    simp only [perform] at performed
    split at performed
    next entry present =>
      cases performed
      refine Within.of_insert rfl fun old found => ?_
      cases (entryFor?_eq_some.1 present).1.symm.trans found
      exact entry.within_publish body
    · cases performed
      exact Within.refl store
  | await descriptor =>
    simp only [perform] at performed
    split at performed
    · cases performed
      exact Within.refl store
    · cases performed
  | keepTarget slot target =>
    simp only [perform] at performed
    split at performed
    · cases performed
      exact Within.refl store
    · cases performed
      exact Within.of_entries_eq rfl
  | _ =>
    cases performed
    exact Within.of_entries_eq rfl

theorem Within.entryFor? (grows : store.Within later) {name : TypeName}
    {identity : Nat} {entry : Entry}
    (found : store.entryFor? name identity = some entry) :
    ∃ laterEntry, later.entryFor? name identity = some laterEntry ∧
      entry.Within laterEntry := by
  obtain ⟨present, same⟩ := entryFor?_eq_some.1 found
  obtain ⟨laterEntry, foundLater, within⟩ := grows name entry present
  exact ⟨laterEntry,
    entryFor?_eq_some.2 ⟨foundLater, within.identity.trans same⟩, within⟩

/-- What is published is never changed again. -/
theorem Within.get?_of_published (within : store.Within later)
    {name : TypeName} {entry : Entry}
    (found : store.entries.get? name = some entry)
    (published : entry.isPublished = true) :
    later.entries.get? name = some entry := by
  obtain ⟨entryLater, foundLater, same⟩ := within name entry found
  obtain ⟨body, told⟩ := Option.isSome_iff_exists.1 published
  obtain ⟨identity, builder, body?⟩ := entry
  obtain ⟨identityLater, builderLater, bodyLater?⟩ := entryLater
  cases same.identity
  cases same.builder
  cases told.trans (same.body body told).symm
  exact foundLater

theorem Confirms.within {thread : ThreadId} {deed : Deed}
    (confirms : store.Confirms thread deed) (grows : store.Within later) :
    later.Confirms thread deed := by
  obtain ⟨action, answer⟩ := deed
  cases action with
  | enter name =>
    cases answer with
    | made identity =>
      obtain ⟨entry, found, own⟩ := confirms
      obtain ⟨laterEntry, foundLater, within⟩ := grows.entryFor? found
      exact ⟨laterEntry, foundLater, within.builder.trans own⟩
    | present identity builder isPublished =>
      obtain ⟨entry, found, own, published⟩ := confirms
      obtain ⟨laterEntry, foundLater, within⟩ := grows.entryFor? found
      refine ⟨laterEntry, foundLater, within.builder.trans own, fun told => ?_⟩
      obtain ⟨body, some⟩ := Option.isSome_iff_exists.1 (published told)
      exact Option.isSome_iff_exists.2 ⟨body, within.body body some⟩
  | publish name identity body =>
    obtain ⟨entry, found, own, published⟩ := confirms
    obtain ⟨laterEntry, foundLater, within⟩ := grows.entryFor? found
    exact ⟨laterEntry, foundLater, within.builder.trans own,
      within.body body published⟩
  | await descriptor =>
    cases descriptor with
    | detached identity expression body => exact confirms
    | cached name identity =>
      obtain ⟨entry, found, published⟩ := Option.bind_eq_some_iff.1 confirms
      obtain ⟨laterEntry, foundLater, within⟩ := grows.entryFor? found
      exact Option.bind_eq_some_iff.2
        ⟨laterEntry, foundLater, within.body _ published⟩
  | _ => trivial

end Store

end TypeAtlas
