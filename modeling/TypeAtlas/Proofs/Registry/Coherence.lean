import TypeAtlas.Proofs.Registry.Discipline
import TypeAtlas.Proofs.Registry.History

/-!
# The store and its history

As long as all threads keep the discipline of lookups, the entries of a store
are exactly those that its history tells of.  The entries without a body are
the assemblies that some thread has begun and not ended.  From this follows
what the discipline relies on: that a name is made once only, and that what a
thread finds unpublished and its own is an assembly that it is in.
-/

namespace TypeAtlas

open Past Lookup

/-- Whether a store is what came of a history. -/
structure Coherent (store : Store) (history : History) : Prop where
  confirmed : ∀ thread deed, (thread, deed) ∈ history →
    store.Confirms thread deed
  made : ∀ name entry, store.entries.get? name = some entry →
    (entry.builder, (⟨.enter name, .made entry.identity⟩ : Deed)) ∈ history
  published : ∀ name entry body, store.entries.get? name = some entry →
    entry.body? = some body →
      (entry.builder, (⟨.publish name entry.identity body, ()⟩ : Deed)) ∈
        history
  unfinished : ∀ thread name identity,
    (name, identity) ∈ unfinished (history.past thread) ↔
      ∃ entry, store.entryFor? name identity = some entry ∧
        entry.builder = thread ∧ entry.body? = none
  distinct : ∀ thread, (Past.unfinished (history.past thread)).Nodup

namespace Coherent

theorem init : Coherent {} [] where
  confirmed _ _ member := (List.not_mem_nil member).elim
  made _ _ found := by cases found
  published _ _ _ found := by cases found
  unfinished _ _ _ := by simp [Past.unfinished, Store.entryFor?]
  distinct _ := List.nodup_nil

variable {store later : Store} {history : History} {thread : ThreadId}

theorem quiet (coherent : Coherent store history) {deed : Deed}
    (same : later.entries = store.entries) (making : ¬ deed.isMaking)
    (publishing : ¬ deed.isPublishing)
    (confirms : store.Confirms thread deed) :
    Coherent later ((thread, deed) :: history) := by
  have grows : store.Within later := .of_entries_eq same
  have pending (other : ThreadId) :
      Past.unfinished (History.past ((thread, deed) :: history) other) =
        Past.unfinished (history.past other) := by
    by_cases own : thread = other
    · subst own
      rw [History.past_cons_self,
        unfinished_cons_of_quiet making publishing]
    · rw [History.past_cons_of_ne own]
  constructor
  · intro other told member
    rcases List.mem_cons.1 member with here | further
    · cases here
      exact confirms.within grows
    · exact (coherent.confirmed other told further).within grows
  · intro name entry found
    rw [same] at found
    exact List.mem_cons_of_mem _ (coherent.made name entry found)
  · intro name entry body found published
    rw [same] at found
    exact List.mem_cons_of_mem _
      (coherent.published name entry body found published)
  · intro other name identity
    rw [pending, coherent.unfinished]
    simp only [Store.entryFor?, same]
  · intro other
    rw [pending]
    exact coherent.distinct other

theorem mem_unfinished_make {other : ThreadId} {name asked : TypeName}
    {number identity : Nat} :
    (asked, identity) ∈ Past.unfinished
        (History.past ((thread, ⟨.enter name, .made number⟩) :: history)
          other) ↔
      (thread = other ∧ asked = name ∧ identity = number) ∨
        (asked, identity) ∈ Past.unfinished (history.past other) := by
  by_cases mine : thread = other
  · subst mine
    simp [Past.unfinished]
  · simp [History.past_cons_of_ne mine, mine]

theorem make (coherent : Coherent store history) {name : TypeName}
    (entry : Entry) (absent : store.entries.get? name = none)
    (own : entry.builder = thread) (blank : entry.body? = none)
    (same : later.entries = store.entries.insert name entry) :
    Coherent later
      ((thread, ⟨.enter name, .made entry.identity⟩) :: history) := by
  have found (other : TypeName) : later.entries.get? other =
      if other = name then some entry else store.entries.get? other := by
    rw [same, NameMap.get?_insert]
  have grows : store.Within later := by
    refine Store.Within.of_insert same fun old present => ?_
    rw [absent] at present
    cases present
  constructor
  · intro other told member
    rcases List.mem_cons.1 member with here | further
    · cases here
      exact ⟨entry,
        Store.entryFor?_eq_some.2 ⟨(found name).trans (if_pos rfl), rfl⟩, own⟩
    · exact (coherent.confirmed other told further).within grows
  · intro other made present
    rw [found] at present
    split at present
    next same =>
      cases present
      rw [same, own]
      exact List.mem_cons_self
    · exact List.mem_cons_of_mem _ (coherent.made other made present)
  · intro other made body present published
    rw [found] at present
    split at present
    · cases present
      rw [blank] at published
      cases published
    · exact List.mem_cons_of_mem _
        (coherent.published other made body present published)
  · intro other asked identity
    rw [mem_unfinished_make, coherent.unfinished]
    simp only [Store.entryFor?_eq_some, found]
    by_cases here : asked = name
    · subst here
      simp only [absent, if_true, Option.some.injEq]
      constructor
      · rintro (⟨mine, _, rfl⟩ | ⟨_, ⟨none, _⟩, _⟩)
        · exact ⟨entry, ⟨rfl, rfl⟩, own.trans mine, blank⟩
        · cases none
      · rintro ⟨_, ⟨rfl, rfl⟩, mine, _⟩
        exact .inl ⟨own.symm.trans mine, trivial, rfl⟩
    · simp [here]
  · intro other
    by_cases mine : thread = other
    · subst mine
      rw [History.past_cons_self]
      refine List.nodup_cons.2 ⟨fun member => ?_, coherent.distinct thread⟩
      obtain ⟨old, present, _⟩ := (coherent.unfinished _ _ _).1 member
      rw [(Store.entryFor?_eq_some.1 present).1] at absent
      cases absent
    · rw [History.past_cons_of_ne mine]
      exact coherent.distinct other

/-- Only one thread assembles a name, and only one descriptor of it. -/
theorem unfinished_unique (coherent : Coherent store history)
    {other : ThreadId} {name : TypeName} {identity number : Nat}
    (first : (name, identity) ∈ Past.unfinished (history.past thread))
    (second : (name, number) ∈ Past.unfinished (history.past other)) :
    thread = other ∧ identity = number := by
  obtain ⟨entry, found, own, _⟩ := (coherent.unfinished _ _ _).1 first
  obtain ⟨another, foundToo, theirs, _⟩ := (coherent.unfinished _ _ _).1 second
  obtain ⟨present, same⟩ := Store.entryFor?_eq_some.1 found
  obtain ⟨presentToo, sameToo⟩ := Store.entryFor?_eq_some.1 foundToo
  cases present.symm.trans presentToo
  exact ⟨own.symm.trans theirs, same.symm.trans sameToo⟩

/-- Once a body is published, no thread is assembling its name. -/
theorem mem_unfinished_publish (coherent : Coherent store history)
    {other : ThreadId} {name asked : TypeName} {identity number : Nat}
    {outer : List (TypeName × Nat)} {body : Body}
    (begun : Past.unfinished (history.past thread) =
      (name, identity) :: outer) :
    (asked, number) ∈ Past.unfinished
        (History.past ((thread, ⟨.publish name identity body, ()⟩) :: history)
          other) ↔
      asked ≠ name ∧
        (asked, number) ∈ Past.unfinished (history.past other) := by
  have distinct := coherent.distinct thread
  rw [begun] at distinct
  have here : (name, identity) ∈ Past.unfinished (history.past thread) :=
    begun ▸ List.mem_cons_self
  by_cases mine : thread = other
  · subst mine
    rw [History.past_cons_self]
    change (asked, number) ∈ (Past.unfinished (history.past thread)).tail ↔ _
    rw [begun, List.tail_cons]
    refine ⟨fun member => ⟨?_, List.mem_cons_of_mem _ member⟩, ?_⟩
    · rintro rfl
      have again := begun ▸ List.mem_cons_of_mem (asked, identity) member
      cases (coherent.unfinished_unique here again).2
      exact (List.nodup_cons.1 distinct).1 member
    · rintro ⟨different, member⟩
      rcases List.mem_cons.1 member with same | member
      · cases same
        exact (different rfl).elim
      · exact member
  · rw [History.past_cons_of_ne mine]
    refine ⟨fun member => ⟨?_, member⟩, And.right⟩
    rintro rfl
    exact mine (coherent.unfinished_unique here member).1

/-- The assembly that a thread began last is published. -/
theorem publish (coherent : Coherent store history) {name : TypeName}
    {identity : Nat} {outer : List (TypeName × Nat)} {entry : Entry}
    {body : Body}
    (begun : Past.unfinished (history.past thread) = (name, identity) :: outer)
    (present : store.entryFor? name identity = some entry)
    (blank : entry.body? = none)
    (same : later.entries = store.entries.insert name (entry.publish body)) :
    Coherent later
      ((thread, ⟨.publish name identity body, ()⟩) :: history) := by
  have own : entry.builder = thread := by
    obtain ⟨held, found, own, _⟩ := (coherent.unfinished thread name
      identity).1 (begun ▸ List.mem_cons_self)
    cases found.symm.trans present
    exact own
  obtain ⟨known, numbered⟩ := Store.entryFor?_eq_some.1 present
  have found (other : TypeName) : later.entries.get? other =
      if other = name then some (entry.publish body)
      else store.entries.get? other := by
    rw [same, NameMap.get?_insert]
  have published : (entry.publish body).body? = some body := by
    simp [Entry.publish, blank]
  have grows : store.Within later := by
    refine Store.Within.of_insert same fun old held => ?_
    cases known.symm.trans held
    exact entry.within_publish body
  constructor
  · intro other told member
    rcases List.mem_cons.1 member with here | further
    · cases here
      exact ⟨entry.publish body,
        Store.entryFor?_eq_some.2 ⟨(found name).trans (if_pos rfl), numbered⟩,
        own, published⟩
    · exact (coherent.confirmed other told further).within grows
  · intro other made held
    refine List.mem_cons_of_mem _ ?_
    rw [found] at held
    split at held
    next here =>
      cases held
      cases here
      exact coherent.made name entry known
    · exact coherent.made other made held
  · intro other made some held told
    rw [found] at held
    split at held
    next here =>
      cases held
      cases here
      cases published.symm.trans told
      rw [show (entry.publish body).builder = thread from own,
        show (entry.publish body).identity = identity from numbered]
      exact List.mem_cons_self
    · exact List.mem_cons_of_mem _
        (coherent.published other made some held told)
  · intro other asked number
    rw [coherent.mem_unfinished_publish begun, coherent.unfinished]
    simp only [Store.entryFor?, same]
    by_cases here : asked = name
    · subst here
      simp [published]
    · simp [here]
  · intro other
    by_cases mine : thread = other
    · subst mine
      rw [History.past_cons_self]
      change (Past.unfinished (history.past thread)).tail.Nodup
      exact (coherent.distinct thread).tail
    · rw [History.past_cons_of_ne mine]
      exact coherent.distinct other

/-- All is published just while no thread has anything unfinished. -/
theorem published_iff (coherent : Coherent store history) :
    (∀ name entry, store.entries.get? name = some entry →
        entry.isPublished = true) ↔
      ∀ thread, Past.unfinished (history.past thread) = [] := by
  constructor
  · intro published thread
    refine List.eq_nil_iff_forall_not_mem.2 ?_
    rintro ⟨name, identity⟩ member
    obtain ⟨entry, located, _, blank⟩ :=
      (coherent.unfinished thread name identity).1 member
    have told := published name entry (Store.entryFor?_eq_some.1 located).1
    rw [Entry.isPublished, blank] at told
    cases told
  · intro finished name entry found
    refine Option.isSome_iff_ne_none.2 fun blank => ?_
    have member := (coherent.unfinished entry.builder name entry.identity).2
      ⟨entry, Store.entryFor?_eq_some.2 ⟨found, rfl⟩, rfl, blank⟩
    rw [finished] at member
    cases member

/-- How a deed changes the entries of a store, if at all. -/
inductive Changes (store : Store) (history : History) (thread : ThreadId)
    (later : Store) : Deed → Prop where
  | quiet {deed : Deed} (same : later.entries = store.entries)
    (making : ¬ deed.isMaking) (publishing : ¬ deed.isPublishing)
    (confirms : store.Confirms thread deed) :
    Changes store history thread later deed
  | make {name : TypeName} (entry : Entry)
    (absent : store.entries.get? name = none) (own : entry.builder = thread)
    (blank : entry.body? = none)
    (same : later.entries = store.entries.insert name entry) :
    Changes store history thread later ⟨.enter name, .made entry.identity⟩
  | publish {name : TypeName} {identity : Nat} {outer : List (TypeName × Nat)}
    {entry : Entry} {body : Body}
    (begun : Past.unfinished (history.past thread) = (name, identity) :: outer)
    (present : store.entryFor? name identity = some entry)
    (blank : entry.body? = none)
    (same : later.entries = store.entries.insert name (entry.publish body)) :
    Changes store history thread later ⟨.publish name identity body, ()⟩

theorem changes (coherent : Coherent store history) {sources : Sources}
    {calm : Prop} {action : Action} {answer : action.Answer}
    (allowed : (discipline { sources, thread } calm).allows
      (history.past thread) action)
    (performed : store.perform thread action = .ok (answer, later)) :
    Changes store history thread later ⟨action, answer⟩ := by
  cases action with
  | enter name =>
    cases present : store.entries.get? name with
    | some entry =>
      simp only [Store.perform, present, Except.ok.injEq,
        Prod.mk.injEq] at performed
      obtain ⟨rfl, rfl⟩ := performed
      exact .quiet rfl Bool.false_ne_true Bool.false_ne_true
        ⟨entry, Store.entryFor?_eq_some.2 ⟨present, rfl⟩, rfl, id⟩
    | none =>
      simp only [Store.perform, present, Except.ok.injEq,
        Prod.mk.injEq] at performed
      obtain ⟨rfl, rfl⟩ := performed
      exact .make { identity := store.fresh, builder := thread } present rfl
        rfl rfl
  | publish name identity body =>
    obtain ⟨⟨outer, begun⟩, _⟩ := allowed
    obtain ⟨entry, present, _, blank⟩ := (coherent.unfinished thread name
      identity).1 (begun ▸ List.mem_cons_self)
    simp only [Store.perform, present, Except.ok.injEq,
      Prod.mk.injEq] at performed
    obtain ⟨_, rfl⟩ := performed
    exact .publish begun present blank rfl
  | await descriptor =>
    simp only [Store.perform] at performed
    split at performed
    next body published =>
      cases performed
      exact .quiet rfl Bool.false_ne_true Bool.false_ne_true published
    · cases performed
  | keepTarget slot target =>
    simp only [Store.perform] at performed
    split at performed
    · cases performed
      exact .quiet rfl Bool.false_ne_true Bool.false_ne_true trivial
    · cases performed
      exact .quiet rfl Bool.false_ne_true Bool.false_ne_true trivial
  | _ =>
    cases performed
    exact .quiet rfl Bool.false_ne_true Bool.false_ne_true trivial

/-- What is allowed leaves the store coherent with its history. -/
theorem perform (coherent : Coherent store history) {sources : Sources}
    {calm : Prop} {action : Action} {answer : action.Answer}
    (allowed : (discipline { sources, thread } calm).allows
      (history.past thread) action)
    (performed : store.perform thread action = .ok (answer, later)) :
    Coherent later ((thread, ⟨action, answer⟩) :: history) := by
  cases coherent.changes allowed performed with
  | quiet same making publishing confirms =>
    exact coherent.quiet same making publishing confirms
  | make entry absent own blank same =>
    exact coherent.make entry absent own blank same
  | publish begun present blank same =>
    exact coherent.publish begun present blank same

theorem exists_of_hasEntered (coherent : Coherent store history)
    {name : TypeName} (entered : hasEntered (history.past thread) name = true) :
    ∃ entry, store.entries.get? name = some entry := by
  obtain ⟨⟨action, answer⟩, member, enters⟩ := List.any_eq_true.1 entered
  have confirms := coherent.confirmed thread _ (History.mem_past.1 member)
  cases action with
  | enter asked =>
    cases beq_iff_eq.1 enters
    cases answer with
    | made identity =>
      obtain ⟨entry, found, _⟩ := confirms
      exact ⟨entry, (Store.entryFor?_eq_some.1 found).1⟩
    | present identity builder isPublished =>
      obtain ⟨entry, found, _⟩ := confirms
      exact ⟨entry, (Store.entryFor?_eq_some.1 found).1⟩
  | _ => cases enters

theorem promised (coherent : Coherent store history) {sources : Sources}
    {calm : Prop} {action : Action} {answer : action.Answer}
    (performed : store.perform thread action = .ok (answer, later)) :
    (discipline { sources, thread } calm).promises (history.past thread)
      ⟨action, answer⟩ := by
  cases action with
  | enter name =>
    cases present : store.entries.get? name with
    | some entry =>
      simp only [Store.perform, present, Except.ok.injEq,
        Prod.mk.injEq] at performed
      obtain ⟨rfl, rfl⟩ := performed
      intro own unpublished
      refine (coherent.unfinished _ _ _).2
        ⟨entry, Store.entryFor?_eq_some.2 ⟨present, rfl⟩, own, ?_⟩
      exact Option.isNone_iff_eq_none.1
        (Option.isSome_eq_false_iff.1 unpublished)
    | none =>
      simp only [Store.perform, present, Except.ok.injEq,
        Prod.mk.injEq] at performed
      obtain ⟨rfl, rfl⟩ := performed
      refine Bool.eq_false_iff.2 fun entered => ?_
      obtain ⟨entry, found⟩ := coherent.exists_of_hasEntered entered
      rw [present] at found
      cases found
  | _ => trivial

theorem secured (coherent : Coherent store history) {descriptor : Descriptor}
    (secures : Secures (history.past thread) descriptor) :
    ∃ body, store.body? descriptor = some body := by
  cases descriptor with
  | detached identity expression body => exact ⟨body, rfl⟩
  | cached name identity =>
    obtain ⟨body, published | read⟩ := secures
    · obtain ⟨entry, found, _, told⟩ :=
        coherent.confirmed thread _ (History.mem_past.1 published)
      exact ⟨body, Option.bind_eq_some_iff.2 ⟨entry, found, told⟩⟩
    · exact ⟨body, coherent.confirmed thread _ (History.mem_past.1 read)⟩

theorem introduced (coherent : Coherent store history) {name : TypeName}
    {identity : Nat}
    (introduces : Introduces (history.past thread) name identity) :
    ∃ entry, store.entryFor? name identity = some entry := by
  rcases introduces with made | ⟨builder, isPublished, present⟩
  · obtain ⟨entry, found, _⟩ :=
      coherent.confirmed thread _ (History.mem_past.1 made)
    exact ⟨entry, found⟩
  · obtain ⟨entry, found, _⟩ :=
      coherent.confirmed thread _ (History.mem_past.1 present)
    exact ⟨entry, found⟩

/-- A thread that has to wait does so for another thread's assembly. -/
theorem blocked (coherent : Coherent store history) {sources : Sources}
    {calm : Prop} {action : Action} {descriptor : Descriptor}
    (allowed : (discipline { sources, thread } calm).allows
      (history.past thread) action)
    (stuck : store.perform thread action = .error descriptor) :
    action = .await descriptor ∧
      ∃ other, other ≠ thread ∧
        (descriptor.name, descriptor.identity) ∈
          Past.unfinished (history.past other) := by
  cases action with
  | await awaited =>
    simp only [Store.perform] at stuck
    split at stuck
    · cases stuck
    next unpublished =>
      cases stuck
      refine ⟨rfl, ?_⟩
      rcases allowed.1 with secures | ⟨name, identity, builder, isPublished,
        rfl, member, others⟩
      · obtain ⟨body, published⟩ := coherent.secured secures
        rw [published] at unpublished
        cases unpublished
      · obtain ⟨entry, found, own, told⟩ :=
          coherent.confirmed thread _ (History.mem_past.1 member)
        have blank : entry.body? = none := by
          simpa [Store.body?, found] using unpublished
        refine ⟨entry.builder, ?_, (coherent.unfinished _ _ _).2
          ⟨entry, found, rfl, blank⟩⟩
        rw [own]
        rcases others with published | other
        · have some := told published
          rw [Entry.isPublished, blank] at some
          cases some
        · exact other
  | enter name =>
    simp only [Store.perform] at stuck
    split at stuck <;> cases stuck
  | publish name identity body =>
    simp only [Store.perform] at stuck
    split at stuck <;> cases stuck
  | keepTarget slot target =>
    simp only [Store.perform] at stuck
    split at stuck <;> cases stuck
  | _ => cases stuck

end Coherent

end TypeAtlas
