import TypeAtlas.Proofs.Registry.History
import TypeAtlas.Proofs.Registry.Nesting

/-!
# Running in company

A thread may find any store when it begins, with entries that are unpublished
for whatever reason, and other threads may act before each of its own actions.
Its past then tells which entries it has made: names that were not cached, each
of them once, which stay unpublished until it publishes them.  It waits only for
what another thread is assembling.
-/

namespace TypeAtlas

open Past Lookup

/-- What other threads do to the store of a thread before each of its actions.
They take no entries back, and leave those alone that the thread has made. -/
structure Company (thread : ThreadId) where
  act : Past → Store → Store
  within : ∀ (past : Past) (store : Store), store.Within (act past store)
  leaves : ∀ (past : Past) (store : Store) (name : TypeName) (entry : Entry),
    entry.builder = thread → store.entries.get? name = some entry →
      (act past store).entries.get? name = some entry

/-- Whether no thread but this one has assemblies that are not finished. -/
def Store.IsLeftTo (store : Store) (thread : ThreadId) : Prop :=
  ∀ name entry, store.entries.get? name = some entry →
    entry.isPublished = true ∨ entry.builder = thread

/-- What a thread enters is its own, and what it publishes is finished. -/
theorem Store.IsLeftTo.perform {store later : Store} {thread : ThreadId}
    (left : store.IsLeftTo thread) {action : Action} {answer : action.Answer}
    (performed : store.perform thread action = .ok (answer, later)) :
    later.IsLeftTo thread := by
  have unchanged (same : later.entries = store.entries) :
      later.IsLeftTo thread := by
    unfold IsLeftTo
    rwa [same]
  have changed {name : TypeName} {entry : Entry}
      (good : entry.isPublished = true ∨ entry.builder = thread)
      (same : later.entries = store.entries.insert name entry) :
      later.IsLeftTo thread := by
    intro other found present
    rw [same, NameMap.get?_insert] at present
    split at present
    · cases present
      exact good
    · exact left other found present
  cases action with
  | enter name =>
    simp only [Store.perform] at performed
    split at performed
    · cases performed
      exact left
    · cases performed
      exact changed (.inr rfl) rfl
  | publish name identity body =>
    simp only [Store.perform] at performed
    split at performed
    next entry found =>
      cases performed
      refine changed (.inl ?_) rfl
      cases told : entry.body? <;> simp [Entry.publish, Entry.isPublished, told]
    · cases performed
      exact left
  | await descriptor =>
    simp only [Store.perform] at performed
    split at performed
    · cases performed
      exact left
    · cases performed
  | keepTarget slot target =>
    simp only [Store.perform] at performed
    split at performed <;>
    · cases performed
      exact unchanged rfl
  | _ =>
    cases performed
    exact unchanged rfl

namespace Procedure

variable {thread : ThreadId}

/-- Runs a procedure of a thread while other threads act as well. -/
def runAmong (company : Company thread) : Procedure α → Past → Store → Run α
  | .done value, _, store => { outcome := .ok value, deeds := [], store }
  | .act action next, past, store =>
    match (company.act past store).perform thread action with
    | .error descriptor =>
      { outcome := .error descriptor
        deeds := []
        store := company.act past store }
    | .ok (answer, store) =>
      let rest :=
        (next answer).runAmong company (⟨action, answer⟩ :: past) store
      { rest with deeds := ⟨action, answer⟩ :: rest.deeds }

/-- What each action and each doing of the company keeps is true at the end. -/
theorem runAmong_keeps {holds : Store → Prop} (company : Company thread)
    (joins : ∀ past store, holds store → holds (company.act past store))
    (acts : ∀ store action (answer : action.Answer) later,
      holds store → store.perform thread action = .ok (answer, later) →
        holds later)
    (procedure : Procedure α) (past : Past) (store : Store)
    (held : holds store) :
    holds (procedure.runAmong company past store).store := by
  induction procedure generalizing past store with
  | done value => exact held
  | act action next ih =>
    have joined := joins past store held
    cases performed : (company.act past store).perform thread action with
    | error descriptor =>
      simpa only [runAmong, performed] using joined
    | ok result =>
      obtain ⟨answer, later⟩ := result
      have after := acts _ action answer later joined performed
      simpa only [runAmong, performed] using
        ih answer (⟨action, answer⟩ :: past) later after

/-- A procedure that meets a contract which promises nothing keeps what each of
its actions and each doing of its company keeps.  It ends as it ensures, or with
an action that has to wait. -/
theorem Meets.runAmong {contract : Contract} {ensures : Past → α → Prop}
    {procedure : Procedure α} {past : Past}
    (meets : procedure.Meets contract ensures past)
    (promises : ∀ past deed, contract.promises past deed)
    (company : Company thread) (holds : Past → Store → Prop)
    (joins : ∀ past store, holds past store →
      holds past (company.act past store))
    (acts : ∀ past store action (answer : action.Answer) later,
      contract.allows past action → holds past store →
        store.perform thread action = .ok (answer, later) →
          holds (⟨action, answer⟩ :: past) later)
    (store : Store) (held : holds past store) :
    let run := procedure.runAmong company past store
    let ended := run.deeds.reverse ++ past
    holds ended run.store ∧
      (∀ value, run.outcome = .ok value → ensures ended value) ∧
        ∀ descriptor, run.outcome = .error descriptor →
          ∃ action, contract.allows ended action ∧
            run.store.perform thread action = .error descriptor := by
  induction procedure generalizing past store with
  | done value =>
    refine ⟨held, ?_, ?_⟩
    · rintro _ ⟨⟩
      exact meets
    · rintro _ ⟨⟩
  | act action next ih =>
    obtain ⟨allowed, goesOn⟩ := meets
    have joined := joins past store held
    cases performed : (company.act past store).perform thread action with
    | error descriptor =>
      simp only [Procedure.runAmong, performed]
      refine ⟨joined, ?_, ?_⟩
      · rintro _ ⟨⟩
      · rintro _ ⟨⟩
        exact ⟨action, allowed, performed⟩
    | ok result =>
      obtain ⟨answer, later⟩ := result
      have rest := ih answer (goesOn answer (promises past _)) later
        (acts past _ action answer later allowed joined performed)
      simpa only [Procedure.runAmong, performed, List.reverse_cons,
        List.append_assoc, List.singleton_append] using rest

end Procedure

def Deed.made? : Deed → Option TypeName
  | ⟨.enter name, .made _⟩ => some name
  | _ => none

def Deed.built? : Deed → Option TypeName
  | ⟨.mark (.building name), _⟩ => some name
  | _ => none

theorem Deed.made?_eq_none {deed : Deed} (making : ¬ deed.isMaking) :
    deed.made? = none := by
  obtain ⟨action, answer⟩ := deed
  cases action with
  | enter name =>
    cases answer with
    | made identity => exact (making rfl).elim
    | present identity builder isPublished => rfl
  | _ => rfl

namespace Past

def made (past : Past) : List TypeName :=
  past.filterMap Deed.made?

def built (past : Past) : List TypeName :=
  past.filterMap Deed.built?

variable {past : Past}

theorem exists_of_mem_made {name : TypeName} (member : name ∈ made past) :
    ∃ identity, (⟨.enter name, .made identity⟩ : Deed) ∈ past := by
  obtain ⟨⟨action, answer⟩, within, same⟩ := List.mem_filterMap.1 member
  cases action with
  | enter asked =>
    cases answer with
    | made identity =>
      cases same
      exact ⟨identity, within⟩
    | present identity builder isPublished => cases same
  | _ => cases same

/-- The assemblies that are to end are for some of the entries made. -/
theorem unfinished_sublist_made (past : Past) :
    ((unfinished past).map Prod.fst).Sublist (made past) := by
  induction past with
  | nil => exact List.Sublist.refl []
  | cons deed past ih =>
    obtain ⟨action, answer⟩ := deed
    cases action with
    | enter name =>
      cases answer with
      | made identity => exact ih.cons_cons name
      | present identity builder isPublished => exact ih
    | publish name identity body =>
      have fewer := (List.tail_sublist (unfinished past)).map Prod.fst
      exact fewer.trans ih
    | _ => exact ih

/-- The builds that have not ended are some of those that began. -/
theorem stack_sublist_built (past : Past) :
    (stack past).Sublist (built past) := by
  induction past with
  | nil => exact List.Sublist.refl []
  | cons deed past ih =>
    obtain ⟨action, answer⟩ := deed
    cases action with
    | mark mark =>
      cases mark with
      | building name => exact ih.cons_cons name
      | _ => exact ih
    | recordBuild failed => exact (List.tail_sublist _).trans ih
    | _ => exact ih

/-- Whether a past fits the store that was found at first and the store as it is
now, which other threads may have changed as well. -/
structure Spans (origin : Store) (thread : ThreadId) (past : Past)
    (store : Store) : Prop where
  within : origin.Within store
  confirmed : ∀ deed ∈ past, store.Confirms thread deed
  absent : ∀ name ∈ made past, origin.entries.get? name = none
  distinct : (made past).Nodup
  pending : ∀ name identity, (name, identity) ∈ unfinished past →
    ∃ entry, store.entryFor? name identity = some entry ∧
      entry.builder = thread ∧ entry.body? = none

namespace Spans

variable {origin store later : Store} {thread : ThreadId}

theorem refl (origin : Store) (thread : ThreadId) :
    Spans origin thread [] origin where
  within := .refl origin
  confirmed _ member := (List.not_mem_nil member).elim
  absent _ member := (List.not_mem_nil member).elim
  distinct := List.nodup_nil
  pending _ _ member := (List.not_mem_nil member).elim

theorem joins (spans : Spans origin thread past store)
    (company : Company thread) :
    Spans origin thread past (company.act past store) where
  within := spans.within.trans (company.within past store)
  confirmed deed member :=
    (spans.confirmed deed member).within (company.within past store)
  absent := spans.absent
  distinct := spans.distinct
  pending name identity member := by
    obtain ⟨entry, found, own, blank⟩ := spans.pending name identity member
    obtain ⟨present, same⟩ := Store.entryFor?_eq_some.1 found
    exact ⟨entry, Store.entryFor?_eq_some.2
      ⟨company.leaves past store name entry own present, same⟩, own, blank⟩

theorem quiet (spans : Spans origin thread past store) {deed : Deed}
    (same : later.entries = store.entries) (making : ¬ deed.isMaking)
    (publishing : ¬ deed.isPublishing)
    (confirms : store.Confirms thread deed) :
    Spans origin thread (deed :: past) later := by
  have grows : store.Within later := .of_entries_eq same
  have unmade : made (deed :: past) = made past :=
    List.filterMap_cons_none (Deed.made?_eq_none making)
  have pending := unfinished_cons_of_quiet making publishing past
  constructor
  · exact spans.within.trans grows
  · intro told member
    rcases List.mem_cons.1 member with rfl | before
    · exact confirms.within grows
    · exact (spans.confirmed told before).within grows
  · rw [unmade]
    exact spans.absent
  · rw [unmade]
    exact spans.distinct
  · rw [pending]
    simp only [Store.entryFor?, same]
    exact spans.pending

theorem make (spans : Spans origin thread past store) {name : TypeName}
    (entry : Entry) (vacant : store.entries.get? name = none)
    (own : entry.builder = thread) (blank : entry.body? = none)
    (same : later.entries = store.entries.insert name entry) :
    Spans origin thread (⟨.enter name, .made entry.identity⟩ :: past)
      later := by
  have grows : store.Within later := by
    refine Store.Within.of_insert same fun old present => ?_
    rw [vacant] at present
    cases present
  have found : later.entryFor? name entry.identity = some entry :=
    Store.entryFor?_eq_some.2
      ⟨by rw [same, NameMap.get?_insert, if_pos rfl], rfl⟩
  constructor
  · exact spans.within.trans grows
  · intro told member
    rcases List.mem_cons.1 member with rfl | before
    · exact ⟨entry, found, own⟩
    · exact (spans.confirmed told before).within grows
  · intro other member
    rcases List.mem_cons.1 member with rfl | before
    · refine Option.eq_none_iff_forall_ne_some.2 fun old present => ?_
      obtain ⟨kept, here, _⟩ := spans.within _ old present
      rw [vacant] at here
      cases here
    · exact spans.absent other before
  · refine List.nodup_cons.2 ⟨fun member => ?_, spans.distinct⟩
    obtain ⟨identity, done⟩ := exists_of_mem_made member
    obtain ⟨old, here, _⟩ := spans.confirmed _ done
    rw [(Store.entryFor?_eq_some.1 here).1] at vacant
    cases vacant
  · intro other identity member
    rcases List.mem_cons.1 member with here | before
    · cases here
      exact ⟨entry, found, own, blank⟩
    · obtain ⟨old, present, owned, unpublished⟩ :=
        spans.pending other identity before
      obtain ⟨known, numbered⟩ := Store.entryFor?_eq_some.1 present
      refine ⟨old, Store.entryFor?_eq_some.2 ⟨?_, numbered⟩, owned, unpublished⟩
      have different : other ≠ name := by
        rintro rfl
        rw [vacant] at known
        cases known
      rw [same, NameMap.get?_insert, if_neg different]
      exact known

theorem publish (spans : Spans origin thread past store) {name : TypeName}
    {identity : Nat} {outer : List (TypeName × Nat)} {entry : Entry}
    {body : Body} (begun : unfinished past = (name, identity) :: outer)
    (present : store.entryFor? name identity = some entry)
    (same : later.entries = store.entries.insert name (entry.publish body)) :
    Spans origin thread (⟨.publish name identity body, ()⟩ :: past) later := by
  obtain ⟨known, numbered⟩ := Store.entryFor?_eq_some.1 present
  obtain ⟨held, found, own, blank⟩ :=
    spans.pending name identity (begun ▸ List.mem_cons_self)
  cases found.symm.trans present
  have grows : store.Within later := by
    refine Store.Within.of_insert same fun old here => ?_
    cases known.symm.trans here
    exact entry.within_publish body
  -- Each entry is made once, so no other assembly is for the name.
  have distinct : (name :: outer.map Prod.fst).Nodup := by
    have names := (unfinished_sublist_made past).nodup spans.distinct
    rwa [begun] at names
  constructor
  · exact spans.within.trans grows
  · intro told member
    rcases List.mem_cons.1 member with rfl | before
    · refine ⟨entry.publish body, Store.entryFor?_eq_some.2 ⟨?_, numbered⟩, own,
        ?_⟩
      · rw [same, NameMap.get?_insert, if_pos rfl]
      · simp [Entry.publish, blank]
    · exact (spans.confirmed told before).within grows
  · exact spans.absent
  · exact spans.distinct
  · intro other number member
    have within : (other, number) ∈ outer := by
      change (other, number) ∈ (unfinished past).tail at member
      rwa [begun] at member
    have different : other ≠ name := by
      rintro rfl
      exact (List.nodup_cons.1 distinct).1 (List.mem_map_of_mem within)
    obtain ⟨old, pending, owned, unpublished⟩ := spans.pending other number
      (begun ▸ List.mem_cons_of_mem _ within)
    obtain ⟨there, same_⟩ := Store.entryFor?_eq_some.1 pending
    refine ⟨old, Store.entryFor?_eq_some.2 ⟨?_, same_⟩, owned, unpublished⟩
    rw [same, NameMap.get?_insert, if_neg different]
    exact there

theorem acts (spans : Spans origin thread past store) {sources : Sources}
    {names : List TypeName} {action : Action} {answer : action.Answer}
    (allowed : (nesting { sources, thread } names).allows past action)
    (performed : store.perform thread action = .ok (answer, later)) :
    Spans origin thread (⟨action, answer⟩ :: past) later := by
  cases action with
  | enter name =>
    cases present : store.entries.get? name with
    | some entry =>
      simp only [Store.perform, present, Except.ok.injEq,
        Prod.mk.injEq] at performed
      obtain ⟨rfl, rfl⟩ := performed
      exact spans.quiet rfl Bool.false_ne_true Bool.false_ne_true
        ⟨entry, Store.entryFor?_eq_some.2 ⟨present, rfl⟩, rfl, id⟩
    | none =>
      simp only [Store.perform, present, Except.ok.injEq,
        Prod.mk.injEq] at performed
      obtain ⟨rfl, rfl⟩ := performed
      exact spans.make { identity := store.fresh, builder := thread } present
        rfl rfl rfl
  | publish name identity body =>
    obtain ⟨outer, begun⟩ := allowed
    obtain ⟨entry, present, _⟩ :=
      spans.pending name identity (begun ▸ List.mem_cons_self)
    simp only [Store.perform, present, Except.ok.injEq,
      Prod.mk.injEq] at performed
    obtain ⟨_, rfl⟩ := performed
    exact spans.publish begun present rfl
  | await descriptor =>
    simp only [Store.perform] at performed
    split at performed
    next body published =>
      cases performed
      exact spans.quiet rfl Bool.false_ne_true Bool.false_ne_true published
    · cases performed
  | keepTarget slot target =>
    simp only [Store.perform] at performed
    split at performed
    · cases performed
      exact spans.quiet rfl Bool.false_ne_true Bool.false_ne_true trivial
    · cases performed
      exact spans.quiet rfl Bool.false_ne_true Bool.false_ne_true trivial
  | _ =>
    cases performed
    exact spans.quiet rfl Bool.false_ne_true Bool.false_ne_true trivial

theorem body?_of_secures (spans : Spans origin thread past store)
    {descriptor : Descriptor} (secures : Secures past descriptor) :
    ∃ body, store.body? descriptor = some body := by
  cases descriptor with
  | detached identity expression body => exact ⟨body, rfl⟩
  | cached name identity =>
    obtain ⟨body, published | read⟩ := secures
    · obtain ⟨entry, found, _, told⟩ := spans.confirmed _ published
      exact ⟨body, Option.bind_eq_some_iff.2 ⟨entry, found, told⟩⟩
    · exact ⟨body, spans.confirmed _ read⟩

/-- What a thread has to wait for is what another thread is assembling. -/
theorem waits (spans : Spans origin thread past store) {sources : Sources}
    {names : List TypeName} {action : Action} {descriptor : Descriptor}
    (allowed : (nesting { sources, thread } names).allows past action)
    (stuck : store.perform thread action = .error descriptor) :
    ∃ name entry, descriptor = .cached name entry.identity ∧
      store.entries.get? name = some entry ∧ entry.isPublished = false ∧
        entry.builder ≠ thread := by
  cases action with
  | await awaited =>
    simp only [Store.perform] at stuck
    split at stuck
    · cases stuck
    next unpublished =>
      cases stuck
      rcases allowed with secures | ⟨name, identity, builder, isPublished,
        rfl, member, others⟩
      · obtain ⟨body, published⟩ := spans.body?_of_secures secures
        rw [published] at unpublished
        cases unpublished
      · obtain ⟨entry, found, own, told⟩ := spans.confirmed _ member
        have blank : entry.body? = none := by
          simpa [Store.body?, found] using unpublished
        have open_ : entry.isPublished = false := by
          rw [Entry.isPublished, blank]
          rfl
        obtain ⟨present, rfl⟩ := Store.entryFor?_eq_some.1 found
        refine ⟨name, entry, rfl, present, open_, ?_⟩
        rw [own]
        refine others.resolve_left fun published => ?_
        rw [told published] at open_
        cases open_
  | enter name =>
    simp only [Store.perform] at stuck
    split at stuck <;> cases stuck
  | publish name identity body =>
    simp only [Store.perform] at stuck
    split at stuck <;> cases stuck
  | keepTarget slot target =>
    simp only [Store.perform] at stuck
    split at stuck <;> cases stuck
  | _ => cases stuck

end Spans

namespace Lawful

variable {agent : Agent} {names : List TypeName}

/-- Whatever is made was asked for, or is mentioned by the sources. -/
theorem mem_of_made (lawful : Lawful (nesting agent names) past)
    {name : TypeName} (member : name ∈ made past) :
    name ∈ names ++ agent.sources.mentioned := by
  obtain ⟨identity, done⟩ := exists_of_mem_made member
  obtain ⟨_, earlier, _, mentioned | ⟨_, asked⟩⟩ := lawful.allowed done
  · exact List.mem_append_right _ mentioned
  · exact List.mem_append_left _ asked

/-- Only the outermost of the assemblies is not for a mentioned name. -/
theorem mem_mentioned (lawful : Lawful (nesting agent names) past)
    {name : TypeName}
    (member : name ∈ ((unfinished past).map Prod.fst).dropLast) :
    name ∈ agent.sources.mentioned := by
  induction past with
  | nil => cases member
  | cons deed past ih =>
    have before := ih lawful.2
    obtain ⟨action, answer⟩ := deed
    cases action with
    | enter asked =>
      cases answer with
      | made identity =>
        change name ∈ (asked :: (unfinished past).map Prod.fst).dropLast
          at member
        cases begun : unfinished past with
        | nil =>
          rw [begun] at member
          cases member
        | cons inner outer =>
          have inside := lawful.1
          change agent.sources.MayAsk names (unfinished past) asked at inside
          rw [begun] at member before inside
          rcases List.mem_cons.1 member with rfl | within
          · exact inside.resolve_right fun none => nomatch none.1
          · exact before within
      | present identity builder isPublished => exact before member
    | publish published identity body =>
      change name ∈ ((unfinished past).tail.map Prod.fst).dropLast at member
      generalize unfinished past = begun at member before
      rcases begun with _ | ⟨_, _ | ⟨inner, outer⟩⟩
      · cases member
      · cases member
      · exact before (List.mem_cons_of_mem _ member)
    | _ => exact before member

/-- Each build begins right after its entry was made. -/
theorem built_sublist_made (lawful : Lawful (nesting agent names) past) :
    (built past).Sublist (made past) := by
  induction length : past.length using Nat.strongRecOn generalizing past with
  | ind steps ih =>
    subst length
    cases past with
    | nil => exact List.Sublist.refl []
    | cons deed past =>
      have before := ih _ (Nat.lt_succ_self _) lawful.2 rfl
      obtain ⟨action, answer⟩ := deed
      cases action with
      | enter name =>
        cases answer with
        | made identity => exact before.cons name
        | present identity builder isPublished => exact before
      | mark mark =>
        cases mark with
        | building name =>
          -- The entry was made for this build, so none before it counts twice.
          obtain ⟨⟨kind, identity, begun, rfl⟩, allowed⟩ := lawful
          have begins : begun <:+ opened kind name identity begun := by
            cases kind with
            | topLevel => exact ⟨[_, _, _], rfl⟩
            | nested => exact ⟨[_, _], rfl⟩
          have earlier := ih begun.length (Nat.lt_succ_of_le begins.length_le)
            (allowed.of_suffix begins) rfl
          cases kind <;> exact earlier.cons_cons name
        | _ => exact before
      | _ => exact before

end Lawful

end Past

end TypeAtlas
