import Mathlib.Data.Finset.Card
import Mathlib.Data.Finset.Dedup
import TypeAtlas.Proofs.Facts.Hierarchy
import TypeAtlas.Proofs.Registry.Causes
import TypeAtlas.Proofs.Registry.Depth

/-!
# Operations come to an end

An operation assembles each name once, and only names that it asks for, or that
the sources mention, and that were not cached when it began.  There are finitely
many of them, and so builds nest no deeper than there are such names: the bound
on their depth is never reached, and could be any other that leaves this room.
It does not matter what is cached when the operation begins, nor what other
threads do in the meantime.
-/

namespace TypeAtlas

open Past Lookup

namespace Store

/-- Those of some names that are not cached. -/
def uncached (store : Store) (names : List TypeName) : Finset TypeName :=
  names.toFinset.filter fun name => (store.entries.get? name).isNone

theorem mem_uncached {store : Store} {names : List TypeName}
    {name : TypeName} :
    name ∈ store.uncached names ↔
      name ∈ names ∧ store.entries.get? name = none := by
  simp [uncached]

end Store

theorem Past.length_le_card {names : List TypeName} {within : Finset TypeName}
    (distinct : names.Nodup) (subset : ∀ name ∈ names, name ∈ within) :
    names.length ≤ within.card := by
  rw [← List.toFinset_card_of_nodup distinct]
  exact Finset.card_le_card fun name member =>
    subset name (List.mem_toFinset.1 member)

namespace Operation

/-- The names that an operation may assemble, by itself or inside of builds. -/
def reach (operation : Operation) (sources : Sources) : List TypeName :=
  operation.names ++ sources.mentioned

/-- The run of an operation in company, with a bound on the depth of builds. -/
def runWithin (operation : Operation) (sources : Sources) {thread : ThreadId}
    (company : Company thread) (store : Store) (depth : Nat) :
    Procedure.Run (Except Stop Descriptor) :=
  let agent : Agent := { sources, thread }
  let lookup := operation.request agent (Lookup.build agent depth)
  (ExceptT.run lookup).runAmong company [] store

/-- Whether an operation comes to an end, from a given store and in given
company.  What it builds is counted in names that it may assemble and that are
not cached at first. -/
structure Terminates (operation : Operation) (sources : Sources)
    {thread : ThreadId} (company : Company thread) (store : Store)
    (run : Procedure.Run (Except Stop Descriptor)) : Prop where
  /-- It comes to an answer, or waits for what another thread assembles. -/
  ends : (∃ outcome, run.outcome = .ok outcome ∧ Answers outcome) ∨
    ∃ name entry, run.outcome = .error (.cached name entry.identity) ∧
      run.store.entries.get? name = some entry ∧
        entry.isPublished = false ∧ entry.builder ≠ thread
  /-- It waits for nobody where the others finish what they begin. -/
  unhindered : store.IsLeftTo thread →
    (∀ past current, current.IsLeftTo thread →
      (company.act past current).IsLeftTo thread) →
        ∃ outcome, run.outcome = .ok outcome ∧ Answers outcome
  distinct : (built run.deeds.reverse).Nodup
  fresh : ∀ name ∈ built run.deeds.reverse,
    name ∈ operation.reach sources ∧ store.entries.get? name = none
  few : (built run.deeds.reverse).length ≤
    (store.uncached (operation.reach sources)).card
  /-- At no time are more builds inside each other. -/
  shallow : ∀ past, past <:+ run.deeds.reverse →
    (stack past).length ≤ (store.uncached (operation.reach sources)).card
  /-- Any bound on depth that leaves this room is as good as another. -/
  unbounded : ∀ depth,
    (store.uncached (operation.reach sources)).card ≤ depth →
      operation.runWithin sources company store depth = run
  /-- The ancestors of a type are met once each, also if they form a circle. -/
  climbs : ∀ facts, (sources.provider.ancestors facts).Nodup ∧
    ∀ name ∈ sources.provider.ancestors facts, name ∈ facts.supertypes ∨
      ∃ sub, sources.provider.HasSupertype sub name

variable {operation : Operation} {sources : Sources} {thread : ThreadId}
  {company : Company thread} {store : Store} {depth : Nat}

theorem runWithin_spends (operation : Operation) (sources : Sources)
    (company : Company thread) (store : Store) (depth : Nat) :
    let run := operation.runWithin sources company store depth
    let past := run.deeds.reverse
    (Lawful (nesting { sources, thread } operation.names) past ∧
        Spans store thread past run.store) ∧
      (∀ outcome, run.outcome = .ok outcome →
        Spends (depth + 1) [] past outcome) ∧
      ∀ descriptor, run.outcome = .error descriptor →
        ∃ name entry, descriptor = .cached name entry.identity ∧
          run.store.entries.get? name = some entry ∧
            entry.isPublished = false ∧ entry.builder ≠ thread := by
  let contract := nesting { sources, thread } operation.names
  have nests := request_nests { sources, thread } operation depth [] rfl
  have done := nests.runAmong (fun _ _ => trivial) company
    (fun past current => Lawful contract past ∧
      Spans store thread past current)
    (fun past current held => ⟨held.1, held.2.joins company⟩)
    (fun past current action answer later allowed held performed =>
      ⟨⟨allowed, held.1⟩, held.2.acts allowed performed⟩)
    store ⟨trivial, Spans.refl store thread⟩
  simp only [List.append_nil] at done
  obtain ⟨held, ended, waited⟩ := done
  refine ⟨held, ended, fun descriptor same => ?_⟩
  obtain ⟨action, allowed, stuck⟩ := waited descriptor same
  exact held.2.waits allowed stuck

/-- What is made was not cached, so that there is only so much of it. -/
theorem mem_uncached_of_made {past : Past} {current : Store}
    (lawful : Lawful (nesting { sources, thread } operation.names) past)
    (spans : Spans store thread past current) :
    ∀ name ∈ made past, name ∈ store.uncached (operation.reach sources) :=
  fun name member => Store.mem_uncached.2
    ⟨lawful.mem_of_made member, spans.absent name member⟩

/-- A bound that leaves enough room is never reached. -/
theorem runWithin_ne_exhausted
    (enough : (store.uncached (operation.reach sources)).card ≤ depth ∨
      sources.depthBound ≤ depth) :
    (operation.runWithin sources company store depth).outcome ≠
      .ok (.error .exhausted) := by
  intro same
  obtain ⟨⟨lawful, spans⟩, ended, _⟩ :=
    runWithin_spends operation sources company store depth
  have begun := ended _ same
  generalize (operation.runWithin sources company store depth).deeds.reverse =
    past at lawful spans begun
  have begun : depth + 1 ≤ ((unfinished past).map Prod.fst).length := by
    simpa [Spends] using begun
  have sublist := unfinished_sublist_made past
  have distinct := sublist.nodup spans.distinct
  rcases enough with enough | enough
  · have room := length_le_card distinct fun name member =>
      mem_uncached_of_made lawful spans name (sublist.subset member)
    omega
  · -- All but the outermost assembly are for names that sources mention.
    have inner : ((unfinished past).map Prod.fst).dropLast.length ≤
        sources.mentioned.toFinset.card :=
      length_le_card (distinct.sublist (List.dropLast_sublist _))
        fun name member => List.mem_toFinset.2 (lawful.mem_mentioned member)
    have mentioned := List.toFinset_card_le sources.mentioned
    rw [List.length_dropLast] at inner
    unfold Sources.depthBound at enough
    omega

/-- Bounds that leave enough room all make the same run. -/
theorem runWithin_eq
    (enough : (store.uncached (operation.reach sources)).card ≤ depth) :
    operation.runWithin sources company store depth =
      operation.runWithin sources company store sources.depthBound := by
  have cuts {first second : Nat} (le : first ≤ second) :
      (operation.runWithin sources company store first).outcome =
          .ok (.error .exhausted) ∨
        operation.runWithin sources company store second =
          operation.runWithin sources company store first := by
    obtain ⟨more, rfl⟩ := Nat.exists_eq_add_of_le le
    exact ((request_cuts { sources, thread } operation first more).runAmong
      company [] store).imp_left fun ⟨_, same, cut⟩ => cut ▸ same
  rcases Nat.le_total depth sources.depthBound with fewer | more
  · exact ((cuts fewer).resolve_left
      (runWithin_ne_exhausted (.inl enough))).symm
  · exact (cuts more).resolve_left
      (runWithin_ne_exhausted (.inr (Nat.le_refl _)))

theorem runWithin_answers (operation : Operation) (sources : Sources)
    (company : Company thread) (store : Store)
    {outcome : Except Stop Descriptor}
    (ended : (operation.runWithin sources company store
      sources.depthBound).outcome = .ok outcome) :
    Answers outcome := by
  obtain ⟨_, spends, _⟩ :=
    runWithin_spends operation sources company store sources.depthBound
  have spent := spends outcome ended
  have traced := (operation.request_traced { sources, thread } [] rfl).runAmong
    (fun _ _ => trivial) company (fun _ _ => True) (fun _ _ _ => trivial)
    (fun _ _ _ _ _ _ _ _ => trivial) store trivial
  rcases outcome with stop | descriptor
  · have requested := (traced.2.1 _ ended).2 stop rfl
    cases stop with
    | error error => trivial
    | crash crash =>
      rcases requested with own | delivers
      · exact own.elim
      · exact delivers.error trivial
    | blocked name => exact spent.elim
    | exhausted =>
      exact (runWithin_ne_exhausted (.inr (Nat.le_refl _)) ended).elim
  · trivial

/-- It comes to an answer, or waits for what another thread assembles. -/
theorem runWithin_ends (operation : Operation) (sources : Sources)
    (company : Company thread) (store : Store) :
    let run := operation.runWithin sources company store sources.depthBound
    (∃ outcome, run.outcome = .ok outcome ∧ Answers outcome) ∨
      ∃ name entry, run.outcome = .error (.cached name entry.identity) ∧
        run.store.entries.get? name = some entry ∧
          entry.isPublished = false ∧ entry.builder ≠ thread := by
  intro run
  cases ended : run.outcome with
  | ok outcome =>
    exact .inl ⟨outcome, rfl,
      runWithin_answers operation sources company store ended⟩
  | error descriptor =>
    obtain ⟨_, _, waits⟩ :=
      runWithin_spends operation sources company store sources.depthBound
    obtain ⟨name, entry, rfl, waited⟩ := waits descriptor ended
    exact .inr ⟨name, entry, rfl, waited⟩

/-- Where the others finish what they begin, nothing is left to wait for. -/
theorem runWithin_unhindered (operation : Operation) (sources : Sources)
    (company : Company thread) (store : Store)
    (left : store.IsLeftTo thread)
    (finish : ∀ past current, current.IsLeftTo thread →
      (company.act past current).IsLeftTo thread) :
    ∃ outcome, (operation.runWithin sources company store
      sources.depthBound).outcome = .ok outcome ∧ Answers outcome := by
  refine (runWithin_ends operation sources company store).resolve_right ?_
  rintro ⟨name, entry, -, present, unpublished, foreign⟩
  have remains : (operation.runWithin sources company store
      sources.depthBound).store.IsLeftTo thread :=
    Procedure.runAmong_keeps company finish
      (fun _ _ _ _ left performed => left.perform performed) _ _ _ left
  rcases remains name entry present with published | own
  · rw [published] at unpublished
    cases unpublished
  · exact foreign own

/-- Every operation comes to an end, whatever the sources say, whatever is
cached, and whatever other threads do in the meantime. -/
theorem terminates (operation : Operation) (sources : Sources)
    (company : Company thread) (store : Store) :
    operation.Terminates sources company store
      ((operation.request.procedure sources thread).runAmong company []
        store) := by
  change operation.Terminates sources company store
    (operation.runWithin sources company store sources.depthBound)
  have ends := runWithin_ends operation sources company store
  have unhindered := runWithin_unhindered operation sources company store
  have unbounded := @runWithin_eq operation sources thread company store
  obtain ⟨⟨lawful, spans⟩, _, _⟩ :=
    runWithin_spends operation sources company store sources.depthBound
  generalize operation.runWithin sources company store sources.depthBound = run
    at *
  have sublist := lawful.built_sublist_made
  have distinct := sublist.nodup spans.distinct
  have fresh (name : TypeName) (member : name ∈ built run.deeds.reverse) :
      name ∈ store.uncached (operation.reach sources) :=
    mem_uncached_of_made lawful spans name (sublist.subset member)
  have shallow (past : Past) (earlier : past <:+ run.deeds.reverse) :
      (stack past).length ≤
        (store.uncached (operation.reach sources)).card := by
    have begun := (stack_sublist_built past).trans
      (earlier.sublist.filterMap Deed.built?)
    exact length_le_card (begun.nodup distinct) fun name member =>
      fresh name (begun.subset member)
  exact {
    ends, unhindered, distinct, shallow
    fresh name member := Store.mem_uncached.1 (fresh name member)
    few := length_le_card distinct fresh
    unbounded depth enough := unbounded enough
    climbs facts := ⟨Provider.nodup_walk _ _ _,
      fun name member => Provider.listed_of_mem_ancestors member⟩ }

end Operation

end TypeAtlas
