import TypeAtlas.Proofs.Registry.Pool
import TypeAtlas.Proofs.Registry.Sessions

/-!
# The content of ready types

Where no scripts are followed, a type that became ready has the content of its
assembly without a cache.  It does not matter what was looked up before, from
inside which assemblies the type was reached, or what other threads did.  Only
the slots of references, which are numbers given out in turn, are not content.
-/

namespace TypeAtlas

open Past Lookup

namespace Store

def published? (store : Store) (name : TypeName) : Option Body :=
  (store.entries.get? name).bind Entry.body?

theorem published?_eq_some {store : Store} {name : TypeName} {body : Body} :
    store.published? name = some body ↔
      ∃ entry, store.entries.get? name = some entry ∧
        entry.body? = some body :=
  Option.bind_eq_some_iff

theorem body?_cached_eq_some {store : Store} {name : TypeName} {identity : Nat}
    {body : Body} :
    store.body? (.cached name identity) = some body ↔
      ∃ entry, store.entries.get? name = some entry ∧
        entry.identity = identity ∧ entry.body? = some body := by
  refine Option.bind_eq_some_iff.trans (exists_congr fun entry => ?_)
  rw [entryFor?_eq_some, and_assoc]

theorem published?_of_body? {store : Store} {name : TypeName} {identity : Nat}
    {body : Body} (told : store.body? (.cached name identity) = some body) :
    store.published? name = some body := by
  obtain ⟨entry, found, _, given⟩ := body?_cached_eq_some.1 told
  exact published?_eq_some.2 ⟨entry, found, given⟩

end Store

theorem Sources.IsPlain.isCalm {sources : Sources} (plain : sources.IsPlain) :
    sources.IsCalm := by
  intro steps member
  rw [Sources.IsPlain] at plain
  rw [plain] at member
  exact absurd member List.not_mem_nil

namespace Faithful

variable {sources : Sources} {calm : Prop} {store : Store} {history : History}
  {name : TypeName} {body : Body}

/-- Whatever is published was justified when it was. -/
theorem justified (faithful : Faithful sources calm store history)
    (plain : sources.IsPlain) (published : store.published? name = some body) :
    ∃ thread identity later earlier,
      history.past thread =
          later ++ ⟨.publish name identity body, ()⟩ :: earlier ∧
        Justified sources earlier name body := by
  obtain ⟨entry, found, given⟩ := Store.published?_eq_some.1 published
  have done := faithful.coherent.published name entry body found given
  obtain ⟨later, earlier, split, allowed⟩ :=
    (faithful.lawful entry.builder).allowed (History.mem_past.2 done)
  exact ⟨entry.builder, entry.identity, later, earlier, split, allowed.2 plain⟩

theorem cacheFree_eq (faithful : Faithful sources calm store history)
    (plain : sources.IsPlain) (published : store.published? name = some body)
    (ready : body.failure? = none) :
    Assembly.cacheFree sources name = (.ok (), body.withoutSlots) := by
  obtain ⟨_, _, _, _, _, justified⟩ := faithful.justified plain published
  exact (justified.ready ready).1

theorem refers_iff (faithful : Faithful sources calm store history)
    (plain : sources.IsPlain) (published : store.published? name = some body)
    (ready : body.failure? = none) {other : TypeName} :
    sources.Refers name other ↔ other ∈ body.referred := by
  have same := faithful.cacheFree_eq plain published ready
  unfold Sources.Refers Sources.Assembles
  rw [same, Body.referred_withoutSlots]
  exact and_iff_right rfl

end Faithful

/-- Whatever threads do to a registry, ready types have their own content. -/
theorem Pool.cacheFree_eq {sources : Sources}
    {work : ThreadId → List Operation} {pool : Pool}
    (plain : sources.IsPlain) (reachable : Reachable sources work pool)
    {name : TypeName} {body : Body}
    (published : pool.store.published? name = some body)
    (ready : body.failure? = none) :
    Assembly.cacheFree sources name = (.ok (), body.withoutSlots) :=
  (reachable.orderly plain.isCalm).faithful.cacheFree_eq plain published ready

namespace Session

/-- Whatever is asked of a registry, a type that is ready then has the content
of its assembly without a cache, and so the same content in all sessions. -/
theorem cacheFree_of_ready {sources : Sources} (plain : sources.IsPlain)
    (thread : ThreadId) (operations : List Operation) {name : TypeName}
    {body : Body}
    (published :
      (performAll sources thread operations).registry.store.published? name =
        some body)
    (ready : body.failure? = none) :
    Assembly.cacheFree sources name = (.ok (), body.withoutSlots) ∧
      ∀ other others another,
        (performAll sources other others).registry.store.published? name =
            some another →
          another.failure? = none →
            another.withoutSlots = body.withoutSlots := by
  have same := (performAll_orderly sources thread operations).faithful
    |>.cacheFree_eq plain published ready
  refine ⟨same, fun other others another publishedToo readyToo => ?_⟩
  have sameToo := (performAll_orderly sources other others).faithful
    |>.cacheFree_eq plain publishedToo readyToo
  rw [same] at sameToo
  exact (congrArg Prod.snd sameToo).symm

/-- An array that is ready although the assembly of another one reached it. -/
theorem cacheFree_of_circle :
    let sources := Sources.ofArrays [("A", "B"), ("B", "A")]
    let store := (performAll sources 0 [.get "A"]).registry.store
    ∃ body, sources.IsPlain ∧ store.published? "B" = some body ∧
      body.failure? = none ∧
        Assembly.cacheFree sources "B" = (.ok (), body.withoutSlots) := by
  have plain : (Sources.ofArrays [("A", "B"), ("B", "A")]).IsPlain := rfl
  have isReady : ((performAll (Sources.ofArrays [("A", "B"), ("B", "A")]) 0
      [.get "A"]).registry.store.published? "B").any
        (fun body => body.failure?.isNone) = true := by
    decide +kernel
  obtain ⟨body, published, ready⟩ := (Option.any_eq_true _ _).1 isReady
  have intact := Option.isNone_iff_eq_none.1 ready
  exact ⟨body, plain, published, intact,
    (cacheFree_of_ready plain 0 [.get "A"] published intact).1⟩

end Session

end TypeAtlas
