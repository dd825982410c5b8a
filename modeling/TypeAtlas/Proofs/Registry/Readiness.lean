import Mathlib.Logic.Relation
import TypeAtlas.Proofs.Registry.Content

/-!
# Which types become ready

An assembly that fails is reported to the assembly that asked for it, which
then fails as well.  Later lookups find the type that failed where it is, and
go on.  So a type that refers to failing ones fails when it is looked up first,
and becomes ready when they were looked up before it.  All other types come to
the same end in every session: those that fail on their own, and those from
which only types are reached that do not.
-/

namespace TypeAtlas

open Past Lookup

namespace Sources

variable {sources : Sources} {name other : TypeName}

/-- Whether references lead from a type to another one. -/
def Reaches (sources : Sources) : TypeName → TypeName → Prop :=
  Relation.ReflTransGen sources.Refers

/-- Whether no type that is reached from a type fails on its own. -/
def IsSound (sources : Sources) (name : TypeName) : Prop :=
  ∀ other, sources.Reaches name other → sources.Assembles other

instance : Decidable (sources.Assembles name) :=
  decidable_of_iff ((Assembly.cacheFree sources name).1.isOk = true) <| by
    unfold Assembles
    cases (Assembly.cacheFree sources name).1 <;>
      simp [Except.isOk, Except.toBool]

theorem Refers.mentioned (refers : sources.Refers name other) :
    other ∈ sources.mentioned := by
  obtain ⟨outcome, parts, outlined, sound⟩ :=
    Assembly.outline_runFree sources name
  rcases outcome with stop | ⟨facts, hasImplementation⟩
  · have failed :=
      congrArg Prod.fst (Assembly.cacheFree_of_outline_error outlined)
    rw [refers.1] at failed
    cases failed
  · have asked := (Assembly.refers_iff_of_outline outlined other).1 refers
    exact Assembly.requested_subset sound.1 hasImplementation asked

end Sources

namespace Past

variable {sources : Sources} {thread : ThreadId} {calm : Prop}
  {past older : Past} {name : TypeName}

/-- A type that failed, and was first asked for after some time, reaches one
that fails on its own and was first asked for after that time as well. -/
theorem Lawful.exists_failing (lawful : Lawful
      (discipline { sources, thread } calm) past)
    (plain : sources.IsPlain) (failed : hasFailed past name = true)
    (suffix : older <:+ past) (fresh : hasEntered older name = false) :
    ∃ other, sources.Reaches name other ∧ ¬ sources.Assembles other ∧
      hasEntered older other = false ∧ hasFailed past other = true := by
  -- The type to blame failed before the one that asked for it.
  induction size : past.length using Nat.strongRecOn
    generalizing past older name with
  | _ bound ih =>
    obtain ⟨identity, body, member, reason⟩ := hasFailed_iff.1 failed
    obtain ⟨later, earlier, rfl, allowed⟩ := lawful.allowed member
    rcases (allowed.2 plain).failed reason with own | blamed
    · exact ⟨name, .refl, own, fresh, failed⟩
    obtain ⟨begun, names, begins, entered, refers, blames⟩ := blamed
    obtain ⟨other, asked, freshly, failedEarlier⟩ := blames
    have within : earlier <:+ later ++ ⟨.publish name identity body, ()⟩ ::
        earlier :=
      (List.suffix_cons _ _).trans (List.suffix_append _ _)
    have since : older <:+ begun := by
      rcases List.suffix_or_suffix_of_suffix suffix (begins.trans within)
        with before | after
      · exact before
      · rw [hasEntered_of_suffix after entered] at fresh
        cases fresh
    have shorter : earlier.length < bound := by
      rw [← size, List.length_append, List.length_cons]
      omega
    obtain ⟨culprit, reaches, own, unasked, failing⟩ := ih earlier.length
      shorter (lawful.of_suffix within) failedEarlier begins freshly rfl
    refine ⟨culprit, .head (refers other asked) reaches, own, ?_,
      hasFailed_of_suffix within failing⟩
    refine Bool.eq_false_iff.2 fun already => ?_
    rw [hasEntered_of_suffix since already] at unasked
    cases unasked

end Past

namespace Session

def isCached (session : Session) (name : TypeName) : Bool :=
  session.registry.store.entries.contains name

def isReady (session : Session) (name : TypeName) : Bool :=
  (session.registry.store.published? name).any
    fun body => body.failure?.isNone

variable {sources : Sources} {thread : ThreadId} {session : Session}
  {name : TypeName}

theorem isReady_of_published {body : Body}
    (published : session.registry.store.published? name = some body) :
    session.isReady name = body.failure?.isNone := by
  unfold isReady
  rw [published]
  rfl

namespace Orderly

theorem exists_published (orderly : Orderly sources thread session)
    (cached : session.isCached name = true) :
    ∃ body, session.registry.store.published? name = some body := by
  obtain ⟨entry, found⟩ := Option.isSome_iff_exists.1 cached
  obtain ⟨body, given⟩ := Option.isSome_iff_exists.1
    (orderly.settled.published name entry found)
  exact ⟨body, Store.published?_eq_some.2 ⟨entry, found, given⟩⟩

theorem isCached_of_hasEntered (orderly : Orderly sources thread session)
    (entered : hasEntered (session.history.past thread) name = true) :
    session.isCached name = true := by
  obtain ⟨entry, found⟩ :=
    orderly.faithful.coherent.exists_of_hasEntered entered
  exact Option.isSome_iff_exists.2 ⟨entry, found⟩

theorem justified (orderly : Orderly sources thread session)
    (plain : sources.IsPlain) {body : Body}
    (published : session.registry.store.published? name = some body) :
    ∃ identity later earlier,
      session.history.past thread =
          later ++ ⟨.publish name identity body, ()⟩ :: earlier ∧
        Justified sources earlier name body := by
  obtain ⟨other, identity, later, earlier, split, justified⟩ :=
    orderly.faithful.justified plain published
  by_cases own : other = thread
  · subst own
    exact ⟨identity, later, earlier, split, justified⟩
  · rw [orderly.past_eq_nil own] at split
    exact absurd split.symm (by simp)

theorem isReady_eq_not_hasFailed (orderly : Orderly sources thread session)
    (cached : session.isCached name = true) :
    session.isReady name =
      !hasFailed (session.history.past thread) name := by
  obtain ⟨body, published⟩ := orderly.exists_published cached
  rw [isReady_of_published published]
  cases failure : body.failure? with
  | some reason =>
    obtain ⟨entry, found, given⟩ := Store.published?_eq_some.1 published
    have done :=
      orderly.faithful.coherent.published name entry body found given
    rw [orderly.alone _ _ done] at done
    have failed : hasFailed (session.history.past thread) name = true :=
      hasFailed_iff.2 ⟨entry.identity, body, History.mem_past.2 done,
        by simp [failure]⟩
    rw [failed]
    rfl
  | none =>
    have sound : hasFailed (session.history.past thread) name = false := by
      refine Bool.eq_false_iff.2 fun failed => ?_
      obtain ⟨identity, other, member, reason⟩ := hasFailed_iff.1 failed
      obtain ⟨entry, found, _, given⟩ := orderly.faithful.coherent.confirmed
        thread _ (History.mem_past.1 member)
      have same := published.symm.trans (Store.published?_eq_some.2
        ⟨entry, (Store.entryFor?_eq_some.1 found).1, given⟩)
      cases same
      exact reason failure
    rw [sound]
    rfl

/-- A type that fails on its own is never ready. -/
theorem isReady_eq_false (orderly : Orderly sources thread session)
    (plain : sources.IsPlain) (failing : ¬ sources.Assembles name) :
    session.isReady name = false := by
  refine Bool.eq_false_iff.2 fun ready => failing ?_
  obtain ⟨body, published, intact⟩ := (Option.any_eq_true _ _).1 ready
  exact congrArg Prod.fst (orderly.faithful.cacheFree_eq plain published
    (Option.isNone_iff_eq_none.1 intact))

/-- A type that reaches only types that do not fail on their own is ready. -/
theorem isReady_of_isSound (orderly : Orderly sources thread session)
    (plain : sources.IsPlain) (sound : sources.IsSound name)
    (cached : session.isCached name = true) : session.isReady name = true := by
  rw [orderly.isReady_eq_not_hasFailed cached, Bool.not_eq_true']
  refine Bool.eq_false_iff.2 fun failed => ?_
  obtain ⟨other, reaches, failing, _⟩ :=
    (orderly.faithful.lawful thread).exists_failing plain failed
      List.nil_suffix rfl
  exact failing (sound other reaches)

theorem hasEntered_of_referred (orderly : Orderly sources thread session)
    (plain : sources.IsPlain) {body : Body}
    (published : session.registry.store.published? name = some body)
    (ready : body.failure? = none) {other : TypeName}
    (member : other ∈ body.referred) :
    hasEntered (session.history.past thread) other = true := by
  obtain ⟨identity, later, earlier, split, justified⟩ :=
    orderly.justified plain published
  rw [split]
  exact hasEntered_of_suffix
    ((List.suffix_cons _ _).trans (List.suffix_append _ _))
    ((justified.ready ready).2 other member)

/-- Where nothing has failed, whatever was asked for is ready with the rest. -/
theorem isSound_of_failures_eq_zero (orderly : Orderly sources thread session)
    (plain : sources.IsPlain)
    (none : failures (session.history.past thread) = 0)
    (entered : hasEntered (session.history.past thread) name = true) :
    sources.IsSound name := by
  have ready {asked : TypeName}
      (entered : hasEntered (session.history.past thread) asked = true) :
      sources.Assembles asked ∧ ∀ other, sources.Refers asked other →
        hasEntered (session.history.past thread) other = true := by
    obtain ⟨body, published⟩ :=
      orderly.exists_published (orderly.isCached_of_hasEntered entered)
    obtain ⟨identity, later, earlier, split, justified⟩ :=
      orderly.justified plain published
    have intact : body.failure? = Option.none := by
      refine Option.not_isSome_iff_eq_none.1 fun failed => ?_
      have counted := List.countP_eq_zero.1 none
        ⟨.publish asked identity body, ()⟩ (by simp [split])
      exact counted failed
    have free := (justified.ready intact).1
    refine ⟨congrArg Prod.fst free, fun other refers => ?_⟩
    exact orderly.hasEntered_of_referred plain published intact
      ((orderly.faithful.refers_iff plain published intact).1 refers)
  intro other reaches
  have reached : hasEntered (session.history.past thread) other = true := by
    induction reaches with
    | refl => exact entered
    | tail _ refers ih => exact (ready ih).2 _ refers
  exact (ready reached).1

theorem get_serves (sources : Sources) (thread : ThreadId) (name : TypeName)
    (past : Past) :
    Meets (discipline { sources, thread } False)
      (Keeps past (Serves sources name past))
      (getByName { sources, thread } (builder { sources, thread }) name)
      past :=
  getByName_keeps (builder_within False.elim)
    (hasRoom_depthBound sources [name] _) False.elim

theorem perform_get (orderly : Orderly sources thread session)
    (name : TypeName) :
    ∃ outcome,
      Keeps (session.history.past thread)
        (Serves sources name (session.history.past thread))
        ((session.perform thread (.get name)).history.past thread) outcome := by
  obtain ⟨_, outcome, _, kept⟩ :=
    orderly.perform_ensures (.get name) (get_serves sources thread name _)
  exact ⟨outcome, kept⟩

/-- Types that fail on their own are asked for, and nothing else is. -/
theorem performs_failing (orderly : Orderly sources thread session)
    (plain : sources.IsPlain) {names : List TypeName}
    (failing : ∀ name ∈ names, ¬ sources.Assembles name) :
    let later :=
      (names.map Operation.get).foldl (Session.perform thread) session
    Orderly sources thread later ∧
      ∀ other, hasEntered (later.history.past thread) other = true ↔
        other ∈ names ∨
          hasEntered (session.history.past thread) other = true := by
  induction names generalizing session with
  | nil => exact ⟨orderly, fun _ => by simp⟩
  | cons name rest ih =>
    obtain ⟨outcome, grows, served⟩ := orderly.perform_get name
    obtain ⟨after, entered⟩ := ih (orderly.perform (.get name))
      fun other member => failing other (List.mem_cons_of_mem _ member)
    have asked (other : TypeName) :
        hasEntered ((session.perform thread (.get name)).history.past thread)
            other = true ↔
          other = name ∨
            hasEntered (session.history.past thread) other = true := by
      refine ⟨served.confined plain (failing name List.mem_cons_self) other, ?_⟩
      rintro (rfl | already)
      · exact served.entered
      · exact grows.hasEntered already
    refine ⟨after, fun other => (entered other).trans ?_⟩
    rw [asked, List.mem_cons, or_assoc]
    exact or_left_comm

end Orderly

/-- A type that is looked up first fails if it reaches one that fails. -/
theorem isReady_get (plain : sources.IsPlain) (thread : ThreadId)
    (unsound : ¬ sources.IsSound name) :
    let session := performAll sources thread [.get name]
    session.isCached name = true ∧ session.isReady name = false := by
  have orderly := performAll_orderly sources thread [.get name]
  obtain ⟨outcome, grows, served⟩ :=
    (start_orderly sources thread).perform_get name
  have cached := orderly.isCached_of_hasEntered served.entered
  refine ⟨cached, ?_⟩
  rw [orderly.isReady_eq_not_hasFailed cached, Bool.not_eq_false']
  rcases served.fared with fared | ⟨_, identity, pending⟩
  · cases outcome with
    | ok descriptor =>
      exact (unsound (orderly.isSound_of_failures_eq_zero plain
        (fared.2 plain).failures served.entered)).elim
    | error stop =>
      obtain ⟨_, blamed, member, _, failed⟩ := fared
      cases List.mem_singleton.1 member
      exact failed
  · cases pending

/-- A type is ready once all that it reaches have failed before it. -/
theorem isReady_get_after (plain : sources.IsPlain) (thread : ThreadId)
    (assembles : sources.Assembles name) :
    let failing := sources.mentioned.filter
      fun other => !decide (sources.Assembles other)
    let session := performAll sources thread
      (failing.map .get ++ [.get name])
    session.isCached name = true ∧ session.isReady name = true := by
  intro failing session
  have own (other : TypeName) (member : other ∈ failing) :
      ¬ sources.Assembles other := by
    simpa using (List.mem_filter.1 member).2
  obtain ⟨before, asked⟩ :=
    (start_orderly sources thread).performs_failing plain own
  obtain ⟨outcome, grows, served⟩ := before.perform_get name
  have after := before.perform (.get name)
  have same : session =
      ((failing.map Operation.get).foldl (perform thread)
        (start sources)).perform thread (.get name) := by
    simp [session, performAll]
  rw [same]
  have cached := after.isCached_of_hasEntered served.entered
  refine ⟨cached, ?_⟩
  rw [after.isReady_eq_not_hasFailed cached, Bool.not_eq_true']
  refine Bool.eq_false_iff.2 fun failed => ?_
  obtain ⟨deeds, extended, _, _⟩ := grows
  have fresh : hasEntered (((failing.map Operation.get).foldl (perform thread)
      (start sources)).history.past thread) name = false := by
    refine Bool.eq_false_iff.2 fun entered => ?_
    rcases (asked name).1 entered with member | begun
    · exact own name member assembles
    · cases begun
  obtain ⟨other, reaches, fails, unasked, _⟩ :=
    (after.faithful.lawful thread).exists_failing plain failed
      (extended ▸ List.suffix_append _ _) fresh
  -- Something refers to the culprit, so it was among the failing ones.
  rcases Relation.ReflTransGen.cases_tail reaches with same | ⟨_, _, refers⟩
  · exact fails (same ▸ assembles)
  · have member : other ∈ failing :=
      List.mem_filter.2 ⟨refers.mentioned, by simpa using fails⟩
    rw [(asked other).2 (.inl member)] at unasked
    cases unasked

/-- Whether a type comes to the same end in all sessions that look it up. -/
def EndsAlike (sources : Sources) (name : TypeName) : Prop :=
  ∀ thread operations other others,
    (performAll sources thread operations).isCached name = true →
      (performAll sources other others).isCached name = true →
        (performAll sources thread operations).isReady name =
          (performAll sources other others).isReady name

/-- An array fails with what it holds, unless that has failed before it. -/
theorem not_endsAlike_missing :
    ¬ ∀ sources name, Sources.IsPlain sources → EndsAlike sources name := by
  intro alike
  have plain : (Sources.ofArrays [("A", "X")]).IsPlain := rfl
  have assembles : (Sources.ofArrays [("A", "X")]).Assembles "A" := by
    decide +kernel
  have missing : ¬ (Sources.ofArrays [("A", "X")]).Assembles "X" := by
    decide +kernel
  have held : (Assembly.cacheFree (Sources.ofArrays [("A", "X")])
      "A").2.referred = ["X"] := by
    decide +kernel
  have refers : (Sources.ofArrays [("A", "X")]).Refers "A" "X" :=
    ⟨assembles, held ▸ List.mem_singleton.2 rfl⟩
  obtain ⟨cached, fails⟩ := isReady_get plain 0
    fun sound => missing (sound "X" (.single refers))
  obtain ⟨cachedLater, succeeds⟩ := isReady_get_after plain 0 assembles
  have same := alike _ "A" plain 0 _ 0 _ cached cachedLater
  rw [fails, succeeds] at same
  cases same

/-- A type comes to the same end in all sessions just when it fails on its own,
or reaches no type that does; then it is ready in the second case only.  Any
other type fails when it is looked up first, and is ready in some other
session. -/
theorem endsAlike_iff (plain : sources.IsPlain) (name : TypeName) :
    (EndsAlike sources name ↔
      ¬ sources.Assembles name ∨ sources.IsSound name) ∧
    (EndsAlike sources name → ∀ thread operations,
      (performAll sources thread operations).isCached name = true →
        ((performAll sources thread operations).isReady name = true ↔
          sources.IsSound name)) ∧
    (¬ EndsAlike sources name → ∀ thread,
      ((performAll sources thread [.get name]).isCached name = true ∧
        (performAll sources thread [.get name]).isReady name = false) ∧
      ∃ operations,
        (performAll sources thread operations).isCached name = true ∧
          (performAll sources thread operations).isReady name = true) := by
  have fails (failing : ¬ sources.Assembles name) (thread : ThreadId)
      (operations : List Operation) :
      (performAll sources thread operations).isReady name = false :=
    (performAll_orderly sources thread operations).isReady_eq_false plain
      failing
  have succeeds (sound : sources.IsSound name) (thread : ThreadId)
      (operations : List Operation) :=
    (performAll_orderly sources thread operations).isReady_of_isSound plain
      sound
  have alike_iff : EndsAlike sources name ↔
      ¬ sources.Assembles name ∨ sources.IsSound name := by
    constructor
    · intro alike
      by_cases assembles : sources.Assembles name
      · by_cases sound : sources.IsSound name
        · exact .inr sound
        · obtain ⟨cached, failed⟩ := isReady_get plain 0 sound
          obtain ⟨cachedLater, ready⟩ := isReady_get_after plain 0 assembles
          have same := alike 0 _ 0 _ cached cachedLater
          rw [failed, ready] at same
          cases same
      · exact .inl assembles
    · rintro (failing | sound) thread operations other others cached cachedToo
      · rw [fails failing, fails failing]
      · rw [succeeds sound _ _ cached, succeeds sound _ _ cachedToo]
  refine ⟨alike_iff, fun alike thread operations cached => ⟨fun ready => ?_,
    fun sound => succeeds sound thread operations cached⟩,
    fun mixed thread => ?_⟩
  · rcases alike_iff.1 alike with failing | sound
    · rw [fails failing] at ready
      cases ready
    · exact sound
  · obtain ⟨assembles, unsound⟩ := not_or.1 (mt alike_iff.2 mixed)
    exact ⟨isReady_get plain thread unsound,
      _, isReady_get_after plain thread (Decidable.not_not.1 assembles)⟩

/-- Arrays that hold each other are ready, whichever is looked up first. -/
theorem endsAlike_circle :
    let sources := Sources.ofArrays [("A", "B"), ("B", "A")]
    sources.IsPlain ∧ EndsAlike sources "A" := by
  have plain : (Sources.ofArrays [("A", "B"), ("B", "A")]).IsPlain := rfl
  have first : (Assembly.cacheFree
      (Sources.ofArrays [("A", "B"), ("B", "A")]) "A").2.referred = ["B"] := by
    decide +kernel
  have second : (Assembly.cacheFree
      (Sources.ofArrays [("A", "B"), ("B", "A")]) "B").2.referred = ["A"] := by
    decide +kernel
  refine ⟨plain, (endsAlike_iff plain "A").1.2 (.inr fun other reaches => ?_)⟩
  have known : other = "A" ∨ other = "B" := by
    induction reaches with
    | refl => exact .inl rfl
    | tail _ refers ih =>
      rcases ih with rfl | rfl
      · exact .inr (List.mem_singleton.1 (first ▸ refers.2))
      · exact .inl (List.mem_singleton.1 (second ▸ refers.2))
  rcases known with rfl | rfl
  · decide +kernel
  · decide +kernel

end Session

end TypeAtlas
