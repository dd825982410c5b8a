import TypeAtlas.Proofs.Registry.CacheFree
import TypeAtlas.Proofs.Registry.Past

/-!
# The discipline of lookups

Whatever a registry is asked for, a thread publishes only what it entered last
and has not published yet, waits only for descriptors that will be published
without its doing, and ends every assembly that it begins.  Collaborators may
fail, crash, and look types up themselves from inside an assembly.  Where they
do not, what is published is also justified by the sources.

A name that is built is never built again, so the bound on the depth of
assemblies is never reached: with each level there is one name less of those
that assemblies ask for.
-/

namespace TypeAtlas

namespace Past

/-- Whether a thread came to know the entry of a name. -/
def Introduces (past : Past) (name : TypeName) (identity : Nat) : Prop :=
  (⟨.enter name, .made identity⟩ : Deed) ∈ past ∨
    ∃ builder isPublished,
      (⟨.enter name, .present identity builder isPublished⟩ : Deed) ∈ past

/-- Whether a thread published the body of a descriptor or waited for it. -/
def Secures (past : Past) : Descriptor → Prop
  | .cached name identity => ∃ body,
      (⟨.publish name identity body, ()⟩ : Deed) ∈ past ∨
        (⟨.await (.cached name identity), body⟩ : Deed) ∈ past
  | .detached _ _ _ => True

def SecuresOutcome (past : Past) : Except Stop Descriptor → Prop
  | .ok descriptor => Secures past descriptor
  | .error _ => True

/-- Whether a descriptor is published or assembled by another thread, as far as
a thread can tell. -/
def MayAwait (past : Past) (thread : ThreadId) (descriptor : Descriptor) :
    Prop :=
  Secures past descriptor ∨
    ∃ name identity builder isPublished,
      descriptor = .cached name identity ∧
        (⟨.enter name, .present identity builder isPublished⟩ : Deed) ∈ past ∧
          (isPublished = true ∨ builder ≠ thread)

/-- Whether one of some names was asked for since some time, and failed. -/
def Blames (past later : Past) (names : List TypeName) : Prop :=
  ∃ name ∈ names, hasEntered past name = false ∧ hasFailed later name = true

/-- Whether no entry of a type that fails on its own was made since some time,
apart from that of a culprit if there is one. -/
def Spares (sources : Sources) (culprit? : Option TypeName)
    (past later : Past) : Prop :=
  ∀ name identity, ¬ sources.Assembles name →
    (⟨.enter name, .made identity⟩ : Deed) ∈ later →
      (⟨.enter name, .made identity⟩ : Deed) ∈ past ∨ culprit? = some name

/-- Whether nothing has failed since some time, nor was to fail on its own. -/
structure Steady (sources : Sources) (past later : Past) : Prop where
  failures : failures later = failures past
  spares : Spares sources none past later

/-- Whether a body is justified by the sources.  One that is ready is as it is
assembled without a cache, and one that failed has failed on its own or because
of a type that was entered, and failed, inside its assembly. -/
structure Justified (sources : Sources) (past : Past) (name : TypeName)
    (body : Body) : Prop where
  ready : body.failure? = none →
    Assembly.cacheFree sources name = (.ok (), body.withoutSlots) ∧
      ∀ other ∈ body.referred, hasEntered past other = true
  failed : body.failure? ≠ none →
    ¬ sources.Assembles name ∨
      ∃ earlier names, earlier <:+ past ∧ hasEntered earlier name = true ∧
        (∀ other ∈ names, sources.Refers name other) ∧
          Blames earlier past names

section Spares

variable {sources : Sources} {culprit? : Option TypeName}
  {past later latest : Past} {deed : Deed}

theorem Spares.refl (sources : Sources) (culprit? : Option TypeName)
    (past : Past) : Spares sources culprit? past past :=
  fun _ _ _ made => .inl made

theorem Spares.trans (first : Spares sources none past later)
    (second : Spares sources culprit? later latest) :
    Spares sources culprit? past latest := by
  intro name identity failing made
  rcases second name identity failing made with before | culprit
  · exact (first name identity failing before).imp_right nofun
  · exact .inr culprit

theorem Spares.cons (spares : Spares sources culprit? past later)
    (making : deed.isMaking = false) :
    Spares sources culprit? past (deed :: later) := by
  intro name identity failing made
  rcases List.mem_cons.1 made with rfl | before
  · cases making
  · exact spares name identity failing before

theorem Spares.since (making : deed.isMaking = false)
    (spares : Spares sources culprit? (deed :: past) later) :
    Spares sources culprit? past later := by
  intro name identity failing made
  rcases spares name identity failing made with before | culprit
  · rcases List.mem_cons.1 before with rfl | before
    · cases making
    · exact .inl before
  · exact .inr culprit

/-- A name whose entry is made is the culprit itself if it fails on its own. -/
theorem Spares.enter {name : TypeName} {identity : Nat}
    (own : ¬ sources.Assembles name → culprit? = some name)
    (spares : Spares sources culprit?
      (⟨.enter name, .made identity⟩ :: past) later) :
    Spares sources culprit? past later := by
  intro other number failing made
  rcases spares other number failing made with before | culprit
  · rcases List.mem_cons.1 before with same | before
    · cases same
      exact .inr (own failing)
    · exact .inl before
  · exact .inr culprit

theorem Steady.refl (sources : Sources) (past : Past) :
    Steady sources past past :=
  ⟨rfl, Spares.refl sources none past⟩

theorem Steady.trans (first : Steady sources past later)
    (second : Steady sources later latest) : Steady sources past latest :=
  ⟨second.failures.trans first.failures, first.spares.trans second.spares⟩

theorem Steady.cons (steady : Steady sources past later)
    (making : deed.isMaking = false) (failing : deed.isFailing = false) :
    Steady sources past (deed :: later) := by
  refine ⟨?_, steady.spares.cons making⟩
  rw [← steady.failures]
  simp [Past.failures, failing]

end Spares

theorem Secures.append {past : Past} {descriptor : Descriptor}
    (secures : Secures past descriptor) (deeds : List Deed) :
    Secures (deeds ++ past) descriptor := by
  cases descriptor with
  | detached identity expression body => trivial
  | cached name identity =>
    obtain ⟨body, published | awaited⟩ := secures
    · exact ⟨body, .inl (List.mem_append_right deeds published)⟩
    · exact ⟨body, .inr (List.mem_append_right deeds awaited)⟩

theorem Introduces.append {past : Past} {name : TypeName} {identity : Nat}
    (introduces : Introduces past name identity) (deeds : List Deed) :
    Introduces (deeds ++ past) name identity := by
  rcases introduces with made | ⟨builder, isPublished, present⟩
  · exact .inl (List.mem_append_right deeds made)
  · exact .inr ⟨builder, isPublished, List.mem_append_right deeds present⟩

theorem Secures.cons {past : Past} {descriptor : Descriptor}
    (secures : Secures past descriptor) (deed : Deed) :
    Secures (deed :: past) descriptor :=
  secures.append [deed]

end Past

open Past

namespace Lookup

/-- What lookups keep to.  Where collaborators are calm, they issue no top-level
lookups, and a thread waits only when it has no assembly to end. -/
def discipline (agent : Agent) (calm : Prop) : Contract where
  allows past
    | .publish name identity body =>
      (∃ outer, unfinished past = (name, identity) :: outer) ∧
        (agent.sources.IsPlain → Justified agent.sources past name body)
    | .mark (.building name) =>
      ∃ identity outer, unfinished past = (name, identity) :: outer
    | .await descriptor =>
      MayAwait past agent.thread descriptor ∧ (calm → unfinished past = [])
    | .mark (.answered kind name (.ok descriptor)) =>
      ∃ identity, descriptor = .cached name identity ∧
        Introduces past name identity ∧
          (kind = .topLevel → Secures past descriptor)
    | .mark (.answered _ _ (.error stop)) => stop.IsError
    | _ => True
  promises past
    | ⟨.enter name, .made _⟩ => hasEntered past name = false
    | ⟨.enter name, .present identity builder isPublished⟩ =>
      builder = agent.thread → isPublished = false →
        (name, identity) ∈ unfinished past
    | _ => True

/-- Whether builds that nest to a depth leave room for names: there are less
names left than levels, or the names are themselves among those that are
left. -/
def HasRoom (sources : Sources) (depth : Nat) (names : List TypeName)
    (past : Past) : Prop :=
  remaining sources past < depth ∨
    remaining sources past ≤ depth ∧ ∀ name ∈ names, name ∈ sources.mentioned

theorem HasRoom.extends {sources : Sources} {depth : Nat}
    {names : List TypeName} {past later : Past}
    (room : HasRoom sources depth names past) (grows : Extends past later) :
    HasRoom sources depth names later := by
  have fewer := grows.remaining_le sources
  rcases room with room | ⟨room, mentioned⟩
  · exact .inl (Nat.lt_of_le_of_lt fewer room)
  · exact .inr ⟨Nat.le_trans fewer room, mentioned⟩

theorem HasRoom.of_subset {sources : Sources} {depth : Nat}
    {names others : List TypeName} {past : Past}
    (room : HasRoom sources depth names past) (subset : others ⊆ names) :
    HasRoom sources depth others past :=
  room.imp_right fun room =>
    ⟨room.1, fun name member => room.2 name (subset member)⟩

/-- Entering one of the names leaves less names than levels. -/
theorem HasRoom.enter {sources : Sources} {depth : Nat}
    {names : List TypeName} {past : Past} {name : TypeName}
    (room : HasRoom sources depth names past) (member : name ∈ names)
    (fresh : hasEntered past name = false) (found : Found) :
    remaining sources (⟨.enter name, found⟩ :: past) < depth := by
  rcases room with room | ⟨room, mentioned⟩
  · exact Nat.lt_of_le_of_lt
      (remaining_append_le sources [⟨.enter name, found⟩] past) room
  · exact Nat.lt_of_lt_of_le
      (remaining_enter_lt (mentioned name member) fresh found) room

/-- What a build ensures that began with some assemblies outside of it.  Where
no scripts are followed, a build that goes well is one in which nothing failed,
and one that fails on its own asks for no other name. -/
structure Built (sources : Sources) (past : Past) (name : TypeName)
    (identity : Nat) (outer : List (TypeName × Nat)) (later : Past)
    (outcome : Except Stop Unit) : Prop where
  balanced : ∃ deeds, later = deeds ++ past ∧
    Balanced (deeds ++ [⟨.enter name, .made identity⟩]) ∧
      deeds.countP Deed.countsMiss < deeds.countP Deed.countsBuild
  ended : unfinished later = outer
  published : ∃ body, (⟨.publish name identity body, ()⟩ : Deed) ∈ later
  confined : sources.IsPlain → ¬ sources.Assembles name →
    EntersOnly name past later
  ends : outcome = .ok () ∧
      (sources.IsPlain → sources.Assembles name ∧ Steady sources past later) ∨
    (∃ reason, outcome = .error (.error (.initialization name reason))) ∧
      (sources.IsPlain → ∃ culprit,
        (¬ sources.Assembles name → culprit = name) ∧
          Spares sources (some culprit) past later) ∧
        hasFailed later name = true

/-- Whether builds keep the discipline, as long as less names are left than a
given number of levels. -/
def BuildsWithin (agent : Agent) (calm : Prop) (depth : Nat)
    (build : Builder) : Prop :=
  ∀ name identity past outer,
    remaining agent.sources past < depth →
      unfinished past = (name, identity) :: outer →
        Meets (discipline agent calm)
          (Built agent.sources past name identity outer)
          (build name identity) past

/-- How lookups of some names fared.  Either all of them were asked for and,
where no scripts are followed, nothing failed; or the assembly of one of them
did, by at most one type that was asked for then and fails on its own. -/
def Fares (sources : Sources) (names : List TypeName) (past later : Past) :
    Except Stop α → Prop
  | .ok _ => (∀ name ∈ names, hasEntered later name = true) ∧
    (sources.IsPlain → Steady sources past later)
  | .error stop => (stop.IsInitialization ∧ (sources.IsPlain →
      ∃ culprit, Spares sources (some culprit) past later)) ∧
    Blames past later names

/-- Whether a lookup is refused because its thread is assembling the name. -/
def Refused (past : Past) (name : TypeName) (outcome : Except Stop α) : Prop :=
  outcome = .error (.error (.reentrantLookup name)) ∧
    ∃ identity, (name, identity) ∈ unfinished past

/-- What a top-level lookup of a name ensures of its outcome. -/
structure Serves (sources : Sources) (name : TypeName) (past later : Past)
    (outcome : Except Stop Descriptor) : Prop where
  fared : Fares sources [name] past later outcome ∨ Refused past name outcome
  entered : hasEntered later name = true
  secures : SecuresOutcome later outcome
  noted : (⟨.mark (.answered .topLevel name outcome), ()⟩ : Deed) ∈ later
  confined : sources.IsPlain → ¬ sources.Assembles name →
    EntersOnly name past later

theorem Fares.answers {sources : Sources} {names : List TypeName}
    {past later : Past} {outcome : Except Stop α}
    (fares : Fares sources names past later outcome) : Answers outcome := by
  cases outcome with
  | ok value => trivial
  | error stop => exact fares.1.1.isError

theorem Refused.answers {past : Past} {name : TypeName}
    {outcome : Except Stop α} (refused : Refused past name outcome) :
    Answers outcome := by
  rw [refused.1]
  trivial

/-- A failure that comes first is that of all lookups together. -/
theorem Fares.stopped {sources : Sources} {names : List TypeName}
    {past later : Past} {stop : Stop}
    (fares : Fares sources names past later (.error stop : Except Stop α))
    (others : List TypeName) :
    Fares sources (names ++ others) past later
      (.error stop : Except Stop β) := by
  obtain ⟨error, name, member, blamed⟩ := fares
  exact ⟨error, name, List.mem_append_left _ member, blamed⟩

theorem Fares.trans {sources : Sources} {names others : List TypeName}
    {past later latest : Past} {value : α} {outcome : Except Stop β}
    (fares : Fares sources names past later (.ok value : Except Stop α))
    (grows : Extends past later) (further : Extends later latest)
    (faresLater : Fares sources others later latest outcome) :
    Fares sources (names ++ others) past latest outcome := by
  cases outcome with
  | ok result =>
    refine ⟨fun name member => ?_, fun plain => ?_⟩
    · rcases List.mem_append.1 member with first | second
      · exact further.hasEntered (fares.1 name first)
      · exact faresLater.1 name second
    · exact (fares.2 plain).trans (faresLater.2 plain)
  | error stop =>
    obtain ⟨⟨failed, spares⟩, name, member, fresh, blamed⟩ := faresLater
    refine ⟨⟨failed, fun plain => ?_⟩, name, List.mem_append_right _ member, ?_,
      blamed⟩
    · obtain ⟨culprit, spared⟩ := spares plain
      exact ⟨culprit, (fares.2 plain).spares.trans spared⟩
    refine Bool.eq_false_iff.2 fun entered => ?_
    rw [grows.hasEntered entered] at fresh
    cases fresh

section Lookups

variable {agent : Agent} {calm : Prop} {depth : Nat} {build : Builder}
  {past : Past}

/-- What lookups of any kind ensure of their outcome and of what they did. -/
def Keeps (past : Past) (holds : Past → Except Stop α → Prop) (later : Past)
    (outcome : Except Stop α) : Prop :=
  Extends past later ∧ holds later outcome

theorem getNested_keeps (builds : BuildsWithin agent calm depth build)
    {name : TypeName} (room : HasRoom agent.sources depth [name] past) :
    Meets (discipline agent calm)
      (Keeps past (Fares agent.sources [name] past))
      (getNested build name) past := by
  refine Meets.noted trivial ?_
  refine meets_perform_bind trivial fun found promised => ?_
  have asks : Extends past (⟨.mark (.asked .nested name), ()⟩ :: past) :=
    Extends.of_isPlain _ rfl past
  cases found with
  | present identity builder isPublished =>
    have finds := asks.trans (Extends.of_isPlain
      ⟨.enter name, .present identity builder isPublished⟩ rfl _)
    refine meets_pure ⟨⟨identity, rfl, ?_, nofun⟩, ?_, ?_, fun _ => ?_⟩
    · exact .inr ⟨builder, isPublished, List.mem_cons_self⟩
    · exact finds.trans (Extends.of_isPlain _ rfl _)
    · simp [hasEntered, Deed.enters]
    · exact (((Steady.refl _ past).cons rfl rfl).cons rfl rfl).cons rfl rfl
  | made identity =>
    -- The name is spent, so a level less has room for those that remain.
    have few := (room.extends asks).enter List.mem_cons_self promised
      (.made identity)
    refine Meets.bind ((builds name identity _ _ few rfl).mono ?_)
    rintro later outcome ⟨⟨deeds, rfl, balanced, _⟩, ended, _, _, ends⟩
    have extended (outcome : Except Stop Descriptor) : Extends past
        (⟨.mark (.answered .nested name outcome), ()⟩ ::
          (deeds ++ ⟨.enter name, .made identity⟩ ::
            ⟨.mark (.asked .nested name), ()⟩ :: past)) := by
      refine ⟨[⟨.mark (.answered .nested name outcome), ()⟩] ++
        (deeds ++ [⟨.enter name, .made identity⟩]) ++
          [⟨.mark (.asked .nested name), ()⟩], by simp, ?_, ended⟩
      exact ((Balanced.of_isPlain rfl).append balanced).append
        (Balanced.of_isPlain rfl)
    rcases ends with ⟨rfl, steady⟩ | ⟨⟨reason, rfl⟩, spares, failed⟩
    · refine meets_pure ⟨⟨identity, rfl, ?_, nofun⟩, extended _, ?_,
        fun plain => ?_⟩
      · exact .inl (List.mem_append_right _ List.mem_cons_self)
      · simp [hasEntered, Deed.enters]
      · obtain ⟨assembles, steady⟩ := steady plain
        exact ⟨steady.failures, ((steady.spares.enter fun failing =>
          (failing assembles).elim).since rfl).cons rfl⟩
    · refine ⟨trivial, extended _, ⟨trivial, fun plain => ?_⟩, name,
        List.mem_cons_self, promised, failed⟩
      obtain ⟨culprit, own, spared⟩ := spares plain
      exact ⟨culprit, ((spared.enter fun failing =>
        congrArg some (own failing)).since rfl).cons rfl⟩

/-- A top-level lookup that made an entry ends as the build of it does. -/
theorem Built.serves {sources : Sources} {later : Past} {name : TypeName}
    {identity : Nat} {outcome : Except Stop Unit}
    (fresh : hasEntered past name = false)
    (built : Built sources (⟨.recordMiss, ()⟩ ::
        ⟨.enter name, .made identity⟩ ::
          ⟨.mark (.asked .topLevel name), ()⟩ :: past)
      name identity (unfinished past) later outcome) :
    let answer := outcome.map fun _ => Descriptor.cached name identity
    Keeps past (Serves sources name past)
      (⟨.mark (.answered .topLevel name answer), ()⟩ :: later) answer := by
  obtain ⟨⟨deeds, rfl, balanced, missed⟩, ended, ⟨body, published⟩, confined,
    ends⟩ := built
  have extended (answer : Except Stop Descriptor)
      (served : Deed.endsLookup
        ⟨.mark (.answered .topLevel name answer), ()⟩ = true) :
      Extends past (⟨.mark (.answered .topLevel name answer), ()⟩ ::
        (deeds ++ ⟨.recordMiss, ()⟩ :: ⟨.enter name, .made identity⟩ ::
          ⟨.mark (.asked .topLevel name), ()⟩ :: past)) := by
    refine ⟨⟨.mark (.answered .topLevel name answer), ()⟩ ::
      (deeds ++ [⟨.recordMiss, ()⟩, ⟨.enter name, .made identity⟩]) ++
        [⟨.mark (.asked .topLevel name), ()⟩], by simp, ?_, ended⟩
    exact (Balanced.miss balanced missed served).append
      (Balanced.of_isPlain rfl)
  have entered : hasEntered (deeds ++ ⟨.recordMiss, ()⟩ ::
      ⟨.enter name, .made identity⟩ ::
        ⟨.mark (.asked .topLevel name), ()⟩ :: past) name = true :=
    hasEntered_append_right (by simp [hasEntered, Deed.enters]) deeds
  have asksOnly : EntersOnly name past (⟨.recordMiss, ()⟩ ::
      ⟨.enter name, .made identity⟩ ::
        ⟨.mark (.asked .topLevel name), ()⟩ :: past) :=
    EntersOnly.enter (EntersOnly.refl name past) (.made identity)
  have buildsOnly (plain : sources.IsPlain)
      (failing : ¬ sources.Assembles name) :=
    asksOnly.trans (confined plain failing)
  rcases ends with ⟨rfl, steady⟩ | ⟨⟨reason, rfl⟩, spares, failed⟩
  · refine ⟨extended _ rfl, .inl ⟨?_, fun plain => ?_⟩, entered,
      ⟨body, .inl ?_⟩, List.mem_cons_self, buildsOnly⟩
    · simp [hasEntered, Deed.enters]
    · obtain ⟨assembles, steady⟩ := steady plain
      exact ⟨steady.failures, (((steady.spares.since rfl).enter fun failing =>
        (failing assembles).elim).since rfl).cons rfl⟩
    · exact List.mem_cons_of_mem _ published
  · refine ⟨extended _ rfl, .inl ⟨⟨trivial, fun plain => ?_⟩, name,
      List.mem_cons_self, fresh, failed⟩, entered, trivial,
      List.mem_cons_self, buildsOnly⟩
    obtain ⟨culprit, own, spared⟩ := spares plain
    exact ⟨culprit, (((spared.since rfl).enter fun failing =>
      congrArg some (own failing)).since rfl).cons rfl⟩

theorem getByName_keeps (builds : BuildsWithin agent calm depth build)
    {name : TypeName} (room : HasRoom agent.sources depth [name] past)
    (idle : calm → unfinished past = []) :
    Meets (discipline agent calm)
      (Keeps past (Serves agent.sources name past))
      (getByName agent build name) past := by
  refine Meets.noted trivial ?_
  refine meets_perform_bind trivial fun found promised => ?_
  have asks : Extends past (⟨.mark (.asked .topLevel name), ()⟩ :: past) :=
    Extends.of_isPlain _ rfl past
  cases found with
  | present identity builder isPublished =>
    have finds := asks.trans (Extends.of_isPlain
      ⟨.enter name, .present identity builder isPublished⟩ rfl _)
    have asksOnly : EntersOnly name past
        (⟨.enter name, .present identity builder isPublished⟩ ::
          ⟨.mark (.asked .topLevel name), ()⟩ :: past) :=
      EntersOnly.enter (EntersOnly.refl name past) _
    dsimp only
    split
    next reserved =>
      rw [Bool.and_eq_true, Bool.not_eq_true', beq_iff_eq] at reserved
      have own := promised reserved.2 reserved.1
      refine meets_throw ⟨trivial, finds.trans (Extends.reentrant name name _),
        .inr ⟨rfl, identity, own⟩, ?_, trivial, List.mem_cons_self,
          fun _ _ => asksOnly⟩
      simp [hasEntered, Deed.enters]
    next unreserved =>
      refine meets_perform_bind ⟨.inr ?_, idle⟩ fun body _ => ?_
      · exact ⟨name, identity, builder, isPublished, rfl,
          List.mem_cons_self, isPublished_or_ne unreserved⟩
      have awaits := finds.trans (Extends.of_isPlain
        ⟨.await (.cached name identity), body⟩ rfl _)
      refine meets_perform_bind trivial fun _ _ => ?_
      have secures : Secures (⟨.recordHit, ()⟩ ::
          ⟨.await (.cached name identity), body⟩ ::
            ⟨.enter name, .present identity builder isPublished⟩ ::
              ⟨.mark (.asked .topLevel name), ()⟩ :: past)
          (.cached name identity) :=
        ⟨body, .inr (by simp)⟩
      have steady : Steady agent.sources past
          (⟨.enter name, .present identity builder isPublished⟩ ::
            ⟨.mark (.asked .topLevel name), ()⟩ :: past) :=
        ((Steady.refl _ past).cons rfl rfl).cons rfl rfl
      refine meets_pure ⟨⟨identity, rfl, .inr ?_, fun _ => secures⟩,
        awaits.trans (Extends.hit name _ _), .inl ⟨?_, fun _ => ?_⟩, ?_,
          secures.cons _, List.mem_cons_self, fun _ _ => asksOnly⟩
      · exact ⟨builder, isPublished, by simp⟩
      · simp [hasEntered, Deed.enters]
      · exact ((steady.cons rfl rfl).cons rfl rfl).cons rfl rfl
      · simp [hasEntered, Deed.enters]
  | made identity =>
    have few := (room.extends asks).enter List.mem_cons_self promised
      (.made identity)
    refine meets_perform_bind trivial fun _ _ => ?_
    have few := Nat.lt_of_le_of_lt
      (remaining_append_le agent.sources [⟨.recordMiss, ()⟩] _) few
    refine Meets.bind ((builds name identity _ _ few rfl).mono ?_)
    intro later outcome built
    have fresh : hasEntered past name = false := promised
    have serves := Built.serves fresh built
    obtain ⟨⟨deeds, rfl, _⟩, _, ⟨body, published⟩, _, ends⟩ := built
    rcases ends with ⟨rfl, _⟩ | ⟨⟨reason, rfl⟩, _⟩
    · refine meets_pure ⟨⟨identity, rfl, .inl ?_, fun _ => ?_⟩, serves⟩
      · simp
      · exact ⟨body, .inl published⟩
    · exact ⟨trivial, serves⟩

theorem getByName_answers (builds : BuildsWithin agent calm depth build)
    {name : TypeName} (room : HasRoom agent.sources depth [name] past)
    (idle : calm → unfinished past = []) :
    Meets (discipline agent calm)
      (Keeps past fun later outcome =>
        Answers outcome ∧ SecuresOutcome later outcome)
      (getByName agent build name) past :=
  (getByName_keeps builds room idle).mono fun _ _ ⟨grows, served⟩ =>
    ⟨grows, served.fared.elim Fares.answers Refused.answers, served.secures⟩

theorem Keeps.bind {holds : Past → Except Stop α → Prop}
    {holdsLater : Past → Except Stop β → Prop} {lookup : Lookup α}
    {next : α → Lookup β}
    (first : Meets (discipline agent calm) (Keeps past holds)
      lookup past)
    (second : ∀ value later, Extends past later → holds later (.ok value) →
      Meets (discipline agent calm) (Keeps later holdsLater)
        (next value) later)
    (ends : ∀ later stop, holds later (.error stop) →
      holdsLater later (.error stop)) :
    Meets (discipline agent calm) (Keeps past holdsLater)
      (lookup >>= next) past := by
  refine Meets.bind (first.mono ?_)
  rintro later (stop | value) ⟨grows, held⟩
  · exact ⟨grows, ends later stop held⟩
  · refine (second value later grows held).mono ?_
    rintro latest outcome ⟨further, heldLater⟩
    exact ⟨grows.trans further, heldLater⟩

def Performs (action : Action) (later : Past) :
    Except Stop action.Answer → Prop
  | .ok answer => ⟨action, answer⟩ ∈ later
  | .error _ => False

theorem perform_keeps (action : Action)
    (allowed : (discipline agent calm).allows past action)
    (plain : ∀ answer, Deed.isPlain ⟨action, answer⟩ = true) :
    Meets (discipline agent calm)
      (Keeps past fun later outcome => Performs action later outcome)
      (perform action) past :=
  meets_perform allowed fun answer _ =>
    ⟨Extends.of_isPlain _ (plain answer) past, List.mem_cons_self⟩

theorem pure_keeps {holds : Past → Except Stop α → Prop} {value : α}
    (held : holds past (.ok value)) :
    Meets (discipline agent calm) (Keeps past holds)
      (pure value) past :=
  meets_pure ⟨Extends.refl past, held⟩

theorem throw_keeps {holds : Past → Except Stop α → Prop} {stop : Stop}
    (held : holds past (.error stop)) :
    Meets (discipline agent calm) (Keeps past holds)
      (throw stop) past :=
  meets_throw ⟨Extends.refl past, held⟩

/-- Lookups of names one after the other fare as one lookup of all of them. -/
theorem Keeps.fares_bind {names others : List TypeName} {lookup : Lookup α}
    {next : α → Lookup β}
    (first : Meets (discipline agent calm)
      (Keeps past (Fares agent.sources names past)) lookup past)
    (second : ∀ value later, Extends past later →
      Meets (discipline agent calm)
        (Keeps later (Fares agent.sources others later)) (next value) later) :
    Meets (discipline agent calm)
      (Keeps past (Fares agent.sources (names ++ others) past))
      (lookup >>= next) past := by
  refine Meets.bind (first.mono ?_)
  rintro later (stop | value) ⟨grows, fares⟩
  · exact ⟨grows, fares.stopped others⟩
  · refine (second value later grows).mono ?_
    rintro latest outcome ⟨further, faresLater⟩
    exact ⟨grows.trans further, fares.trans grows further faresLater⟩

theorem pure_fares {value : α} :
    Meets (discipline agent calm)
      (Keeps past (Fares agent.sources [] past)) (pure value) past :=
  pure_keeps ⟨fun _ member => (List.not_mem_nil member).elim,
    fun _ => Steady.refl agent.sources past⟩

theorem forM_fares {items : List α} {look : α → Lookup Unit}
    (names : α → List TypeName)
    (each : ∀ item ∈ items, ∀ later, Extends past later →
      Meets (discipline agent calm)
        (Keeps later (Fares agent.sources (names item) later))
        (look item) later) :
    Meets (discipline agent calm)
      (Keeps past (Fares agent.sources (items.flatMap names) past))
      (items.forM look) past := by
  induction items generalizing past with
  | nil => exact pure_fares
  | cons item rest ih =>
    rw [List.flatMap_cons]
    refine Keeps.fares_bind
      (each item List.mem_cons_self past (Extends.refl past))
      fun _ later grows => ih fun other member latest further => ?_
    exact each other (List.mem_cons_of_mem _ member) latest
      (grows.trans further)

theorem mapM_answers {items : List α} {look : α → Lookup β}
    (each : ∀ item ∈ items, ∀ later, Extends past later →
      Meets (discipline agent calm)
        (Keeps later fun _ outcome => Answers outcome) (look item) later) :
    Meets (discipline agent calm)
      (Keeps past fun _ outcome => Answers outcome) (items.mapM look) past := by
  induction items generalizing past with
  | nil => exact pure_keeps trivial
  | cons item rest ih =>
    rw [List.mapM_cons]
    refine Keeps.bind (each item List.mem_cons_self past (Extends.refl past))
      (fun _ later grows _ => ?_) fun _ _ answers => answers
    refine Keeps.bind (ih fun other member latest further => ?_)
      (fun _ _ _ _ => pure_keeps trivial) fun _ _ answers => answers
    exact each other (List.mem_cons_of_mem _ member) latest
      (grows.trans further)

def Wraps (expression : TypeExpr) : Except Stop TypeRef → Prop
  | .ok reference => reference.expr = expression
  | .error _ => True

theorem takeReference_keeps (builds : BuildsWithin agent calm depth build)
    {expression : TypeExpr}
    (room : HasRoom agent.sources depth expression.names past) :
    Meets (discipline agent calm)
      (Keeps past fun later outcome =>
        Fares agent.sources expression.names past later outcome ∧
          Wraps expression outcome)
      (takeReference build expression) past := by
  have looks : Meets (discipline agent calm)
      (Keeps past (Fares agent.sources
        (expression.names.flatMap fun name => [name]) past))
      (expression.names.forM fun name => do
        let _ ← getNested build name) past := by
    refine forM_fares _ fun name member later grows => ?_
    have roomForName : HasRoom agent.sources depth [name] later :=
      (room.extends grows).of_subset (by simpa using member)
    exact Keeps.fares_bind (getNested_keeps builds roomForName)
      fun _ _ _ => pure_fares
  rw [List.flatMap_singleton'] at looks
  refine Meets.bind (looks.mono ?_)
  rintro later (stop | _) ⟨grows, fares⟩
  · exact ⟨grows, fares, trivial⟩
  · refine meets_perform_bind trivial fun slot _ => meets_pure ?_
    have takes : Extends later (⟨.takeNumber, slot⟩ :: later) :=
      Extends.of_isPlain _ rfl later
    refine ⟨grows.trans takes, ⟨fun name member => ?_, fun plain => ?_⟩, rfl⟩
    · exact takes.hasEntered (fares.1 name member)
    · exact (fares.2 plain).cons rfl rfl

theorem takeReference_answers (builds : BuildsWithin agent calm depth build)
    {expression : TypeExpr}
    (room : HasRoom agent.sources depth expression.names past) :
    Meets (discipline agent calm)
      (Keeps past fun _ outcome => Answers outcome)
      (takeReference build expression) past :=
  (takeReference_keeps builds room).mono fun _ _ ⟨grows, fares, _⟩ =>
    ⟨grows, fares.answers⟩

theorem resolve_keeps (builds : BuildsWithin agent calm depth build)
    {expression : TypeExpr}
    (room : HasRoom agent.sources depth expression.names past)
    (idle : calm → unfinished past = []) :
    Meets (discipline agent calm)
      (Keeps past fun later outcome =>
        Answers outcome ∧ SecuresOutcome later outcome)
      (resolve agent build expression) past := by
  have names := expression.names_eq
  have headRoom : HasRoom agent.sources depth [expression.name] past :=
    room.of_subset (by simp [names])
  refine Keeps.bind (getByName_answers builds headRoom idle)
    (fun base later grows held => ?_) fun _ _ held => held
  split
  · exact pure_keeps held
  have awaited : Meets (discipline agent calm)
      (Keeps later fun latest outcome => Performs (.await base) latest outcome)
      (await base) later := by
    refine perform_keeps _ ⟨.inl held.2, fun isCalm => ?_⟩ fun _ => rfl
    obtain ⟨_, _, _, same⟩ := grows
    exact same.trans (idle isCalm)
  refine Keeps.bind awaited (fun body latest further _ => ?_)
    fun _ _ performed => performed.elim
  have secures : Secures latest base := by
    obtain ⟨deeds, rfl, _, _⟩ := further
    exact held.2.append deeds
  split
  · exact pure_keeps ⟨trivial, secures⟩
  split
  · exact throw_keeps ⟨trivial, trivial⟩
  refine Keeps.bind (mapM_answers fun argument member later onward => ?_)
    (fun _ _ _ _ => ?_) fun _ _ answers => ⟨answers, trivial⟩
  · refine takeReference_answers builds (((room.extends grows).extends
      further).extends onward |>.of_subset ?_)
    rw [names]
    exact List.subset_cons_of_subset _
      (TypeExpr.names_subset_namesOfList member)
  · exact Keeps.bind (perform_keeps _ trivial fun _ => rfl)
      (fun _ _ _ _ => pure_keeps ⟨trivial, trivial⟩)
      fun _ _ performed => performed.elim

theorem follow_keeps (builds : BuildsWithin agent calm depth build)
    {reference : TypeRef}
    (room : HasRoom agent.sources depth reference.expr.names past)
    (idle : reference.expr.isParameterized = true → calm →
      unfinished past = []) :
    Meets (discipline agent calm)
      (Keeps past fun _ outcome => Answers outcome)
      (follow agent build reference) past := by
  unfold follow
  split
  · have headRoom : HasRoom agent.sources depth [reference.expr.name] past :=
      room.of_subset (by simp [reference.expr.names_eq])
    exact (getNested_keeps builds headRoom).mono fun _ _ ⟨grows, fares⟩ =>
      ⟨grows, fares.answers⟩
  next parameterized =>
    refine Keeps.bind
      (perform_keeps (.readTarget reference.slot) trivial fun _ => rfl)
      (fun target later grows _ => ?_) fun _ _ performed => performed.elim
    cases target with
    | some target => exact pure_keeps trivial
    | none =>
      refine Keeps.bind (resolve_keeps builds (room.extends grows) ?_)
        (fun _ _ _ _ => ?_) fun _ _ held => held.1
      · obtain ⟨_, _, _, same⟩ := grows
        intro isCalm
        exact same.trans (idle (by simpa using parameterized) isCalm)
      · refine (perform_keeps (.keepTarget reference.slot _) trivial
          fun _ => rfl).mono ?_
        rintro _ (stop | target) ⟨grows, performed⟩
        · exact performed.elim
        · exact ⟨grows, trivial⟩

theorem lookupText_keeps (builds : BuildsWithin agent calm depth build)
    {text : String}
    (room : HasRoom agent.sources depth (Sources.namesInText text) past)
    (idle : calm → unfinished past = []) :
    Meets (discipline agent calm)
      (Keeps past fun later outcome =>
        Answers outcome ∧ SecuresOutcome later outcome)
      (lookupText agent build text) past := by
  unfold Sources.namesInText at room
  unfold lookupText
  cases parsed : TypeExpr.parse text with
  | error fault => exact throw_keeps ⟨trivial, trivial⟩
  | ok expression =>
    rw [parsed] at room
    exact resolve_keeps builds room idle

theorem referText_keeps (builds : BuildsWithin agent calm depth build)
    {text : String}
    (room : HasRoom agent.sources depth (Sources.namesInText text) past)
    (idle : ∀ expression, TypeExpr.parse text = .ok expression →
      expression.isParameterized = true → calm → unfinished past = []) :
    Meets (discipline agent calm)
      (Keeps past fun _ outcome => Answers outcome)
      (referText agent build text) past := by
  unfold Sources.namesInText at room
  unfold referText
  cases parsed : TypeExpr.parse text with
  | error fault => exact throw_keeps trivial
  | ok expression =>
    rw [parsed] at room
    change Meets _ _ (takeReference build expression >>= follow agent build)
      past
    refine Keeps.bind (takeReference_keeps builds room)
      (fun reference later grows taken => ?_) fun _ _ taken => taken.1.answers
    refine follow_keeps builds ?_ ?_
    · rw [taken.2]
      exact room.extends grows
    · obtain ⟨_, _, _, same⟩ := grows
      intro parameterized isCalm
      rw [taken.2] at parameterized
      exact same.trans (idle expression parsed parameterized isCalm)

theorem find_keeps {holds : Past → Except Stop Descriptor → Prop}
    {lookup : Lookup Descriptor}
    (keeps : Meets (discipline agent calm) (Keeps past holds)
      lookup past)
    (answers : ∀ later outcome, holds later outcome → Answers outcome) :
    Meets (discipline agent calm)
      (Keeps past fun _ outcome => Answers outcome) (find lookup) past := by
  refine Meets.attempt_bind (keeps.mono ?_)
  rintro later outcome ⟨grows, held⟩
  have answered := answers later outcome held
  rcases outcome with (error | crash | name | _) | descriptor
  · exact meets_pure ⟨grows, trivial⟩
  · exact answered.elim
  · exact answered.elim
  · exact answered.elim
  · exact meets_perform_bind trivial fun _ _ => meets_pure
      ⟨grows.trans (Extends.of_isPlain _ rfl _), trivial⟩

end Lookups

end Lookup

def IntrospectionStep.IsCalm : IntrospectionStep → Prop
  | .get _ | .lookup _ => False
  | .reference text => ∀ expression,
      TypeExpr.parse text = .ok expression → expression.isParameterized = false
  | _ => True

/-- Whether the scripts of a registry issue no top-level lookups. -/
def Sources.IsCalm (sources : Sources) : Prop :=
  ∀ steps ∈ sources.scripts.values, ∀ step ∈ steps, step.IsCalm

namespace Lookup

section Scripts

variable {agent : Agent} {calm : Prop} {depth : Nat} {build : Builder}
  {past : Past}

theorem followScript_keeps (builds : BuildsWithin agent calm depth build)
    (facts : TypeFacts) (hasImplementation : Bool)
    {steps : List IntrospectionStep}
    (room : HasRoom agent.sources depth
      (steps.flatMap Sources.mentionedByStep) past)
    (calmSteps : calm → ∀ step ∈ steps, step.IsCalm) :
    Meets (discipline agent calm)
      (Keeps past fun _ outcome => Concludes outcome)
      (followScript agent build facts hasImplementation steps) past := by
  induction steps generalizing past with
  | nil => exact pure_keeps trivial
  | cons step rest ih =>
    rw [List.flatMap_cons] at room
    have goOn (finding : Finding) {later : Past} (grows : Extends past later) :
        Meets (discipline agent calm)
          (Keeps later fun _ outcome => Concludes outcome)
          (do
            perform (.report (.introspecting facts.name finding))
            followScript agent build facts hasImplementation rest)
          later := by
      refine Keeps.bind (perform_keeps _ trivial fun _ => rfl)
        (fun _ latest further _ => ?_) fun _ _ performed => performed.elim
      refine ih (((room.extends grows).extends further).of_subset ?_)
        fun isCalm other member =>
          calmSteps isCalm other (List.mem_cons_of_mem _ member)
      exact List.subset_append_right _ _
    have stepRoom := room.of_subset (List.subset_append_left
      (Sources.mentionedByStep step) (rest.flatMap Sources.mentionedByStep))
    cases step with
    | crash crash => exact throw_keeps trivial
    | reject reason => exact pure_keeps trivial
    | fail reason => exact throw_keeps trivial
    | acceptEmpty => exact pure_keeps trivial
    | survey => exact goOn _ (Extends.refl past)
    | get name =>
      have restless (isCalm : calm) : unfinished past = [] :=
        (calmSteps isCalm _ List.mem_cons_self).elim
      refine Keeps.bind (find_keeps (getByName_answers builds stepRoom restless)
        fun _ _ held => held.1) (fun finding _ grows _ => goOn finding grows) ?_
      exact fun _ _ answers => Stop.IsError.isFailure answers
    | lookup text =>
      have restless (isCalm : calm) : unfinished past = [] :=
        (calmSteps isCalm _ List.mem_cons_self).elim
      refine Keeps.bind (find_keeps (lookupText_keeps builds stepRoom restless)
        fun _ _ held => held.1) (fun finding _ grows _ => goOn finding grows) ?_
      exact fun _ _ answers => Stop.IsError.isFailure answers
    | reference text =>
      refine Keeps.bind (find_keeps (referText_keeps builds stepRoom ?_)
        fun _ _ held => held) (fun finding _ grows _ => goOn finding grows) ?_
      · intro expression parsed parameterized isCalm
        have plain := calmSteps isCalm _ List.mem_cons_self expression parsed
        rw [plain] at parameterized
        cases parameterized
      · exact fun _ _ answers => Stop.IsError.isFailure answers

end Scripts

end Lookup

end TypeAtlas
