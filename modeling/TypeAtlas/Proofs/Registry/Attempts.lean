import TypeAtlas.Proofs.Registry.Outlined
import TypeAtlas.Proofs.Registry.Readiness
import TypeAtlas.Proofs.Registry.Tours

/-!
# Looking expressions up again

A lookup of an expression ends with the first assembly inside it that fails, and
what has failed stays where it is.  The next lookup of the expression gets past
it, and fails only because of another name and another type that fails on its
own.  So two lookups are enough unless two names fail because of two types, and
they are not enough where two names fail on their own.
-/

namespace TypeAtlas

open Past Lookup

namespace Sources

/-- The category of a type by its facts; without facts there is no other. -/
def categoryOf (sources : Sources) (name : TypeName) : Category :=
  ((sources.provider.known? name).map TypeFacts.category).getD .other

/-- Whether the head of an expression takes its arguments, or takes none. -/
def Fits (sources : Sources) (expression : TypeExpr) : Prop :=
  expression.isParameterized = true → ∀ arity,
    (sources.categoryOf expression.name).arity? = some arity →
      expression.args.length = arity

/-- The names that an expression is looked up as: arguments only if taken. -/
def lookedUp (sources : Sources) (expression : TypeExpr) : List TypeName :=
  if (sources.categoryOf expression.name).arity?.isSome then expression.names
  else [expression.name]

/-- Whether two of some names fail, each because of another type. -/
def FailsTwice (sources : Sources) (names : List TypeName) : Prop :=
  ∃ first ∈ names, ∃ second ∈ names, first ≠ second ∧
    ∃ culprit other, culprit ≠ other ∧
      (sources.Reaches first culprit ∧ ¬ sources.Assembles culprit) ∧
        sources.Reaches second other ∧ ¬ sources.Assembles other

theorem lookedUp_of_unparameterized {sources : Sources}
    {expression : TypeExpr}
    (unparameterized : expression.isParameterized = false) :
    sources.lookedUp expression = [expression.name] := by
  have noArgs : expression.args = [] := by
    simpa [TypeExpr.isParameterized] using unparameterized
  rw [lookedUp, expression.names_eq, noArgs, TypeExpr.namesOfList, ite_self]

end Sources

namespace Lookup

variable {agent : Agent} {calm : Prop} {depth : Nat} {build : Builder}
  {past later : Past} {sources : Sources} {names : List TypeName}

/-- Deeds by which nothing is made or fails change nothing of how one fared. -/
theorem Fares.cons {value : α} {other : β} {deed : Deed}
    (fares : Fares sources names past later (.ok value : Except Stop α))
    (making : deed.isMaking = false) (failing : deed.isFailing = false) :
    Fares sources names past (deed :: later) (.ok other : Except Stop β) where
  left name member := hasEntered_append_right (fares.1 name member) [deed]
  right plain := (fares.2 plain).cons making failing

theorem mapM_fares {items : List α} {look : α → Lookup β}
    (names : α → List TypeName)
    (each : ∀ item ∈ items, ∀ later, Extends past later →
      Meets (discipline agent calm)
        (Keeps later (Fares agent.sources (names item) later))
        (look item) later) :
    Meets (discipline agent calm)
      (Keeps past (Fares agent.sources (items.flatMap names) past))
      (items.mapM look) past := by
  induction items generalizing past with
  | nil => exact pure_fares
  | cons item rest ih =>
    rw [List.flatMap_cons, List.mapM_cons]
    refine Keeps.fares_bind
      (each item List.mem_cons_self past (Extends.refl past))
      fun value later grows => ?_
    have others := ih fun other member latest further =>
      each other (List.mem_cons_of_mem _ member) latest (grows.trans further)
    rw [← List.append_nil (rest.flatMap names)]
    exact Keeps.fares_bind others fun _ _ _ => pure_fares

theorem mapM_takeReference_fares (builds : BuildsWithin agent calm depth build)
    {expressions : List TypeExpr}
    (room : HasRoom agent.sources depth (TypeExpr.namesOfList expressions)
      past) :
    Meets (discipline agent calm)
      (Keeps past (Fares agent.sources (TypeExpr.namesOfList expressions) past))
      (expressions.mapM (takeReference build)) past := by
  rw [TypeExpr.namesOfList_eq]
  refine mapM_fares TypeExpr.names fun expression member later grows => ?_
  have names := TypeExpr.names_subset_namesOfList member
  exact (takeReference_keeps builds ((room.extends grows).of_subset names)).mono
    fun _ _ ⟨grows, fares, _⟩ => ⟨grows, fares⟩

/-- Whether the body of a name was waited for, once the name was looked up. -/
def Awaits (past : Past) (name : TypeName) (body : Body) : Prop :=
  ∃ base, (⟨.mark (.answered .topLevel name (.ok base)), ()⟩ : Deed) ∈ past ∧
    (⟨.await base, body⟩ : Deed) ∈ past

theorem Awaits.extends {name : TypeName} {body : Body}
    (awaits : Awaits past name body) (grows : Extends past later) :
    Awaits later name body := by
  obtain ⟨deeds, rfl, _, _⟩ := grows
  obtain ⟨base, answered, awaited⟩ := awaits
  exact ⟨base, List.mem_append_right _ answered,
    List.mem_append_right _ awaited⟩

/-- How the lookup of an expression fares, by what is found for its head. -/
inductive Attends (sources : Sources) (expression : TypeExpr)
    (past later : Past) : Except Stop Descriptor → Prop where
  | failed {stop : Stop}
    (fares : Fares sources [expression.name] past later
      (.error stop : Except Stop Descriptor)) :
    Attends sources expression past later (.error stop)
  | plain {descriptor : Descriptor}
    (unparameterized : expression.isParameterized = false)
    (fares : Fares sources [expression.name] past later
      (.ok descriptor : Except Stop Descriptor)) :
    Attends sources expression past later (.ok descriptor)
  | dropped {descriptor : Descriptor} {body : Body}
    (awaits : Awaits later expression.name body)
    (takesNone : body.parts.category.arity? = none)
    (fares : Fares sources [expression.name] past later
      (.ok descriptor : Except Stop Descriptor)) :
    Attends sources expression past later (.ok descriptor)
  | refused {stop : Stop} {body : Body} {arity : Nat}
    (parameterized : expression.isParameterized = true)
    (awaits : Awaits later expression.name body)
    (takes : body.parts.category.arity? = some arity)
    (differs : expression.args.length ≠ arity) :
    Attends sources expression past later (.error stop)
  | whole {outcome : Except Stop Descriptor} {body : Body} {arity : Nat}
    (awaits : Awaits later expression.name body)
    (takes : body.parts.category.arity? = some arity)
    (fares : Fares sources expression.names past later outcome) :
    Attends sources expression past later outcome

/-- Where its thread assembles nothing, a lookup attends to an expression. -/
theorem resolve_attends (builds : BuildsWithin agent calm depth build)
    {expression : TypeExpr}
    (room : HasRoom agent.sources depth expression.names past)
    (idle : unfinished past = []) :
    Meets (discipline agent calm)
      (Keeps past (Attends agent.sources expression past))
      (resolve agent build expression) past := by
  have names := expression.names_eq
  have headRoom : HasRoom agent.sources depth [expression.name] past :=
    room.of_subset (by simp [names])
  refine Meets.bind ((getByName_keeps builds headRoom fun _ => idle).mono ?_)
  rintro later outcome ⟨grows, served⟩
  have fares := served.fared.resolve_right fun ⟨_, identity, begun⟩ => by
    rw [idle] at begun
    cases begun
  rcases outcome with stop | base
  · exact ⟨grows, .failed fares⟩
  split
  next unparameterized =>
    exact meets_pure ⟨grows, .plain (by simpa using unparameterized) fares⟩
  next parameterized =>
  have still : unfinished later = [] := by
    obtain ⟨_, _, _, same⟩ := grows
    exact same.trans idle
  refine meets_perform_bind ⟨.inl served.secures, fun _ => still⟩
    fun body _ => ?_
  have waits : Extends later (⟨.await base, body⟩ :: later) :=
    Extends.of_isPlain _ rfl later
  have awaits : Awaits (⟨.await base, body⟩ :: later) expression.name body :=
    ⟨base, List.mem_cons_of_mem _ served.noted, List.mem_cons_self⟩
  split
  next takesNone =>
    exact meets_pure
      ⟨grows.trans waits, .dropped awaits takesNone (fares.cons rfl rfl)⟩
  next arity takes =>
  split
  next differs =>
    exact meets_throw ⟨grows.trans waits,
      .refused (by simpa using parameterized) awaits takes differs⟩
  have argumentRoom : HasRoom agent.sources depth
      (TypeExpr.namesOfList expression.args)
      (⟨.await base, body⟩ :: later) := by
    refine ((room.extends grows).extends waits).of_subset ?_
    rw [names]
    exact List.subset_cons_self _ _
  refine Meets.bind ((mapM_takeReference_fares builds argumentRoom).mono ?_)
  rintro latest outcome ⟨further, faresLater⟩
  have awaitsLater := awaits.extends further
  have grown := (grows.trans waits).trans further
  have head : Fares agent.sources [expression.name] past
      (⟨.await base, body⟩ :: later) (.ok base : Except Stop Descriptor) :=
    fares.cons rfl rfl
  have all := head.trans (grows.trans waits) further faresLater
  rw [List.singleton_append, ← names] at all
  rcases outcome with stop | references
  · exact ⟨grown, .whole awaitsLater takes all⟩
  · refine meets_perform_bind trivial fun number _ => meets_pure ?_
    have numbers : Extends latest (⟨.takeNumber, number⟩ :: latest) :=
      Extends.of_isPlain _ rfl latest
    exact ⟨grown.trans numbers,
      .whole (awaitsLater.extends numbers) takes (all.cons rfl rfl)⟩

end Lookup

namespace Session

open Pool

variable {sources : Sources} {thread : ThreadId} {session : Session}
  {name : TypeName} {body : Body} {expression : TypeExpr} {text : String}

/-- A published body has the category of its type, even if it failed. -/
theorem OnTour.category_of_published (onTour : OnTour sources thread session)
    (published : session.registry.store.published? name = some body) :
    body.parts.category = sources.categoryOf name := by
  obtain ⟨pool, tours, isIn⟩ := onTour.tours
  rw [← isIn.store] at published
  exact (tours.lives.isOutlined published).category

theorem OnTour.category_of_awaits (onTour : OnTour sources thread session)
    (awaits : Awaits (session.history.past thread) name body) :
    body.parts.category = sources.categoryOf name := by
  obtain ⟨base, answered, awaited⟩ := awaits
  obtain ⟨_, _, _, identity, rfl, _⟩ :=
    (onTour.orderly.faithful.lawful thread).allowed answered
  have confirmed := onTour.orderly.faithful.coherent.confirmed thread _
    (History.mem_past.1 awaited)
  exact onTour.category_of_published (Store.published?_of_body? confirmed)

/-- If a lookup attended to an expression that fits, its names fared so. -/
theorem OnTour.fares_of_attends (onTour : OnTour sources thread session)
    (fits : sources.Fits expression) {past : Past}
    {outcome : Except Stop Descriptor}
    (attends : Attends sources expression past (session.history.past thread)
      outcome) :
    Fares sources (sources.lookedUp expression) past
      (session.history.past thread) outcome := by
  cases attends with
  | failed fares =>
    unfold Sources.lookedUp
    split
    · rw [expression.names_eq]
      exact fares.stopped (TypeExpr.namesOfList expression.args)
    · exact fares
  | plain unparameterized fares =>
    rwa [Sources.lookedUp_of_unparameterized unparameterized]
  | dropped awaits takesNone fares =>
    rw [onTour.category_of_awaits awaits] at takesNone
    rwa [Sources.lookedUp, takesNone, Option.isSome_none, if_neg nofun]
  | refused parameterized awaits takes differs =>
    rw [onTour.category_of_awaits awaits] at takes
    exact (differs (fits parameterized _ takes)).elim
  | whole awaits takes fares =>
    rw [onTour.category_of_awaits awaits] at takes
    rwa [Sources.lookedUp, takes, Option.isSome_some, if_pos rfl]

/-- An expression that fits is looked up as the names that it needs. -/
theorem OnTour.run_lookup (onTour : OnTour sources thread session)
    (parsed : TypeExpr.parse text = .ok expression)
    (fits : sources.Fits expression) :
    Keeps (session.history.past thread)
      (Fares sources (sources.lookedUp expression)
        (session.history.past thread))
      ((session.perform thread (.lookup text)).history.past thread)
      (session.registry.run (Registry.lookup text) thread).1 := by
  have attends : ((Operation.lookup text).request.procedure sources
      thread).Meets (discipline { sources, thread } False)
        (Keeps (session.history.past thread)
          (Attends sources expression (session.history.past thread)))
        (session.history.past thread) := by
    obtain ⟨_, _, _, idle⟩ := onTour.orderly.rested
    have builds := @builder_within { sources, thread } False False.elim
    have room := hasRoom_depthBound sources expression.names
      (session.history.past thread)
    change Lookup.Meets _ _ (lookupText _ _ text) _
    unfold lookupText
    rw [parsed]
    exact resolve_attends builds room idle
  obtain ⟨_, outcome, answers, grows, attends⟩ :=
    onTour.orderly.perform_ensures (.lookup text) attends
  have ended : (session.registry.run (Registry.lookup text) thread).1 =
      outcome :=
    congrArg Prod.snd (List.cons.inj answers).1
  have after : OnTour sources thread (session.perform thread (.lookup text)) :=
    onTour.perform nofun
  rw [ended]
  exact ⟨grows, after.fares_of_attends fits attends⟩

/-- What failed was asked for. -/
theorem Orderly.hasEntered_of_hasFailed
    (orderly : Orderly sources thread session)
    (failed : hasFailed (session.history.past thread) name = true) :
    hasEntered (session.history.past thread) name = true := by
  obtain ⟨identity, body, member, _⟩ := hasFailed_iff.1 failed
  obtain ⟨later, earlier, split, ⟨outer, begun⟩, _⟩ :=
    (orderly.faithful.lawful thread).allowed member
  have made := made_of_mem_unfinished (begun ▸ List.mem_cons_self :
    (name, identity) ∈ unfinished earlier)
  rw [split]
  exact hasEntered_of_suffix
    ((List.suffix_cons _ _).trans (List.suffix_append _ _))
    (hasEntered_of_mem made)

/-- A lookup fails since a type that fails on its own was asked for only then,
by a name of which the same is true. -/
theorem OnTour.exists_blamed (onTour : OnTour sources thread session)
    (plain : sources.IsPlain) (parsed : TypeExpr.parse text = .ok expression)
    (fits : sources.Fits expression) {stop : Stop}
    (failed : (session.registry.run (Registry.lookup text) thread).1 =
      .error stop) :
    let later := session.perform thread (.lookup text)
    stop.IsInitialization ∧ ∃ name ∈ sources.lookedUp expression, ∃ culprit,
      sources.Reaches name culprit ∧ ¬ sources.Assembles culprit ∧
        ∀ asked ∈ [name, culprit],
          hasEntered (session.history.past thread) asked = false ∧
            hasEntered (later.history.past thread) asked = true := by
  intro later
  obtain ⟨grows, fares⟩ := onTour.run_lookup parsed fits
  rw [failed] at fares
  obtain ⟨⟨initialization, _⟩, name, member, fresh, blamed⟩ := fares
  have orderly : Orderly sources thread later :=
    onTour.orderly.perform (.lookup text)
  obtain ⟨deeds, extended, _, _⟩ := grows
  obtain ⟨culprit, reaches, failing, unasked, failedToo⟩ :=
    (orderly.faithful.lawful thread).exists_failing plain blamed
      (extended ▸ List.suffix_append _ _) fresh
  refine ⟨initialization, name, member, culprit, reaches, failing, ?_⟩
  intro asked either
  rcases List.mem_pair.1 either with rfl | rfl
  · exact ⟨fresh, orderly.hasEntered_of_hasFailed blamed⟩
  · exact ⟨unasked, orderly.hasEntered_of_hasFailed failedToo⟩

/-- A second lookup succeeds unless two names fail because of two types. -/
theorem OnTour.run_lookup_again (onTour : OnTour sources thread session)
    (plain : sources.IsPlain) (parsed : TypeExpr.parse text = .ok expression)
    (fits : sources.Fits expression) {stop : Stop}
    (failed : (session.registry.run (Registry.lookup text) thread).1 =
      .error stop) :
    stop.IsInitialization ∧ ∀ stopLater,
      ((session.perform thread (.lookup text)).registry.run
        (Registry.lookup text) thread).1 = .error stopLater →
        sources.FailsTwice ((sources.lookedUp expression).filter fun name =>
          !hasEntered (session.history.past thread) name) := by
  have after : OnTour sources thread (session.perform thread (.lookup text)) :=
    onTour.perform nofun
  obtain ⟨initialization, first, firstNamed, culprit, reaches, failing, new⟩ :=
    onTour.exists_blamed plain parsed fits failed
  refine ⟨initialization, fun stopLater again => ?_⟩
  obtain ⟨_, second, secondNamed, other, reachesToo, failingToo, newer⟩ :=
    after.exists_blamed plain parsed fits again
  have before : hasEntered (session.history.past thread) second = false := by
    obtain ⟨⟨deeds, extended, _, _⟩, _⟩ := onTour.run_lookup parsed fits
    refine Bool.eq_false_iff.2 fun entered => ?_
    have entered := hasEntered_of_suffix
      (extended ▸ List.suffix_append deeds _) entered
    rw [(newer second List.mem_cons_self).1] at entered
    cases entered
  have fresh {name : TypeName} (member : name ∈ sources.lookedUp expression)
      (unasked : hasEntered (session.history.past thread) name = false) :
      name ∈ (sources.lookedUp expression).filter fun name =>
        !hasEntered (session.history.past thread) name :=
    List.mem_filter.2 ⟨member, by simp [unasked]⟩
  -- What was new the first time is not new the second time.
  have differs {earlier later : TypeName}
      (asked : hasEntered ((session.perform thread
        (.lookup text)).history.past thread) earlier = true)
      (unasked : hasEntered ((session.perform thread
        (.lookup text)).history.past thread) later = false) :
      earlier ≠ later := by
    rintro rfl
    rw [asked] at unasked
    cases unasked
  exact ⟨first, fresh firstNamed (new first (by simp)).1,
    second, fresh secondNamed before,
    differs (new first (by simp)).2 (newer second (by simp)).1,
    culprit, other,
    differs (new culprit (by simp)).2 (newer other (by simp)).1,
    ⟨reaches, failing⟩, reachesToo, failingToo⟩

theorem Orderly.exists_made (orderly : Orderly sources thread session)
    (entered : hasEntered (session.history.past thread) name = true) :
    ∃ identity, (⟨.enter name, .made identity⟩ : Deed) ∈
      session.history.past thread := by
  obtain ⟨entry, found⟩ := Option.isSome_iff_exists.1
    (orderly.isCached_of_hasEntered entered)
  have made := orderly.faithful.coherent.made name entry found
  rw [orderly.alone _ _ made] at made
  exact ⟨entry.identity, History.mem_past.2 made⟩

/-- A lookup that goes well asks for no type that fails on its own at first. -/
theorem OnTour.hasEntered_of_run_lookup
    (onTour : OnTour sources thread session) (plain : sources.IsPlain)
    (parsed : TypeExpr.parse text = .ok expression)
    (fits : sources.Fits expression) {descriptor : Descriptor}
    (found : (session.registry.run (Registry.lookup text) thread).1 =
      .ok descriptor)
    (member : name ∈ sources.lookedUp expression)
    (failing : ¬ sources.Assembles name) :
    hasEntered (session.history.past thread) name = true := by
  obtain ⟨_, fares⟩ := onTour.run_lookup parsed fits
  rw [found] at fares
  have after := onTour.orderly.perform (.lookup text)
  obtain ⟨identity, made⟩ := after.exists_made (fares.1 name member)
  rcases (fares.2 plain).spares name identity failing made with before | culprit
  · exact hasEntered_of_mem before
  · cases culprit

/-- Two lookups fail where two new names fail on their own. -/
theorem OnTour.run_lookup_fails (onTour : OnTour sources thread session)
    (plain : sources.IsPlain) (parsed : TypeExpr.parse text = .ok expression)
    (fits : sources.Fits expression) {first second : TypeName}
    (different : first ≠ second)
    (new : ∀ name ∈ [first, second], name ∈ sources.lookedUp expression ∧
      ¬ sources.Assembles name ∧
        hasEntered (session.history.past thread) name = false) :
    (∃ stop, stop.IsInitialization ∧
      (session.registry.run (Registry.lookup text) thread).1 = .error stop) ∧
    ∃ stop, ((session.perform thread (.lookup text)).registry.run
      (Registry.lookup text) thread).1 = .error stop := by
  have after : OnTour sources thread (session.perform thread (.lookup text)) :=
    onTour.perform nofun
  obtain ⟨_, fares⟩ := onTour.run_lookup parsed fits
  cases failed : (session.registry.run (Registry.lookup text) thread).1 with
  | ok descriptor =>
    obtain ⟨member, failing, fresh⟩ := new first List.mem_cons_self
    have entered := onTour.hasEntered_of_run_lookup plain parsed fits failed
      member failing
    rw [fresh] at entered
    cases entered
  | error stop =>
    rw [failed] at fares
    obtain ⟨⟨initialization, spares⟩, _⟩ := fares
    obtain ⟨culprit, spared⟩ := spares plain
    refine ⟨⟨stop, initialization, rfl⟩, ?_⟩
    cases again : ((session.perform thread (.lookup text)).registry.run
        (Registry.lookup text) thread).1 with
    | error stopLater => exact ⟨stopLater, rfl⟩
    | ok descriptor =>
      -- Both names were asked for the first time, but only one could be.
      have blamed : ∀ name ∈ [first, second], culprit = name := by
        intro name either
        obtain ⟨member, failing, fresh⟩ := new name either
        obtain ⟨identity, made⟩ := after.orderly.exists_made
          (after.hasEntered_of_run_lookup plain parsed fits again member
            failing)
        rcases spared name identity failing made with before | same
        · rw [hasEntered_of_mem before] at fresh
          cases fresh
        · exact Option.some.inj same
      exact (different ((blamed first (by simp)).symm.trans
        (blamed second (by simp)))).elim

end Session

end TypeAtlas
