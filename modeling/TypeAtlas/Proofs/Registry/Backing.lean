import TypeAtlas.Proofs.Registry.Bookkeeping
import TypeAtlas.Proofs.Registry.Operations

/-!
# What lookups record

Whatever a registry is asked for, it upholds the ledger.  A descriptor that is
given for an expression is what the expression resolves to, and all references
in a body that is published were taken before.  Where the names in an expression
are cached and published, the expression is resolved without any build, and it
is refused only for the number of its arguments.
-/

namespace TypeAtlas

namespace Lookup

/-- Whether an expression was resolved.  Where lookups do not fail, it may still
be refused for the number of its arguments. -/
def Settles (fails : Prop) (expression : TypeExpr) (ledger : Ledger) :
    Except Stop Descriptor → Prop
  | .ok descriptor => ledger.Resolves expression descriptor
  | .error stop => fails ∨ ∃ body arity,
    expression.isParameterized = true ∧
      ledger.store.published? expression.name = some body ∧
        body.parts.category.arity? = some arity ∧
          expression.args.length ≠ arity ∧
            stop = .error (arityError expression body.parts.category arity)

theorem persists_names {name : TypeName} :
    Persists fun ledger descriptor => ledger.Names name descriptor :=
  fun _ _ _ grows names => names.mono grows

theorem persists_settles {fails : Prop} {expression : TypeExpr} :
    Persists (Settles fails expression) := by
  intro ledger later outcome grows settles
  cases outcome with
  | ok descriptor => exact Records.Resolves.mono settles grows
  | error stop =>
    refine settles.imp_right ?_
    rintro ⟨body, arity, parameterized, published, rest⟩
    exact ⟨body, arity, parameterized, grows.published? published, rest⟩

def BuildsUpholding (agent : Agent) (build : Builder) : Prop :=
  ∀ name identity ledger,
    Upholds agent.thread True (fun _ _ => True) (build name identity) ledger

/-- Whether lookups of some names uphold the ledger from some time on. -/
structure Provides (agent : Agent) (build : Builder) (waits fails : Prop)
    (names : List TypeName) (ledger : Ledger) : Prop where
  nested : ∀ name ∈ names, ∀ later, ledger.Within later →
    Upholds agent.thread waits
      (Gives fails fun end_ descriptor => end_.Names name descriptor)
      (getNested build name) later
  topLevel : ∀ name ∈ names, ∀ later, ledger.Within later →
    Upholds agent.thread waits
      (Gives fails fun end_ descriptor => end_.Names name descriptor)
      (getByName agent build name) later
  goes : ∀ name ∈ names,
    waits ∨ ∃ body, ledger.store.published? name = some body

variable {agent : Agent} {build : Builder} {waits fails : Prop}
  {names : List TypeName} {ledger : Ledger}

theorem Provides.later (provides : Provides agent build waits fails names
    ledger) {later : Ledger} (grows : ledger.Within later) :
    Provides agent build waits fails names later where
  nested name member latest further :=
    provides.nested name member latest (grows.trans further)
  topLevel name member latest further :=
    provides.topLevel name member latest (grows.trans further)
  goes name member := (provides.goes name member).imp_right
    fun ⟨body, published⟩ => ⟨body, grows.published? published⟩

theorem Provides.of_subset {others : List TypeName}
    (provides : Provides agent build waits fails names ledger)
    (subset : others ⊆ names) :
    Provides agent build waits fails others ledger where
  nested name member := provides.nested name (subset member)
  topLevel name member := provides.topLevel name (subset member)
  goes name member := provides.goes name (subset member)

theorem upholds_pure {ensures : Ledger → Except Stop α → Prop} {value : α}
    {thread : ThreadId} (ensured : ensures ledger (.ok value)) :
    Upholds thread waits ensures (pure value) ledger :=
  ensured

theorem upholds_throw {ensures : Ledger → Except Stop α → Prop} {stop : Stop}
    {thread : ThreadId} (ensured : ensures ledger (.error stop)) :
    Upholds thread waits ensures (throw stop : Lookup α) ledger :=
  ensured

theorem getNested_upholds (builds : BuildsUpholding agent build)
    (name : TypeName) (ledger : Ledger) :
    Upholds agent.thread True
      (Gives True fun later descriptor => later.Names name descriptor)
      (getNested build name) ledger := by
  apply upholds_noted (persists_gives persists_names)
  intro later _
  apply (upholds_enter name).surely_bind
  intro found latest _ finds
  cases found with
  | present identity builder isPublished => exact finds
  | made identity =>
    apply (builds name identity latest).bind
    · intro _ end_ further _
      exact Records.Names.mono finds further
    · intro _ _ _ _
      trivial

theorem getByName_upholds (builds : BuildsUpholding agent build)
    (name : TypeName) (ledger : Ledger) :
    Upholds agent.thread True
      (Gives True fun later descriptor => later.Names name descriptor)
      (getByName agent build name) ledger := by
  apply upholds_noted (persists_gives persists_names)
  intro later _
  apply (upholds_enter name).surely_bind
  intro found latest _ finds
  cases found with
  | present identity builder isPublished =>
    dsimp only
    split
    · trivial
    · apply (upholds_await finds (.inl trivial)).surely_bind
      intro body latest further _
      refine upholds_quietly_bind trivial fun _ end_ furthest => ?_
      exact Records.Names.mono finds (further.trans furthest)
  | made identity =>
    refine upholds_quietly_bind trivial fun _ latest further => ?_
    apply (builds name identity latest).bind
    · intro _ end_ furthest _
      exact Records.Names.mono finds (further.trans furthest)
    · intro _ _ _ _
      trivial

theorem provides_of_builds (builds : BuildsUpholding agent build)
    (names : List TypeName) (ledger : Ledger) :
    Provides agent build True True names ledger where
  nested name _ later _ := getNested_upholds builds name later
  topLevel name _ later _ := getByName_upholds builds name later
  goes _ _ := .inl trivial

theorem getNested_cached {name : TypeName} (caches : ledger.Caches name) :
    Upholds agent.thread waits
      (Gives False fun later descriptor => later.Names name descriptor)
      (getNested build name) ledger := by
  apply upholds_noted (persists_gives persists_names)
  intro later grows
  apply (upholds_enter_cached (caches.mono grows)).surely_bind
  rintro _ latest _ ⟨identity, builder, isPublished, rfl, names, _⟩
  exact names

theorem getByName_published {name : TypeName} {body : Body}
    (published : ledger.store.published? name = some body) :
    Upholds agent.thread waits
      (Gives False fun later descriptor => later.Names name descriptor)
      (getByName agent build name) ledger := by
  apply upholds_noted (persists_gives persists_names)
  intro later grows
  have published := grows.published? published
  obtain ⟨entry, present, _⟩ := Store.published?_eq_some.1 published
  apply (upholds_enter_cached ⟨entry, present⟩).surely_bind
  rintro _ latest further ⟨identity, builder, _, rfl, names, told⟩
  have isPublished := told body published
  subst isPublished
  apply (upholds_await names
    (.inr ⟨body, further.published? published⟩)).surely_bind
  intro _ later furthest _
  refine upholds_quietly_bind trivial fun _ end_ last => ?_
  exact names.mono (furthest.trans last)

theorem provides_of_published
    (published : ∀ name ∈ names, ∃ body,
      ledger.store.published? name = some body) :
    Provides agent build False False names ledger where
  nested name member later grows := by
    obtain ⟨body, published⟩ := published name member
    obtain ⟨entry, present, _⟩ := Store.published?_eq_some.1
      (grows.published? published)
    exact getNested_cached ⟨entry, present⟩
  topLevel name member later grows := by
    obtain ⟨body, published⟩ := published name member
    exact getByName_published (grows.published? published)
  goes name member := .inr (published name member)

/-- References that were taken to expressions, one to each. -/
def Takes (expressions : List TypeExpr) (ledger : Ledger)
    (references : List TypeRef) : Prop :=
  references.map TypeRef.expr = expressions ∧
    ∀ reference ∈ references, ledger.Backs reference

theorem takeReference_upholds {expression : TypeExpr}
    (provides : Provides agent build waits fails expression.names ledger) :
    Upholds agent.thread waits
      (Gives fails fun later reference =>
        reference.expr = expression ∧ later.Backs reference)
      (takeReference build expression) ledger := by
  have looks : ∀ (names : List TypeName) (ledger : Ledger),
      Provides agent build waits fails names ledger →
        Upholds agent.thread waits
          (Gives fails fun later _ => ∀ name ∈ names, later.Caches name)
          (names.forM fun name => do
            let _ ← getNested build name) ledger := by
    intro names
    induction names with
    | nil => exact fun _ _ => upholds_pure fun _ member => nomatch member
    | cons name rest ih =>
      intro ledger provides
      have here := provides.nested name List.mem_cons_self ledger
        (Records.Within.refl _)
      have first : Upholds agent.thread waits
          (Gives fails fun later _ => later.Caches name) (do
            let _ ← getNested build name) ledger := by
        apply here.gives_bind
        intro _ later _ names
        exact upholds_pure names.caches
      apply first.gives_bind
      intro _ later grows caches
      have others := (provides.of_subset
        (List.subset_cons_self name rest)).later grows
      apply (ih later others).weaken
      intro latest outcome further given
      cases outcome with
      | error stop => exact given
      | ok value =>
        intro other member
        rcases List.mem_cons.1 member with rfl | member
        · exact caches.mono further
        · exact given other member
  apply (looks expression.names ledger provides).gives_bind
  intro _ later _ caches
  apply (upholds_takeNumber caches).surely_bind
  intro slot latest _ backs
  exact upholds_pure ⟨rfl, backs⟩

theorem mapM_takeReference_upholds {expressions : List TypeExpr}
    (provides : Provides agent build waits fails
      (TypeExpr.namesOfList expressions) ledger) :
    Upholds agent.thread waits (Gives fails (Takes expressions))
      (expressions.mapM (takeReference build)) ledger := by
  induction expressions generalizing ledger with
  | nil => exact upholds_pure ⟨rfl, fun _ member => nomatch member⟩
  | cons expression rest ih =>
    rw [List.mapM_cons]
    rw [TypeExpr.namesOfList] at provides
    have here := provides.of_subset (List.subset_append_left _ _)
    have others := provides.of_subset (List.subset_append_right _ _)
    apply (takeReference_upholds here).gives_bind
    rintro reference later grows ⟨same, backs⟩
    apply (ih (others.later grows)).gives_bind
    rintro references latest further ⟨wraps, backed⟩
    refine upholds_pure ⟨by simp [same, wraps], fun other member => ?_⟩
    rcases List.mem_cons.1 member with rfl | member
    · exact backs.mono further
    · exact backed other member

/-- Arguments are looked up only where the head takes as many as are given. -/
theorem resolve_upholds {expression : TypeExpr}
    (head : Provides agent build waits fails [expression.name] ledger)
    (args : ∀ later body, ledger.Within later →
      later.store.published? expression.name = some body →
        body.parts.category.arity? = some expression.args.length →
          Provides agent build waits fails
            (TypeExpr.namesOfList expression.args) later) :
    Upholds agent.thread waits (Settles fails expression)
      (resolve agent build expression) ledger := by
  have isHead : expression.name ∈ [expression.name] := List.mem_cons_self
  apply (head.topLevel _ isHead ledger (Records.Within.refl _)).bind
  · intro base later grows named
    split
    next plain => exact upholds_pure (.plain (by simpa using plain) named)
    next given =>
      have parameterized : expression.isParameterized = true := by
        simpa using given
      have goes := (head.later grows).goes _ isHead
      apply (upholds_await named goes).surely_bind
      intro body latest further published
      have onward := grows.trans further
      split
      next takesNone =>
        exact upholds_pure
          (.dropped parameterized published takesNone (named.mono further))
      next arity takesSome =>
        split
        next wrong =>
          exact upholds_throw (.inr ⟨body, arity, parameterized, published,
            takesSome, wrong, rfl⟩)
        next right =>
          have fits := takesSome.trans
            (congrArg some (Decidable.not_not.1 right).symm)
          have provides := args latest body onward published fits
          apply (mapM_takeReference_upholds provides).bind
          · rintro references end_ furthest ⟨wraps, backs⟩
            refine upholds_quietly_bind trivial fun number last ends => ?_
            have known := (furthest.trans ends).published? published
            exact upholds_pure (.specialized parameterized known fits wraps
              fun reference member => (backs reference member).mono ends)
          · intro _ _ _ failed
            exact .inl failed
  · intro _ _ _ failed
    exact .inl failed

theorem resolve_upholds_of_names {expression : TypeExpr}
    (provides : Provides agent build waits fails expression.names ledger) :
    Upholds agent.thread waits (Settles fails expression)
      (resolve agent build expression) ledger := by
  rw [expression.names_eq] at provides
  apply resolve_upholds
  · exact provides.of_subset (by simp)
  · intro later _ grows _ _
    exact (provides.of_subset (List.subset_cons_self _ _)).later grows

/-- Where following a reference has led, so that it always leads there. -/
structure Leads (fails : Prop) (reference : TypeRef) (ledger : Ledger)
    (outcome : Except Stop Descriptor) : Prop where
  settles : Settles fails reference.expr ledger outcome
  kept : ∀ descriptor, outcome = .ok descriptor →
    reference.expr.isParameterized = true →
      ledger.store.targets.lookup reference.slot = some descriptor

theorem follow_upholds {reference : TypeRef} (backs : ledger.Backs reference)
    (provides : Provides agent build waits fails reference.expr.names
      ledger) :
    Upholds agent.thread waits (Leads fails reference)
      (follow agent build reference) ledger := by
  unfold follow
  split
  next plain =>
    have unparameterized : reference.expr.isParameterized = false := by
      simpa using plain
    apply (provides.nested _ reference.expr.name_mem_names ledger
      (Records.Within.refl _)).weaken
    intro later outcome _ given
    refine ⟨?_, fun _ _ parameterized => ?_⟩
    · cases outcome with
      | ok descriptor => exact .plain unparameterized given
      | error stop => exact .inl given
    · rw [unparameterized] at parameterized
      cases parameterized
  next given =>
    apply (upholds_readTarget backs.taken).surely_bind
    intro target? later grows told
    cases target? with
    | some target =>
      obtain ⟨kept, resolves⟩ := told target rfl
      exact upholds_pure ⟨resolves, fun _ same _ => by cases same; exact kept⟩
    | none =>
      apply (resolve_upholds_of_names (provides.later grows)).bind
      · intro target latest further resolves
        have taken := (grows.trans further).wrapped _ _ backs.taken
        apply (upholds_keepTarget taken resolves).weaken
        intro end_ outcome _ held
        cases outcome with
        | error stop => exact held.elim
        | ok kept =>
          exact ⟨held.2, fun _ same _ => by cases same; exact held.1⟩
      · intro stop later _ failed
        refine ⟨failed, fun descriptor same => ?_⟩
        cases same

theorem lookupText_upholds (builds : BuildsUpholding agent build)
    (text : String) (ledger : Ledger) :
    Upholds agent.thread True
      (fun later outcome => match TypeExpr.parse text with
        | .ok expression => Settles True expression later outcome
        | .error fault => outcome = .error (.error (.typeExpr fault)))
      (lookupText agent build text) ledger := by
  unfold lookupText
  cases TypeExpr.parse text with
  | error fault => exact upholds_throw rfl
  | ok expression =>
    exact resolve_upholds_of_names
      (provides_of_builds builds expression.names ledger)

theorem referText_upholds (builds : BuildsUpholding agent build)
    (text : String) (ledger : Ledger) :
    Upholds agent.thread True (fun _ _ => True)
      (referText agent build text) ledger := by
  unfold referText
  cases TypeExpr.parse text with
  | error fault => exact upholds_throw trivial
  | ok expression =>
    change Upholds _ _ _ (takeReference build expression >>= follow agent build)
      ledger
    apply (takeReference_upholds
      (provides_of_builds builds expression.names ledger)).bind
    · rintro reference later _ ⟨_, backs⟩
      apply (follow_upholds backs (provides_of_builds builds _ later)).weaken
      intro _ _ _ _
      trivial
    · intro _ _ _ _
      trivial

theorem find_upholds {thread : ThreadId}
    {ensures : Ledger → Except Stop Descriptor → Prop}
    {lookup : Lookup Descriptor}
    (upholds : Upholds thread True ensures lookup ledger) :
    Upholds thread True (fun _ _ => True) (find lookup) ledger := by
  apply upholds.attempt_bind
  intro outcome later _ _
  rcases outcome with (error | crash | name | _) | descriptor
  · exact upholds_pure trivial
  · exact upholds_throw trivial
  · exact upholds_throw trivial
  · exact upholds_throw trivial
  · refine upholds_quietly_bind trivial fun _ latest _ => ?_
    exact upholds_pure trivial

end Lookup

namespace BeanVerdict

def references : BeanVerdict → List TypeRef
  | .bean shape => shape.properties.map BeanProperty.type
  | .notABean _ => []

end BeanVerdict

namespace Lookup

variable {agent : Agent} {build : Builder} {ledger : Ledger}

/-- A script never decides for a bean that refers to something. -/
theorem followScript_upholds (builds : BuildsUpholding agent build)
    (facts : TypeFacts) (hasImplementation : Bool)
    (steps : List IntrospectionStep) (ledger : Ledger) :
    Upholds agent.thread True
      (Gives True fun _ verdict? => ∀ verdict, verdict? = some verdict →
        verdict.references = [])
      (followScript agent build facts hasImplementation steps) ledger := by
  induction steps generalizing ledger with
  | nil => exact upholds_pure nofun
  | cons step rest ih =>
    have goOn (finding : Finding) (later : Ledger) :
        Upholds agent.thread True
          (Gives True fun _ verdict? => ∀ verdict, verdict? = some verdict →
            verdict.references = [])
          (do
            perform (.report (.introspecting facts.name finding))
            followScript agent build facts hasImplementation rest)
          later :=
      upholds_quietly_bind trivial fun _ latest _ => ih latest
    have finds {ensures : Ledger → Except Stop Descriptor → Prop}
        {lookup : Lookup Descriptor}
        (upholds : Upholds agent.thread True ensures lookup ledger) :
        Upholds agent.thread True
          (Gives True fun _ verdict? => ∀ verdict, verdict? = some verdict →
            verdict.references = [])
          (find lookup >>= fun finding => do
            perform (.report (.introspecting facts.name finding))
            followScript agent build facts hasImplementation rest)
          ledger :=
      (find_upholds upholds).bind (fun finding later _ _ => goOn finding later)
        fun _ _ _ _ => trivial
    cases step with
    | crash crash => exact upholds_throw trivial
    | reject reason =>
      exact upholds_pure fun _ same => by cases same; rfl
    | fail reason => exact upholds_throw trivial
    | acceptEmpty =>
      exact upholds_pure fun _ same => by cases same; rfl
    | survey => exact goOn _ ledger
    | get name => exact finds (getByName_upholds builds name ledger)
    | lookup text => exact finds (lookupText_upholds builds text ledger)
    | reference text => exact finds (referText_upholds builds text ledger)

end Lookup

end TypeAtlas
