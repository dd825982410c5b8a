import Mathlib.Logic.Relation
import Mathlib.Order.Bounds.Defs
import TypeAtlas.Proofs.Registry.ClosedFacts
import TypeAtlas.Proofs.Registry.Confinement

/-!
# Caches are closed under references

Where facts are closed, looking known types up never fails, circles of types
included.  What is cached in the end is what was asked for with all that
references lead to from there, and nothing else.
-/

namespace TypeAtlas

open Past Lookup

namespace Session

variable {sources : Sources} {thread : ThreadId} {session : Session}
  {name : TypeName} {names : List TypeName} {within : TypeName → Prop}

theorem mem_cachedNames_iff :
    name ∈ session.registry.cachedNames ↔ session.isCached name = true := by
  constructor
  · intro listed
    obtain ⟨entry, found⟩ := NameMap.exists_get?_of_mem_names listed
    exact Option.isSome_iff_exists.2 ⟨entry, found⟩
  · intro cached
    obtain ⟨entry, found⟩ := Option.isSome_iff_exists.1 cached
    exact NameMap.mem_names_of_get? found

theorem answers_performAll (sources : Sources) (thread : ThreadId)
    (operations : List Operation) :
    (performAll sources thread operations).answers.map Prod.fst =
      operations.reverse := by
  have goesOn : ∀ (operations : List Operation) (session : Session),
      (operations.foldl (perform thread) session).answers.map Prod.fst =
        operations.reverse ++ session.answers.map Prod.fst := by
    intro operations
    induction operations with
    | nil => exact fun _ => rfl
    | cons operation rest ih =>
      intro session
      rw [List.foldl_cons, ih]
      simp [perform]
  have same := goesOn operations (start sources)
  simpa [start, performAll] using same

theorem Orderly.isConfined_perform (orderly : Orderly sources thread session)
    (plain : sources.IsPlain)
    (closed : ∀ name other, within name → sources.Refers name other →
      within other)
    (confined : session.registry.store.IsConfined within)
    (member : within name) :
    (session.perform thread (.get name)).registry.store.IsConfined within := by
  have builds := builder_confined { sources, thread }
    fun name other member asks => closed name other member
      ((Sources.asksFor_iff_refers plain).1 asks)
  have meets : ((Operation.get name).request.procedure sources thread).Meets
      (confinement within) (fun _ _ => True) [] :=
    getByName_confined builds member []
  simp only [Session.perform, Registry.run, orderly.alive, if_true,
    orderly.sourced]
  exact confined.run meets

/-- Where facts are closed, looking a known type up gives what is cached. -/
theorem Orderly.get_answered (orderly : Orderly sources thread session)
    (closed : sources.IsClosed)
    (known : sources.provider.table.contains name = true) :
    ∃ descriptor,
      (session.perform thread (.get name)).answers =
          (.get name, .ok descriptor) :: session.answers ∧
        (thread,
          (⟨.mark (.answered .topLevel name (.ok descriptor)), ()⟩ : Deed)) ∈
            (session.perform thread (.get name)).history := by
  have later := orderly.perform (.get name)
  obtain ⟨_, outcome, answers, grows, served⟩ :=
    orderly.perform_ensures (.get name) (get_serves sources thread name _)
  have sound := closed.isSound known
  have cached := later.isCached_of_hasEntered served.entered
  -- A lookup fails only where a type has failed or an assembly goes on.
  cases outcome with
  | ok descriptor =>
    exact ⟨descriptor, answers, History.mem_past.1 served.noted⟩
  | error stop =>
    rcases served.fared with ⟨_, blamed, member, _, failed⟩ | ⟨_, _, pending⟩
    · cases List.mem_singleton.1 member
      have ready := later.isReady_of_isSound closed.plain sound cached
      rw [later.isReady_eq_not_hasFailed cached, failed] at ready
      cases ready
    · obtain ⟨_, _, _, none⟩ := orderly.rested
      rw [none] at pending
      cases pending

/-- The sets with given names that no reference of a cached type leaves. -/
def closures (names : List TypeName) (session : Session) :
    Set (Set TypeName) :=
  {held | (∀ name ∈ names, name ∈ held) ∧
    ∀ name ∈ held, ∀ body,
      session.registry.store.published? name = some body →
        ∀ other ∈ body.referred, other ∈ held}

/-- What comes of looking names up where facts are closed: each lookup finds its
type, all that is cached is ready, and it is no more than references lead to. -/
structure Closes (names : List TypeName) (session : Session) : Prop where
  asked : session.answers.map Prod.fst = (names.map Operation.get).reverse
  answered : ∀ operation outcome, (operation, outcome) ∈ session.answers →
    ∃ name entry, operation = .get name ∧
      session.registry.store.entries.get? name = some entry ∧
        outcome = .ok (.cached name entry.identity)
  ready : ∀ name ∈ session.registry.cachedNames, session.isReady name = true
  sorted : session.registry.cachedNames.Pairwise (· < ·)
  least : IsLeast (closures names session)
    {name | name ∈ session.registry.cachedNames}

/-- A session of lookups, all of which have found a type among given names. -/
structure Finds (sources : Sources) (thread : ThreadId)
    (within : TypeName → Prop) (session : Session) : Prop where
  orderly : Orderly sources thread session
  confined : session.registry.store.IsConfined within
  noted : ∀ operation outcome, (operation, outcome) ∈ session.answers →
    ∃ name descriptor, operation = .get name ∧ outcome = .ok descriptor ∧
      (thread,
        (⟨.mark (.answered .topLevel name (.ok descriptor)), ()⟩ : Deed)) ∈
          session.history

theorem Finds.perform (finds : Finds sources thread within session)
    (closed : sources.IsClosed)
    (steady : ∀ name other, within name → sources.Refers name other →
      within other)
    (known : sources.provider.table.contains name = true)
    (member : within name) :
    Finds sources thread within (session.perform thread (.get name)) := by
  have orderly := finds.orderly
  obtain ⟨descriptor, answers, noted⟩ := orderly.get_answered closed known
  refine ⟨orderly.perform _,
    orderly.isConfined_perform closed.plain steady finds.confined member, ?_⟩
  intro operation outcome given
  rw [answers] at given
  rcases List.mem_cons.1 given with here | earlier
  · cases here
    exact ⟨name, descriptor, rfl, rfl, noted⟩
  · obtain ⟨asked, found, get, ok, before⟩ :=
      finds.noted operation outcome earlier
    exact ⟨asked, found, get, ok, List.mem_append_right _ before⟩

theorem performAll_finds (closed : sources.IsClosed) (thread : ThreadId)
    (steady : ∀ name other, within name → sources.Refers name other →
      within other)
    (known : ∀ name ∈ names, sources.provider.table.contains name = true)
    (members : ∀ name ∈ names, within name) :
    Finds sources thread within
      (performAll sources thread (names.map .get)) := by
  have begun : Finds sources thread within (start sources) := by
    refine ⟨start_orderly sources thread, ?_, ?_⟩
    · intro name entry found
      cases found
    · intro operation outcome given
      cases given
  have goesOn : ∀ (names : List TypeName) (session : Session),
      (∀ name ∈ names, sources.provider.table.contains name = true) →
      (∀ name ∈ names, within name) → Finds sources thread within session →
        Finds sources thread within
          ((names.map Operation.get).foldl (Session.perform thread)
            session) := by
    intro names
    induction names with
    | nil => exact fun _ _ _ finds => finds
    | cons name rest ih =>
      intro session known members finds
      rw [List.map_cons, List.foldl_cons]
      apply ih
      · exact fun other member => known other (List.mem_cons_of_mem _ member)
      · exact fun other member => members other (List.mem_cons_of_mem _ member)
      · exact finds.perform closed steady (known name List.mem_cons_self)
          (members name List.mem_cons_self)
  exact goesOn names (start sources) known members begun

theorem Finds.exists_entry (finds : Finds sources thread within session)
    {operation : Operation} {outcome : Except Stop Descriptor}
    (answered : (operation, outcome) ∈ session.answers) :
    ∃ name entry, operation = .get name ∧
      session.registry.store.entries.get? name = some entry ∧
        outcome = .ok (.cached name entry.identity) := by
  obtain ⟨name, descriptor, get, ok, noted⟩ :=
    finds.noted operation outcome answered
  obtain ⟨entry, found, rfl, _⟩ :=
    finds.orderly.faithful.entry_of_answered noted
  exact ⟨name, entry, get, found, ok⟩

/-- Whether references lead to a name from one of some names. -/
def IsReached (sources : Sources) (names : List TypeName) (name : TypeName) :
    Prop :=
  ∃ asked ∈ names, sources.Reaches asked name

theorem isReady_of_finds (closed : sources.IsClosed)
    (known : ∀ name ∈ names, sources.provider.table.contains name = true)
    (finds : Finds sources thread (IsReached sources names) session)
    (cached : session.isCached name = true) : session.isReady name = true := by
  obtain ⟨entry, found⟩ := Option.isSome_iff_exists.1 cached
  obtain ⟨asked, member, reaches⟩ := finds.confined name entry found
  have knownToo := closed.contains_of_reaches (known asked member) reaches
  exact finds.orderly.isReady_of_isSound closed.plain
    (closed.isSound knownToo) cached

theorem isCached_of_finds
    (finds : Finds sources thread within session)
    (asked : session.answers.map Prod.fst = (names.map Operation.get).reverse)
    (member : name ∈ names) : session.isCached name = true := by
  have given : Operation.get name ∈ session.answers.map Prod.fst := by
    rw [asked]
    exact List.mem_reverse.2 (List.mem_map_of_mem member)
  obtain ⟨⟨operation, outcome⟩, answered, same⟩ := List.mem_map.1 given
  cases same
  obtain ⟨other, entry, get, found, _⟩ := finds.exists_entry answered
  cases get
  exact Option.isSome_iff_exists.2 ⟨entry, found⟩

/-- What is cached is what references lead to from what was looked up. -/
theorem isLeast_of_finds (plain : sources.IsPlain)
    (finds : Finds sources thread (IsReached sources names) session)
    (looked : ∀ name ∈ names, session.isCached name = true)
    (ready : ∀ name, session.isCached name = true →
      session.isReady name = true) :
    IsLeast (closures names session)
      {name | name ∈ session.registry.cachedNames} := by
  have orderly := finds.orderly
  have intact {name : TypeName} {body : Body}
      (published : session.registry.store.published? name = some body) :
      body.failure? = none := by
    obtain ⟨entry, found, _⟩ := Store.published?_eq_some.1 published
    have told := ready name (Option.isSome_iff_exists.2 ⟨entry, found⟩)
    rw [isReady_of_published published] at told
    exact Option.isNone_iff_eq_none.1 told
  have cachedToo {name other : TypeName} {body : Body}
      (published : session.registry.store.published? name = some body)
      (member : other ∈ body.referred) : session.isCached other = true :=
    orderly.isCached_of_hasEntered
      (orderly.hasEntered_of_referred plain published (intact published)
        member)
  refine ⟨⟨fun name member => ?_, fun name _ body published other member => ?_⟩,
    fun held closure name listed => ?_⟩
  · exact mem_cachedNames_iff.2 (looked name member)
  · exact mem_cachedNames_iff.2 (cachedToo published member)
  · obtain ⟨given, leaves⟩ := closure
    obtain ⟨entry, found⟩ :=
      Option.isSome_iff_exists.1 (mem_cachedNames_iff.1 listed)
    obtain ⟨asked, member, reaches⟩ := finds.confined name entry found
    -- All on the way is cached, so its references are those of its body.
    have reached : name ∈ held ∧ session.isCached name = true := by
      clear found listed
      induction reaches with
      | refl => exact ⟨given asked member, looked asked member⟩
      | tail _ refers ih =>
        obtain ⟨before, cached⟩ := ih
        obtain ⟨body, published⟩ := orderly.exists_published cached
        have referred := (orderly.faithful.refers_iff plain published
          (intact published)).1 refers
        exact ⟨leaves _ before body published _ referred,
          cachedToo published referred⟩
    exact reached.1

/-- Where facts are closed, looking up known types finds all of them ready, and
caches what references lead to from them. -/
theorem closes_of_isClosed (closed : sources.IsClosed) (thread : ThreadId)
    (known : ∀ name ∈ names, sources.provider.table.contains name = true) :
    Closes names (performAll sources thread (names.map .get)) := by
  have steady (name other : TypeName) (reached : IsReached sources names name)
      (refers : sources.Refers name other) :
      IsReached sources names other := by
    obtain ⟨asked, member, reaches⟩ := reached
    exact ⟨asked, member, reaches.tail refers⟩
  have finds := performAll_finds closed thread steady known
    fun name member => ⟨name, member, .refl⟩
  have asked := answers_performAll sources thread (names.map .get)
  have looked (name : TypeName) (member : name ∈ names) :=
    isCached_of_finds finds asked member
  have ready (name : TypeName)
      (cached : (performAll sources thread (names.map .get)).isCached name =
        true) :=
    isReady_of_finds closed known finds cached
  refine ⟨asked, fun _ _ => finds.exists_entry, fun name listed => ?_,
    List.pairwise_map.2 (NameMap.ascending _),
    isLeast_of_finds closed.plain finds looked ready⟩
  exact ready name (mem_cachedNames_iff.1 listed)

/-- Nodes that refer to each other and are kept in lists, and a lone type. -/
def nodes : Sources where
  provider := Provider.ofTable <| FactsTable.empty.insertAll [
    { name := "Alone" },
    { name := "List", markers := [.elementContainer] },
    { name := "Node"
      constructors := [{ params := [] }]
      fields := [
        { name := "label", type := .named "String" },
        { name := "next", type := .named "Node" },
        { name := "others", type := ⟨"List", [.named "Node"]⟩ }] },
    { name := "Object", markers := [.root] },
    { name := "String", markers := [.text] }]

theorem nodes_isClosed : nodes.IsClosed := by
  have declared : (nodes.provider.table.types.values.all fun facts =>
      (TypeExpr.namesOfList facts.declaredTypes).all
        nodes.provider.table.contains) = true := by
    decide +kernel
  have transforms : (nodes.provider.table.types.values.all fun facts =>
      (TransformCatalogue.declaredNames facts).isEmpty) = true := by
    decide +kernel
  constructor
  case plain => rfl
  case undisturbed => rfl
  case declared =>
    intro facts known name member
    exact List.all_eq_true.1 (List.all_eq_true.1 declared facts known) name
      member
  case root => decide +kernel
  case implementations =>
    intro name implementation found
    cases found
  case transforms =>
    intro facts known name member
    have none := List.all_eq_true.1 transforms facts known
    rw [List.isEmpty_iff.1 none] at member
    cases member

theorem closes_of_nodes :
    nodes.IsClosed ∧
      (∀ name ∈ ["Node"], nodes.provider.table.contains name = true) ∧
        (performAll nodes 0 [.get "Node"]).registry.cachedNames =
            ["List", "Node", "Object", "String"] ∧
          Closes ["Node"] (performAll nodes 0 (["Node"].map .get)) := by
  have known : ∀ name ∈ ["Node"],
      nodes.provider.table.contains name = true := by
    intro name member
    cases List.mem_singleton.1 member
    decide +kernel
  have cached : (performAll nodes 0 [.get "Node"]).registry.cachedNames =
      ["List", "Node", "Object", "String"] := by
    decide +kernel
  exact ⟨nodes_isClosed, known, cached,
    closes_of_isClosed nodes_isClosed 0 known⟩

end Session

end TypeAtlas
