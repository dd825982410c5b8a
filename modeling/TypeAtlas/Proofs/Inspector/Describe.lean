import TypeAtlas.Inspector.Plan
import TypeAtlas.Proofs.Facts.Document
import TypeAtlas.Proofs.Registry.Attempts

/-!
# Describing types

A list of types is described by looking them up one after the other, each of
them once more if that fails.  Types that failed are reported on as well, since
they are found where they are.  All types are reported on unless, in one of
them, two names that were not looked up before fail because of two types; where
two such names fail on their own, that is the end of it.
-/

namespace TypeAtlas

open Past Lookup

namespace Sources

variable {sources : Sources} {name : TypeName} {expression : TypeExpr}
  {text : String} {names others : List TypeName}

theorem categoryOf_ne_argumentList (sources : Sources) (name : TypeName) :
    sources.categoryOf name ≠ .argumentList := by
  unfold categoryOf
  cases sources.provider.known? name with
  | none => exact nofun
  | some facts => exact facts.category_ne_argumentList

/-- What is described of an expression: arguments only where some are taken. -/
def described (sources : Sources) (expression : TypeExpr) : TypeExpr :=
  if (sources.categoryOf expression.name).arity?.isSome then expression
  else .named expression.name

theorem described_of_unparameterized
    (unparameterized : expression.isParameterized = false) :
    sources.described expression = .named expression.name := by
  obtain ⟨name, args⟩ := expression
  have noArgs : args = [] := by
    simpa [TypeExpr.isParameterized] using unparameterized
  rw [described, noArgs]
  exact ite_self _

/-- Whether a text spells an expression whose head takes its arguments. -/
def Accepts (sources : Sources) (text : String) : Prop :=
  ∃ expression, TypeExpr.parse text = .ok expression ∧ sources.Fits expression

def lookedUpFor (sources : Sources) (text : String) : List TypeName :=
  match TypeExpr.parse text with
  | .ok expression => sources.lookedUp expression
  | .error _ => []

theorem lookedUpFor_of_parse (parsed : TypeExpr.parse text = .ok expression) :
    sources.lookedUpFor text = sources.lookedUp expression := by
  rw [lookedUpFor, parsed]

/-- The names looked up for a text, but for those looked up for earlier ones. -/
def newlyLookedUp (sources : Sources) (earlier : List String)
    (text : String) : List TypeName :=
  (sources.lookedUpFor text).filter fun name =>
    !(earlier.flatMap sources.lookedUpFor).contains name

theorem FailsTwice.mono (failsTwice : sources.FailsTwice names)
    (subset : names ⊆ others) : sources.FailsTwice others := by
  obtain ⟨first, firstNamed, second, secondNamed, rest⟩ := failsTwice
  exact ⟨first, subset firstNamed, second, subset secondNamed, rest⟩

theorem FailsTwice.exists_unsound (failsTwice : sources.FailsTwice names) :
    ∃ first ∈ names, ∃ second ∈ names, first ≠ second ∧
      ¬ sources.IsSound first ∧ ¬ sources.IsSound second := by
  obtain ⟨first, firstNamed, second, secondNamed, different, culprit, other, _,
    ⟨reaches, failing⟩, reachesToo, failingToo⟩ := failsTwice
  exact ⟨first, firstNamed, second, secondNamed, different,
    fun sound => failing (sound culprit reaches),
    fun sound => failingToo (sound other reachesToo)⟩

end Sources

/-- Whether a report shows the type of an expression, failed or not. -/
structure Report.Shows (sources : Sources) (expression : TypeExpr)
    (report : Report) : Prop where
  expr : report.expr = (sources.described expression).render
  category : report.category = (sources.categoryOf expression.name).name
  state : report.state =
    if report.failure?.isSome then "failed" else "ready"
  failing : ¬ sources.Assembles expression.name → report.failure?.isSome
  sound : sources.IsSound expression.name → report.failure? = none

namespace Report

variable {sources : Sources} {expression : TypeExpr} {body : Body}
  {format : Format}

@[simp]
theorem ofBody_failure? :
    (ofBody expression body format).failure? = body.failure? := by
  unfold ofBody
  cases body.parts.bean <;> rfl

@[simp]
theorem ofBody_state :
    (ofBody expression body format).state =
      if body.failure?.isSome then "failed" else "ready" := by
  unfold ofBody Body.state
  cases body.parts.bean <;> cases body.failure? <;> rfl

@[simp]
theorem ofBody_category :
    (ofBody expression body format).category = body.parts.category.name := by
  unfold ofBody
  cases body.parts.bean <;> rfl

theorem ofBody_expr (other : body.parts.category ≠ .argumentList) :
    (ofBody expression body format).expr = expression.render := by
  have display : body.display expression = expression.render := by
    unfold Body.display
    rw [beq_false_of_ne other]
    rfl
  rw [← display]
  unfold ofBody
  cases body.parts.bean <;> rfl

end Report

namespace Session

open Pool

variable {sources : Sources} {thread : ThreadId} {session : Session}
  {expression : TypeExpr} {text : String} {descriptor : Descriptor}

/-- Whether a descriptor has the parts and the failure of its head. -/
structure Reflects (sources : Sources) (session : Session)
    (expression : TypeExpr) (descriptor : Descriptor) (body : Body) :
    Prop where
  published :
    session.registry.store.published? expression.name = some body
  expr : descriptor.expr = sources.described expression
  parts : (session.registry.body descriptor).parts = body.parts
  failure : (session.registry.body descriptor).failure? = body.failure?

/-- A descriptor that is cached for the head of an expression is its head. -/
theorem OnTour.reflects_of_names (onTour : OnTour sources thread session)
    {records : Records} (same : records.store = session.registry.store)
    (names : records.Names expression.name descriptor)
    (bare : sources.described expression = .named expression.name) :
    ∃ body, Reflects sources session expression descriptor body := by
  obtain ⟨entry, cached⟩ := names.caches
  obtain ⟨body, published⟩ := onTour.orderly.exists_published
    (Option.isSome_iff_exists.2 ⟨entry, same ▸ cached⟩)
  have given : session.registry.body descriptor = body := by
    rw [Registry.body, ← same,
      names.body?_of_published? (same ▸ published)]
    rfl
  obtain ⟨_, _, rfl⟩ := names
  exact ⟨body, published, bare.symm, by rw [given], by rw [given]⟩

/-- What was found for a text reflects what is published for its head. -/
theorem OnTour.exists_reflected (onTour : OnTour sources thread session)
    (found : (.lookup text, .ok descriptor) ∈ session.answers)
    (parsed : TypeExpr.parse text = .ok expression) :
    ∃ body, Reflects sources session expression descriptor body := by
  obtain ⟨pool, tours, isIn⟩ := onTour.tours
  obtain ⟨ledger, accounted⟩ := tours.lives.accounted
  have same : ledger.store = session.registry.store :=
    accounted.same.trans isIn.store
  have answered : (.lookup text, .ok descriptor) ∈
      (pool.workers thread).answers := by
    rw [isIn.worker]
    exact found
  have asked : (Operation.lookup text).expression? = some expression := by
    rw [Operation.expression?, parsed]
    rfl
  have resolves : ledger.Resolves expression descriptor :=
    (accounted.answered thread _ _ answered).settles expression asked
  cases resolves with
  | plain unparameterized names =>
    exact onTour.reflects_of_names same names
      (Sources.described_of_unparameterized unparameterized)
  | dropped _ published takesNone names =>
    rw [onTour.category_of_published (same ▸ published)] at takesNone
    refine onTour.reflects_of_names same names ?_
    rw [Sources.described, takesNone]
    rfl
  | @specialized body number references _ published arity _ _ =>
    rw [onTour.category_of_published (same ▸ published)] at arity
    refine ⟨body, same ▸ published, ?_, specialized_parts body references,
      specialized_failure? body references⟩
    rw [Sources.described, arity]
    rfl

theorem OnTour.shows (onTour : OnTour sources thread session)
    (plain : sources.IsPlain)
    (found : (.lookup text, .ok descriptor) ∈ session.answers)
    (parsed : TypeExpr.parse text = .ok expression) (format : Format) :
    Report.Shows sources expression (Report.ofBody descriptor.expr
      (session.registry.body descriptor) format) := by
  obtain ⟨body, published, expr, parts, failure⟩ :=
    onTour.exists_reflected found parsed
  have category := onTour.category_of_published published
  have ready := isReady_of_published published
  constructor
  · rw [Report.ofBody_expr, expr]
    rw [parts, category]
    exact sources.categoryOf_ne_argumentList expression.name
  · rw [Report.ofBody_category, parts, category]
  · rw [Report.ofBody_state, Report.ofBody_failure?]
  · intro failing
    rw [onTour.orderly.isReady_eq_false plain failing] at ready
    rw [Report.ofBody_failure?, failure]
    simpa using ready.symm
  · intro sound
    obtain ⟨entry, cached, _⟩ := Store.published?_eq_some.1 published
    rw [onTour.orderly.isReady_of_isSound plain sound
      (Option.isSome_iff_exists.2 ⟨entry, cached⟩)] at ready
    rw [Report.ofBody_failure?, failure]
    simpa using ready.symm

end Session

namespace Inspector

open Session

variable {sources : Sources} {session : Session} {expression : TypeExpr}
  {text : String} {types : List String} {format : Format}

theorem lookupAgain_of_ok {registry : Registry} {descriptor : Descriptor}
    (found : (registry.run (Registry.lookup text) 0).1 = .ok descriptor) :
    lookupAgain registry text =
      (.ok descriptor, (registry.run (Registry.lookup text) 0).2) := by
  unfold lookupAgain
  generalize registry.run (Registry.lookup text) 0 = attempt at found
  obtain ⟨outcome, later⟩ := attempt
  cases found
  rfl

theorem lookupAgain_of_initialization {registry : Registry} {stop : Stop}
    (initialization : stop.IsInitialization)
    (failed : (registry.run (Registry.lookup text) 0).1 = .error stop) :
    lookupAgain registry text =
      (registry.run (Registry.lookup text) 0).2.run
        (Registry.lookup text) 0 := by
  unfold lookupAgain
  generalize registry.run (Registry.lookup text) 0 = attempt at failed
  obtain ⟨outcome, later⟩ := attempt
  cases failed
  cases stop with
  | error error =>
    cases error with
    | initialization name reason => rfl
    | _ => exact initialization.elim
  | _ => exact initialization.elim

theorem reportsOn_cons_of_ok {registry later : Registry}
    {descriptor : Descriptor}
    (given : lookupAgain registry text = (.ok descriptor, later)) :
    reportsOn format (text :: types) registry =
      (reportsOn format types later).map
        (Report.ofBody descriptor.expr (later.body descriptor) format
          :: ·) := by
  rw [reportsOn, given]
  dsimp only
  cases reportsOn format types later <;> rfl

theorem reportsOn_cons_of_error {registry : Registry} {stop : Stop}
    (failed : (lookupAgain registry text).1 = .error stop) :
    reportsOn format (text :: types) registry =
      .error s!"Cannot describe '{text}'" := by
  rw [reportsOn]
  generalize lookupAgain registry text = found at failed
  obtain ⟨outcome, later⟩ := found
  cases failed
  rfl

/-- Whether a lookup gave a descriptor, and its names are looked up by now. -/
structure LooksUp (sources : Sources) (text : String) (session later : Session)
    (descriptor : Descriptor) : Prop where
  onTour : OnTour sources 0 later
  answered : (.lookup text, .ok descriptor) ∈ later.answers
  kept : ∀ name, hasEntered (session.history.past 0) name = true →
    hasEntered (later.history.past 0) name = true
  entered : ∀ name ∈ sources.lookedUpFor text,
    hasEntered (later.history.past 0) name = true

theorem looksUp_of_run (onTour : OnTour sources 0 session)
    (parsed : TypeExpr.parse text = .ok expression)
    (fits : sources.Fits expression) {descriptor : Descriptor}
    (found : (session.registry.run (Registry.lookup text) 0).1 =
      .ok descriptor) :
    LooksUp sources text session (session.perform 0 (.lookup text))
      descriptor := by
  obtain ⟨grows, fares⟩ := onTour.run_lookup parsed fits
  rw [found] at fares
  refine ⟨onTour.perform nofun, ?_, fun name => grows.hasEntered, ?_⟩
  · rw [← found]
    exact List.mem_cons_self
  · rw [Sources.lookedUpFor_of_parse parsed]
    exact fares.1

/-- One of two lookups goes well, or two names fail because of two types. -/
theorem looksUp_or_failsTwice (onTour : OnTour sources 0 session)
    (plain : sources.IsPlain) (accepted : sources.Accepts text) :
    (∃ later descriptor, LooksUp sources text session later descriptor ∧
      lookupAgain session.registry text = (.ok descriptor, later.registry)) ∨
    (∃ stop, (lookupAgain session.registry text).1 = .error stop) ∧
      sources.FailsTwice ((sources.lookedUpFor text).filter fun name =>
        !hasEntered (session.history.past 0) name) := by
  obtain ⟨expression, parsed, fits⟩ := accepted
  cases first : (session.registry.run (Registry.lookup text) 0).1 with
  | ok descriptor =>
    exact .inl ⟨_, descriptor, looksUp_of_run onTour parsed fits first,
      lookupAgain_of_ok first⟩
  | error stop =>
    obtain ⟨initialization, failsTwice⟩ :=
      onTour.run_lookup_again plain parsed fits first
    obtain ⟨grows, _⟩ := onTour.run_lookup parsed fits
    have tried : OnTour sources 0 (session.perform 0 (.lookup text)) :=
      onTour.perform nofun
    have given := lookupAgain_of_initialization initialization first
    cases second : ((session.perform 0 (.lookup text)).registry.run
        (Registry.lookup text) 0).1 with
    | ok descriptor =>
      have looksUp := looksUp_of_run tried parsed fits second
      refine .inl ⟨_, descriptor, ⟨looksUp.onTour, looksUp.answered,
        fun name asked => looksUp.kept name (grows.hasEntered asked),
        looksUp.entered⟩, ?_⟩
      rw [given, ← second]
      rfl
    | error stopLater =>
      rw [Sources.lookedUpFor_of_parse parsed]
      refine .inr ⟨⟨stopLater, ?_⟩, failsTwice stopLater second⟩
      rw [given, ← second]
      rfl

def Describes (sources : Sources) (text : String) (report : Report) : Prop :=
  ∃ expression, TypeExpr.parse text = .ok expression ∧
    report.Shows sources expression

/-- All types are reported on, or two new names in one fail twice. -/
theorem reportsOn_or_failsTwice (onTour : OnTour sources 0 session)
    (plain : sources.IsPlain)
    (accepted : ∀ text ∈ types, sources.Accepts text)
    {earlier : List String}
    (entered : ∀ name ∈ earlier.flatMap sources.lookedUpFor,
      hasEntered (session.history.past 0) name = true) :
    (∃ reports, reportsOn format types session.registry = .ok reports ∧
      List.Forall₂ (Describes sources) types reports) ∨
    ∃ before text after, types = before ++ text :: after ∧
      reportsOn format types session.registry =
        .error s!"Cannot describe '{text}'" ∧
      sources.FailsTwice (sources.newlyLookedUp (earlier ++ before) text) := by
  induction types generalizing session earlier with
  | nil => exact .inl ⟨[], rfl, .nil⟩
  | cons text rest ih =>
    have accepts := accepted text List.mem_cons_self
    rcases looksUp_or_failsTwice onTour plain accepts with
      ⟨later, descriptor, looksUp, given⟩ | ⟨⟨stop, failed⟩, failsTwice⟩
    · obtain ⟨expression, parsed, _⟩ := accepts
      have shown := looksUp.onTour.shows plain looksUp.answered parsed format
      have enteredLater : ∀ name ∈ (earlier ++ [text]).flatMap
          sources.lookedUpFor,
          hasEntered (later.history.past 0) name = true := by
        intro name member
        rw [List.flatMap_append, List.flatMap_singleton] at member
        rcases List.mem_append.1 member with before | now
        · exact looksUp.kept name (entered name before)
        · exact looksUp.entered name now
      rw [reportsOn_cons_of_ok given]
      rcases ih looksUp.onTour
          (fun other member => accepted other (List.mem_cons_of_mem _ member))
          enteredLater with
        ⟨reports, reported, describes⟩ |
        ⟨before, culprit, after, rfl, failed, failsTwice⟩
      · rw [reported]
        exact .inl ⟨_, rfl, .cons ⟨expression, parsed, shown⟩ describes⟩
      · rw [failed]
        rw [List.append_assoc, List.singleton_append] at failsTwice
        exact .inr ⟨text :: before, culprit, after, rfl, rfl, failsTwice⟩
    · refine .inr ⟨[], text, rest, rfl, reportsOn_cons_of_error failed,
        failsTwice.mono fun name member => ?_⟩
      obtain ⟨named, unasked⟩ := List.mem_filter.1 member
      refine List.mem_filter.2 ⟨named, ?_⟩
      rw [Bool.not_eq_true'] at unasked ⊢
      rw [List.append_nil]
      refine Bool.eq_false_iff.2 fun before => ?_
      rw [entered name (List.contains_iff_mem.1 before)] at unasked
      cases unasked

/-- What is described: the types of a table, by a configuration. -/
def sourcesOf (table : FactsTable) (config : Config) : Sources :=
  { provider := Provider.ofTable table, config }

variable {files : Files} {facts : String} {config? : Option String}
  {table : FactsTable} {config : Config}

theorem loadFacts_of_read? {path text : String} {types : List TypeFacts}
    (named : Document.extensionOf path = "json")
    (given : files path = some text)
    (formed : ∀ facts ∈ types, ∀ expression ∈ facts.expressions,
      expression.IsWellFormed)
    (read : Document.Json.read? text = some (Facts.encodeDocument types)) :
    loadFacts files path = .ok
      (FactsTable.ofCoreTypes.insertAll (types.map TypeFacts.written)) := by
  have loaded := Facts.loadJson_of_read? FactsTable.ofCoreTypes formed read
  simp only [loadFacts, FactsTable.loadFile, given, named, loaded]

theorem describe_eq (loaded : loadFacts files facts = .ok table)
    (configured : loadConfig files config? = .ok config) (format : Format)
    (asDocument : Bool) (types : List String) :
    describe files facts config? format asDocument types =
      (reportsOn format types (start (sourcesOf table config)).registry).map
        (printReports asDocument) := by
  unfold describe
  rw [loaded, configured]
  rfl

/-- Where its files can be loaded, and all texts are expressions whose heads
take their arguments, a description succeeds with one report on each text,
whether types failed or not.  There is one exception: a text in which two names
that were not looked up for earlier ones fail because of two types. -/
theorem describe_shows (loaded : loadFacts files facts = .ok table)
    (configured : loadConfig files config? = .ok config) (format : Format)
    (asDocument : Bool) {types : List String}
    (accepted : ∀ text ∈ types, (sourcesOf table config).Accepts text) :
    (∃ reports,
      describe files facts config? format asDocument types =
        .ok (printReports asDocument reports) ∧
      List.Forall₂ (Describes (sourcesOf table config)) types reports) ∨
    ∃ before text after, types = before ++ text :: after ∧
      describe files facts config? format asDocument types =
        .error s!"Cannot describe '{text}'" ∧
      (sourcesOf table config).FailsTwice
        ((sourcesOf table config).newlyLookedUp before text) := by
  rw [describe_eq loaded configured]
  rcases @reportsOn_or_failsTwice _ _ _ format
      (start_onTour (sourcesOf table config) 0) rfl accepted []
      (fun _ none => nomatch none) with
    ⟨reports, reported, describes⟩ |
    ⟨before, text, after, split, failed, failsTwice⟩
  · rw [reported]
    exact .inl ⟨reports, rfl, describes⟩
  · rw [failed]
    exact .inr ⟨before, text, after, split, rfl, failsTwice⟩

/-- A description ends where two names in its first text fail on their own. -/
theorem describe_eq_error (loaded : loadFacts files facts = .ok table)
    (configured : loadConfig files config? = .ok config) (format : Format)
    (asDocument : Bool) (parsed : TypeExpr.parse text = .ok expression)
    (fits : (sourcesOf table config).Fits expression)
    {first second : TypeName} (different : first ≠ second)
    (failing : ∀ name ∈ [first, second],
      name ∈ (sourcesOf table config).lookedUp expression ∧
        ¬ (sourcesOf table config).Assembles name) (rest : List String) :
    describe files facts config? format asDocument (text :: rest) =
      .error s!"Cannot describe '{text}'" := by
  obtain ⟨⟨stop, initialization, firstFailed⟩, stopLater, secondFailed⟩ :=
    (start_onTour (sourcesOf table config) 0).run_lookup_fails rfl parsed fits
      different fun name member =>
        ⟨(failing name member).1, (failing name member).2, rfl⟩
  have failed : (lookupAgain (start (sourcesOf table config)).registry
      text).1 = .error stopLater := by
    rw [lookupAgain_of_initialization initialization firstFailed]
    exact secondFailed
  rw [describe_eq loaded configured, reportsOn_cons_of_error failed]
  rfl

def pairs : TypeFacts where
  name := "Map"
  markers := [.pairContainer]

def pairFiles : Files :=
  fun _ => some (Document.Json.pretty 0 (Facts.encodeDocument [pairs]))

def pairTable : FactsTable :=
  FactsTable.ofCoreTypes.insertAll ([pairs].map TypeFacts.written)

theorem loadFacts_pairFiles :
    loadFacts pairFiles "facts.json" = .ok pairTable :=
  loadFacts_of_read? (by decide +kernel) rfl (by decide)
    (Document.Json.read?_pretty (Facts.isData_encodeDocument [pairs]) 0)

theorem pairs_isSound : (sourcesOf pairTable {}).IsSound "Map" := by
  have root : (Assembly.cacheFree (sourcesOf pairTable {})
      "Object").2.referred = [] := by
    decide +kernel
  have held : (Assembly.cacheFree (sourcesOf pairTable {})
      "Map").2.referred = ["Object", "Object"] := by
    decide +kernel
  intro other reaches
  have known : other = "Map" ∨ other = "Object" := by
    induction reaches with
    | refl => exact .inl rfl
    | tail _ refers ih =>
      rcases ih with rfl | rfl
      · have member := refers.2
        rw [held] at member
        exact .inr (by simpa using member)
      · have member := refers.2
        rw [root] at member
        cases member
  rcases known with rfl | rfl
  · decide +kernel
  · decide +kernel

theorem not_failsTwice_pair (name : TypeName) :
    ¬ (sourcesOf pairTable {}).FailsTwice ["Map", name] := by
  intro failsTwice
  obtain ⟨first, firstNamed, second, secondNamed, different, unsound,
    unsoundToo⟩ := failsTwice.exists_unsound
  rcases List.mem_pair.1 firstNamed with rfl | rfl
  · exact unsound pairs_isSound
  rcases List.mem_pair.1 secondNamed with rfl | rfl
  · exact unsoundToo pairs_isSound
  · exact different rfl

theorem accepts_pair {first second : TypeExpr}
    (parsed : TypeExpr.parse text = .ok ⟨"Map", [first, second]⟩) :
    (sourcesOf pairTable {}).Accepts text := by
  have category : (sourcesOf pairTable {}).categoryOf "Map" =
      .pairContainer := by
    decide +kernel
  refine ⟨_, parsed, fun _ arity takes => ?_⟩
  rw [category] at takes
  cases takes
  rfl

/-- Types that are not known are described, if there is one new at a time. -/
theorem describe_shows_pairs :
    loadFacts pairFiles "facts.json" = .ok pairTable ∧
    (∀ text ∈ ["Map<X,X>", "Map<X,Y>", "Y"],
      (sourcesOf pairTable {}).Accepts text) ∧
    ∃ reports,
      describe pairFiles "facts.json" none "json" false
          ["Map<X,X>", "Map<X,Y>", "Y"] =
        .ok (printReports false reports) ∧
      List.Forall₂ (Describes (sourcesOf pairTable {}))
        ["Map<X,X>", "Map<X,Y>", "Y"] reports := by
  have accepted : ∀ text ∈ ["Map<X,X>", "Map<X,Y>", "Y"],
      (sourcesOf pairTable {}).Accepts text := by
    intro text member
    simp only [List.mem_cons, List.not_mem_nil, or_false] at member
    rcases member with rfl | rfl | rfl
    · exact @accepts_pair _ (.named "X") (.named "X") (by decide +kernel)
    · exact @accepts_pair _ (.named "X") (.named "Y") (by decide +kernel)
    · exact ⟨.named "Y", by decide +kernel, fun parameterized =>
        (Bool.false_ne_true parameterized).elim⟩
  refine ⟨loadFacts_pairFiles, accepted, ?_⟩
  rcases describe_shows loadFacts_pairFiles
      (show loadConfig pairFiles none = .ok {} from rfl) "json" false accepted
    with succeeds | ⟨before, text, after, split, _, failsTwice⟩
  · exact succeeds
  have named : ∃ name,
      (sourcesOf pairTable {}).newlyLookedUp before text ⊆ ["Map", name] := by
    rcases before with _ | ⟨_, _ | ⟨_, _ | ⟨_, before⟩⟩⟩
    · cases split
      exact ⟨"X", by decide +kernel⟩
    · cases split
      exact ⟨"Y", by decide +kernel⟩
    · cases split
      exact ⟨"Y", by decide +kernel⟩
    · simp at split
  obtain ⟨name, subset⟩ := named
  exact (not_failsTwice_pair name (failsTwice.mono subset)).elim

/-- Two types that are not known end a description, where both are new. -/
theorem not_describe_pairs :
    ¬ ∀ files facts config? table config format asDocument types,
      loadFacts files facts = .ok table →
        loadConfig files config? = .ok config →
          (∀ text ∈ types, (sourcesOf table config).Accepts text) →
            ∃ printed, describe files facts config? format asDocument types =
              .ok printed := by
  intro succeeds
  have parsed : TypeExpr.parse "Map<X,Y>" =
      .ok ⟨"Map", [.named "X", .named "Y"]⟩ := by
    decide +kernel
  have accepts := accepts_pair parsed
  obtain ⟨printed, same⟩ := succeeds pairFiles "facts.json" none pairTable {}
    "json" false ["Map<X,Y>"] loadFacts_pairFiles rfl
    fun text member => List.mem_singleton.1 member ▸ accepts
  obtain ⟨expression, parsedToo, fits⟩ := accepts
  cases parsed.symm.trans parsedToo
  have lookedUp : (sourcesOf pairTable {}).lookedUp
      ⟨"Map", [.named "X", .named "Y"]⟩ = ["Map", "X", "Y"] := by
    decide +kernel
  have unknown : ∀ name ∈ ["X", "Y"],
      (sourcesOf pairTable {}).provider.table.contains name = false := by
    intro name member
    rcases List.mem_pair.1 member with rfl | rfl
    · decide +kernel
    · decide +kernel
  rw [describe_eq_error loadFacts_pairFiles rfl "json" false parsed fits
    (show "X" ≠ "Y" by decide) fun name member => ?_] at same
  · cases same
  · rw [lookedUp, Sources.assembles_iff rfl, unknown name member]
    exact ⟨List.mem_cons_of_mem _ member,
      fun known => Bool.false_ne_true known.1⟩

end Inspector

end TypeAtlas
