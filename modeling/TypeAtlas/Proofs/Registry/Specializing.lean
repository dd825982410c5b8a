import Mathlib.Data.List.Basic
import Mathlib.Logic.Relation
import TypeAtlas.Proofs.Registry.Rests

/-!
# Specializations change nothing but references

An expression with type arguments is resolved by looking its head up, and then
the names in its arguments, if there are as many as the head takes.  What comes
of it at rest depends on the head alone, unless a name in the arguments fails.
All that was cached stays as it is, and no specialization is cached.
-/

namespace TypeAtlas

open Past Lookup

namespace Body

/-- Whether a body is another one, but holds what the arguments say. -/
structure Specializes (body : Body) (args : List TypeExpr) (given : Body) :
    Prop where
  parts : given.parts = body.parts
  failure : given.failure? = body.failure?
  element : body.parts.category.HoldsElements → ∃ element,
    args = [element.expr] ∧ given.element? = some element ∧
      given.key? = none ∧ given.value? = none
  pair : body.parts.category.HoldsPairs → ∃ key value,
    args = [key.expr, value.expr] ∧ given.element? = none ∧
      given.key? = some key ∧ given.value? = some value
  args : given.args = []

theorem specializes_specialized {body : Body} {references : List TypeRef}
    (within : body.IsWithin body.parts.category)
    (takes : body.parts.category.arity? = some references.length) :
    body.Specializes (references.map TypeRef.expr)
      (specialized body references) := by
  have none {reference? : Option TypeRef} {holds : Prop}
      (implies : reference?.isSome → holds) (fails : ¬ holds) :
      reference? = none :=
    Option.not_isSome_iff_eq_none.1 (mt implies fails)
  have parts := specialized_parts body references
  have failure := specialized_failure? body references
  rcases Category.arity?_cases takes with
    ⟨one, elements, pairless⟩ | ⟨two, pairs, elementless⟩
  · obtain ⟨element, rfl⟩ := List.length_eq_one_iff.1 one
    exact ⟨parts, failure,
      fun _ => ⟨element, rfl, rfl, none within.key pairless,
        none within.value pairless⟩,
      fun pairs => (pairless pairs).elim, rfl⟩
  · obtain ⟨key, value, rfl⟩ := List.length_eq_two.1 two
    exact ⟨parts, failure, fun elements => (elementless elements).elim,
      fun _ => ⟨key, value, rfl, none within.element elementless, rfl, rfl⟩,
      rfl⟩

end Body

/-- The names that are looked up for an expression with type arguments. -/
def Sources.counted (sources : Sources) (expression : TypeExpr) :
    List TypeName :=
  if (sources.categoryOf expression.name).arity? =
      some expression.args.length then expression.names
  else [expression.name]

/-- Whether a name was cached before, or its build succeeds. -/
def Store.Offers (store : Store) (name : TypeName) (body : Body) : Prop :=
  store.entries.get? name ≠ none ∨ body.failure? = none

/-- What resolving an expression with type arguments comes to, the body of its
head being known. -/
inductive Specialization (store later : Store) (expression : TypeExpr)
    (identity : Nat) (body : Body) : Except Stop Descriptor → Prop where
  /-- The build of the head was begun for this, and failed. -/
  | failed {reason : String}
    (absent : store.entries.get? expression.name = none)
    (fails : body.failure? = some reason) :
    Specialization store later expression identity body
      (.error (.error (.initialization expression.name reason)))
  /-- The head takes no arguments, so those that are given are dropped. -/
  | dropped (offers : store.Offers expression.name body)
    (takesNone : body.parts.category.arity? = none) :
    Specialization store later expression identity body
      (.ok (.cached expression.name identity))
  | refused {arity : Nat} (offers : store.Offers expression.name body)
    (takes : body.parts.category.arity? = some arity)
    (differs : expression.args.length ≠ arity) :
    Specialization store later expression identity body
      (.error (.error (arityError expression body.parts.category arity)))
  /-- The build of a name in the arguments was begun for this, and failed. -/
  | cut {stop : Stop} (offers : store.Offers expression.name body)
    (fits : body.parts.category.arity? = some expression.args.length)
    (initialization : stop.IsInitialization)
    (fails : ∃ name ∈ TypeExpr.namesOfList expression.args,
      store.FailsSince later name) :
    Specialization store later expression identity body (.error stop)
  | specialized {number : Nat} {given : Body}
    (offers : store.Offers expression.name body)
    (fits : body.parts.category.arity? = some expression.args.length)
    (unused : store.fresh ≤ number) (used : number < later.fresh)
    (specializes : body.Specializes expression.args given) :
    Specialization store later expression identity body
      (.ok (.detached number expression given))

namespace Lookup

variable {agent : Agent} {build : Builder} {thread : ThreadId}
  {store later latest : Store} {expression : TypeExpr} {base : Descriptor}
  {body : Body}

theorem resolve_comesTo_stopped {stop : Stop}
    (stopped : (getByName agent build expression.name).ComesTo thread store
      (.error stop) later) :
    (resolve agent build expression).ComesTo thread store (.error stop) later :=
  stopped.stopped _

section Found

variable (parameterized : expression.isParameterized = true)
  (found : (getByName agent build expression.name).ComesTo thread store
    (.ok base) later)
  (told : later.body? base = some body)

include parameterized found told

/-- Once the head is found, the rest goes by its body. -/
theorem resolve_comesTo {outcome : Except Stop Descriptor}
    (rest : (match body.parts.category.arity? with
      | none => pure base
      | some arity =>
        if expression.args.length ≠ arity then
          fail (arityError expression body.parts.category arity)
        else do
          let references ← expression.args.mapM (takeReference build)
          return .detached (← takeNumber) expression
            (specialized body references) : Lookup Descriptor).ComesTo thread
        later outcome latest) :
    (resolve agent build expression).ComesTo thread store outcome latest := by
  have awaited : later.perform thread (.await base) = .ok (body, later) := by
    simp only [Store.perform, told]
  unfold resolve
  rw [parameterized]
  exact found.bind ((comesTo_perform awaited).bind rest)

theorem resolve_comesTo_dropped
    (takesNone : body.parts.category.arity? = none) :
    (resolve agent build expression).ComesTo thread store (.ok base) later := by
  refine resolve_comesTo parameterized found told ?_
  rw [takesNone]
  exact comesTo_pure base thread later

theorem resolve_comesTo_refused {arity : Nat}
    (takes : body.parts.category.arity? = some arity)
    (differs : expression.args.length ≠ arity) :
    (resolve agent build expression).ComesTo thread store
      (.error (.error (arityError expression body.parts.category arity)))
      later := by
  refine resolve_comesTo parameterized found told ?_
  rw [takes]
  simp only [differs, ne_eq, not_false_eq_true, if_true]
  exact comesTo_fail _ thread later

theorem resolve_comesTo_cut {stop : Stop}
    (fits : body.parts.category.arity? = some expression.args.length)
    (stopped : (expression.args.mapM (takeReference build)).ComesTo thread later
      (.error stop) latest) :
    (resolve agent build expression).ComesTo thread store (.error stop)
      latest := by
  refine resolve_comesTo parameterized found told ?_
  rw [fits]
  simp only [ne_eq, not_true_eq_false, if_false]
  exact stopped.stopped _

theorem resolve_comesTo_specialized {references : List TypeRef}
    (fits : body.parts.category.arity? = some expression.args.length)
    (taken : (expression.args.mapM (takeReference build)).ComesTo thread later
      (.ok references) latest) :
    (resolve agent build expression).ComesTo thread store
      (.ok (.detached latest.fresh expression (specialized body references)))
      latest.useNumber := by
  refine resolve_comesTo parameterized found told ?_
  rw [fits]
  simp only [ne_eq, not_true_eq_false, if_false]
  have numbered : latest.perform thread .takeNumber =
      .ok (latest.fresh, latest.useNumber) := rfl
  exact taken.bind ((comesTo_perform numbered).bind (comesTo_pure _ _ _))

end Found

end Lookup

theorem Sources.name_mem_counted (sources : Sources) (expression : TypeExpr) :
    expression.name ∈ sources.counted expression := by
  unfold counted
  split
  · exact expression.name_mem_names
  · exact List.mem_singleton.2 rfl

namespace Store

variable {sources : Sources} {store : Store} {expression : TypeExpr}

/-- What resolving an expression with type arguments comes to at rest. -/
structure ResolvesAtRest (sources : Sources) (store : Store)
    (expression : TypeExpr) (identity : Nat) (body : Body)
    (outcome : Except Stop Descriptor) (later : Store) : Prop where
  head : later.body? (.cached expression.name identity) = some body
  category : body.parts.category = sources.categoryOf expression.name
  comes : Specialization store later expression identity body outcome
  leaves : store.LeavesAtRest sources (sources.counted expression) later

theorem IsAtRest.resolve (rests : store.IsAtRest sources) (thread : ThreadId)
    (parameterized : expression.isParameterized = true) :
    ∃ identity body outcome later,
      (Lookup.resolve { sources, thread } (builder { sources, thread })
          expression).ComesTo thread store outcome later ∧
        store.ResolvesAtRest sources expression identity body outcome
          later := by
  obtain ⟨identity, body, found, midway, gets⟩ :=
    rests.getByName expression.name thread
  have category : body.parts.category = sources.categoryOf expression.name :=
    (gets.rests.outlined _ body (published?_of_body? gets.told)).category
  have resolves {outcome : Except Stop Descriptor}
      (comes : Specialization store midway expression identity body outcome) :
      store.ResolvesAtRest sources expression identity body outcome midway :=
    ⟨gets.told, category, comes, gets.leaves.mono (List.cons_subset.2
      ⟨sources.name_mem_counted expression, List.nil_subset _⟩)⟩
  by_cases offers : store.Offers expression.name body
  case neg =>
    obtain ⟨absent, fails⟩ := not_or.1 offers
    obtain ⟨reason, failed⟩ := Option.ne_none_iff_exists'.1 fails
    cases gets.failed (Decidable.not_not.1 absent) reason failed
    exact ⟨identity, body, _, midway, resolve_comesTo_stopped gets.comes,
      resolves (.failed (Decidable.not_not.1 absent) failed)⟩
  cases gets.served offers
  cases takes : body.parts.category.arity? with
  | none =>
    exact ⟨identity, body, _, midway,
      resolve_comesTo_dropped parameterized gets.comes gets.told takes,
      resolves (.dropped offers takes)⟩
  | some arity =>
    by_cases fits : expression.args.length = arity
    case neg =>
      exact ⟨identity, body, _, midway,
        resolve_comesTo_refused parameterized gets.comes gets.told takes fits,
        resolves (.refused offers takes fits)⟩
    subst fits
    obtain ⟨outcome, ends⟩ := gets.rests.run
      (takeReferences_isRestful { sources, thread } expression.args)
    have told := ends.leaves.body? gets.told
    have counted : sources.counted expression =
        [expression.name] ++ TypeExpr.namesOfList expression.args := by
      rw [Sources.counted, ← category, takes, if_pos rfl, expression.names_eq]
      rfl
    have leaves := gets.leaves.trans ends.leaves
    rw [← counted] at leaves
    cases outcome with
    | error stop =>
      obtain ⟨initialization, name, member, fails⟩ := ends.failed stop rfl
      exact ⟨identity, body, _, _,
        resolve_comesTo_cut parameterized gets.comes gets.told takes
          ⟨ends.ended, rfl⟩,
        told, category, .cut offers takes initialization
          ⟨name, member, gets.leaves.failsSince fails⟩, leaves⟩
    | ok references =>
      obtain ⟨ledger, same, wraps, _⟩ := ends.given references rfl
      have within : body.IsWithin body.parts.category :=
        category ▸ (gets.rests.generic _ body
          (published?_of_body? gets.told)).isWithin
      have specializes : body.Specializes expression.args
          (specialized body references) := by
        rw [← wraps]
        apply Body.specializes_specialized within
        rw [takes, ← wraps, List.length_map]
      exact ⟨identity, body, _, _,
        resolve_comesTo_specialized parameterized gets.comes gets.told takes
          ⟨ends.ended, rfl⟩,
        told, category, .specialized offers takes leaves.unused
          (Nat.lt_succ_self _) specializes, leaves.useNumber⟩

end Store

namespace Pool

/-- While nothing is built, resolving an expression with type arguments comes to
a specialization of its head, to the head itself, or to an error, by the head
and the number of arguments, unless a name fails that had to be built for it.
What was cached is unchanged, and all that is new was asked for by the head or
by arguments that count: without scripts, references lead to it from there. -/
theorem specializes_of_lives {sources : Sources} {pool : Pool}
    (lives : Lives sources pool) (quiet : pool.IsQuiet) (thread : ThreadId)
    {expression : TypeExpr}
    (parameterized : expression.isParameterized = true) :
    ∃ identity body outcome later,
      (pool.registry sources).run (Registry.resolve expression) thread =
          (outcome, { sources, store := later }) ∧
        pool.store.ResolvesAtRest sources expression identity body outcome
          later ∧
        (sources.IsPlain → ∀ name entry,
          pool.store.entries.get? name = none →
            later.entries.get? name = some entry →
              Session.IsReached sources (sources.counted expression) name) := by
  obtain ⟨identity, body, outcome, later, comes, resolves⟩ :=
    (lives.isAtRest quiet).resolve thread parameterized
  refine ⟨identity, body, outcome, later, Registry.run_of_comesTo comes,
    resolves, fun plain name entry absent found => ?_⟩
  exact (Sources.isAskedFor_iff_isReached plain).1
    (resolves.leaves.added name entry absent found)

/-- An array of another element type, of which neither was cached before. -/
theorem specializes_of_circle :
    let pool := start fun _ => []
    let expression : TypeExpr := ⟨"A", [.named "A"]⟩
    Lives circle pool ∧ pool.IsQuiet ∧ expression.isParameterized = true ∧
      ((pool.registry circle).run (Registry.resolve expression)
          0).2.cachedNames = ["A", "B"] ∧
        ∃ identity body outcome later,
          (pool.registry circle).run (Registry.resolve expression) 0 =
              (outcome, { sources := circle, store := later }) ∧
            pool.store.ResolvesAtRest circle expression identity body outcome
              later ∧
            (circle.IsPlain → ∀ name entry,
              pool.store.entries.get? name = none →
                later.entries.get? name = some entry →
                  Session.IsReached circle (circle.counted expression)
                    name) := by
  intro pool expression
  have quiet : pool.IsQuiet := fun name entry found => by cases found
  have cached : ((pool.registry circle).run (Registry.resolve expression)
      0).2.cachedNames = ["A", "B"] := by
    decide +kernel
  exact ⟨.refl, quiet, rfl, cached,
    specializes_of_lives .refl quiet 0 rfl⟩

/-- A type that cannot be built, and one for which another is looked up. -/
def prompted : Sources where
  provider := Provider.ofTable <| FactsTable.empty.insertAll [
    { name := "Broken", tags := [.transform "nowhere"] },
    { name := "Other" },
    { name := "Prompted" }]
  scripts := NameMap.ofList [("Prompted", [.get "Other"])]

theorem prompted_refers_nowhere (name : TypeName) :
    ¬ prompted.Refers "Prompted" name := by
  have nothing : (Assembly.cacheFree prompted "Prompted").2.referred = [] := by
    decide +kernel
  rintro ⟨_, member⟩
  rw [nothing] at member
  cases member

/-- A type that is no container may fail when it is looked up with type
arguments, and a script may look up what no references lead to. -/
theorem not_specializes_of_prompted :
    let registry : Registry := { sources := prompted }
    let broken : TypeExpr := ⟨"Broken", [.named "Other"]⟩
    let asking : TypeExpr := ⟨"Prompted", [.named "Prompted"]⟩
    ((prompted.categoryOf "Broken").arity? = none ∧
      ∃ reason, (registry.run (Registry.resolve broken) 0).1 =
        .error (.error (.initialization "Broken" reason))) ∧
    (prompted.categoryOf "Prompted").arity? = none ∧
      (registry.run (Registry.resolve asking) 0).2.cachedNames =
          ["Other", "Prompted"] ∧
        ¬ Session.IsReached prompted asking.names "Other" := by
  intro registry broken asking
  have lives : Lives prompted (start fun _ => []) := .refl
  have rests := lives.isAtRest fun name entry found => by cases found
  have stops : ((Assembly.outline prompted "Broken").run.run
      (Parts.blank "Broken")).1.isOk = false := by
    decide +kernel
  have cached : (registry.run (Registry.resolve asking) 0).2.cachedNames =
      ["Other", "Prompted"] := by
    decide +kernel
  refine ⟨⟨rfl, ?_⟩, rfl, cached, ?_⟩
  · obtain ⟨identity, body, outcome, later, gets⟩ :=
      rests.getByName "Broken" 0
    have failed : body.failure? ≠ none := by
      intro ready
      obtain ⟨given, same⟩ := (gets.rests.outlined _ body
        (Store.published?_of_body? gets.told)).ready ready
      rw [same] at stops
      cases stops
    obtain ⟨reason, told⟩ := Option.ne_none_iff_exists'.1 failed
    cases gets.failed rfl reason told
    exact ⟨reason, congrArg Prod.fst (Registry.run_of_comesTo
      (resolve_comesTo_stopped gets.comes))⟩
  · rintro ⟨asked, member, reaches⟩
    have names : asking.names = ["Prompted", "Prompted"] := rfl
    rw [names, List.mem_pair, or_self] at member
    subst member
    rcases reaches.cases_head with same | ⟨name, refers, _⟩
    · exact absurd same (by decide)
    · exact prompted_refers_nowhere name refers

end Pool

end TypeAtlas
