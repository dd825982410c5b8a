import TypeAtlas.Proofs.Registry.Covering

/-!
# Going along the arguments of an expression

Where all that an expression asks for is published, resolving it and following
references along its arguments end on the spot, whatever else is recorded by
then.  What comes of an expression depends only on what is published for its
head, so both ways to an argument come to the same.
-/

namespace TypeAtlas

open Lookup

/-- Whether two descriptors tell the same of the same expression. -/
inductive Descriptor.Alike : Descriptor → Descriptor → Prop where
  | same (descriptor : Descriptor) : Alike descriptor descriptor
  | specialized {number other : Nat} {expression : TypeExpr}
    {body another : Body} (parts : body.parts = another.parts)
    (failure : body.failure? = another.failure?)
    (element : body.element?.map TypeRef.expr =
      another.element?.map TypeRef.expr)
    (key : body.key?.map TypeRef.expr = another.key?.map TypeRef.expr)
    (value : body.value?.map TypeRef.expr = another.value?.map TypeRef.expr)
    (args : body.args.map TypeRef.expr = another.args.map TypeRef.expr) :
    Alike (.detached number expression body)
      (.detached other expression another)

/-- Whether two outcomes are the same error, or descriptors that are alike. -/
def Agree : (first second : Except Stop Descriptor) → Prop
  | .ok descriptor, .ok another => descriptor.Alike another
  | .error stop, .error another => stop = another
  | _, _ => False

theorem alike_specialized (number other : Nat) (expression : TypeExpr)
    (body : Body) {references others : List TypeRef}
    (same : references.map TypeRef.expr = others.map TypeRef.expr) :
    Descriptor.Alike (.detached number expression (specialized body references))
      (.detached other expression (specialized body others)) := by
  have lengths : references.length = others.length := by
    simpa using congrArg List.length same
  match references, others, lengths with
  | [], [], _ => exact .specialized rfl rfl rfl rfl rfl rfl
  | [first], [second], _ =>
    have exprs : first.expr = second.expr := by simpa using same
    exact .specialized rfl rfl (congrArg some exprs) rfl rfl rfl
  | [key, value], [otherKey, otherValue], _ =>
    have exprs : key.expr = otherKey.expr ∧ value.expr = otherValue.expr := by
      simpa using same
    exact .specialized rfl rfl rfl (congrArg some exprs.1)
      (congrArg some exprs.2) rfl
  | _ :: _ :: _ :: _, _ :: _ :: _ :: _, _ =>
    exact .specialized rfl rfl rfl rfl rfl rfl

namespace Store

/-- The argument of an expression that a hop leads to, where the head is
published and takes as many arguments as are given. -/
def argument? (store : Store) (expression : TypeExpr) (hop : Registry.Hop) :
    Option TypeExpr :=
  match store.published? expression.name with
  | none => none
  | some body =>
    if body.parts.category.arity? = some expression.args.length then
      match hop, expression.args with
      | .element, [element] => some element
      | .key, [key, _] => some key
      | .value, [_, value] => some value
      | _, _ => none
    else
      none

/-- The part of an expression that hops lead to, one argument after another. -/
def subexpression? (store : Store) :
    (expression : TypeExpr) → List Registry.Hop → Option TypeExpr
  | expression, [] => some expression
  | expression, hop :: hops =>
    match store.argument? expression hop with
    | none => none
    | some argument => store.subexpression? argument hops

theorem exists_of_argument? {store : Store} {expression argument : TypeExpr}
    {hop : Registry.Hop} (found : store.argument? expression hop =
      some argument) :
    argument ∈ expression.args ∧ expression.isParameterized = true ∧
      ∃ body, store.published? expression.name = some body ∧
        body.parts.category.arity? = some expression.args.length := by
  unfold argument? at found
  split at found
  · cases found
  next body published =>
    split at found
    next fits =>
      have given : argument ∈ expression.args := by
        split at found <;> simp_all
      refine ⟨given, ?_, body, published, fits⟩
      simp [TypeExpr.isParameterized, List.ne_nil_of_mem given]
    · cases found

end Store

namespace Registry

/-- The reference of a specialization that a hop follows to an argument. -/
theorem reference?_specialized (registry : Registry) (number : Nat)
    (body : Body) {store : Store} {expression argument : TypeExpr} {hop : Hop}
    {references : List TypeRef}
    (wraps : references.map TypeRef.expr = expression.args)
    (found : store.argument? expression hop = some argument) :
    ∃ reference ∈ references, reference.expr = argument ∧
      registry.reference?
          (.detached number expression (specialized body references)) hop =
        .ok (some reference) := by
  unfold Store.argument? at found
  split at found
  · cases found
  split at found
  · split at found
    next only =>
      cases found
      rw [only] at wraps
      match references, wraps with
      | [reference], wraps =>
        exact ⟨reference, by simp, by simpa using wraps, rfl⟩
    next both =>
      cases found
      rw [both] at wraps
      match references, wraps with
      | [reference, _], wraps =>
        simp only [List.map_cons, List.cons.injEq] at wraps
        exact ⟨reference, by simp, wraps.1, rfl⟩
    next both =>
      cases found
      rw [both] at wraps
      match references, wraps with
      | [_, reference], wraps =>
        simp only [List.map_cons, List.cons.injEq] at wraps
        exact ⟨reference, by simp, wraps.2.1, rfl⟩
    · cases found
  · cases found

/-- Where hops lead from a descriptor, each followed by a thread: to a
descriptor, or nowhere. -/
def navigate (thread : ThreadId) (registry : Registry)
    (descriptor : Descriptor) :
    List Hop → Except Stop (Option Descriptor) × Registry
  | [] => (.ok (some descriptor), registry)
  | hop :: hops =>
    match registry.reference? descriptor hop with
    | .error error => (.error (.error error), registry)
    | .ok none => (.ok none, registry)
    | .ok (some reference) =>
      match registry.run (follow reference) thread with
      | (.error stop, later) => (.error stop, later)
      | (.ok next, later) => navigate thread later next hops

end Registry

namespace Ledger

variable {sources : Sources} {ledger later : Ledger} {thread : ThreadId}
  {expression : TypeExpr} {reference : TypeRef} {descriptor : Descriptor}

def registry (sources : Sources) (ledger : Ledger) : Registry :=
  { sources, store := ledger.store }

def IsQuiet (ledger : Ledger) : Prop :=
  ∀ name, ledger.Caches name →
    ∃ body, ledger.store.published? name = some body

theorem run_of_upholds {request : Registry.Request Descriptor}
    {ensures : Ledger → Except Stop Descriptor → Prop}
    (upholds : Upholds thread False ensures
      (request { sources, thread } (builder { sources, thread })) ledger) :
    ∃ outcome later,
      (ledger.registry sources).run request thread =
          (outcome, Ledger.registry sources later) ∧
        ledger.Within later ∧ ensures later outcome := by
  obtain ⟨later, grows, same, ends, ensured⟩ := Procedure.Upholds.run upholds
  obtain ⟨outcome, ended⟩ := ends.resolve_left id
  refine ⟨outcome, later, ?_, grows, ensured outcome ended⟩
  simp only [Registry.run, registry, Registry.outcomeOf,
    Registry.Request.procedure, if_true, ended, same]

/-- A reference that has led somewhere leads there again. -/
theorem follow_run_of_kept
    (parameterized : reference.expr.isParameterized = true)
    (kept : ledger.store.targets.lookup reference.slot = some descriptor)
    (thread : ThreadId) :
    (ledger.registry sources).run (Registry.follow reference) thread =
      (.ok descriptor, ledger.registry sources) := by
  have leads (agent : Agent) (build : Builder) :
      (ExceptT.run (Lookup.follow agent build reference)).run thread
          ledger.store =
        { outcome := .ok (.ok descriptor)
          deeds := [⟨.readTarget reference.slot, some descriptor⟩]
          store := ledger.store } := by
    rw [Lookup.follow, parameterized]
    change Procedure.run _ (.act (.readTarget reference.slot) _) _ = _
    simp only [Procedure.run, Store.perform, kept]
    rfl
  simp only [Registry.run, registry, if_true, Registry.Request.procedure,
    Registry.follow, leads, Registry.outcomeOf]

/-- A reference to a plain type leads at once to what is cached for it. -/
theorem follow_run_of_plain
    (plain : reference.expr.isParameterized = false) {entry : Entry}
    (present : ledger.store.entries.get? reference.expr.name = some entry)
    (thread : ThreadId) :
    (ledger.registry sources).run (Registry.follow reference) thread =
      (.ok (.cached reference.expr.name entry.identity),
        ledger.registry sources) := by
  have entered : ledger.store.perform thread (.enter reference.expr.name) =
      .ok (.present entry.identity entry.builder entry.isPublished,
        ledger.store) := by
    simp only [Store.perform, present]
  have marked (mark : Mark) : ledger.store.perform thread (.mark mark) =
      .ok ((), ledger.store) := rfl
  let target := Descriptor.cached reference.expr.name entry.identity
  have leads (agent : Agent) (build : Builder) :
      (ExceptT.run (Lookup.follow agent build reference)).run thread
          ledger.store =
        { outcome := .ok (.ok target)
          deeds := [⟨.mark (.asked .nested reference.expr.name), ()⟩,
            ⟨.enter reference.expr.name, .present entry.identity entry.builder
              entry.isPublished⟩,
            ⟨.mark (.answered .nested reference.expr.name (.ok target)), ()⟩]
          store := ledger.store } := by
    rw [Lookup.follow, plain]
    change Procedure.run _ (.act (.mark _) fun _ => .act (.enter _) _) _ = _
    simp only [Procedure.run, marked, entered]
    rfl
  simp only [Registry.run, registry, if_true, Registry.Request.procedure,
    Registry.follow, leads, Registry.outcomeOf, target]

/-- Whether all that is looked up to resolve an expression is published. -/
structure Grounds (ledger : Ledger) (expression : TypeExpr) : Prop where
  head : ∃ body, ledger.store.published? expression.name = some body
  args : ∀ body, ledger.store.published? expression.name = some body →
    body.parts.category.arity? = some expression.args.length →
      ∀ name ∈ TypeExpr.namesOfList expression.args,
        ∃ body, ledger.store.published? name = some body

theorem grounds_of_names
    (published : ∀ name ∈ expression.names,
      ∃ body, ledger.store.published? name = some body) :
    ledger.Grounds expression := by
  rw [expression.names_eq] at published
  refine ⟨published _ List.mem_cons_self, fun _ _ _ name member => ?_⟩
  exact published name (List.mem_cons_of_mem _ member)

theorem IsQuiet.published_of_backs (quiet : ledger.IsQuiet)
    (backs : ledger.Backs reference) :
    ∀ name ∈ reference.expr.names,
      ∃ body, ledger.store.published? name = some body :=
  fun name member => quiet name (backs.caches name member)

/-- What is looked up for an expression stays when it was resolved before. -/
theorem IsQuiet.grounds_of_resolves (quiet : ledger.IsQuiet)
    (resolves : ledger.Resolves expression descriptor) :
    ledger.Grounds expression := by
  cases resolves with
  | plain unparameterized names =>
    refine ⟨quiet _ names.caches, fun _ _ _ name member => ?_⟩
    have none : expression.args = [] := by
      simpa [TypeExpr.isParameterized] using unparameterized
    rw [none, TypeExpr.namesOfList] at member
    cases member
  | dropped _ published takesNone _ =>
    refine ⟨⟨_, published⟩, fun body same fits => ?_⟩
    cases published.symm.trans same
    rw [takesNone] at fits
    cases fits
  | specialized _ published _ wraps backs =>
    refine ⟨⟨_, published⟩, fun _ _ _ name member => ?_⟩
    rw [TypeExpr.namesOfList_eq, ← wraps] at member
    obtain ⟨argument, listed, within⟩ := List.mem_flatMap.1 member
    obtain ⟨reference, taken, rfl⟩ := List.mem_map.1 listed
    exact quiet.published_of_backs (backs reference taken) name within

theorem Grounds.published_of_argument? (grounds : ledger.Grounds expression)
    {hop : Registry.Hop} {argument : TypeExpr}
    (found : ledger.store.argument? expression hop = some argument) :
    ∀ name ∈ argument.names,
      ∃ body, ledger.store.published? name = some body := by
  obtain ⟨given, _, body, published, fits⟩ := Store.exists_of_argument? found
  intro name member
  exact grounds.args body published fits name
    (TypeExpr.names_subset_namesOfList given member)

theorem Grounds.resolve_run (grounds : ledger.Grounds expression)
    (sources : Sources) (thread : ThreadId) :
    ∃ outcome later,
      (ledger.registry sources).run (Registry.resolve expression) thread =
          (outcome, Ledger.registry sources later) ∧
        ledger.Within later ∧ Settles False expression later outcome := by
  have head : Provides { sources, thread } (builder { sources, thread })
      False False [expression.name] ledger := by
    apply provides_of_published
    intro name member
    cases List.mem_singleton.1 member
    exact grounds.head
  refine run_of_upholds (resolve_upholds head fun later body grows told fits =>
    ?_)
  obtain ⟨before, known⟩ := grounds.head
  cases (grows.published? known).symm.trans told
  have args : Provides { sources, thread } (builder { sources, thread })
      False False (TypeExpr.namesOfList expression.args) ledger :=
    provides_of_published (grounds.args _ known fits)
  exact args.later grows

theorem follow_run (backs : ledger.Backs reference)
    (published : ∀ name ∈ reference.expr.names,
      ∃ body, ledger.store.published? name = some body)
    (sources : Sources) (thread : ThreadId) :
    ∃ outcome later,
      (ledger.registry sources).run (Registry.follow reference) thread =
          (outcome, Ledger.registry sources later) ∧
        ledger.Within later ∧ Leads False reference later outcome := by
  have provides : Provides { sources, thread } (builder { sources, thread })
      False False reference.expr.names ledger :=
    provides_of_published published
  exact run_of_upholds (follow_upholds backs provides)

end Ledger

namespace Lookup

variable {ledger : Ledger} {expression : TypeExpr} {body : Body}
  {outcome : Except Stop Descriptor}

/-- Without arguments that count, an expression comes to what is cached. -/
theorem named_of_settles {fails : Prop}
    (settles : Settles fails expression ledger outcome) (surely : ¬fails)
    (bare : expression.isParameterized = false ∨
      ∃ body, ledger.store.published? expression.name = some body ∧
        body.parts.category.arity? = none) :
    ∃ descriptor, outcome = .ok descriptor ∧
      ledger.Names expression.name descriptor := by
  cases outcome with
  | error stop =>
    obtain ⟨_, arity, parameterized, told, takes, _⟩ :=
      settles.resolve_left surely
    rcases bare with plain | ⟨body, published, takesNone⟩
    · simp [parameterized] at plain
    · cases published.symm.trans told
      simp [takes] at takesNone
  | ok descriptor =>
    cases settles with
    | plain _ names => exact ⟨descriptor, rfl, names⟩
    | dropped _ _ _ names => exact ⟨descriptor, rfl, names⟩
    | specialized parameterized told fits =>
      rcases bare with plain | ⟨body, published, takesNone⟩
      · simp [parameterized] at plain
      · cases published.symm.trans told
        simp [fits] at takesNone

/-- With as many arguments as its head takes, it comes to a specialization. -/
theorem specialized_of_settles
    (settles : Settles False expression ledger outcome)
    (published : ledger.store.published? expression.name = some body)
    (parameterized : expression.isParameterized = true)
    (fits : body.parts.category.arity? = some expression.args.length) :
    ∃ number references,
      outcome =
          .ok (.detached number expression (specialized body references)) ∧
        references.map TypeRef.expr = expression.args ∧
          ∀ reference ∈ references, ledger.Backs reference := by
  cases outcome with
  | error stop =>
    obtain ⟨_, arity, _, told, takes, wrong, _⟩ := settles.resolve_left id
    cases published.symm.trans told
    cases takes.symm.trans fits
    exact absurd rfl wrong
  | ok descriptor =>
    cases settles with
    | plain unparameterized => simp [parameterized] at unparameterized
    | dropped _ told takesNone =>
      cases published.symm.trans told
      simp [fits] at takesNone
    | specialized _ told _ wraps backs =>
      cases published.symm.trans told
      exact ⟨_, _, rfl, wraps, backs⟩

/-- With another number of arguments than its head takes, it is refused. -/
theorem refused_of_settles (settles : Settles False expression ledger outcome)
    (published : ledger.store.published? expression.name = some body)
    (parameterized : expression.isParameterized = true) {arity : Nat}
    (takes : body.parts.category.arity? = some arity)
    (wrong : expression.args.length ≠ arity) :
    outcome =
      .error (.error (arityError expression body.parts.category arity)) := by
  cases outcome with
  | error stop =>
    obtain ⟨_, _, _, told, takesToo, _, rfl⟩ := settles.resolve_left id
    cases published.symm.trans told
    cases takes.symm.trans takesToo
    rfl
  | ok descriptor =>
    cases settles with
    | plain unparameterized => simp [parameterized] at unparameterized
    | dropped _ told takesNone =>
      cases published.symm.trans told
      simp [takes] at takesNone
    | specialized _ told fits =>
      cases published.symm.trans told
      cases takes.symm.trans fits
      exact absurd rfl wrong

/-- Once its head is published, an expression comes to the same at any time. -/
theorem agree_of_settles {first second : Ledger}
    {another : Except Stop Descriptor}
    (published : ledger.store.published? expression.name = some body)
    (grows : ledger.Within first) (growsToo : ledger.Within second)
    (settles : Settles False expression first outcome)
    (settlesToo : Settles False expression second another) :
    Agree outcome another := by
  have here := grows.published? published
  have there := growsToo.published? published
  by_cases bare : expression.isParameterized = false ∨
      body.parts.category.arity? = none
  · obtain ⟨descriptor, rfl, names⟩ := named_of_settles settles id
      (bare.imp_right fun takesNone => ⟨body, here, takesNone⟩)
    obtain ⟨other, rfl, namesToo⟩ := named_of_settles settlesToo id
      (bare.imp_right fun takesNone => ⟨body, there, takesNone⟩)
    obtain ⟨entry, found, _⟩ := Store.published?_eq_some.1 published
    have named : ledger.Names expression.name (.cached _ entry.identity) :=
      ⟨entry, found, rfl⟩
    cases names.unique (named.mono grows)
    cases namesToo.unique (named.mono growsToo)
    exact .same _
  · obtain ⟨parameterized, takesSome⟩ := not_or.1 bare
    have parameterized := Bool.of_not_eq_false parameterized
    obtain ⟨arity, takes⟩ := Option.ne_none_iff_exists'.1 takesSome
    by_cases right : expression.args.length = arity
    · subst right
      obtain ⟨number, references, rfl, wraps, _⟩ :=
        specialized_of_settles settles here parameterized takes
      obtain ⟨other, others, rfl, wrapsToo, _⟩ :=
        specialized_of_settles settlesToo there parameterized takes
      exact alike_specialized number other expression body
        (wraps.trans wrapsToo.symm)
    · rw [refused_of_settles settles here parameterized takes right,
        refused_of_settles settlesToo there parameterized takes right]
      exact rfl

end Lookup

namespace Ledger

variable {sources : Sources} {base ledger : Ledger} {thread : ThreadId}
  {expression argument part : TypeExpr} {hop : Registry.Hop}
  {hops : List Registry.Hop} {descriptor : Descriptor}

theorem subexpression?_cons
    (found : base.store.subexpression? expression (hop :: hops) = some part) :
    ∃ argument, base.store.argument? expression hop = some argument ∧
      base.store.subexpression? argument hops = some part := by
  unfold Store.subexpression? at found
  split at found
  · cases found
  next argument here => exact ⟨argument, here, found⟩

theorem Grounds.subexpression (grounds : base.Grounds expression)
    (found : base.store.subexpression? expression hops = some part) :
    base.Grounds part := by
  induction hops generalizing expression with
  | nil =>
    cases found
    exact grounds
  | cons hop hops ih =>
    obtain ⟨argument, here, beyond⟩ := subexpression?_cons found
    exact ih (grounds_of_names (grounds.published_of_argument? here)) beyond

theorem exists_ok_of_argument? {outcome : Except Stop Descriptor}
    (here : base.store.argument? expression hop = some argument)
    (grows : base.Within ledger)
    (settles : Settles False expression ledger outcome) :
    ∃ number body references,
      outcome =
          .ok (.detached number expression (specialized body references)) ∧
        references.map TypeRef.expr = expression.args ∧
          ∀ reference ∈ references, ledger.Backs reference := by
  obtain ⟨_, parameterized, body, published, fits⟩ :=
    Store.exists_of_argument? here
  obtain ⟨number, references, told⟩ := specialized_of_settles settles
    (grows.published? published) parameterized fits
  exact ⟨number, body, references, told⟩

/-- Hops along the arguments of an expression lead from what it comes to, to
what the argument at their end comes to. -/
theorem Grounds.navigate_settles (grounds : base.Grounds expression)
    (grows : base.Within ledger)
    (resolves : ledger.Resolves expression descriptor)
    (found : base.store.subexpression? expression hops = some part) :
    ∃ outcome later,
      Registry.navigate thread (ledger.registry sources) descriptor hops =
          (outcome.map some, Ledger.registry sources later) ∧
        base.Within later ∧ Settles False part later outcome := by
  -- All that hops need is published in the base; the ledger grows on the way.
  induction hops generalizing expression ledger descriptor with
  | nil =>
    cases found
    exact ⟨.ok descriptor, ledger, rfl, grows, resolves⟩
  | cons hop hops ih =>
    obtain ⟨argument, here, beyond⟩ := subexpression?_cons found
    have settles : Settles False expression ledger (.ok descriptor) := resolves
    obtain ⟨number, body, references, same, wraps, backs⟩ :=
      exists_ok_of_argument? here grows settles
    cases same
    obtain ⟨reference, member, same, hopped⟩ :=
      (ledger.registry sources).reference?_specialized number body wraps here
    have published := grounds.published_of_argument? here
    rw [← same] at published
    obtain ⟨outcome, later, ran, further, leads⟩ :=
      follow_run (backs reference member) (fun name within =>
        (published name within).imp fun _ told => grows.published? told)
        sources thread
    have next : base.Within later := grows.trans further
    subst same
    cases outcome with
    | ok target =>
      have onward := ih (grounds_of_names published) next leads.settles beyond
      simpa only [Registry.navigate, hopped, ran] using onward
    | error stop =>
      -- Only the last expression can be refused: others have an argument.
      cases hops with
      | nil =>
        cases beyond
        refine ⟨.error stop, later, ?_, next, leads.settles⟩
        simp only [Registry.navigate, hopped, ran, Except.map]
      | cons hop hops =>
        obtain ⟨_, here, _⟩ := subexpression?_cons beyond
        obtain ⟨_, _, _, impossible, _⟩ :=
          exists_ok_of_argument? here next leads.settles
        cases impossible

end Ledger

end TypeAtlas
