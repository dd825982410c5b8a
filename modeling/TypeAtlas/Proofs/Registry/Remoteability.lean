import Mathlib.Logic.Relation
import TypeAtlas.Proofs.Registry.RemoteMethods
import TypeAtlas.Proofs.Registry.WaysBack

/-!
# Remoteability in live registries

Outlines look for remoteable types along the hierarchy, so that remoteability is
inherited: whatever comes up ready in a live registry is remoteable just when
its facts or those of a type that it descends from say so, and its methods are
those of a nearest such type.  Lists of arguments are no types of their own and
have no such methods.
-/

namespace TypeAtlas

namespace Assembly

open Outlining

theorem requestImplementation_keeps (sources : Sources) (name : TypeName)
    (parts : Parts) :
    Leaves (fun _ left => left.remoteableMethods? = parts.remoteableMethods?)
      (requestImplementation sources name) parts := by
  unfold requestImplementation
  cases sources.config.implementations.get? name with
  | none => rfl
  | some implementation =>
    apply leaves_modify_bind
    exact Leaves.bind_steady (requestFacts_leaves _ _) (fun _ _ => rfl)
      fun _ _ => rfl

/-- Whether parts have the methods that are looked for from a type on. -/
def HasRemoteMethods (sources : Sources) (name : TypeName) (parts : Parts) :
    Prop :=
  ∃ facts, sources.provider.known? name = some facts ∧
    parts.remoteableMethods? = Parts.remoteableMethodsOf? sources.provider facts
      (sources.provider.ancestors facts)

theorem outline_leaves_remoteMethods (sources : Sources) (name : TypeName) :
    Leaves (fun outcome left => ∀ given, outcome = .ok given →
        HasRemoteMethods sources name left)
      (outline sources name) (Parts.blank name) := by
  have stops (parts : Parts) (stop : Stop) (given : TypeFacts × Bool)
      (same : .error stop = Except.ok given) :
      HasRemoteMethods sources name parts := by
    cases same
  refine Leaves.bind_steady (requestFacts_leaves _ _)
    (fun stop _ => stops _ stop) fun facts known => ?_
  apply leaves_modify_bind
  refine Leaves.bind_steady (crashOn_leaves _) (fun stop _ => stops _ stop)
    fun _ _ => ?_
  apply leaves_modify_bind
  apply leaves_modify_bind
  -- The methods are found by now, and no later step alters them.
  refine Leaves.bind_steady (bindingsOf_leaves facts _)
    (fun stop _ => stops _ stop) fun bindings _ => ?_
  refine Leaves.bind_steady (crashOn_leaves _) (fun stop _ => stops _ stop)
    fun _ _ => ?_
  apply Leaves.bind
  apply (requestImplementation_keeps sources name _).mono
  rintro (stop | implementation?) left kept
  · exact stops left stop
  dsimp only [Outlining.GoesOn]
  refine Leaves.bind_steady (crashOn_leaves _) (fun stop _ => stops _ stop)
    fun _ _ => ?_
  apply leaves_modify_bind
  exact fun _ _ => ⟨facts, known.symm, kept⟩

end Assembly

/-- Whether parts tell of a type what may be called from afar as the facts have
it: that it is remoteable, and by the tag of which nearest type. -/
structure Parts.IsRemoteableBy (parts : Parts) (provider : Provider)
    (name : TypeName) : Prop where
  inherits : parts.remoteableMethods?.isSome = true ↔
    provider.IsRemoteable name
  nearest : ∀ methods, parts.remoteableMethods? = some methods →
    ∃ facts carrier steps annotatedOnly keyByName,
      provider.known? name = some facts ∧
        provider.IsNearestCarrier facts carrier steps ∧
          FirstWith TypeTag.IsRemoteable carrier.tags
              (.remoteable annotatedOnly keyByName) ∧
            methods.AreRemoteOf carrier annotatedOnly keyByName

namespace Body.IsOutlined

variable {sources : Sources} {name : TypeName} {body : Body}

theorem isRemoteableBy (isOutlined : body.IsOutlined sources name)
    (ready : body.failure? = none) :
    body.parts.IsRemoteableBy sources.provider name := by
  obtain ⟨bean, same⟩ := isOutlined.parts
  obtain ⟨given, ended⟩ := isOutlined.ready ready
  obtain ⟨facts, known, looked⟩ :=
    Assembly.outline_leaves_remoteMethods sources name given ended
  have looked : body.parts.remoteableMethods? =
      Parts.remoteableMethodsOf? sources.provider facts
        (sources.provider.ancestors facts) := by
    rw [same]
    exact looked
  constructor
  · rw [looked]
    exact Provider.isSome_remoteableMethodsOf?_iff known
  · intro methods found
    obtain ⟨carrier, steps, annotatedOnly, keyByName, nearest⟩ :=
      Provider.exists_isNearestCarrier known (looked ▸ found)
    exact ⟨facts, carrier, steps, annotatedOnly, keyByName, known, nearest⟩

theorem category_ne_argumentList (isOutlined : body.IsOutlined sources name) :
    body.parts.category ≠ .argumentList := by
  rw [isOutlined.category]
  cases sources.provider.known? name with
  | none => simp
  | some facts => exact facts.category_ne_argumentList

end Body.IsOutlined

/-- Whether a descriptor lists arguments, or its body is that of its type. -/
def Descriptor.IsSourced (sources : Sources) : Descriptor → Prop
  | .cached _ _ => True
  | .detached _ expression body =>
    (∃ references, body = Body.argumentList references) ∨
      body.IsOutlined sources expression.name

theorem Lookup.suits_isSourced (sources : Sources) :
    Suits (fun name body => body.IsOutlined sources name)
      (Descriptor.IsSourced sources) where
  cached _ _ := trivial
  specialized _ _ _ references isOutlined _ :=
    .inr (isOutlined.specialized references)
  argumentList _ references := .inl ⟨references, rfl⟩

namespace Pool

variable {sources : Sources} {pool : Pool} {descriptor : Descriptor}
  {body : Body}

/-- A descriptor that comes up lists arguments, or has the body of its type. -/
theorem Lives.isSourced_of_shows (lives : Lives sources pool)
    (shown : pool.Shows descriptor)
    (found : pool.store.body? descriptor = some body) :
    (∃ references, body = Body.argumentList references) ∨
      body.IsOutlined sources descriptor.name := by
  rcases lives.isOutlined_or_good (Lookup.suits_isSourced sources) shown
    found with isOutlined | ⟨number, expression, rfl, good⟩
  · exact .inr isOutlined
  · exact good

/-- Whether a descriptor comes up, and has a body that is ready. -/
structure ShowsReady (pool : Pool) (descriptor : Descriptor) (body : Body) :
    Prop where
  shown : pool.Shows descriptor
  found : pool.store.body? descriptor = some body
  ready : body.failure? = none

/-- However threads interleave, descriptors that come up ready in a live
registry are remoteable as the facts of their types have it, and so are those of
subtypes of remoteable types. -/
theorem remoteable_of_lives (lives : Lives sources pool)
    (shown : pool.ShowsReady descriptor body) :
    (body.parts.category = .argumentList →
        body.parts.remoteableMethods? = none) ∧
      (body.parts.category ≠ .argumentList →
        body.parts.IsRemoteableBy sources.provider descriptor.name ∧
          ∀ above other, pool.ShowsReady above other →
            other.parts.remoteableMethods?.isSome = true →
              sources.provider.isSubtype descriptor.name above.name = true →
                body.parts.remoteableMethods?.isSome = true) := by
  rcases lives.isSourced_of_shows shown.shown shown.found with
    ⟨references, rfl⟩ | isOutlined
  · exact ⟨fun _ => rfl, fun other => (other rfl).elim⟩
  refine ⟨fun lists => (isOutlined.category_ne_argumentList lists).elim,
    fun _ => ?_⟩
  have remoteable := isOutlined.isRemoteableBy shown.ready
  refine ⟨remoteable, fun above other shownAbove called descends => ?_⟩
  rcases lives.isSourced_of_shows shownAbove.shown shownAbove.found with
    ⟨references, rfl⟩ | isOutlinedAbove
  · cases called
  have remoteableAbove := isOutlinedAbove.isRemoteableBy shownAbove.ready
  exact remoteable.inherits.2
    ((remoteableAbove.inherits.1 called).of_isSubtype descends)

/-- Orders, which are audited, and served from farther up the hierarchy. -/
def orders : Sources where
  provider := Provider.ofTable <| FactsTable.empty.insertAll [
    { name := "Order", supertypes := ["Record", "Audited"] },
    { name := "Record", supertypes := ["Served"] },
    { name := "Served", tags := [.remoteable false false] },
    { name := "Audited"
      tags := [.remoteable true true]
      methods := [
        { name := "audit", params := [.session], tags := [.remoteMethod] },
        { name := "purge", params := [] },
        { name := "audit", params := [], tags := [.remoteMethod] }] }]

def ordered : Pool :=
  (List.replicate 20 0).foldl (advance orders)
    (((start fun _ => []).ask 0 (.get "Order")).ask 0 (.get "Audited"))

def cachesReady (pool : Pool) (name : TypeName) (test : Parts → Bool) : Bool :=
  (pool.store.entries.get? name).any fun entry =>
    (pool.store.body? (.cached name entry.identity)).any fun body =>
      body.failure?.isNone && test body.parts

theorem exists_showsReady {name : TypeName} {test : Parts → Bool}
    (caches : pool.cachesReady name test = true) :
    ∃ identity body, pool.ShowsReady (.cached name identity) body ∧
      test body.parts = true := by
  simp only [cachesReady, Option.any_eq_true, Bool.and_eq_true,
    Option.isNone_iff_eq_none] at caches
  obtain ⟨entry, present, body, found, ready, passes⟩ := caches
  exact ⟨entry.identity, body, ⟨.cached present, found, ready⟩, passes⟩

/-- Audits are nearer than services, and the last of them is called. -/
theorem remoteable_of_orders :
    ∃ (order audited : Nat) (body above : Body)
        (methods : NameMap MethodFacts),
      Lives orders ordered ∧
        ordered.ShowsReady (.cached "Order" order) body ∧
        ordered.ShowsReady (.cached "Audited" audited) above ∧
        orders.provider.isSubtype "Order" "Audited" = true ∧
          body.parts.remoteableMethods? = some methods ∧
            methods.names = ["audit"] ∧
              (methods.get? "audit").any (·.params.isEmpty) = true ∧
                body.parts.IsRemoteableBy orders.provider "Order" ∧
                  (above.parts.remoteableMethods?.isSome = true →
                    body.parts.remoteableMethods?.isSome = true) := by
  have lives : Lives orders ordered :=
    .head (.ask 0 (.get "Order") nofun) <|
      .head (.ask 0 (.get "Audited") nofun) <|
        leads_advance orders _ (List.replicate 20 0)
  have caches : ordered.cachesReady "Order" (fun parts =>
      parts.category != .argumentList &&
        parts.remoteableMethods?.any fun methods =>
          methods.names == ["audit"] &&
            (methods.get? "audit").any (·.params.isEmpty)) = true := by
    decide +kernel
  have cachesAbove :
      ordered.cachesReady "Audited" (fun _ => true) = true := by
    decide +kernel
  have descends : orders.provider.isSubtype "Order" "Audited" = true := by
    decide +kernel
  obtain ⟨order, body, shown, passes⟩ := exists_showsReady caches
  obtain ⟨audited, above, shownAbove, -⟩ := exists_showsReady cachesAbove
  simp only [Bool.and_eq_true, bne_iff_ne, ne_eq, Option.any_eq_true,
    beq_iff_eq] at passes
  obtain ⟨proper, methods, given, names, last⟩ := passes
  obtain ⟨remoteable, inherits⟩ := (remoteable_of_lives lives shown).2 proper
  refine ⟨order, audited, body, above, methods, lives, shown, shownAbove,
    descends, given, names, ?_, remoteable, ?_⟩
  · simpa only [Option.any_eq_true] using last
  · exact fun called => inherits _ above shownAbove called descends

end Pool

end TypeAtlas
