import TypeAtlas.Proofs.Facts.Hierarchy
import TypeAtlas.Proofs.Registry.Congruence
import TypeAtlas.Proofs.Registry.Courses

/-!
# Why assemblies stop

An assembly stops because of the sources, because of a script, or because of a
type that it refers to, whose failure was the last thing that it heard of.  A
build publishes the words for what its assembly stopped with, and gives the same
words to the lookup that it was begun for.
-/

namespace TypeAtlas

open Past Lookup

namespace Lookup

variable {agent : Agent} {build : Builder} {name : TypeName}

theorem Traced.scriptTraced {lookup : Lookup α}
    (traced : Traced agent (Delivers (· = .nested)) lookup) :
    ScriptTraced agent name lookup := by
  intro past aligned _
  refine (traced past aligned).mono fun later outcome ⟨leaves, ends⟩ => ?_
  exact ⟨leaves, fun stop same _ => .reference (ends stop same)⟩

theorem followScript_traced (builds : BuildsTraced agent build)
    {facts : TypeFacts} (hasImplementation : Bool)
    {steps : List IntrospectionStep}
    (decision : agent.sources.decision? facts.name =
      steps.find? IntrospectionStep.decides) :
    ScriptTraced agent facts.name
      (followScript agent build facts hasImplementation steps) := by
  induction steps with
  | nil => exact fun past _ _ => meets_pure ⟨.refl past _, nofun⟩
  | cons step rest ih =>
    cases step with
    | crash crash =>
      refine fun past _ _ => meets_throw ⟨.refl past _, ?_⟩
      rintro _ ⟨⟩ _
      exact .scriptCrash decision
    | fail reason =>
      refine fun past _ _ => meets_throw ⟨.refl past _, ?_⟩
      rintro _ ⟨⟩ _
      exact .scriptFailure decision
    | reject reason => exact fun past _ _ => meets_pure ⟨.refl past _, nofun⟩
    | acceptEmpty => exact fun past _ _ => meets_pure ⟨.refl past _, nofun⟩
    | survey =>
      intro past aligned inside
      refine meets_perform_bind trivial fun _ _ => ?_
      refine Meets.mono (ih decision _ aligned inside) ?_
      rintro latest outcome ⟨leaves, caused⟩
      refine ⟨⟨leaves.inquiries, leaves.stack, leaves.unfinished⟩,
        fun stop same failed => ?_⟩
      exact interruption_isLasting _ _ _ _ _ _ (List.suffix_cons _ past)
        (caused stop same failed)
    | get asked =>
      exact find_scriptTraced (getByName_traced builds asked).requested
        (ih decision)
    | lookup text =>
      exact find_scriptTraced (lookupText_traced builds text) (ih decision)
    | reference text =>
      exact find_scriptTraced (referText_traced builds text) (ih decision)

end Lookup

namespace Assembly

variable {agent : Agent} {build : Builder} {name : TypeName}

/-- What a step of assembly leaves behind, and why it stops if it does. -/
structure Stops (ending : Ending) (past : Past) (body : Body) (later : Past)
    (outcome : Except Stop α) (left : Body) : Prop where
  leaves : LeavesNothing past later outcome
  intact : left.failure? = body.failure?
  caused : ∀ stop, outcome = .error stop → stop.IsFailure →
    ending past later stop

def Traced (agent : Agent) (name : TypeName)
    (assembling : Assembling Procedure α) : Prop :=
  ∀ past body, Aligned past → (stack past).head? = some name →
    Meets (tracing agent) (Stops (Interruption agent.sources name) past body)
      assembling past body

theorem Traced.bind {assembling : Assembling Procedure α}
    {next : α → Assembling Procedure β} (traced : Traced agent name assembling)
    (goesOn : ∀ value, Traced agent name (next value)) :
    Traced agent name (assembling >>= next) := by
  intro past body aligned inside
  apply Meets.bind
  refine (traced past body aligned inside).weaken ?_
  rintro deeds (stop | value) left ⟨leaves, intact, caused⟩
  · refine ⟨leaves.stopped, intact, fun other same => ?_⟩
    cases same
    exact caused stop rfl
  · have insideStill : (stack (deeds ++ past)).head? = some name := by
      rw [leaves.stack trivial]
      exact inside
    refine (goesOn value _ left (leaves.aligned trivial aligned)
      insideStill).mono ?_
    intro latest outcome end_ further
    refine ⟨leaves.trans further.leaves, further.intact.trans intact,
      fun stop same failed => ?_⟩
    exact interruption_isLasting _ _ _ _ _ _ (List.suffix_append deeds past)
      (further.caused stop same failed)

theorem traced_pure (value : α) : Traced agent name (pure value) :=
  fun past _ _ _ => meets_pure ⟨.refl past _, rfl, nofun⟩

theorem traced_modify {change : Body → Body}
    (intact : ∀ body, (change body).failure? = body.failure?) :
    Traced agent name (modify change) :=
  fun past body _ _ => meets_modify ⟨.refl past _, intact body, nofun⟩

theorem traced_lift {lookup : Lookup α}
    (traced : ScriptTraced agent name lookup) :
    Traced agent name (lift lookup) := by
  intro past body aligned inside
  apply Meets.lift
  exact (traced past aligned inside).mono fun later outcome ⟨leaves, caused⟩ =>
    ⟨leaves, rfl, caused⟩

theorem traced_congruence (agent : Agent) (name : TypeName) :
    Congruence fun step _ => Traced agent name step where
  pure := traced_pure
  modifies keeps := traced_modify fun body => (keeps body).2
  bind := Traced.bind

theorem assembly_traced (builds : BuildsTraced agent build) {past : Past}
    (aligned : Aligned past) (inside : (stack past).head? = some name) :
    Meets (tracing agent)
      (Stops (Cause agent.sources name) past (Body.blank name))
      (assembly agent build name) past (Body.blank name) := by
  obtain ⟨outcome, parts, outlined, _⟩ := outline_runFree agent.sources name
  have ended : agent.sources.outlineOutcome name = outcome :=
    congrArg Prod.fst outlined
  refine Meets.bind (meets_outline outlined ?_)
  rcases outcome with stop | ⟨facts, hasImplementation⟩
  · refine ⟨.refl past _, rfl, ?_⟩
    rintro _ ⟨⟩ _
    exact .outline ended
  have named : facts.name = name :=
    Provider.name_eq_of_known? (outline_gives _ name _ _ ended)
  have references (expression : TypeExpr) :
      Traced agent name (lift (takeReference build expression)) :=
    traced_lift (takeReference_traced builds expression).scriptTraced
  have completes : Traced agent name (do
      takeReferences agent.sources
        (fun expression => lift (takeReference build expression)) facts
      let bean ← verdict agent.sources
        (fun expression => lift (takeReference build expression))
        (fun facts hasImplementation =>
          lift (followScript agent build facts hasImplementation
            ((agent.sources.scripts.get? facts.name).getD [])))
        facts hasImplementation
      modify fun body => { body with parts := { body.parts with bean } }) := by
    refine (traced_congruence agent name).completion_keeps
      (fun expression _ => references expression) ?_ fun _ => ?_
    · subst named
      exact traced_lift (followScript_traced builds hasImplementation rfl)
    · exact traced_modify fun _ => rfl
  refine (completes past { Body.blank name with parts } aligned inside).mono ?_
  intro later end_ left stops
  exact ⟨stops.leaves, stops.intact, fun stop same failed =>
    .completion ended (stops.caused stop same failed)⟩

end Assembly

namespace Lookup

variable {agent : Agent} {build : Builder}

/-- A build publishes the words for the failure that it passes on. -/
theorem buildWith_traced (builds : BuildsTraced agent build) :
    BuildsTraced agent (buildWith agent build) := by
  intro name identity past outer begun within
  refine meets_perform_bind trivial fun _ _ => ?_
  have aligned : Aligned (⟨.mark (.building name), ()⟩ :: past) := by
    change (unfinished past).map Prod.fst = name :: stack past
    rw [begun, List.map_cons, within]
  apply Meets.lift_bind
  refine Procedure.Meets.weaken
    (Assembly.assembly_traced builds aligned rfl) ?_
  rintro deeds ⟨outcome, body⟩ ⟨leaves, intact, caused⟩
  dsimp only at leaves intact caused
  have grows := List.suffix_append deeds (⟨.mark (.building name), ()⟩ :: past)
  have built (published : Body) (concludes : Concludes outcome)
      (explained : ∀ reason, published.failure? = some reason →
        ∃ stop error, Stop.failure? stop = some error ∧
          error.message = reason ∧
            Cause agent.sources name (⟨.mark (.building name), ()⟩ :: past)
              (deeds ++ ⟨.mark (.building name), ()⟩ :: past) stop) :
      Builds agent name identity past
        (recorded name identity published
          (deeds ++ ⟨.mark (.building name), ()⟩ :: past))
        (published.outcome name) := by
    refine ⟨leaves.inquiries, fun _ => ⟨published, _, ⟨grows, explained⟩, rfl,
      rfl, ?_, ?_⟩⟩
    · exact congrArg List.tail (leaves.stack concludes)
    · exact congrArg List.tail (leaves.unfinished concludes)
  rcases outcome with stop | _
  · cases failure : Stop.failure? stop with
    | none =>
      simp only [failure]
      refine meets_throw ⟨leaves.inquiries, fun concludes => ?_⟩
      cases stop with
      | error error => cases failure
      | crash crash => cases failure
      | blocked name => exact concludes.elim
      | exhausted => exact concludes.elim
    | some error =>
      simp only [failure]
      have failed : stop.IsFailure := by
        cases stop with
        | error error => trivial
        | crash crash => trivial
        | blocked name => cases failure
        | exhausted => cases failure
      refine meets_perform_bind trivial fun _ _ => ?_
      refine meets_perform_bind trivial fun _ _ => meets_throw ?_
      refine built { body with failure? := some error.message } failed ?_
      rintro _ ⟨⟩
      exact ⟨stop, error, failure, rfl, caused stop rfl failed⟩
  · refine meets_perform_bind trivial fun _ _ => ?_
    refine meets_perform trivial fun _ _ => ?_
    have ready : body.failure? = none := intact
    have done := built body trivial fun reason some => by
      rw [ready] at some
      cases some
    unfold recorded Body.outcome at done
    rw [ready] at done
    exact done

theorem builder_traced (agent : Agent) :
    BuildsTraced agent (builder agent) := by
  unfold builder
  induction agent.sources.depthBound with
  | zero =>
    exact fun _ _ _ _ _ _ => meets_throw ⟨rfl, fun concludes => concludes.elim⟩
  | succ depth ih => exact buildWith_traced ih

end Lookup

/-- What an operation notes is in order, from wherever it is asked for. -/
theorem Operation.request_traced (agent : Agent) (operation : Operation) :
    Traced agent Requested (operation.request agent (builder agent)) := by
  have builds := builder_traced agent
  have lasting := requested_isLasting
  cases operation with
  | get name => exact (getByName_traced builds name).requested
  | resolve expression => exact resolve_traced builds expression
  | lookup text => exact lookupText_traced builds text
  | specialize name args => exact resolve_traced builds ⟨name, args⟩
  | follow reference => exact follow_traced builds reference
  | argumentList types =>
    refine (mapM_traced lasting fun type =>
      (takeReference_traced builds type).requested).bind lasting fun _ => ?_
    exact (traced_perform rfl).bind lasting fun _ => traced_pure _

end TypeAtlas
