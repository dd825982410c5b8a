import TypeAtlas.Proofs.Registry.Assemblies

/-!
# The operations of a registry

An operation is a request that can be made of a registry from outside of its
assemblies.  All of them keep the discipline of lookups, and all of them come
to an answer.
-/

namespace TypeAtlas

open Past Lookup

/-- A request for a descriptor, from outside of all assemblies. -/
inductive Operation where
  | get (name : TypeName)
  | resolve (expression : TypeExpr)
  | lookup (text : String)
  | specialize (name : TypeName) (args : List TypeExpr)
  | argumentList (types : List TypeExpr)
  | follow (reference : TypeRef)

namespace Operation

def request : Operation → Registry.Request Descriptor
  | .get name => Registry.get name
  | .resolve expression => Registry.resolve expression
  | .lookup text => Registry.lookup text
  | .specialize name args => Registry.specialize name args
  | .argumentList types => Registry.argumentList types
  | .follow reference => Registry.follow reference

/-- Whether an operation waits for what it gives.  A reference is followed
without waiting, as it is from inside assemblies. -/
def IsTopLevel : Operation → Prop
  | .follow _ => False
  | _ => True

/-- What an operation ensures of its outcome.  It is an answer, it is published
where the operation waits, and where a name is asked for, it is noted. -/
structure Ensures (operation : Operation) (past : Past)
    (outcome : Except Stop Descriptor) : Prop where
  answers : Answers outcome
  secures : operation.IsTopLevel → SecuresOutcome past outcome
  noted : ∀ name, operation = .get name →
    (⟨.mark (.answered .topLevel name outcome), ()⟩ : Deed) ∈ past

variable {agent : Agent} {calm : Prop} {past : Past}

theorem Ensures.append {operation : Operation}
    {outcome : Except Stop Descriptor}
    (ensures : operation.Ensures past outcome) (deeds : List Deed) :
    operation.Ensures (deeds ++ past) outcome where
  answers := ensures.answers
  secures topLevel := by
    cases outcome with
    | ok descriptor => exact (ensures.secures topLevel).append deeds
    | error stop => trivial
  noted name same := List.mem_append_right _ (ensures.noted name same)

theorem keeps (operation : Operation) (calmly : calm → agent.sources.IsCalm)
    (idle : calm → unfinished past = []) :
    Meets (discipline agent calm) (Keeps past operation.Ensures)
      (operation.request agent (builder agent)) past := by
  have builds := builder_within calmly
  have room (names : List TypeName) {later : Past} :
      HasRoom agent.sources agent.sources.depthBound names later :=
    hasRoom_depthBound agent.sources names later
  have ensured {operation : Operation} {lookup : Lookup Descriptor}
      (others : ∀ name, operation ≠ .get name)
      (secured : Meets (discipline agent calm)
        (Keeps past fun later outcome =>
          Answers outcome ∧ SecuresOutcome later outcome) lookup past) :
      Meets (discipline agent calm) (Keeps past operation.Ensures) lookup
        past :=
    secured.mono fun _ _ ⟨grows, answers, secures⟩ =>
      ⟨grows, answers, fun _ => secures,
        fun name same => (others name same).elim⟩
  cases operation with
  | get name =>
    refine (getByName_keeps builds (room _) idle).mono ?_
    rintro later outcome ⟨grows, served⟩
    refine ⟨grows, served.fared.elim Fares.answers Refused.answers,
      fun _ => served.secures, fun asked same => ?_⟩
    cases same
    exact served.noted
  | resolve expression =>
    exact ensured nofun (resolve_keeps builds (room _) idle)
  | lookup text => exact ensured nofun (lookupText_keeps builds (room _) idle)
  | specialize name args =>
    exact ensured nofun (resolve_keeps builds (room _) idle)
  | argumentList types =>
    refine ensured nofun (Keeps.bind (mapM_answers fun expression _ later _ =>
        takeReference_answers builds (room _))
      (fun references later _ _ => ?_) fun _ _ answers => ⟨answers, trivial⟩)
    exact Keeps.bind (perform_keeps _ trivial fun _ => rfl)
      (fun _ _ _ _ => pure_keeps ⟨trivial, trivial⟩)
      fun _ _ performed => performed.elim
  | follow reference =>
    exact (follow_keeps builds (room _) fun _ => idle).mono
      fun _ _ ⟨grows, answers⟩ => ⟨grows, answers, False.elim, nofun⟩

end Operation

end TypeAtlas
