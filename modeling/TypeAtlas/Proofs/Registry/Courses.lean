import TypeAtlas.Proofs.Registry.Operations

/-!
# The course of lookups

What is noted of lookups and builds nests like the calls themselves.  Whoever
looks at what a thread has done can tell which builds and lookups it is in the
middle of, how each lookup went that was answered, and what each build failed
for.  All of this holds whatever the store answers, so it is a contract that
promises nothing.
-/

namespace TypeAtlas

open Lookup

/-- A lookup of a name that was begun, with all that was done before. -/
structure Inquiry where
  kind : LookupKind
  name : TypeName
  begun : Past

def IntrospectionStep.decides : IntrospectionStep → Bool
  | .crash _ | .reject _ | .fail _ | .acceptEmpty => true
  | .get _ | .lookup _ | .reference _ | .survey => false

namespace Sources

/-- The step with which the script for a name ends before its last, if any. -/
def decision? (sources : Sources) (name : TypeName) :
    Option IntrospectionStep :=
  ((sources.scripts.get? name).getD []).find? IntrospectionStep.decides

def outlineOutcome (sources : Sources) (name : TypeName) :
    Except Stop (TypeFacts × Bool) :=
  ((ExceptT.run (Assembly.outline sources name)).run (Parts.blank name)).1

end Sources

namespace Past

/-- The names whose builds have begun and not ended, the latest first. -/
def stack : Past → List TypeName
  | [] => []
  | ⟨.mark (.building name), _⟩ :: past => name :: stack past
  | ⟨.recordBuild _, _⟩ :: past => (stack past).tail
  | _ :: past => stack past

def inquiries : Past → List Inquiry
  | [] => []
  | ⟨.mark (.asked kind name), _⟩ :: past =>
    ⟨kind, name, past⟩ :: inquiries past
  | ⟨.mark (.answered _ _ _), _⟩ :: past => (inquiries past).tail
  | _ :: past => inquiries past

/-- Whether the builds that a thread is in are those of what it has entered. -/
def Aligned (past : Past) : Prop :=
  (unfinished past).map Prod.fst = stack past

def opened (kind : LookupKind) (name : TypeName) (identity : Nat)
    (begun : Past) : Past :=
  let made : Past :=
    ⟨.enter name, .made identity⟩ :: ⟨.mark (.asked kind name), ()⟩ :: begun
  match kind with
  | .topLevel => ⟨.recordMiss, ()⟩ :: made
  | .nested => made

/-- Whether a lookup took place, which was answered at some moment. -/
structure LookedUp (past : Past) (inquiry : Inquiry) (ended : Past)
    (outcome : Except Stop Descriptor) : Prop where
  asked : ⟨.mark (.asked inquiry.kind inquiry.name), ()⟩ :: inquiry.begun <:+
    ended
  latest : inquiries ended = inquiry :: inquiries inquiry.begun
  answered : ⟨.mark (.answered inquiry.kind inquiry.name outcome), ()⟩ ::
    ended <:+ past

theorem LookedUp.of_suffix {past later ended : Past} {inquiry : Inquiry}
    {outcome : Except Stop Descriptor}
    (lookedUp : LookedUp past inquiry ended outcome)
    (suffix : past <:+ later) : LookedUp later inquiry ended outcome :=
  ⟨lookedUp.asked, lookedUp.latest, lookedUp.answered.trans suffix⟩

/-- Whether an error was just delivered by a lookup of one of some kinds, which
was begun since some time. -/
structure Delivers (kinds : LookupKind → Prop) (past later : Past)
    (stop : Stop) : Prop where
  lookedUp : ∃ inquiry ended, kinds inquiry.kind ∧ past <:+ inquiry.begun ∧
    LookedUp later inquiry ended (.error stop) ∧
      later = ⟨.mark (.answered inquiry.kind inquiry.name (.error stop)), ()⟩ ::
        ended
  error : stop.IsFailure → stop.IsError

/-- Why an assembly stopped that had the outline of its name. -/
inductive Interruption (sources : Sources) (name : TypeName)
    (past later : Past) : Stop → Prop where
  | scriptCrash {crash : Crash}
    (decision : sources.decision? name = some (.crash crash)) :
    Interruption sources name past later (.crash crash)
  | scriptFailure {reason : String}
    (decision : sources.decision? name = some (.fail reason)) :
    Interruption sources name past later (.error (.instantiation name reason))
  /-- The lookup of a type that it refers to was the last thing it did. -/
  | reference {stop : Stop}
    (delivers : Delivers (· = .nested) past later stop) :
    Interruption sources name past later stop

/-- Why the assembly of a name stopped, which took some time. -/
inductive Cause (sources : Sources) (name : TypeName) (past later : Past) :
    Stop → Prop where
  | outline {stop : Stop}
    (stopped : sources.outlineOutcome name = .error stop) :
    Cause sources name past later stop
  | completion {outline : TypeFacts × Bool} {stop : Stop}
    (outlined : sources.outlineOutcome name = .ok outline)
    (interruption : Interruption sources name past later stop) :
    Cause sources name past later stop

/-- A build of a name that is over, but for the records of it. -/
structure BuildEnds (sources : Sources) (name : TypeName) (past inner : Past)
    (body : Body) : Prop where
  begins : ⟨.mark (.building name), ()⟩ :: past <:+ inner
  explained : ∀ reason, body.failure? = some reason →
    ∃ stop error, Stop.failure? stop = some error ∧ error.message = reason ∧
      Cause sources name (⟨.mark (.building name), ()⟩ :: past) inner stop

def recorded (name : TypeName) (identity : Nat) (body : Body) (inner : Past) :
    Past :=
  ⟨.recordBuild body.failure?.isSome, ()⟩ ::
    ⟨.publish name identity body, ()⟩ :: inner

/-- A build that is over began when a lookup had made the entry. -/
theorem BuildEnds.made_suffix {sources : Sources} {kind : LookupKind}
    {name : TypeName} {identity : Nat} {begun inner : Past} {body : Body}
    (ends : BuildEnds sources name (opened kind name identity begun) inner
      body) :
    ⟨.enter name, .made identity⟩ :: ⟨.mark (.asked kind name), ()⟩ ::
      begun <:+ recorded name identity body inner := by
  have made : ⟨.enter name, .made identity⟩ ::
      ⟨.mark (.asked kind name), ()⟩ :: begun <:+
        opened kind name identity begun := by
    cases kind with
    | topLevel => exact List.suffix_cons _ _
    | nested => exact List.suffix_refl _
  have builds := made.trans ((List.suffix_cons _ _).trans ends.begins)
  exact builds.trans ⟨[_, _], rfl⟩

end Past

open Past

def Body.outcome (name : TypeName) (body : Body) : Except Stop Unit :=
  match body.failure? with
  | none => .ok ()
  | some reason => .error (.error (.initialization name reason))

theorem Body.outcome_cases (name : TypeName) (body : Body) :
    (body.failure? = none ∧ body.outcome name = .ok ()) ∨
      ∃ reason, body.failure? = some reason ∧
        body.outcome name = .error (.error (.initialization name reason)) := by
  unfold Body.outcome
  cases body.failure? with
  | none => exact .inl ⟨rfl, rfl⟩
  | some reason => exact .inr ⟨reason, rfl, rfl⟩

/-- How a lookup of a name went, from its beginning to its outcome. -/
inductive Course (agent : Agent) (name : TypeName) (begun : Past) :
    LookupKind → Past → Except Stop Descriptor → Prop where
  /-- The entry was there, and nobody waits inside an assembly. -/
  | found {identity : Nat} {builder : ThreadId} {isPublished : Bool} :
    Course agent name begun .nested
      (⟨.enter name, .present identity builder isPublished⟩ ::
        ⟨.mark (.asked .nested name), ()⟩ :: begun)
      (.ok (.cached name identity))
  | refused {identity : Nat} :
    Course agent name begun .topLevel
      (⟨.enter name, .present identity agent.thread false⟩ ::
        ⟨.mark (.asked .topLevel name), ()⟩ :: begun)
      (.error (.error (.reentrantLookup name)))
  | hit {identity : Nat} {builder : ThreadId} {isPublished : Bool}
    {body : Body} (others : isPublished = true ∨ builder ≠ agent.thread) :
    Course agent name begun .topLevel
      (⟨.recordHit, ()⟩ :: ⟨.await (.cached name identity), body⟩ ::
        ⟨.enter name, .present identity builder isPublished⟩ ::
          ⟨.mark (.asked .topLevel name), ()⟩ :: begun)
      (.ok (.cached name identity))
  | built {kind : LookupKind} {identity : Nat} {inner : Past} {body : Body}
    (ends : BuildEnds agent.sources name (opened kind name identity begun)
      inner body) :
    Course agent name begun kind (recorded name identity body inner)
      ((body.outcome name).map fun _ => .cached name identity)

theorem Course.answers {agent : Agent} {kind : LookupKind} {name : TypeName}
    {begun later : Past} {outcome : Except Stop Descriptor}
    (course : Course agent name begun kind later outcome) :
    Answers outcome := by
  cases course with
  | found | refused | hit => trivial
  | @built _ identity inner body ends =>
    rcases body.outcome_cases name with ⟨_, same⟩ | ⟨reason, _, same⟩
    · rw [same]
      trivial
    · rw [same]
      trivial

/-- A lookup that ended with an error was refused for a build, or it is the one
that the failed build of its name was begun for. -/
theorem Course.of_error {agent : Agent} {kind : LookupKind} {name : TypeName}
    {begun later : Past} {outcome : Except Stop Descriptor} {stop : Stop}
    (course : Course agent name begun kind later outcome)
    (failed : outcome = .error stop) :
    (kind = .topLevel ∧ stop = .error (.reentrantLookup name) ∧
      stack later = stack begun) ∨
    ∃ identity body inner reason, later = recorded name identity body inner ∧
      body.failure? = some reason ∧
        stop = .error (.initialization name reason) ∧
          BuildEnds agent.sources name (opened kind name identity begun) inner
            body := by
  cases course with
  | found => cases failed
  | hit => cases failed
  | refused =>
    cases failed
    exact .inl ⟨rfl, rfl, rfl⟩
  | @built _ identity inner body ends =>
    rcases body.outcome_cases name with ⟨_, same⟩ | ⟨reason, told, same⟩
    · rw [same] at failed
      cases failed
    · rw [same] at failed
      cases failed
      exact .inr ⟨identity, body, inner, reason, rfl, told, rfl, ends⟩

/-- Whether a lookup is refused for how it is spelt or applied. -/
def Stop.IsOwn : Stop → Prop
  | .error (.typeExpr _) | .error (.specialization _ _) => True
  | _ => False

/-- What is noted of lookups and builds.  An answer is that of the latest lookup
that has none, and collaborators hear of an error from the lookup that
failed. -/
def tracing (agent : Agent) : Contract where
  allows past
    | .mark (.asked _ _) => Aligned past
    | .mark (.answered kind name outcome) => ∃ begun,
      inquiries past = ⟨kind, name, begun⟩ :: inquiries begun ∧
        (Concludes outcome → Course agent name begun kind past outcome)
    | .report (.introspecting type (.error error)) =>
      (stack past).head? = some type ∧
        (Stop.IsOwn (.error error) ∨ ∃ since,
          (stack since).head? = some type ∧
            Delivers (fun _ => True) since past (.error error))
    | _ => True
  promises _ _ := True

abbrev Ending := Past → Past → Stop → Prop

def Ending.IsLasting (ending : Ending) : Prop :=
  ∀ past middle later stop, past <:+ middle → ending middle later stop →
    ending past later stop

theorem delivers_isLasting (kinds : LookupKind → Prop) :
    Ending.IsLasting (Delivers kinds) := by
  rintro past middle later stop grows ⟨⟨inquiry, ended, isOne, since, rest⟩,
    error⟩
  exact ⟨⟨inquiry, ended, isOne, grows.trans since, rest⟩, error⟩

/-- Whether a top-level lookup was refused, or passes on what was delivered. -/
def Requested : Ending := fun past later stop =>
  stop.IsOwn ∨ Delivers (fun _ => True) past later stop

theorem requested_isLasting : Ending.IsLasting Requested :=
  fun past middle later stop grows =>
    Or.imp_right (delivers_isLasting _ past middle later stop grows)

theorem Past.Delivers.requested {kinds : LookupKind → Prop} {past later : Past}
    {stop : Stop} (delivers : Delivers kinds past later stop) :
    Requested past later stop := by
  obtain ⟨⟨inquiry, ended, _, rest⟩, error⟩ := delivers
  exact .inr ⟨⟨inquiry, ended, trivial, rest⟩, error⟩

theorem interruption_isLasting (sources : Sources) (name : TypeName) :
    Ending.IsLasting (Interruption sources name) := by
  intro past middle later stop grows interruption
  cases interruption with
  | scriptCrash decision => exact .scriptCrash decision
  | scriptFailure decision => exact .scriptFailure decision
  | reference delivers =>
    exact .reference
      (delivers_isLasting _ past middle later stop grows delivers)

/-- What a lookup leaves behind: no inquiry of its own and, if it was not cut
off, no build either. -/
structure LeavesNothing (past later : Past) (outcome : Except Stop α) :
    Prop where
  inquiries : Past.inquiries later = Past.inquiries past
  stack : Concludes outcome → Past.stack later = Past.stack past
  unfinished : Concludes outcome → Past.unfinished later = Past.unfinished past

namespace LeavesNothing

variable {past later latest : Past} {value : α}

theorem refl (past : Past) (outcome : Except Stop α) :
    LeavesNothing past past outcome :=
  ⟨rfl, fun _ => rfl, fun _ => rfl⟩

theorem trans {outcome : Except Stop β}
    (first : LeavesNothing past later (.ok value : Except Stop α))
    (second : LeavesNothing later latest outcome) :
    LeavesNothing past latest outcome where
  inquiries := second.inquiries.trans first.inquiries
  stack concludes := (second.stack concludes).trans (first.stack trivial)
  unfinished concludes :=
    (second.unfinished concludes).trans (first.unfinished trivial)

theorem stopped {stop : Stop}
    (leaves : LeavesNothing past later (.error stop : Except Stop α)) :
    LeavesNothing past later (.error stop : Except Stop β) :=
  ⟨leaves.inquiries, leaves.stack, leaves.unfinished⟩

theorem aligned {outcome : Except Stop α}
    (leaves : LeavesNothing past later outcome) (concludes : Concludes outcome)
    (aligned : Aligned past) : Aligned later := by
  unfold Aligned
  rw [leaves.unfinished concludes, leaves.stack concludes]
  exact aligned

end LeavesNothing

def Action.isQuiet : Action → Bool
  | .await _ | .takeNumber | .readTarget _ | .keepTarget _ _ | .look _ => true
  | _ => false

theorem Action.leavesNothing {action : Action} (quiet : action.isQuiet = true)
    (answer : action.Answer) (past : Past) (outcome : Except Stop α) :
    LeavesNothing past (⟨action, answer⟩ :: past) outcome := by
  cases action with
  | await | takeNumber | readTarget | keepTarget | look =>
    exact ⟨rfl, fun _ => rfl, fun _ => rfl⟩
  | _ => cases quiet

theorem tracing_allows {action : Action} (quiet : action.isQuiet = true)
    (agent : Agent) (past : Past) : (tracing agent).allows past action := by
  cases action with
  | await | takeNumber | readTarget | keepTarget | look => trivial
  | _ => cases quiet

namespace Lookup

variable {agent : Agent} {ending : Ending} {past : Past}

/-- Whether all that a lookup notes is in order, and it ends early only so. -/
def Traced (agent : Agent) (ending : Ending) (lookup : Lookup α) : Prop :=
  ∀ past, Aligned past → Meets (tracing agent)
    (fun later outcome => LeavesNothing past later outcome ∧
      ∀ stop, outcome = .error stop → ending past later stop) lookup past

theorem Traced.mono {weaker : Ending} {lookup : Lookup α}
    (traced : Traced agent ending lookup)
    (implies : ∀ past later stop, ending past later stop →
      weaker past later stop) :
    Traced agent weaker lookup := by
  intro past aligned
  refine (traced past aligned).mono fun later outcome ⟨leaves, ends⟩ => ?_
  exact ⟨leaves, fun stop same => implies past later stop (ends stop same)⟩

theorem Traced.requested {kinds : LookupKind → Prop} {lookup : Lookup α}
    (traced : Traced agent (Delivers kinds) lookup) :
    Traced agent Requested lookup :=
  traced.mono fun _ _ _ => Delivers.requested

theorem Traced.bind {lookup : Lookup α} {next : α → Lookup β}
    (lasting : ending.IsLasting) (traced : Traced agent ending lookup)
    (goesOn : ∀ value, Traced agent ending (next value)) :
    Traced agent ending (lookup >>= next) := by
  intro past aligned
  apply Meets.bind
  refine Procedure.Meets.weaken (traced past aligned) ?_
  rintro deeds (stop | value) ⟨leaves, ends⟩
  · exact ⟨leaves.stopped, fun other same => by
      cases same
      exact ends stop rfl⟩
  · have after := goesOn value _ (leaves.aligned trivial aligned)
    refine after.mono fun latest outcome ⟨further, endsLater⟩ => ?_
    exact ⟨leaves.trans further, fun stop same =>
      lasting _ _ _ _ (List.suffix_append deeds past) (endsLater stop same)⟩

theorem traced_pure (value : α) : Traced agent ending (pure value) :=
  fun past _ => meets_pure ⟨.refl past _, nofun⟩

theorem traced_perform {action : Action} (quiet : action.isQuiet = true) :
    Traced agent ending (perform action) :=
  fun past _ => meets_perform (tracing_allows quiet agent past)
    fun answer _ => ⟨Action.leavesNothing quiet answer past _, nofun⟩

theorem traced_fail {error : Error}
    (ends : ∀ past, ending past past (.error error)) :
    Traced agent ending (fail error : Lookup α) := by
  intro past _
  refine meets_throw ⟨.refl past _, fun stop same => ?_⟩
  cases same
  exact ends past

theorem forM_traced {items : List α} {look : α → Lookup Unit}
    (lasting : ending.IsLasting)
    (each : ∀ item, Traced agent ending (look item)) :
    Traced agent ending (items.forM look) := by
  induction items with
  | nil => exact traced_pure ()
  | cons item rest ih => exact (each item).bind lasting fun _ => ih

theorem mapM_traced {items : List α} {look : α → Lookup β}
    (lasting : ending.IsLasting)
    (each : ∀ item, Traced agent ending (look item)) :
    Traced agent ending (items.mapM look) := by
  induction items with
  | nil => exact traced_pure []
  | cons item rest ih =>
    rw [List.mapM_cons]
    apply (each item).bind lasting
    intro _
    exact ih.bind lasting fun _ => traced_pure _

/-- What a lookup of a name comes to, short of the note of its answer. -/
structure Comes (agent : Agent) (kind : LookupKind) (name : TypeName)
    (begun later : Past) (outcome : Except Stop Descriptor) : Prop where
  leaves : LeavesNothing (⟨.mark (.asked kind name), ()⟩ :: begun) later outcome
  course : Concludes outcome → Course agent name begun kind later outcome

def Notes (agent : Agent) (kind : LookupKind) (name : TypeName)
    (begun later : Past) (outcome : Except Stop Descriptor) : Prop :=
  ∃ ended, later = ⟨.mark (.answered kind name outcome), ()⟩ :: ended ∧
    ⟨.mark (.asked kind name), ()⟩ :: begun <:+ ended ∧
      Comes agent kind name begun ended outcome

theorem meets_noted {kind : LookupKind} {name : TypeName} {begun : Past}
    {lookup : Lookup Descriptor} (aligned : Aligned begun)
    (comes : Meets (tracing agent) (Comes agent kind name begun) lookup
      (⟨.mark (.asked kind name), ()⟩ :: begun)) :
    Meets (tracing agent) (Notes agent kind name begun)
      (noted kind name lookup) begun := by
  apply Meets.noted aligned
  refine Procedure.Meets.weaken comes ?_
  rintro deeds outcome ⟨leaves, course⟩
  exact ⟨⟨begun, leaves.inquiries, course⟩, _, rfl, List.suffix_append deeds _,
    leaves, course⟩

theorem traced_of_notes {kind : LookupKind} {name : TypeName}
    {lookup : Lookup Descriptor}
    (notes : ∀ begun, Aligned begun →
      Meets (tracing agent) (Notes agent kind name begun) lookup begun) :
    Traced agent (Delivers (· = kind)) lookup := by
  intro begun aligned
  refine (notes begun aligned).mono ?_
  rintro _ outcome ⟨ended, rfl, asked, leaves, course⟩
  have opens : inquiries ended = ⟨kind, name, begun⟩ :: inquiries begun :=
    leaves.inquiries
  refine ⟨⟨congrArg List.tail opens, leaves.stack, leaves.unfinished⟩, ?_⟩
  rintro stop rfl
  exact ⟨⟨⟨kind, name, begun⟩, ended, rfl, List.suffix_refl begun,
    ⟨asked, opens, List.suffix_refl _⟩, rfl⟩,
    fun failed => (course failed).answers⟩

/-- How a build leaves things that was begun after a lookup made its entry. -/
structure Builds (agent : Agent) (name : TypeName) (identity : Nat)
    (past later : Past) (outcome : Except Stop Unit) : Prop where
  inquiries : Past.inquiries later = Past.inquiries past
  ended : Concludes outcome → ∃ body inner,
    BuildEnds agent.sources name past inner body ∧
      later = recorded name identity body inner ∧
        outcome = body.outcome name ∧ Past.stack later = Past.stack past ∧
          Past.unfinished later = (Past.unfinished past).tail

def BuildsTraced (agent : Agent) (build : Builder) : Prop :=
  ∀ name identity past outer, unfinished past = (name, identity) :: outer →
    outer.map Prod.fst = stack past →
      Meets (tracing agent) (Builds agent name identity past)
        (build name identity) past

section Lookups

variable {build : Builder}

theorem build_comes (builds : BuildsTraced agent build) (kind : LookupKind)
    (name : TypeName) (identity : Nat) {begun : Past}
    (aligned : Aligned begun) :
    Meets (tracing agent) (Comes agent kind name begun)
      (do
        build name identity
        return .cached name identity)
      (opened kind name identity begun) := by
  have entered : unfinished (opened kind name identity begun) =
      (name, identity) :: unfinished begun := by
    cases kind <;> rfl
  have within : stack (opened kind name identity begun) = stack begun := by
    cases kind <;> rfl
  have opens : inquiries (opened kind name identity begun) =
      inquiries (⟨.mark (.asked kind name), ()⟩ :: begun) := by
    cases kind <;> rfl
  have ended {later : Past} {outcome : Except Stop Unit}
      (ends : Builds agent name identity (opened kind name identity begun)
        later outcome) :
      Comes agent kind name begun later
        (outcome.map fun _ => .cached name identity) := by
    have concluded (concludes : Concludes
        (outcome.map fun _ => Descriptor.cached name identity)) :
        Concludes outcome := by
      cases outcome with
      | ok _ => trivial
      | error stop => exact concludes
    refine ⟨⟨ends.inquiries.trans opens, fun concludes => ?_,
      fun concludes => ?_⟩, fun concludes => ?_⟩
    · obtain ⟨body, inner, _, _, _, same, _⟩ := ends.ended (concluded concludes)
      exact same.trans within
    · obtain ⟨body, inner, _, _, _, _, same⟩ := ends.ended (concluded concludes)
      rw [same, entered]
      rfl
    · obtain ⟨body, inner, done, rfl, rfl, _⟩ :=
        ends.ended (concluded concludes)
      exact .built done
  apply Meets.bind
  refine (builds name identity _ _ entered (aligned.trans within.symm)).mono ?_
  rintro later (stop | _) ends
  · exact ended ends
  · exact meets_pure (ended ends)

theorem getNested_traced (builds : BuildsTraced agent build)
    (name : TypeName) :
    Traced agent (Delivers (· = .nested)) (getNested build name) := by
  refine traced_of_notes fun begun aligned => meets_noted aligned ?_
  refine meets_perform_bind trivial fun found _ => ?_
  cases found with
  | made identity => exact build_comes builds .nested name identity aligned
  | present identity builder isPublished =>
    exact meets_pure ⟨⟨rfl, fun _ => rfl, fun _ => rfl⟩, fun _ => .found⟩

theorem getByName_notes (builds : BuildsTraced agent build) (name : TypeName)
    {begun : Past} (aligned : Aligned begun) :
    Meets (tracing agent) (Notes agent .topLevel name begun)
      (getByName agent build name) begun := by
  refine meets_noted aligned ?_
  refine meets_perform_bind trivial fun found _ => ?_
  cases found with
  | made identity =>
    refine meets_perform_bind trivial fun _ _ => ?_
    exact build_comes builds .topLevel name identity aligned
  | present identity builder isPublished =>
    dsimp only
    split
    next reserved =>
      rw [Bool.and_eq_true, Bool.not_eq_true', beq_iff_eq] at reserved
      obtain ⟨rfl, rfl⟩ := reserved
      exact meets_throw ⟨⟨rfl, fun _ => rfl, fun _ => rfl⟩, fun _ => .refused⟩
    next unreserved =>
      refine meets_perform_bind trivial fun body _ => ?_
      refine meets_perform_bind trivial fun _ _ => ?_
      exact meets_pure ⟨⟨rfl, fun _ => rfl, fun _ => rfl⟩, fun _ =>
        .hit (isPublished_or_ne unreserved)⟩

theorem getByName_traced (builds : BuildsTraced agent build)
    (name : TypeName) :
    Traced agent (Delivers (· = .topLevel)) (getByName agent build name) :=
  traced_of_notes fun _ aligned => getByName_notes builds name aligned

theorem takeReference_traced (builds : BuildsTraced agent build)
    (expression : TypeExpr) :
    Traced agent (Delivers (· = .nested)) (takeReference build expression) := by
  have lasting := delivers_isLasting (· = .nested)
  have looks : Traced agent (Delivers (· = .nested))
      (expression.names.forM fun name => do
        let _ ← getNested build name) :=
    forM_traced lasting fun name =>
      (getNested_traced builds name).bind lasting fun _ => traced_pure ()
  apply looks.bind lasting
  intro _
  exact (traced_perform rfl).bind lasting fun _ => traced_pure _

theorem resolve_traced (builds : BuildsTraced agent build)
    (expression : TypeExpr) :
    Traced agent Requested (resolve agent build expression) := by
  have lasting := requested_isLasting
  apply (getByName_traced builds expression.name).requested.bind lasting
  intro base
  split
  · exact traced_pure base
  apply (traced_perform rfl).bind lasting
  intro body
  split
  · exact traced_pure base
  split
  · exact traced_fail fun _ => .inl trivial
  apply (mapM_traced lasting fun argument =>
    (takeReference_traced builds argument).requested).bind lasting
  intro references
  exact (traced_perform rfl).bind lasting fun _ => traced_pure _

theorem follow_traced (builds : BuildsTraced agent build)
    (reference : TypeRef) :
    Traced agent Requested (follow agent build reference) := by
  have lasting := requested_isLasting
  unfold follow
  split
  · exact (getNested_traced builds _).requested
  apply (traced_perform rfl).bind lasting
  intro target?
  cases target? with
  | some target => exact traced_pure target
  | none =>
    apply (resolve_traced builds reference.expr).bind lasting
    intro target
    exact traced_perform rfl

theorem lookupText_traced (builds : BuildsTraced agent build)
    (text : String) :
    Traced agent Requested (lookupText agent build text) := by
  unfold lookupText
  cases TypeExpr.parse text with
  | error fault => exact traced_fail fun _ => .inl trivial
  | ok expression => exact resolve_traced builds expression

theorem referText_traced (builds : BuildsTraced agent build)
    (text : String) :
    Traced agent Requested (referText agent build text) := by
  unfold referText
  cases TypeExpr.parse text with
  | error fault => exact traced_fail fun _ => .inl trivial
  | ok expression =>
    change Traced agent Requested
      (takeReference build expression >>= follow agent build)
    exact (takeReference_traced builds expression).requested.bind
      requested_isLasting (follow_traced builds)

def ScriptTraced (agent : Agent) (name : TypeName) (lookup : Lookup α) : Prop :=
  ∀ past, Aligned past → (stack past).head? = some name → Meets (tracing agent)
    (fun later outcome => LeavesNothing past later outcome ∧
      ∀ stop, outcome = .error stop → stop.IsFailure →
        Interruption agent.sources name past later stop) lookup past

/-- A script hears what one of its lookups found, and then goes on. -/
theorem find_scriptTraced {name : TypeName} {lookup : Lookup Descriptor}
    {next : Lookup α} (traced : Traced agent Requested lookup)
    (goesOn : ScriptTraced agent name next) :
    ScriptTraced agent name (do
      let finding ← find lookup
      perform (.report (.introspecting name finding))
      next) := by
  intro past aligned inside
  have reports {finding : Finding} {later : Past} (grows : past <:+ later)
      (leaves : LeavesNothing past later (.ok finding))
      (mayReport : (tracing agent).allows later
        (.report (.introspecting name finding))) :
      Meets (tracing agent)
        (fun later outcome => LeavesNothing past later outcome ∧
          ∀ stop, outcome = .error stop → stop.IsFailure →
            Interruption agent.sources name past later stop)
        (do
          perform (.report (.introspecting name finding))
          next) later := by
    refine meets_perform_bind mayReport fun _ _ => ?_
    have told : LeavesNothing past
        (⟨.report (.introspecting name finding), ()⟩ :: later) (.ok finding) :=
      ⟨leaves.inquiries, leaves.stack, leaves.unfinished⟩
    refine (goesOn _ (told.aligned trivial aligned) ?_).mono ?_
    · rw [told.stack trivial]
      exact inside
    · rintro latest outcome ⟨further, caused⟩
      refine ⟨told.trans further, fun stop same failed => ?_⟩
      exact interruption_isLasting _ _ _ _ _ _
        (grows.trans (List.suffix_cons _ later)) (caused stop same failed)
  apply Meets.bind
  apply Meets.attempt_bind
  refine Procedure.Meets.weaken (traced past aligned) ?_
  rintro deeds outcome ⟨leaves, ends⟩
  have grows := List.suffix_append deeds past
  rcases outcome with (error | crash | name | _) | descriptor
  · refine meets_pure (reports grows
      ⟨leaves.inquiries, leaves.stack, leaves.unfinished⟩ ⟨?_, ?_⟩)
    · rw [leaves.stack trivial]
      exact inside
    · exact (ends _ rfl).imp_right fun delivers => ⟨past, inside, delivers⟩
  · rcases ends _ rfl with own | delivers
    · exact own.elim
    · exact (delivers.error trivial).elim
  · exact meets_throw ⟨leaves.stopped, fun stop same failed => by
      cases same
      exact failed.elim⟩
  · exact meets_throw ⟨leaves.stopped, fun stop same failed => by
      cases same
      exact failed.elim⟩
  · refine meets_perform_bind trivial fun snapshot _ => meets_pure ?_
    exact reports (grows.trans (List.suffix_cons _ _))
      ⟨leaves.inquiries, leaves.stack, leaves.unfinished⟩ trivial

end Lookups

end Lookup

end TypeAtlas
