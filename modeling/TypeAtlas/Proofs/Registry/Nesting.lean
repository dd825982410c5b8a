import TypeAtlas.Proofs.Registry.Congruence
import TypeAtlas.Proofs.Registry.Courses

/-!
# How builds nest

Each build inside another one takes a level off the bound on their depth, and
has made an entry that is not published while it lasts.  So a lookup is cut off
at the bound only with as many entries unpublished as there are levels.  A name
is asked for by the operation itself, or it is one that the sources mention.
All of this holds whatever the store answers.
-/

namespace TypeAtlas

open Past Lookup

namespace Past

/-- How an outcome leaves the assemblies that were begun: as they were, or with
all levels of builds begun as well where it was cut off. -/
def Spends (levels : Nat) (outer : List (TypeName × Nat)) (later : Past) :
    Except Stop α → Prop
  | .error .exhausted => outer.length + levels ≤ (unfinished later).length
  | .error (.blocked _) => False
  | .ok _ | .error (.error _) | .error (.crash _) => unfinished later = outer

theorem spends_of_isFailure {levels : Nat} {past : Past} {stop : Stop}
    (failure : stop.IsFailure) :
    Spends levels (unfinished past) past (.error stop : Except Stop α) := by
  cases stop with
  | error error => rfl
  | crash crash => rfl
  | blocked name => exact failure.elim
  | exhausted => exact failure.elim

theorem Spends.stopped {levels : Nat} {outer : List (TypeName × Nat)}
    {later : Past} {stop : Stop}
    (spends : Spends levels outer later (.error stop : Except Stop α)) :
    Spends levels outer later (.error stop : Except Stop β) := by
  cases stop <;> exact spends

theorem Spends.of_unfinished_eq {levels : Nat} {outer : List (TypeName × Nat)}
    {later latest : Past} {outcome : Except Stop α}
    (spends : Spends levels outer later outcome)
    (same : unfinished latest = unfinished later) :
    Spends levels outer latest outcome := by
  rcases outcome with (error | crash | name | _) | value
  · exact same.trans spends
  · exact same.trans spends
  · exact spends
  · exact Nat.le_trans spends
      (Nat.le_of_eq (congrArg List.length same.symm))
  · exact same.trans spends

end Past

theorem Sources.mentioned_of_mem_script (sources : Sources)
    {type name : TypeName}
    (within : name ∈ ((sources.scripts.get? type).getD []).flatMap
      Sources.mentionedByStep) :
    name ∈ sources.mentioned := by
  cases found : sources.scripts.get? type with
  | none =>
    rw [found] at within
    cases within
  | some steps =>
    rw [found] at within
    have told := List.mem_flatMap.2
      ⟨steps, NameMap.mem_values_of_get? found, within⟩
    simp only [Sources.mentioned, List.mem_cons, List.mem_append]
    exact .inr (.inr (.inr told))

/-- Whether a name may be asked for, inside of some assemblies. -/
def Sources.MayAsk (sources : Sources) (names : List TypeName)
    (outer : List (TypeName × Nat)) (name : TypeName) : Prop :=
  name ∈ sources.mentioned ∨ outer = [] ∧ name ∈ names

/-- What lookups keep to that are made for some names, whatever is cached when
they begin. -/
def nesting (agent : Agent) (names : List TypeName) : Contract where
  allows past
    | .enter name => agent.sources.MayAsk names (unfinished past) name
    | .publish name identity _ =>
      ∃ outer, unfinished past = (name, identity) :: outer
    | .await descriptor => MayAwait past agent.thread descriptor
    | .mark (.building name) =>
      ∃ kind identity begun, past = opened kind name identity begun
    | _ => True
  promises _ _ := True

theorem nesting_allows {action : Action} (free : action.isFree = true)
    (agent : Agent) (names : List TypeName) (past : Past) :
    (nesting agent names).allows past action := by
  cases action with
  | takeNumber | readTarget | keepTarget | look | report => trivial
  | _ => cases free

theorem Past.unfinished_cons_of_isFree {action : Action}
    (free : action.isFree = true) (answer : action.Answer) (past : Past) :
    unfinished (⟨action, answer⟩ :: past) = unfinished past := by
  cases action with
  | takeNumber | readTarget | keepTarget | look | report => rfl
  | _ => cases free

namespace Lookup

variable {agent : Agent} {names : List TypeName} {levels : Nat}
  {outer : List (TypeName × Nat)} {build : Builder}

def Nests (agent : Agent) (names : List TypeName) (levels : Nat)
    (outer : List (TypeName × Nat)) (lookup : Lookup α) : Prop :=
  ∀ past, unfinished past = outer →
    Meets (nesting agent names) (Spends levels outer) lookup past

theorem Nests.bind {lookup : Lookup α} {next : α → Lookup β}
    (nests : Nests agent names levels outer lookup)
    (goesOn : ∀ value, Nests agent names levels outer (next value)) :
    Nests agent names levels outer (lookup >>= next) := by
  intro past begun
  apply Meets.bind
  refine (nests past begun).mono ?_
  rintro later (stop | value) spends
  · exact spends.stopped
  · exact goesOn value later spends

theorem nests_pure (value : α) : Nests agent names levels outer (pure value) :=
  fun _ begun => meets_pure begun

theorem nests_throw {stop : Stop} (failure : stop.IsFailure) :
    Nests agent names levels outer (throw stop : Lookup α) := by
  rintro past rfl
  exact meets_throw (spends_of_isFailure failure)

theorem nests_perform {action : Action} (free : action.isFree = true) :
    Nests agent names levels outer (perform action) :=
  fun past begun => meets_perform (nesting_allows free agent names past)
    fun answer _ => (unfinished_cons_of_isFree free answer past).trans begun

theorem find_nests {lookup : Lookup Descriptor}
    (nests : Nests agent names levels outer lookup) :
    Nests agent names levels outer (find lookup) := by
  intro past begun
  apply Meets.attempt_bind
  refine (nests past begun).mono ?_
  rintro later ((error | crash | name | _) | descriptor) spends
  · exact meets_pure spends
  · exact meets_throw spends
  · exact meets_throw spends
  · exact meets_throw spends
  · exact meets_perform_bind trivial fun _ _ => meets_pure spends

def BuildsNesting (agent : Agent) (names : List TypeName) (levels : Nat)
    (build : Builder) : Prop :=
  ∀ kind name identity begun, Meets (nesting agent names)
    (fun later outcome => Spends levels (unfinished begun) later outcome ∧
      (outcome = .ok () → ∃ body,
        (⟨.publish name identity body, ()⟩ : Deed) ∈ later))
    (build name identity) (opened kind name identity begun)

theorem build_secures (builds : BuildsNesting agent names levels build)
    (kind : LookupKind) (name : TypeName) (identity : Nat) (begun : Past) :
    Meets (nesting agent names)
      (fun later outcome => Spends levels (unfinished begun) later outcome ∧
        SecuresOutcome later outcome)
      (do
        build name identity
        return .cached name identity)
      (opened kind name identity begun) := by
  apply Meets.bind
  refine (builds kind name identity begun).mono ?_
  rintro later (stop | _) ⟨spends, publishes⟩
  · exact ⟨spends.stopped, trivial⟩
  · obtain ⟨body, published⟩ := publishes rfl
    exact meets_pure ⟨spends, body, .inl published⟩

theorem getNested_nests (builds : BuildsNesting agent names levels build)
    {name : TypeName} (asks : agent.sources.MayAsk names outer name) :
    Nests agent names levels outer (getNested build name) := by
  rintro past rfl
  apply Meets.noted trivial
  refine meets_perform_bind asks fun found _ => ?_
  cases found with
  | present identity builder isPublished => exact meets_pure ⟨trivial, rfl⟩
  | made identity =>
    refine (build_secures builds .nested name identity past).mono ?_
    rintro later outcome ⟨spends, _⟩
    refine ⟨?_, spends.of_unfinished_eq rfl⟩
    cases outcome <;> trivial

theorem getByName_secures (builds : BuildsNesting agent names levels build)
    {name : TypeName} {past : Past}
    (asks : agent.sources.MayAsk names (unfinished past) name) :
    Meets (nesting agent names)
      (fun later outcome => Spends levels (unfinished past) later outcome ∧
        SecuresOutcome later outcome)
      (getByName agent build name) past := by
  apply Meets.noted trivial
  refine meets_perform_bind asks fun found _ => ?_
  cases found with
  | present identity builder isPublished =>
    dsimp only
    split
    · exact meets_throw ⟨trivial, rfl, trivial⟩
    next unreserved =>
      refine meets_perform_bind (.inr ⟨name, identity, builder, isPublished,
        rfl, List.mem_cons_self, isPublished_or_ne unreserved⟩) fun body _ => ?_
      refine meets_perform_bind trivial fun _ _ => ?_
      exact meets_pure ⟨trivial, rfl, body, .inr (by simp)⟩
  | made identity =>
    refine meets_perform_bind trivial fun _ _ => ?_
    refine (build_secures builds .topLevel name identity past).mono ?_
    rintro later (stop | descriptor) ⟨spends, secures⟩
    · exact ⟨trivial, spends.of_unfinished_eq rfl, trivial⟩
    · exact ⟨trivial, spends.of_unfinished_eq rfl, secures.cons _⟩

theorem nests_congruence (builds : BuildsNesting agent names levels build)
    (outer : List (TypeName × Nat)) :
    Congruence agent (agent.sources.MayAsk names outer) build build
      fun lookup _ => Nests agent names levels outer lookup where
  pure := nests_pure
  throw := nests_throw
  bind := Nests.bind
  perform := nests_perform
  find := find_nests
  nested := getNested_nests builds
  topLevel asks := by
    rintro past rfl
    exact (getByName_secures builds asks).mono fun _ _ => And.left
  attend asks second := by
    rintro past rfl
    apply Meets.bind
    refine (getByName_secures builds asks).mono ?_
    rintro later (stop | base) ⟨spends, secures⟩
    · exact spends.stopped
    · exact meets_perform_bind (.inl secures) fun body _ =>
        second base body _ spends

end Lookup

namespace Assembly

variable {agent : Agent} {names : List TypeName} {levels : Nat}
  {outer : List (TypeName × Nat)} {build : Builder}

def Nests (agent : Agent) (names : List TypeName) (levels : Nat)
    (outer : List (TypeName × Nat)) (assembling : Assembling Procedure α) :
    Prop :=
  ∀ past body, unfinished past = outer →
    Meets (nesting agent names)
      (fun later outcome _ => Spends levels outer later outcome)
      assembling past body

theorem Nests.bind {assembling : Assembling Procedure α}
    {next : α → Assembling Procedure β}
    (nests : Nests agent names levels outer assembling)
    (goesOn : ∀ value, Nests agent names levels outer (next value)) :
    Nests agent names levels outer (assembling >>= next) := by
  intro past body begun
  apply Meets.bind
  refine (nests past body begun).mono ?_
  rintro later (stop | value) left spends
  · exact spends.stopped
  · exact goesOn value later left spends

theorem nests_congruence (agent : Agent) (names : List TypeName) (levels : Nat)
    (outer : List (TypeName × Nat)) :
    Congruence fun step _ => Nests agent names levels outer step where
  pure _ _ _ begun := meets_pure begun
  modifies _ _ _ begun := meets_modify begun
  bind := Nests.bind

theorem nests_lift {lookup : Lookup α}
    (nests : Lookup.Nests agent names levels outer lookup) :
    Nests agent names levels outer (lift lookup) :=
  fun past _ begun => Meets.lift (nests past begun)

theorem assembly_nests (builds : BuildsNesting agent names levels build)
    (name : TypeName) {past : Past} (begun : unfinished past = outer) :
    Meets (nesting agent names)
      (fun later outcome _ => Spends levels outer later outcome)
      (assembly agent build name) past (Body.blank name) := by
  obtain ⟨outcome, parts, outlined, sound⟩ := outline_runFree agent.sources name
  refine Meets.bind (meets_outline outlined ?_)
  rcases outcome with stop | ⟨facts, hasImplementation⟩
  · rw [← begun]
    exact spends_of_isFailure sound.1
  have lookups := Lookup.nests_congruence builds outer
  have mentioned := requested_subset sound.1 hasImplementation
  have steps := nests_congruence agent names levels outer
  refine steps.completion_keeps (fun expression member => nests_lift ?_)
    (nests_lift ?_) (fun _ _ _ still => meets_modify still) past _ begun
  · exact lookups.takeReference fun asked within =>
      .inl (mentioned (mem_requested member within))
  · exact lookups.followScript facts hasImplementation fun asked within =>
      .inl (agent.sources.mentioned_of_mem_script within)

end Assembly

namespace Lookup

variable {agent : Agent} {names : List TypeName} {levels : Nat}
  {build : Builder}

theorem buildWith_nests (builds : BuildsNesting agent names levels build) :
    BuildsNesting agent names (levels + 1) (buildWith agent build) := by
  intro kind name identity begun
  refine meets_perform_bind ⟨kind, identity, begun, rfl⟩ fun _ _ => ?_
  have entered : unfinished (⟨.mark (.building name), ()⟩ ::
      opened kind name identity begun) =
        (name, identity) :: unfinished begun := by
    cases kind <;> rfl
  apply Meets.lift_bind
  refine Procedure.Meets.mono
    (Assembly.assembly_nests builds name entered) ?_
  rintro later ⟨outcome, body⟩ spends
  dsimp only at spends
  have published (body : Body) (within : unfinished later =
        (name, identity) :: unfinished begun) (failed : Bool) :
      unfinished (⟨.recordBuild failed, ()⟩ ::
        ⟨.publish name identity body, ()⟩ :: later) = unfinished begun :=
    congrArg List.tail within
  rcases outcome with (error | crash | blocked | _) | _
  · refine meets_perform_bind ⟨_, spends⟩ fun _ _ => ?_
    refine meets_perform_bind trivial fun _ _ => meets_throw ⟨?_, nofun⟩
    exact published _ spends true
  · refine meets_perform_bind ⟨_, spends⟩ fun _ _ => ?_
    refine meets_perform_bind trivial fun _ _ => meets_throw ⟨?_, nofun⟩
    exact published _ spends true
  · exact spends.elim
  · refine meets_throw ⟨?_, nofun⟩
    change (unfinished begun).length + (levels + 1) ≤ _
    rw [Spends, List.length_cons] at spends
    omega
  · refine meets_perform_bind ⟨_, spends⟩ fun _ _ => ?_
    refine meets_perform trivial fun _ _ =>
      ⟨published _ spends false, fun _ => ?_⟩
    exact ⟨body, by simp⟩

/-- With each level there is one more entry that is made before the bound. -/
theorem build_nests (agent : Agent) (names : List TypeName) (depth : Nat) :
    BuildsNesting agent names (depth + 1) (Lookup.build agent depth) := by
  induction depth with
  | zero =>
    intro kind name identity begun
    refine meets_throw ⟨?_, nofun⟩
    cases kind <;> exact Nat.le_refl _
  | succ depth ih => exact buildWith_nests ih

theorem request_nests (agent : Agent) (operation : Operation) (depth : Nat) :
    Nests agent operation.names (depth + 1) []
      (operation.request agent (Lookup.build agent depth)) :=
  (nests_congruence (build_nests agent operation.names depth) []).request
    operation fun _ member => .inr ⟨rfl, member⟩

end Lookup

end TypeAtlas
