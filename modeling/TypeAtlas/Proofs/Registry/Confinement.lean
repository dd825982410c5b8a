import TypeAtlas.Proofs.Facts.Hierarchy
import TypeAtlas.Proofs.Registry.Congruence
import TypeAtlas.Proofs.Registry.History

/-!
# Assemblies stay among the names that they refer to

A name is entered only if it is asked for from outside of assemblies, or if an
entered type refers to it or has a script that looks it up.  So names from which
nothing leads elsewhere are not left, however deep assemblies are inside each
other.
-/

namespace TypeAtlas

namespace Sources

/-- Whether the assembly of a type may ask for a name itself. -/
def AsksFor (sources : Sources) (name other : TypeName) : Prop :=
  sources.Refers name other ∨
    other ∈ ((sources.scripts.get? name).getD []).flatMap mentionedByStep

/-- Where no scripts are followed, types ask for what they refer to. -/
theorem asksFor_iff_refers {sources : Sources} (plain : sources.IsPlain)
    {name other : TypeName} :
    sources.AsksFor name other ↔ sources.Refers name other := by
  unfold AsksFor
  rw [plain, NameMap.get?_empty]
  exact or_iff_left List.not_mem_nil

end Sources

variable {within : TypeName → Prop}

/-- What enters no names but given ones. -/
def confinement (within : TypeName → Prop) : Contract where
  allows _
    | .enter name => within name
    | _ => True
  promises _ _ := True

namespace Lookup

def Confined (within : TypeName → Prop) (lookup : Lookup α) : Prop :=
  ∀ past, Meets (confinement within) (fun _ _ => True) lookup past

theorem Confined.bind {lookup : Lookup α} {next : α → Lookup β}
    (confined : Confined within lookup)
    (goesOn : ∀ value, Confined within (next value)) :
    Confined within (lookup >>= next) := by
  intro past
  apply Meets.bind
  apply (confined past).mono
  rintro later (stop | value) _
  · trivial
  · exact goesOn value later

theorem Confined.attempt_bind {lookup : Lookup α}
    {next : Except Stop α → Lookup β} (confined : Confined within lookup)
    (goesOn : ∀ outcome, Confined within (next outcome)) :
    Confined within (attempt lookup >>= next) := by
  intro past
  apply Meets.attempt_bind
  apply (confined past).mono
  intro later outcome _
  exact goesOn outcome later

theorem confined_perform {action : Action}
    (allowed : (confinement within).allows [] action) :
    Confined within (perform action) := by
  intro past
  have allowedNow : (confinement within).allows past action := allowed
  exact meets_perform allowedNow fun _ _ => trivial

theorem confined_perform_bind {action : Action}
    {next : action.Answer → Lookup α}
    (allowed : (confinement within).allows [] action)
    (goesOn : ∀ answer, Confined within (next answer)) :
    Confined within (perform action >>= next) :=
  (confined_perform allowed).bind goesOn

theorem confined_of_isFree {action : Action} (free : action.isFree = true) :
    Confined within (perform action) := by
  apply confined_perform
  cases action with
  | enter name => cases free
  | _ => trivial

theorem confined_pure (value : α) : Confined within (pure value) :=
  fun _ => trivial

theorem confined_throw (stop : Stop) :
    Confined within (throw stop : Lookup α) :=
  fun _ => trivial

theorem Confined.noted {kind : LookupKind} {name : TypeName}
    {lookup : Lookup Descriptor} (confined : Confined within lookup) :
    Confined within (noted kind name lookup) := by
  intro past
  apply Meets.noted trivial
  apply (confined _).mono
  intro _ _ _
  exact ⟨trivial, trivial⟩

def BuildsConfined (within : TypeName → Prop) (build : Builder) : Prop :=
  ∀ name identity, within name → Confined within (build name identity)

variable {agent : Agent} {build : Builder} {name : TypeName}

theorem getNested_confined (builds : BuildsConfined within build)
    (member : within name) : Confined within (getNested build name) := by
  apply Confined.noted
  refine confined_perform_bind member fun found => ?_
  cases found with
  | present identity builder isPublished => exact confined_pure _
  | made identity =>
    apply (builds name identity member).bind
    intro _
    exact confined_pure _

theorem getByName_confined (builds : BuildsConfined within build)
    (member : within name) : Confined within (getByName agent build name) := by
  apply Confined.noted
  refine confined_perform_bind member fun found => ?_
  cases found with
  | present identity builder isPublished =>
    dsimp only
    split
    · exact confined_throw _
    · refine confined_perform_bind trivial fun _ => ?_
      refine confined_perform_bind trivial fun _ => ?_
      exact confined_pure _
  | made identity =>
    refine confined_perform_bind trivial fun _ => ?_
    apply (builds name identity member).bind
    intro _
    exact confined_pure _

theorem find_confined {lookup : Lookup Descriptor}
    (confined : Confined within lookup) : Confined within (find lookup) := by
  refine confined.attempt_bind ?_
  rintro ((error | crash | name | _) | descriptor)
  · exact confined_pure _
  · exact confined_throw _
  · exact confined_throw _
  · exact confined_throw _
  · exact confined_perform_bind trivial fun _ => confined_pure _

theorem confined_congruence (agent : Agent)
    (builds : BuildsConfined within build) :
    Congruence agent within build build
      fun lookup _ => Confined within lookup where
  pure := confined_pure
  throw _ := confined_throw _
  bind := Confined.bind
  perform free := confined_of_isFree free
  find := find_confined
  nested := getNested_confined builds
  topLevel := getByName_confined builds
  attend asks second :=
    (getByName_confined builds asks).bind fun base =>
      confined_perform_bind trivial (second base)

end Lookup

namespace Assembly

def Confined (within : TypeName → Prop) (assembling : Assembling Procedure α) :
    Prop :=
  ∀ past body,
    Meets (confinement within) (fun _ _ _ => True) assembling past body

theorem Confined.bind {assembling : Assembling Procedure α}
    {next : α → Assembling Procedure β}
    (confined : Confined within assembling)
    (goesOn : ∀ value, Confined within (next value)) :
    Confined within (assembling >>= next) := by
  intro past body
  apply Meets.bind
  apply (confined past body).mono
  rintro later (stop | value) left _
  · trivial
  · exact goesOn value later left

theorem confined_pure (value : α) : Confined within (pure value) :=
  fun _ _ => trivial

theorem confined_modify (change : Body → Body) :
    Confined within (modify change) :=
  fun _ _ => trivial

theorem confined_lift {lookup : Lookup α}
    (confined : Lookup.Confined within lookup) :
    Confined within (lift lookup) :=
  fun past _ => Meets.lift (confined past)

theorem confined_congruence :
    Congruence fun step _ => Confined within step where
  pure := confined_pure
  modifies _ := confined_modify _
  bind := Confined.bind

end Assembly

namespace Lookup

variable {agent : Agent} {build : Builder} {name : TypeName}

theorem assembly_confined (builds : BuildsConfined within build)
    (closed : ∀ other, agent.sources.AsksFor name other → within other) :
    ∀ past, Assembly.Meets (confinement within) (fun _ _ _ => True)
      (assembly agent build name) past (Body.blank name) := by
  intro past
  have lookups := confined_congruence agent builds
  have steps := @Assembly.confined_congruence within
  obtain ⟨outcome, parts, outlined, _⟩ :=
    Assembly.outline_runFree agent.sources name
  have outlines : Assembly.Meets (confinement within)
      (fun _ given left => given = outcome ∧
        left = { Body.blank name with parts })
      (Assembly.liftOutline (Assembly.outline agent.sources name)) past
      (Body.blank name) := by
    cases outlined
    exact ⟨rfl, rfl⟩
  unfold assembly Assembly.assemble
  apply Assembly.Meets.bind
  apply outlines.mono
  rintro later given left ⟨same, blank⟩
  rw [same, blank]
  -- The rest asks for what the outline refers to, and what the script does.
  rcases outcome with stop | ⟨facts, hasImplementation⟩
  · trivial
  · have ended := congrArg Prod.fst outlined
    have named : facts.name = name :=
      Provider.name_eq_of_known? (Assembly.outline_gives _ name _ _ ended)
    have refers := Assembly.refers_iff_of_outline outlined
    have references (expression : TypeExpr)
        (member : expression ∈ Assembly.holdings agent.sources facts ++
          Assembly.judgedTypes agent.sources facts hasImplementation) :
        Assembly.Confined within
          (Assembly.lift (takeReference build expression)) := by
      apply Assembly.confined_lift
      refine lookups.takeReference fun other named => closed other (.inl ?_)
      exact (refers other).2 (Assembly.mem_requested member named)
    have introspects : Assembly.Confined within (Assembly.lift
        (followScript agent build facts hasImplementation
          ((agent.sources.scripts.get? facts.name).getD []))) := by
      apply Assembly.confined_lift
      rw [named]
      exact lookups.followScript facts hasImplementation fun other asked =>
        closed other (.inr asked)
    exact steps.completion_keeps references introspects
      (fun _ => Assembly.confined_modify _) later _

theorem buildWith_confined (builds : BuildsConfined within build)
    (closed : ∀ other, agent.sources.AsksFor name other → within other)
    (identity : Nat) :
    Confined within (buildWith agent build name identity) := by
  refine confined_perform_bind trivial fun _ past => ?_
  apply Meets.lift_bind
  apply Procedure.Meets.mono (assembly_confined builds closed past)
  rintro later ⟨outcome, body⟩ _
  cases outcome with
  | ok _ =>
    have publishes : Confined within (do
        publish name identity body
        perform (.recordBuild false)) :=
      confined_perform_bind trivial fun _ => confined_perform trivial
    exact publishes later
  | error stop =>
    cases failure : Stop.failure? stop with
    | none =>
      simp only [failure]
      exact confined_throw _ later
    | some error =>
      simp only [failure]
      have publishes : Confined within (do
          publish name identity { body with failure? := some error.message }
          perform (.recordBuild true)
          (fail (.initialization name error.message) : Lookup Unit)) :=
        confined_perform_bind trivial fun _ =>
          confined_perform_bind trivial fun _ => confined_throw _
      exact publishes later

theorem build_confined
    (closed : ∀ name other, within name → agent.sources.AsksFor name other →
      within other) (depth : Nat) :
    BuildsConfined within (Lookup.build agent depth) := by
  induction depth with
  | zero => exact fun _ _ _ => confined_throw _
  | succ depth ih =>
    intro name identity member
    exact buildWith_confined ih (closed name · member) identity

theorem builder_confined (agent : Agent)
    (closed : ∀ name other, within name → agent.sources.AsksFor name other →
      within other) :
    BuildsConfined within (builder agent) :=
  build_confined closed _

end Lookup

namespace Store

variable {store later : Store} {thread : ThreadId}

theorem exists_of_perform {action : Action} {answer : action.Answer}
    (performed : store.perform thread action = .ok (answer, later))
    {name : TypeName} {entry : Entry}
    (found : later.entries.get? name = some entry) :
    (∃ old, store.entries.get? name = some old) ∨ action = .enter name := by
  cases action with
  | enter asked =>
    simp only [perform] at performed
    split at performed
    · cases performed
      exact .inl ⟨entry, found⟩
    · cases performed
      simp only [setEntry, useNumber, NameMap.get?_insert] at found
      split at found
      next same => exact .inr (congrArg Action.enter same.symm)
      · exact .inl ⟨entry, found⟩
  | publish given identity body =>
    simp only [perform] at performed
    split at performed
    next old present =>
      cases performed
      simp only [setEntry, NameMap.get?_insert] at found
      split at found
      next same =>
        subst same
        exact .inl ⟨old, (entryFor?_eq_some.1 present).1⟩
      · exact .inl ⟨entry, found⟩
    · cases performed
      exact .inl ⟨entry, found⟩
  | await descriptor =>
    simp only [perform] at performed
    split at performed
    · cases performed
      exact .inl ⟨entry, found⟩
    · cases performed
  | keepTarget slot target =>
    simp only [perform] at performed
    split at performed
    · cases performed
      exact .inl ⟨entry, found⟩
    · cases performed
      exact .inl ⟨entry, found⟩
  | _ =>
    cases performed
    exact .inl ⟨entry, found⟩

theorem exists_of_run {ensures : Past → α → Prop} {procedure : Procedure α}
    {past : Past} {name : TypeName} {entry : Entry}
    (meets : procedure.Meets (confinement within) ensures past)
    (found : (procedure.run thread store).store.entries.get? name =
      some entry) :
    (∃ old, store.entries.get? name = some old) ∨ within name := by
  induction procedure generalizing store past with
  | done value => exact .inl ⟨entry, found⟩
  | act action next ih =>
    obtain ⟨allowed, goesOn⟩ := meets
    cases performed : store.perform thread action with
    | error descriptor =>
      simp only [Procedure.run, performed] at found
      exact .inl ⟨entry, found⟩
    | ok result =>
      obtain ⟨answer, later⟩ := result
      simp only [Procedure.run, performed] at found
      rcases ih answer (goesOn answer trivial) found with
        ⟨middle, present⟩ | member
      · rcases exists_of_perform performed present with before | rfl
        · exact .inl before
        · exact .inr allowed
      · exact .inr member

def IsConfined (within : TypeName → Prop) (store : Store) : Prop :=
  ∀ name entry, store.entries.get? name = some entry → within name

theorem IsConfined.run {ensures : Past → α → Prop} {procedure : Procedure α}
    {past : Past} (confined : store.IsConfined within)
    (meets : procedure.Meets (confinement within) ensures past) :
    (procedure.run thread store).store.IsConfined within := by
  intro name entry found
  rcases exists_of_run meets found with ⟨old, before⟩ | member
  · exact confined name old before
  · exact member

end Store

end TypeAtlas
