import TypeAtlas.Proofs.Registry.Company

/-!
# The bound on depth

A lookup with fewer levels of builds does what one with more levels does, up to
where it is cut off at the bound; from there on it notes that and ends.  So a
bound that is not reached makes no difference.
-/

namespace TypeAtlas

open Lookup

namespace Procedure

/-- Whether a procedure makes notes only, and then ends in a value of a kind. -/
inductive GivesUp (cut : α → Prop) : Procedure α → Prop where
  | done {value : α} (isCut : cut value) : GivesUp cut (.done value)
  | mark {mark : Mark} {next : Unit → Procedure α}
    (rest : GivesUp cut (next ())) : GivesUp cut (.act (.mark mark) next)

/-- Whether a procedure does the same as another one until it gives up. -/
inductive Cuts (cut : α → Prop) : Procedure α → Procedure α → Prop where
  | givesUp {procedure other : Procedure α} (ends : GivesUp cut procedure) :
    Cuts cut procedure other
  | done (value : α) : Cuts cut (.done value) (.done value)
  | act {action : Action} {next goesOn : action.Answer → Procedure α}
    (rest : ∀ answer, Cuts cut (next answer) (goesOn answer)) :
    Cuts cut (.act action next) (.act action goesOn)

variable {cut : α → Prop} {cutLater : β → Prop}
  {procedure other : Procedure α}

theorem Cuts.refl (cut : α → Prop) (procedure : Procedure α) :
    Cuts cut procedure procedure := by
  induction procedure with
  | done value => exact .done value
  | act action next ih => exact .act ih

theorem GivesUp.bind {next : α → Procedure β} (givesUp : GivesUp cut procedure)
    (ends : ∀ value, cut value → GivesUp cutLater (next value)) :
    GivesUp cutLater (procedure >>= next) := by
  induction givesUp with
  | done isCut => exact ends _ isCut
  | mark _ ih => exact .mark ih

theorem Cuts.bind {next goesOn : α → Procedure β}
    (cuts : Cuts cut procedure other)
    (ends : ∀ value, cut value → GivesUp cutLater (next value))
    (rest : ∀ value, Cuts cutLater (next value) (goesOn value)) :
    Cuts cutLater (procedure >>= next) (other >>= goesOn) := by
  induction cuts with
  | givesUp gaveUp => exact .givesUp (gaveUp.bind ends)
  | done value => exact rest value
  | act _ ih => exact .act ih

variable {thread : ThreadId}

theorem GivesUp.runAmong (givesUp : GivesUp cut procedure)
    (company : Company thread) (past : Past) (store : Store) :
    ∃ value, (procedure.runAmong company past store).outcome = .ok value ∧
      cut value := by
  induction givesUp generalizing past store with
  | done isCut => exact ⟨_, rfl, isCut⟩
  | mark _ ih => exact ih _ _

/-- What is not cut off goes as what has more levels. -/
theorem Cuts.runAmong (cuts : Cuts cut procedure other)
    (company : Company thread) (past : Past) (store : Store) :
    (∃ value, (procedure.runAmong company past store).outcome = .ok value ∧
        cut value) ∨
      other.runAmong company past store =
        procedure.runAmong company past store := by
  induction cuts generalizing past store with
  | givesUp gaveUp => exact .inl (gaveUp.runAmong company past store)
  | done value => exact .inr rfl
  | @act action next goesOn _ ih =>
    rw [Procedure.runAmong, Procedure.runAmong]
    cases (company.act past store).perform thread action with
    | error descriptor => exact .inr rfl
    | ok result =>
      obtain ⟨answer, later⟩ := result
      rcases ih answer (⟨action, answer⟩ :: past) later with cutOff | same
      · exact .inl cutOff
      · exact .inr (by simp only [same])

end Procedure

namespace Lookup

variable {agent : Agent} {build other : Builder}

def Cuts (lookup another : Lookup α) : Prop :=
  Procedure.Cuts (· = .error .exhausted) (ExceptT.run lookup)
    (ExceptT.run another)

theorem Cuts.refl (lookup : Lookup α) : Cuts lookup lookup :=
  Procedure.Cuts.refl _ _

theorem Cuts.bind {lookup another : Lookup α} {next goesOn : α → Lookup β}
    (cuts : Cuts lookup another)
    (rest : ∀ value, Cuts (next value) (goesOn value)) :
    Cuts (lookup >>= next) (another >>= goesOn) := by
  refine Procedure.Cuts.bind cuts ?_ ?_
  · rintro _ rfl
    exact .done rfl
  · rintro (stop | value)
    · exact .done _
    · exact rest value

theorem Cuts.lift_bind {cut : α → Prop} {procedure another : Procedure α}
    {next goesOn : α → Lookup β}
    (cuts : procedure.Cuts cut another)
    (ends : ∀ value, cut value →
      Procedure.GivesUp (· = .error .exhausted) (ExceptT.run (next value)))
    (rest : ∀ value, Cuts (next value) (goesOn value)) :
    Cuts (ExceptT.lift procedure >>= next)
      (ExceptT.lift another >>= goesOn) := by
  unfold Cuts
  rw [ExceptT.run_bind_lift, ExceptT.run_bind_lift]
  exact cuts.bind ends rest

theorem Cuts.noted {kind : LookupKind} {name : TypeName}
    {lookup another : Lookup Descriptor} (cuts : Cuts lookup another) :
    Cuts (noted kind name lookup) (noted kind name another) := by
  refine (Cuts.refl _).bind fun _ => ?_
  refine Cuts.lift_bind cuts ?_ fun _ => .refl _
  rintro _ rfl
  exact .mark (.done rfl)

theorem find_cuts {lookup another : Lookup Descriptor}
    (cuts : Cuts lookup another) : Cuts (find lookup) (find another) := by
  refine Cuts.lift_bind cuts ?_ fun _ => .refl _
  rintro _ rfl
  exact .done rfl

def BuildsCut (build other : Builder) : Prop :=
  ∀ name identity, Cuts (build name identity) (other name identity)

theorem getNested_cuts (builds : BuildsCut build other) (name : TypeName) :
    Cuts (getNested build name) (getNested other name) := by
  refine Cuts.noted ((Cuts.refl _).bind fun found => ?_)
  cases found with
  | made identity => exact (builds name identity).bind fun _ => .refl _
  | present identity builder isPublished => exact .refl _

theorem getByName_cuts (builds : BuildsCut build other) (name : TypeName) :
    Cuts (getByName agent build name) (getByName agent other name) := by
  refine Cuts.noted ((Cuts.refl _).bind fun found => ?_)
  cases found with
  | made identity =>
    refine (Cuts.refl _).bind fun _ => ?_
    exact (builds name identity).bind fun _ => .refl _
  | present identity builder isPublished => exact .refl _

theorem cuts_congruence (agent : Agent) (builds : BuildsCut build other) :
    Congruence agent (fun _ => True) build other Cuts where
  pure _ := .refl _
  throw _ := .refl _
  bind := Cuts.bind
  perform _ := .refl _
  find := find_cuts
  nested _ := getNested_cuts builds _
  topLevel _ := getByName_cuts builds _
  attend _ rest := (getByName_cuts builds _).bind fun base =>
    (Cuts.refl _).bind fun body => rest base body

end Lookup

namespace Assembly

variable {agent : Agent} {build other : Builder}

def Cuts (step another : Assembling Procedure α) : Prop :=
  ∀ body, Procedure.Cuts (fun result => result.1 = .error .exhausted)
    ((ExceptT.run step).run body) ((ExceptT.run another).run body)

theorem Cuts.refl (step : Assembling Procedure α) : Cuts step step :=
  fun _ => Procedure.Cuts.refl _ _

theorem Cuts.bind {step another : Assembling Procedure α}
    {next goesOn : α → Assembling Procedure β} (cuts : Cuts step another)
    (rest : ∀ value, Cuts (next value) (goesOn value)) :
    Cuts (step >>= next) (another >>= goesOn) := by
  intro body
  refine Procedure.Cuts.bind (cuts body) ?_ ?_
  · rintro ⟨_, left⟩ rfl
    exact .done rfl
  · rintro ⟨stop | value, left⟩
    · exact .done _
    · exact rest value left

theorem cuts_congruence : Congruence Cuts where
  pure _ := .refl _
  modifies _ := .refl _
  bind := Cuts.bind

theorem cuts_lift {lookup another : Lookup α}
    (cuts : Lookup.Cuts lookup another) :
    Cuts (lift lookup) (lift another) := by
  intro body
  refine Procedure.Cuts.bind cuts ?_ fun _ => .refl _ _
  rintro _ rfl
  exact .done rfl

theorem assembly_cuts (builds : BuildsCut build other) (name : TypeName) :
    Cuts (assembly agent build name) (assembly agent other name) := by
  have lookups := Lookup.cuts_congruence agent builds
  refine (Cuts.refl _).bind ?_
  rintro ⟨facts, hasImplementation⟩
  refine cuts_congruence.completion _ _ (fun _ _ => cuts_lift ?_)
    (cuts_lift ?_) fun _ => .refl _
  · exact lookups.takeReference fun _ _ => trivial
  · exact lookups.followScript facts hasImplementation fun _ _ => trivial

end Assembly

namespace Lookup

variable {agent : Agent} {build other : Builder}

theorem buildWith_cuts (builds : BuildsCut build other) :
    BuildsCut (buildWith agent build) (buildWith agent other) := by
  intro name identity
  refine (Cuts.refl _).bind fun _ => ?_
  refine Cuts.lift_bind
    (Assembly.assembly_cuts builds name (Body.blank name)) ?_ fun _ => .refl _
  rintro ⟨_, left⟩ rfl
  exact .done rfl

/-- More levels make a difference only where builds are cut off. -/
theorem build_cuts (agent : Agent) (depth more : Nat) :
    BuildsCut (Lookup.build agent depth)
      (Lookup.build agent (depth + more)) := by
  induction depth with
  | zero => exact fun _ _ => .givesUp (.done rfl)
  | succ depth ih =>
    rw [Nat.add_right_comm]
    exact buildWith_cuts ih

theorem request_cuts (agent : Agent) (operation : Operation)
    (depth more : Nat) :
    Cuts (operation.request agent (Lookup.build agent depth))
      (operation.request agent (Lookup.build agent (depth + more))) :=
  (cuts_congruence agent (build_cuts agent depth more)).request operation
    fun _ _ => trivial

end Lookup

end TypeAtlas
