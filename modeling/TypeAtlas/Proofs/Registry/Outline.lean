import TypeAtlas.Proofs.Registry.Contract
import TypeAtlas.Proofs.Registry.Requests

/-!
# What an outline gives

The outline of a type comes from the sources alone.  It ends with facts that
the provider has in its table, or else with an error or a crash, and leaves the
verdict on beans open.
-/

namespace TypeAtlas

namespace Assembly

namespace Outlining

variable {parts : Parts}

/-- What an outline ensures of its outcome and of the parts that it leaves. -/
def Leaves (ensures : Except Stop α → Parts → Prop) (outlining : Outlining α)
    (parts : Parts) : Prop :=
  ensures ((ExceptT.run outlining).run parts).1
    ((ExceptT.run outlining).run parts).2

def GoesOn (ensures : Except Stop β → Parts → Prop)
    (next : α → Outlining β) : Except Stop α → Parts → Prop
  | .ok value, parts => Leaves ensures (next value) parts
  | .error stop, parts => ensures (.error stop) parts

theorem Leaves.mono {ensures weaker : Except Stop α → Parts → Prop}
    {outlining : Outlining α} (meets : Leaves ensures outlining parts)
    (implies : ∀ outcome parts, ensures outcome parts → weaker outcome parts) :
    Leaves weaker outlining parts :=
  implies _ _ meets

theorem Leaves.bind {ensures : Except Stop β → Parts → Prop}
    {outlining : Outlining α} {next : α → Outlining β}
    (meets : Leaves (GoesOn ensures next) outlining parts) :
    Leaves ensures (outlining >>= next) parts := by
  unfold Leaves at meets ⊢
  rw [ExceptT.run_bind]
  change ensures (StateT.run (m := Id) (_ >>= _) parts).1
    (StateT.run (m := Id) (_ >>= _) parts).2
  rw [StateT.run_bind]
  generalize (ExceptT.run outlining).run parts = result at meets ⊢
  obtain ⟨stop | value, left⟩ := result
  · exact meets
  · exact meets

def Undecided (parts : Parts) : Prop :=
  parts.bean = (Parts.blank "").bean

/-- Whether an outline ends as it should, with the verdict left open. -/
def Sound (holds : α → Prop) : Except Stop α → Parts → Prop
  | .ok value, parts => holds value ∧ Undecided parts
  | .error stop, parts => stop.IsFailure ∧ Undecided parts

theorem Sound.bind {holds : α → Prop} {holdsLater : β → Prop}
    {outlining : Outlining α} {next : α → Outlining β}
    (first : Leaves (Sound holds) outlining parts)
    (second : ∀ value parts, holds value → Undecided parts →
        Leaves (Sound holdsLater) (next value) parts) :
    Leaves (Sound holdsLater) (outlining >>= next) parts := by
  refine Leaves.bind (first.mono ?_)
  rintro (stop | value) left sound
  · exact sound
  · exact second value left sound.1 sound.2

theorem modify_sound {change : Parts → Parts}
    (keeps : (change parts).bean = parts.bean)
    (undecided : Undecided parts) :
    Leaves (Sound fun _ => True) (modify change) parts :=
  ⟨trivial, keeps.trans undecided⟩

def Gives (holds : α → Prop) (outlining : Outlining α) : Prop :=
  ∀ parts, Leaves (fun outcome _ => ∀ value, outcome = .ok value → holds value)
    outlining parts

theorem gives_any (outlining : Outlining α) :
    Gives (fun _ => True) outlining :=
  fun _ _ _ => trivial

theorem Gives.bind {holds : α → Prop} {holdsLater : β → Prop}
    {outlining : Outlining α} {next : α → Outlining β}
    (gives : Gives holds outlining)
    (goesOn : ∀ value, holds value → Gives holdsLater (next value)) :
    Gives holdsLater (outlining >>= next) := by
  intro parts
  apply Leaves.bind
  refine (gives parts).mono ?_
  rintro (stop | value) left held
  · intro _ same
    cases same
  · exact goesOn value (held value rfl) left

end Outlining

open Outlining

variable {parts : Parts} {sources : Sources} {name : TypeName}

theorem crashOn_sound (crash? : Option Crash)
    (undecided : Undecided parts) :
    Leaves (Sound fun _ => True) (crashOn crash?) parts := by
  cases crash? with
  | none => exact ⟨trivial, undecided⟩
  | some crash => exact ⟨trivial, undecided⟩

theorem requestFacts_sound (provider : Provider)
    (undecided : Undecided parts) :
    Leaves (Sound fun facts => facts ∈ provider.table.types.values)
      (requestFacts provider name) parts := by
  refine Sound.bind (crashOn_sound _ undecided) fun _ parts _ undecided => ?_
  cases given : provider.facts name with
  | error error => exact ⟨trivial, undecided⟩
  | ok facts =>
    refine ⟨?_, undecided⟩
    unfold Provider.facts at given
    split at given
    · cases given
    split at given
    next found =>
      cases given
      exact NameMap.mem_values_of_get? found
    · cases given

theorem bindingsOf_sound (facts : TypeFacts) (ancestors : List TypeName)
    (undecided : Undecided parts) :
    Leaves (Sound fun _ => True) (bindingsOf sources facts ancestors)
      parts := by
  unfold bindingsOf
  cases sources.transforms.bindingsFor facts ancestors with
  | error error => exact ⟨trivial, undecided⟩
  | ok bindings => exact ⟨trivial, undecided⟩

theorem requestImplementation_sound (undecided : Undecided parts) :
    Leaves (Sound fun _ => True) (requestImplementation sources name)
      parts := by
  unfold requestImplementation
  cases sources.config.implementations.get? name with
  | none => exact ⟨trivial, undecided⟩
  | some implementation =>
    refine Sound.bind (modify_sound rfl undecided) fun _ _ _ undecided => ?_
    exact Sound.bind (requestFacts_sound _ undecided)
      fun _ _ _ undecided => ⟨trivial, undecided⟩

/-- An outline gives facts that stand in the table, or it fails. -/
theorem outline_sound :
    Leaves (Sound fun (facts, _) => facts ∈ sources.provider.table.types.values)
      (outline sources name) (Parts.blank name) := by
  refine Sound.bind (requestFacts_sound _ rfl) fun facts _ known undecided => ?_
  refine Sound.bind (modify_sound rfl undecided) fun _ _ _ undecided => ?_
  refine Sound.bind (crashOn_sound _ undecided) fun _ _ _ undecided => ?_
  refine Sound.bind (modify_sound rfl undecided) fun _ _ _ undecided => ?_
  refine Sound.bind (modify_sound rfl undecided) fun _ _ _ undecided => ?_
  refine Sound.bind (bindingsOf_sound facts _ undecided)
    fun bindings _ _ undecided => ?_
  refine Sound.bind (crashOn_sound _ undecided) fun _ parts _ undecided => ?_
  refine Sound.bind (requestImplementation_sound undecided)
    fun _ _ _ undecided => ?_
  refine Sound.bind (crashOn_sound _ undecided) fun _ _ _ undecided => ?_
  refine Sound.bind (modify_sound rfl undecided) fun _ _ _ undecided => ?_
  exact ⟨known, undecided⟩

theorem requestFacts_gives (provider : Provider) (name : TypeName) :
    Gives (fun facts => provider.known? name = some facts)
      (requestFacts provider name) := by
  intro parts outcome
  unfold requestFacts Provider.crash? Provider.facts Provider.known?
  cases provider.disruptions.get? name with
  | none =>
    cases provider.table.get? name with
    | none => rintro ⟨⟩
    | some facts =>
      rintro ⟨⟩
      rfl
  | some disruption => cases disruption <;> rintro ⟨⟩

theorem outline_gives (sources : Sources) (name : TypeName) :
    Gives (fun (facts, _) => sources.provider.known? name = some facts)
      (outline sources name) := by
  refine (requestFacts_gives _ name).bind fun facts known => ?_
  refine (gives_any _).bind fun _ _ => ?_
  refine (gives_any _).bind fun _ _ => ?_
  refine (gives_any _).bind fun _ _ => ?_
  refine (gives_any _).bind fun _ _ => ?_
  refine (gives_any _).bind fun _ _ => ?_
  refine (gives_any _).bind fun _ _ => ?_
  refine (gives_any _).bind fun _ _ => ?_
  refine (gives_any _).bind fun _ _ => ?_
  refine (gives_any _).bind fun _ _ parts => ?_
  intro _ same
  cases same
  exact known

end Assembly

end TypeAtlas
