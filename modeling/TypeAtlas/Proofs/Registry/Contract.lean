import TypeAtlas.Registry.Basic

/-!
# Contracts of procedures

A contract says what a thread may do after all that it has done, and what it
may rely on in the answers that it gets.  A procedure meets a contract when each
of its actions is allowed, however the answers turn out that the contract
promises.  Contracts speak of one thread only.  That the store keeps the
promises, whatever other threads do in between, is shown elsewhere once and for
all procedures.
-/

namespace TypeAtlas

/-- Whether a lookup is refused, and not cut off. -/
def Stop.IsError : Stop → Prop
  | .error _ => True
  | _ => False

/-- Whether a lookup is refused since an assembly inside it failed. -/
def Stop.IsInitialization : Stop → Prop
  | .error (.initialization _ _) => True
  | _ => False

theorem Stop.IsInitialization.isError {stop : Stop}
    (failed : stop.IsInitialization) : stop.IsError := by
  cases stop with
  | error _ => trivial
  | _ => exact failed.elim

/-- Whether an assembly fails, by an error or by a crash. -/
def Stop.IsFailure : Stop → Prop
  | .error _ | .crash _ => True
  | _ => False

theorem Stop.IsError.isFailure {stop : Stop} (error : stop.IsError) :
    stop.IsFailure := by
  cases stop with
  | error _ => trivial
  | _ => exact error.elim

/-- Whether a lookup came to an answer: a value, or an error. -/
def Answers : Except Stop α → Prop
  | .ok _ => True
  | .error stop => stop.IsError

/-- Whether an assembly ended: with a value, an error, or a crash. -/
def Concludes : Except Stop α → Prop
  | .ok _ => True
  | .error stop => stop.IsFailure

theorem Answers.concludes {outcome : Except Stop α}
    (answers : Answers outcome) : Concludes outcome := by
  cases outcome with
  | ok value => trivial
  | error stop => exact Stop.IsError.isFailure answers

/-- An entry that is not reserved for a thread may be waited for by it. -/
theorem isPublished_or_ne {isPublished : Bool} {builder thread : ThreadId}
    (unreserved : ¬ (!isPublished && builder == thread) = true) :
    isPublished = true ∨ builder ≠ thread := by
  cases isPublished with
  | true => exact .inl rfl
  | false => exact .inr (by simpa using unreserved)

/-- What a thread has done so far, the latest deed first. -/
abbrev Past := List Deed

/-- What a thread may do, and what it may rely on. -/
structure Contract where
  allows : Past → Action → Prop
  promises : Past → Deed → Prop

namespace Past

/-- Whether every deed of a past was allowed when it was done. -/
def Lawful (contract : Contract) : Past → Prop
  | [] => True
  | deed :: past => contract.allows past deed.action ∧ Lawful contract past

variable {contract : Contract} {past : Past}

theorem Lawful.of_suffix {earlier : Past} (lawful : Lawful contract past)
    (suffix : earlier <:+ past) : Lawful contract earlier := by
  obtain ⟨later, rfl⟩ := suffix
  induction later with
  | nil => exact lawful
  | cons deed later ih => exact ih lawful.2

/-- A deed of a lawful past was allowed by what was done before it. -/
theorem Lawful.allowed (lawful : Lawful contract past) {deed : Deed}
    (member : deed ∈ past) :
    ∃ later earlier, past = later ++ deed :: earlier ∧
      contract.allows earlier deed.action := by
  obtain ⟨later, earlier, rfl⟩ := List.append_of_mem member
  have begun := lawful.of_suffix (List.suffix_append later (deed :: earlier))
  exact ⟨later, earlier, rfl, begun.1⟩

end Past

namespace Procedure

variable {contract : Contract} {past : Past}

/-- A procedure meets a contract and ensures something at its end. -/
def Meets (contract : Contract) (ensures : Past → α → Prop) :
    Procedure α → Past → Prop
  | .done value, past => ensures past value
  | .act action next, past =>
    contract.allows past action ∧
      ∀ answer, contract.promises past ⟨action, answer⟩ →
        (next answer).Meets contract ensures (⟨action, answer⟩ :: past)

theorem Meets.bind {ensures : Past → β → Prop} {procedure : Procedure α}
    {next : α → Procedure β}
    (meets : procedure.Meets contract
      (fun later value => (next value).Meets contract ensures later) past) :
    (procedure >>= next).Meets contract ensures past := by
  induction procedure generalizing past with
  | done value => exact meets
  | act action rest ih =>
    exact ⟨meets.1, fun answer promised => ih answer (meets.2 answer promised)⟩

theorem Meets.weaken {ensures weaker : Past → α → Prop}
    {procedure : Procedure α} (meets : procedure.Meets contract ensures past)
    (implies : ∀ deeds value,
      ensures (deeds ++ past) value → weaker (deeds ++ past) value) :
    procedure.Meets contract weaker past := by
  induction procedure generalizing past with
  | done value => exact implies [] value meets
  | act action rest ih =>
    refine ⟨meets.1, fun answer promised => ?_⟩
    refine ih answer (meets.2 answer promised) fun deeds value ensured => ?_
    have further := implies (deeds ++ [⟨action, answer⟩]) value
    simp only [List.append_assoc, List.singleton_append] at further
    exact further ensured

theorem Meets.mono {ensures weaker : Past → α → Prop}
    {procedure : Procedure α} (meets : procedure.Meets contract ensures past)
    (implies : ∀ later value, ensures later value → weaker later value) :
    procedure.Meets contract weaker past :=
  meets.weaken fun _ value => implies _ value

end Procedure

namespace Lookup

variable {contract : Contract} {past : Past}

def Meets (contract : Contract) (ensures : Past → Except Stop α → Prop)
    (lookup : Lookup α) (past : Past) : Prop :=
  Procedure.Meets contract ensures (ExceptT.run lookup) past

theorem Meets.mono {ensures weaker : Past → Except Stop α → Prop}
    {lookup : Lookup α} (meets : Meets contract ensures lookup past)
    (implies : ∀ later outcome, ensures later outcome → weaker later outcome) :
    Meets contract weaker lookup past :=
  Procedure.Meets.mono meets implies

theorem meets_pure {ensures : Past → Except Stop α → Prop} {value : α}
    (ensured : ensures past (.ok value)) :
    Meets contract ensures (pure value) past :=
  ensured

theorem meets_throw {ensures : Past → Except Stop α → Prop} {stop : Stop}
    (ensured : ensures past (.error stop)) :
    Meets contract ensures (throw stop) past :=
  ensured

def GoesOn (contract : Contract) (ensures : Past → Except Stop β → Prop)
    (next : α → Lookup β) (later : Past) : Except Stop α → Prop
  | .ok value => Meets contract ensures (next value) later
  | .error stop => ensures later (.error stop)

theorem Meets.bind {ensures : Past → Except Stop β → Prop}
    {lookup : Lookup α} {next : α → Lookup β}
    (meets : Meets contract (GoesOn contract ensures next) lookup past) :
    Meets contract ensures (lookup >>= next) past := by
  refine Procedure.Meets.bind (meets.mono fun later outcome ensured => ?_)
  cases outcome with
  | ok value => exact ensured
  | error stop => exact ensured

theorem meets_perform {action : Action}
    {ensures : Past → Except Stop action.Answer → Prop}
    (allowed : contract.allows past action)
    (ensured : ∀ answer, contract.promises past ⟨action, answer⟩ →
      ensures (⟨action, answer⟩ :: past) (.ok answer)) :
    Meets contract ensures (perform action) past :=
  ⟨allowed, ensured⟩

theorem meets_perform_bind {action : Action}
    {ensures : Past → Except Stop β → Prop} {next : action.Answer → Lookup β}
    (allowed : contract.allows past action)
    (meets : ∀ answer, contract.promises past ⟨action, answer⟩ →
      Meets contract ensures (next answer) (⟨action, answer⟩ :: past)) :
    Meets contract ensures (perform action >>= next) past :=
  Meets.bind (meets_perform allowed meets)

theorem Meets.lift_bind {ensures : Past → Except Stop β → Prop}
    {procedure : Procedure α} {next : α → Lookup β}
    (meets : procedure.Meets contract
      (fun later value => Meets contract ensures (next value) later) past) :
    Meets contract ensures (ExceptT.lift procedure >>= next) past := by
  have lifted : Meets contract (GoesOn contract ensures next)
      (ExceptT.lift procedure) past :=
    Procedure.Meets.bind meets
  exact lifted.bind

theorem Meets.attempt_bind {ensures : Past → Except Stop β → Prop}
    {lookup : Lookup α} {next : Except Stop α → Lookup β}
    (meets : Meets contract
      (fun later outcome => Meets contract ensures (next outcome) later)
      lookup past) :
    Meets contract ensures (attempt lookup >>= next) past :=
  Meets.lift_bind meets

theorem Meets.noted {ensures : Past → Except Stop Descriptor → Prop}
    {kind : LookupKind} {name : TypeName} {lookup : Lookup Descriptor}
    (mayAsk : contract.allows past (.mark (.asked kind name)))
    (meets : Meets contract
      (fun later outcome =>
        contract.allows later (.mark (.answered kind name outcome)) ∧
          ensures (⟨.mark (.answered kind name outcome), ()⟩ :: later) outcome)
      lookup (⟨.mark (.asked kind name), ()⟩ :: past)) :
    Meets contract ensures (noted kind name lookup) past := by
  refine meets_perform_bind mayAsk fun _ _ => ?_
  refine Meets.attempt_bind (meets.mono fun later outcome ensured => ?_)
  exact meets_perform_bind ensured.1 fun _ _ => ensured.2

end Lookup

namespace Assembly

variable {contract : Contract} {past : Past} {body : Body}

/-- A step of assembly meets a contract and ensures something of its outcome and
of the body that it leaves. -/
def Meets (contract : Contract)
    (ensures : Past → Except Stop α → Body → Prop)
    (assembling : Assembling Procedure α) (past : Past) (body : Body) : Prop :=
  Procedure.Meets contract
    (fun later (result : Except Stop α × Body) =>
      ensures later result.1 result.2)
    ((ExceptT.run assembling).run body) past

theorem Meets.weaken {ensures weaker : Past → Except Stop α → Body → Prop}
    {assembling : Assembling Procedure α}
    (meets : Meets contract ensures assembling past body)
    (implies : ∀ deeds outcome body,
      ensures (deeds ++ past) outcome body →
        weaker (deeds ++ past) outcome body) :
    Meets contract weaker assembling past body :=
  Procedure.Meets.weaken meets fun deeds result =>
    implies deeds result.1 result.2

theorem Meets.mono {ensures weaker : Past → Except Stop α → Body → Prop}
    {assembling : Assembling Procedure α}
    (meets : Meets contract ensures assembling past body)
    (implies : ∀ later outcome body,
      ensures later outcome body → weaker later outcome body) :
    Meets contract weaker assembling past body :=
  meets.weaken fun _ outcome body => implies _ outcome body

theorem meets_pure {ensures : Past → Except Stop α → Body → Prop} {value : α}
    (ensured : ensures past (.ok value) body) :
    Meets contract ensures (pure value) past body :=
  ensured

theorem meets_modify {ensures : Past → Except Stop Unit → Body → Prop}
    {change : Body → Body} (ensured : ensures past (.ok ()) (change body)) :
    Meets contract ensures (modify change) past body :=
  ensured

def GoesOn (contract : Contract)
    (ensures : Past → Except Stop β → Body → Prop)
    (next : α → Assembling Procedure β) (later : Past) :
    Except Stop α → Body → Prop
  | .ok value, body => Meets contract ensures (next value) later body
  | .error stop, body => ensures later (.error stop) body

theorem Meets.bind {ensures : Past → Except Stop β → Body → Prop}
    {assembling : Assembling Procedure α}
    {next : α → Assembling Procedure β}
    (meets : Meets contract (GoesOn contract ensures next)
      assembling past body) :
    Meets contract ensures (assembling >>= next) past body := by
  refine Procedure.Meets.bind
    (Procedure.Meets.mono meets fun later result ensured => ?_)
  obtain ⟨outcome, body⟩ := result
  cases outcome with
  | ok value => exact ensured
  | error stop => exact ensured

theorem Meets.lift {ensures : Past → Except Stop α → Body → Prop}
    {lookup : Lookup α}
    (meets : Lookup.Meets contract
      (fun later outcome => ensures later outcome body) lookup past) :
    Meets contract ensures (lift lookup) past body :=
  Procedure.Meets.bind meets

end Assembly

end TypeAtlas
