import TypeAtlas.Proofs.Registry.Ledger

/-!
# Keeping a ledger

A procedure upholds the ledger when each of its actions, at whatever later time
it is done, leaves the ledger in order.  Each action of a store has a rule that
says what it needs to have been recorded, and what is recorded from then on.
-/

namespace TypeAtlas

/-- Whether what a ledger tells of a value is told by all later ones. -/
def Persists (holds : Ledger → α → Prop) : Prop :=
  ∀ ledger later value, Ledger.Within ledger later → holds ledger value →
    holds later value

namespace Procedure

/-- A procedure of a thread upholds a ledger, and ensures something at its end.
It comes to its end if it is not said that it may wait. -/
def Upholds (thread : ThreadId) (waits : Prop)
    (ensures : Ledger → α → Prop) : Procedure α → Ledger → Prop
  | .done value, ledger => ensures ledger value
  | .act action next, ledger => ∀ current, ledger.Within current →
    (waits ∨ ∃ result, current.store.perform thread action = .ok result) ∧
      ∀ answer store,
        current.store.perform thread action = .ok (answer, store) →
          ∃ later : Ledger, current.Within later ∧ later.store = store ∧
            (next answer).Upholds thread waits ensures later

variable {thread : ThreadId} {waits : Prop} {ledger : Ledger}

theorem Upholds.bind {ensures : Ledger → β → Prop} {procedure : Procedure α}
    {next : α → Procedure β}
    (upholds : procedure.Upholds thread waits
      (fun later value => (next value).Upholds thread waits ensures later)
      ledger) :
    (procedure >>= next).Upholds thread waits ensures ledger := by
  induction procedure generalizing ledger with
  | done value => exact upholds
  | act action rest ih =>
    intro current grows
    obtain ⟨goes, does⟩ := upholds current grows
    refine ⟨goes, fun answer store performed => ?_⟩
    obtain ⟨later, further, same, upheld⟩ := does answer store performed
    exact ⟨later, further, same, ih answer upheld⟩

theorem Upholds.weaken {ensures weaker : Ledger → α → Prop}
    {procedure : Procedure α}
    (upholds : procedure.Upholds thread waits ensures ledger)
    (implies : ∀ later value, ledger.Within later → ensures later value →
      weaker later value) :
    procedure.Upholds thread waits weaker ledger := by
  induction procedure generalizing ledger with
  | done value => exact implies ledger value (Records.Within.refl _) upholds
  | act action rest ih =>
    intro current grows
    obtain ⟨goes, does⟩ := upholds current grows
    refine ⟨goes, fun answer store performed => ?_⟩
    obtain ⟨later, further, same, upheld⟩ := does answer store performed
    refine ⟨later, further, same, ih answer upheld ?_⟩
    intro latest value furthest
    exact implies latest value (grows.trans (further.trans furthest))

theorem Upholds.later {ensures : Ledger → α → Prop} {procedure : Procedure α}
    {later : Ledger} (persists : Persists ensures)
    (upholds : procedure.Upholds thread waits ensures ledger)
    (grows : ledger.Within later) :
    procedure.Upholds thread waits ensures later := by
  cases procedure with
  | done value => exact persists ledger later value grows upholds
  | act action rest =>
    intro current further
    exact upholds current (grows.trans further)

/-- A procedure that runs while no other thread acts leaves a ledger. -/
theorem Upholds.run {ensures : Ledger → α → Prop} {procedure : Procedure α}
    (upholds : procedure.Upholds thread waits ensures ledger) :
    let run := procedure.run thread ledger.store
    ∃ later : Ledger, ledger.Within later ∧ later.store = run.store ∧
      (waits ∨ ∃ value, run.outcome = .ok value) ∧
        ∀ value, run.outcome = .ok value → ensures later value := by
  induction procedure generalizing ledger with
  | done value =>
    refine ⟨ledger, Records.Within.refl _, rfl, .inr ⟨value, rfl⟩, ?_⟩
    intro result same
    cases same
    exact upholds
  | act action rest ih =>
    obtain ⟨goes, does⟩ := upholds ledger (Records.Within.refl _)
    cases performed : ledger.store.perform thread action with
    | error descriptor =>
      simp only [Procedure.run, performed]
      refine ⟨ledger, Records.Within.refl _, rfl, goes.imp_right ?_, ?_⟩
      · rintro ⟨result, done⟩
        rw [performed] at done
        cases done
      · rintro _ ⟨⟩
    | ok result =>
      obtain ⟨answer, store⟩ := result
      obtain ⟨later, grows, same, upheld⟩ := does answer store performed
      obtain ⟨latest, further, ended⟩ := ih answer upheld
      simp only [Procedure.run, performed, ← same]
      exact ⟨latest, grows.trans further, ended⟩

end Procedure

namespace Lookup

variable {thread : ThreadId} {waits : Prop} {ledger : Ledger}

def Upholds (thread : ThreadId) (waits : Prop)
    (ensures : Ledger → Except Stop α → Prop) (lookup : Lookup α)
    (ledger : Ledger) : Prop :=
  Procedure.Upholds thread waits ensures (ExceptT.run lookup) ledger

def Gives (fails : Prop) (holds : Ledger → α → Prop) (ledger : Ledger) :
    Except Stop α → Prop
  | .ok value => holds ledger value
  | .error _ => fails

theorem persists_gives {fails : Prop} {holds : Ledger → α → Prop}
    (persists : Persists holds) : Persists (Gives fails holds) := by
  intro ledger later outcome grows held
  cases outcome with
  | ok value => exact persists ledger later value grows held
  | error stop => exact held

theorem Upholds.weaken {ensures weaker : Ledger → Except Stop α → Prop}
    {lookup : Lookup α} (upholds : Upholds thread waits ensures lookup ledger)
    (implies : ∀ later outcome, ledger.Within later → ensures later outcome →
      weaker later outcome) :
    Upholds thread waits weaker lookup ledger :=
  Procedure.Upholds.weaken upholds implies

theorem Upholds.bind {ensures : Ledger → Except Stop α → Prop}
    {ensuresLater : Ledger → Except Stop β → Prop}
    {lookup : Lookup α} {next : α → Lookup β}
    (upholds : Upholds thread waits ensures lookup ledger)
    (goesOn : ∀ value later, ledger.Within later → ensures later (.ok value) →
      Upholds thread waits ensuresLater (next value) later)
    (ends : ∀ stop later, ledger.Within later → ensures later (.error stop) →
      ensuresLater later (.error stop)) :
    Upholds thread waits ensuresLater (lookup >>= next) ledger := by
  apply Procedure.Upholds.bind
  refine upholds.weaken fun later outcome grows ensured => ?_
  cases outcome with
  | ok value => exact goesOn value later grows ensured
  | error stop => exact ends stop later grows ensured

theorem Upholds.gives_bind {fails : Prop} {holds : Ledger → α → Prop}
    {holdsLater : Ledger → β → Prop} {lookup : Lookup α}
    {next : α → Lookup β}
    (upholds : Upholds thread waits (Gives fails holds) lookup ledger)
    (goesOn : ∀ value later, ledger.Within later → holds later value →
      Upholds thread waits (Gives fails holdsLater) (next value) later) :
    Upholds thread waits (Gives fails holdsLater) (lookup >>= next) ledger :=
  upholds.bind goesOn fun _ _ _ failed => failed

theorem Upholds.surely_bind {holds : Ledger → α → Prop}
    {ensures : Ledger → Except Stop β → Prop} {lookup : Lookup α}
    {next : α → Lookup β}
    (upholds : Upholds thread waits (Gives False holds) lookup ledger)
    (goesOn : ∀ value later, ledger.Within later → holds later value →
      Upholds thread waits ensures (next value) later) :
    Upholds thread waits ensures (lookup >>= next) ledger :=
  upholds.bind goesOn fun _ _ _ failed => failed.elim

theorem Upholds.lift_bind {ensures : Ledger → α → Prop}
    {ensuresLater : Ledger → Except Stop β → Prop}
    {procedure : Procedure α} {next : α → Lookup β}
    (upholds : procedure.Upholds thread waits ensures ledger)
    (goesOn : ∀ value later, ledger.Within later → ensures later value →
      Upholds thread waits ensuresLater (next value) later) :
    Upholds thread waits ensuresLater (ExceptT.lift procedure >>= next)
      ledger := by
  have lifted : Upholds thread waits
      (fun later outcome => ∃ value, outcome = .ok value ∧ ensures later value)
      (ExceptT.lift procedure) ledger := by
    apply Procedure.Upholds.bind
    apply upholds.weaken
    intro later value _ ensured
    exact ⟨value, rfl, ensured⟩
  apply lifted.bind
  · rintro value later grows ⟨_, same, ensured⟩
    cases same
    exact goesOn value later grows ensured
  · rintro stop later _ ⟨_, same, _⟩
    cases same

theorem Upholds.attempt_bind {ensures : Ledger → Except Stop α → Prop}
    {ensuresLater : Ledger → Except Stop β → Prop} {lookup : Lookup α}
    {next : Except Stop α → Lookup β}
    (upholds : Upholds thread waits ensures lookup ledger)
    (goesOn : ∀ outcome later, ledger.Within later → ensures later outcome →
      Upholds thread waits ensuresLater (next outcome) later) :
    Upholds thread waits ensuresLater (attempt lookup >>= next) ledger :=
  Upholds.lift_bind upholds goesOn

end Lookup

/-- Whether an action leaves all that is recorded as it is. -/
def Action.IsQuiet : Action → Prop
  | .recordHit | .recordMiss | .recordBuild _ | .takeNumber | .look _
  | .report _ | .mark _ => True
  | _ => False

namespace Ledger

/-- The ledger with another store, in which the same is recorded. -/
theorem exists_of_same (ledger : Ledger) {store : Store}
    (entries : store.entries = ledger.store.entries)
    (targets : store.targets = ledger.store.targets)
    (fresh : ledger.store.fresh ≤ store.fresh) :
    ∃ later : Ledger, ledger.Within later ∧ later.store = store := by
  have grows : ledger.toRecords.Within { ledger.toRecords with store } := by
    refine ⟨.of_entries_eq entries, fun slot target kept => ?_,
      fun _ _ taken => taken⟩
    change store.targets.lookup slot = some target
    rw [targets]
    exact kept
  refine ⟨ledger.extend { ledger.toRecords with store } grows
    (fun name body published => .inl ?_) (fun slot target kept => .inl ?_)
    (fun slot above => ledger.unused slot (Nat.le_trans fresh above)), grows,
    rfl⟩
  · simpa only [Store.published?, entries] using published
  · simpa only [targets] using kept

/-- The ledger after a name was entered by a thread. -/
theorem exists_of_made (ledger : Ledger) (thread : ThreadId)
    {name : TypeName} (absent : ledger.store.entries.get? name = none) :
    ∃ later : Ledger, ledger.Within later ∧
      later.store = ledger.store.useNumber.setEntry name
        { identity := ledger.store.fresh, builder := thread } := by
  have grows : ledger.toRecords.Within { ledger.toRecords with
      store := ledger.store.useNumber.setEntry name
        { identity := ledger.store.fresh, builder := thread } } := by
    refine ⟨.of_insert rfl fun old found => ?_, fun _ _ kept => kept,
      fun _ _ taken => taken⟩
    rw [absent] at found
    cases found
  refine ⟨ledger.extend _ grows (fun other body published => ?_)
    (fun _ _ kept => .inl kept)
    (fun slot above => ledger.unused slot (Nat.le_of_succ_le above)), grows,
    rfl⟩
  obtain ⟨entry, found, given⟩ := Store.published?_eq_some.1 published
  simp only [Store.setEntry, NameMap.get?_insert] at found
  split at found
  · cases found
    cases given
  · exact .inl (Store.published?_eq_some.2 ⟨entry, found, given⟩)

/-- The ledger after the body of an entry was published. -/
theorem exists_of_published (ledger : Ledger) {name : TypeName}
    {entry : Entry} {body : Body}
    (present : ledger.store.entries.get? name = some entry)
    (covers : ledger.Covers body) :
    ∃ later : Ledger, ledger.Within later ∧
      later.store = ledger.store.setEntry name (entry.publish body) := by
  have grows : ledger.toRecords.Within { ledger.toRecords with
      store := ledger.store.setEntry name (entry.publish body) } := by
    refine ⟨.of_insert rfl fun old found => ?_, fun _ _ kept => kept,
      fun _ _ taken => taken⟩
    cases present.symm.trans found
    exact entry.within_publish body
  refine ⟨ledger.extend _ grows (fun other published told => ?_)
    (fun _ _ kept => .inl kept) ledger.unused, grows, rfl⟩
  obtain ⟨another, found, given⟩ := Store.published?_eq_some.1 told
  simp only [Store.setEntry, NameMap.get?_insert] at found
  split at found
  next same =>
    cases found
    cases same
    simp only [Entry.publish, Option.or_eq_some_iff] at given
    rcases given with before | ⟨_, now⟩
    · exact .inl (Store.published?_eq_some.2 ⟨entry, present, before⟩)
    · cases now
      exact .inr (covers.mono grows)
  · exact .inl (Store.published?_eq_some.2 ⟨another, found, given⟩)

/-- The ledger after a slot was taken for an expression. -/
theorem exists_of_taken (ledger : Ledger) {expression : TypeExpr}
    (caches : ∀ name ∈ expression.names, ledger.Caches name) :
    ∃ later : Ledger, ledger.Within later ∧
      later.store = ledger.store.useNumber ∧
        later.Backs ⟨expression, ledger.store.fresh⟩ := by
  have grows : ledger.toRecords.Within {
      store := ledger.store.useNumber
      wrapped := fun slot => if slot = ledger.store.fresh then some expression
        else ledger.wrapped slot } := by
    refine ⟨.of_entries_eq rfl, fun _ _ kept => kept,
      fun slot wrapped taken => ?_⟩
    have used : slot ≠ ledger.store.fresh := by
      rintro rfl
      rw [ledger.unused _ (Nat.le_refl _)] at taken
      cases taken
    simpa only [used, if_false] using taken
  refine ⟨ledger.extend _ grows (fun _ _ published => .inl published)
    (fun _ _ kept => .inl kept) (fun slot above => ?_), grows, rfl,
    fun name member => (caches name member).mono grows, if_pos rfl⟩
  have beyond : ledger.store.fresh < slot := above
  simp only [Nat.ne_of_gt beyond, if_false]
  exact ledger.unused slot (Nat.le_of_lt beyond)

/-- The ledger after a target was kept for a slot that had none. -/
theorem exists_of_kept (ledger : Ledger) {slot : Nat} {target : Descriptor}
    {expression : TypeExpr}
    (vacant : ledger.store.targets.lookup slot = none)
    (taken : ledger.wrapped slot = some expression)
    (resolves : ledger.Resolves expression target) :
    ∃ later : Ledger, ledger.Within later ∧
      later.store = ledger.store.keepTarget slot target := by
  have grows : ledger.toRecords.Within { ledger.toRecords with
      store := ledger.store.keepTarget slot target } := by
    refine ⟨.of_entries_eq rfl, fun other kept found => ?_,
      fun _ _ taken => taken⟩
    have different : other ≠ slot := by
      rintro rfl
      rw [vacant] at found
      cases found
    simpa only [Store.keepTarget, List.lookup_cons,
      beq_false_of_ne different] using found
  refine ⟨ledger.extend _ grows (fun _ _ published => .inl published)
    (fun other kept found => ?_) ledger.unused, grows, rfl⟩
  simp only [Store.keepTarget, List.lookup_cons] at found
  split at found
  next same =>
    cases found
    cases beq_iff_eq.1 same
    exact .inr ⟨expression, taken, resolves.mono grows⟩
  · exact .inl found

end Ledger

namespace Lookup

variable {thread : ThreadId} {waits : Prop} {ledger : Ledger}

theorem upholds_perform {action : Action}
    {holds : Ledger → action.Answer → Prop}
    (does : ∀ current : Ledger, ledger.Within current →
      ∃ answer, ∃ later : Ledger,
        current.store.perform thread action = .ok (answer, later.store) ∧
          current.Within later ∧ holds later answer) :
    Upholds thread waits (Gives False holds) (perform action) ledger := by
  intro current grows
  obtain ⟨answer, later, performed, further, held⟩ := does current grows
  refine ⟨.inr ⟨_, performed⟩, fun other store same => ?_⟩
  cases performed.symm.trans same
  exact ⟨later, further, rfl, held⟩

theorem upholds_quietly {action : Action} (quiet : action.IsQuiet) :
    Upholds thread waits (Gives False fun _ _ => True) (perform action)
      ledger := by
  apply upholds_perform
  intro current _
  have stays {answer : action.Answer} {store : Store}
      (performed : current.store.perform thread action = .ok (answer, store))
      (entries : store.entries = current.store.entries)
      (targets : store.targets = current.store.targets)
      (fresh : current.store.fresh ≤ store.fresh) :
      ∃ answer, ∃ later : Ledger,
        current.store.perform thread action = .ok (answer, later.store) ∧
          current.Within later ∧ True := by
    obtain ⟨later, grows, rfl⟩ := current.exists_of_same entries targets fresh
    exact ⟨answer, later, performed, grows, trivial⟩
  cases action with
  | recordHit => exact stays rfl rfl rfl (Nat.le_refl _)
  | recordMiss => exact stays rfl rfl rfl (Nat.le_refl _)
  | recordBuild failed => exact stays rfl rfl rfl (Nat.le_refl _)
  | takeNumber => exact stays rfl rfl rfl (Nat.le_succ _)
  | look descriptor => exact stays rfl rfl rfl (Nat.le_refl _)
  | report event => exact stays rfl rfl rfl (Nat.le_refl _)
  | mark mark => exact stays rfl rfl rfl (Nat.le_refl _)
  | enter | publish | await | readTarget | keepTarget => exact quiet.elim

/-- What is done next to a quiet action does not depend on it. -/
theorem upholds_quietly_bind {action : Action}
    {ensures : Ledger → Except Stop α → Prop}
    {next : action.Answer → Lookup α} (quiet : action.IsQuiet)
    (goesOn : ∀ answer later, ledger.Within later →
      Upholds thread waits ensures (next answer) later) :
    Upholds thread waits ensures (perform action >>= next) ledger :=
  (upholds_quietly quiet).surely_bind fun answer later grows _ =>
    goesOn answer later grows

def Finds (name : TypeName) (ledger : Ledger) (found : Found) : Prop :=
  match found with
  | .made identity | .present identity _ _ =>
    ledger.Names name (.cached name identity)

theorem upholds_enter (name : TypeName) :
    Upholds thread waits (Gives False (Finds name)) (enter name) ledger := by
  apply upholds_perform
  intro current _
  cases present : current.store.entries.get? name with
  | some entry =>
    refine ⟨.present entry.identity entry.builder entry.isPublished, current,
      ?_, Records.Within.refl _, entry, present, rfl⟩
    simp only [Store.perform, present]
  | none =>
    obtain ⟨later, grows, same⟩ := current.exists_of_made thread present
    refine ⟨.made current.store.fresh, later, ?_, grows, ?_⟩
    · rw [same]
      simp only [Store.perform, present]
    · refine ⟨{ identity := current.store.fresh, builder := thread }, ?_, rfl⟩
      rw [same]
      simp [Store.setEntry]

/-- A name that is cached is found there, published if it was so before. -/
theorem upholds_enter_cached {name : TypeName}
    (caches : ledger.Caches name) :
    Upholds thread waits
      (Gives False fun later found => ∃ identity builder isPublished,
        found = .present identity builder isPublished ∧
          later.Names name (.cached name identity) ∧
            ∀ body, ledger.store.published? name = some body →
              isPublished = true)
      (enter name) ledger := by
  apply upholds_perform
  intro current grows
  obtain ⟨entry, present⟩ := caches.mono grows
  refine ⟨.present entry.identity entry.builder entry.isPublished, current,
    by simp only [Store.perform, present], Records.Within.refl _,
    entry.identity, entry.builder, entry.isPublished, rfl,
    ⟨entry, present, rfl⟩, fun body published => ?_⟩
  obtain ⟨another, found, given⟩ :=
    Store.published?_eq_some.1 (grows.published? published)
  cases present.symm.trans found
  simp [Entry.isPublished, given]

theorem upholds_publish {name : TypeName} {identity : Nat} {body : Body}
    (covers : ledger.Covers body) :
    Upholds thread waits (Gives False fun _ _ => True)
      (publish name identity body) ledger := by
  apply upholds_perform
  intro current grows
  cases present : current.store.entryFor? name identity with
  | none =>
    exact ⟨(), current, by simp only [Store.perform, present],
      Records.Within.refl _, trivial⟩
  | some entry =>
    have found := (Store.entryFor?_eq_some.1 present).1
    obtain ⟨later, further, same⟩ :=
      current.exists_of_published found (covers.mono grows)
    refine ⟨(), later, ?_, further, trivial⟩
    rw [same]
    simp only [Store.perform, present]

theorem upholds_await {name : TypeName} {descriptor : Descriptor}
    (names : ledger.Names name descriptor)
    (goes : waits ∨ ∃ body, ledger.store.published? name = some body) :
    Upholds thread waits
      (Gives False fun later body => later.store.published? name = some body)
      (await descriptor) ledger := by
  intro current grows
  constructor
  · refine goes.imp_right ?_
    rintro ⟨body, published⟩
    have given := (names.mono grows).body?_of_published?
      (grows.published? published)
    exact ⟨(body, current.store), by simp only [Store.perform, given]⟩
  · intro body store performed
    simp only [Store.perform] at performed
    split at performed
    next given =>
      cases performed
      exact ⟨current, Records.Within.refl _, rfl,
        (names.mono grows).published?_of_body? given⟩
    · cases performed

theorem upholds_takeNumber {expression : TypeExpr}
    (caches : ∀ name ∈ expression.names, ledger.Caches name) :
    Upholds thread waits
      (Gives False fun later slot => later.Backs ⟨expression, slot⟩)
      takeNumber ledger := by
  apply upholds_perform
  intro current grows
  obtain ⟨later, further, same, backs⟩ :=
    current.exists_of_taken fun name member => (caches name member).mono grows
  refine ⟨current.store.fresh, later, ?_, further, backs⟩
  rw [same]
  rfl

theorem upholds_readTarget {slot : Nat} {expression : TypeExpr}
    (taken : ledger.wrapped slot = some expression) :
    Upholds thread waits
      (Gives False fun later target? => ∀ target, target? = some target →
        later.store.targets.lookup slot = some target ∧
          later.Resolves expression target)
      (perform (.readTarget slot)) ledger := by
  apply upholds_perform
  intro current grows
  refine ⟨_, current, rfl, Records.Within.refl _, fun target kept => ?_⟩
  obtain ⟨wrapped, takenToo, resolves⟩ := current.kept slot target kept
  cases (grows.wrapped _ _ taken).symm.trans takenToo
  exact ⟨kept, resolves⟩

theorem upholds_keepTarget {slot : Nat} {expression : TypeExpr}
    {target : Descriptor} (taken : ledger.wrapped slot = some expression)
    (resolves : ledger.Resolves expression target) :
    Upholds thread waits
      (Gives False fun later kept =>
        later.store.targets.lookup slot = some kept ∧
          later.Resolves expression kept)
      (perform (.keepTarget slot target)) ledger := by
  apply upholds_perform
  intro current grows
  have taken := grows.wrapped _ _ taken
  cases found : current.store.targets.lookup slot with
  | some kept =>
    -- Another thread was first, and its target is given instead.
    obtain ⟨wrapped, takenToo, resolves⟩ := current.kept slot kept found
    cases taken.symm.trans takenToo
    exact ⟨kept, current, by simp only [Store.perform, found],
      Records.Within.refl _, found, resolves⟩
  | none =>
    obtain ⟨later, further, same⟩ :=
      current.exists_of_kept found taken (resolves.mono grows)
    refine ⟨target, later, ?_, further, ?_,
      (resolves.mono grows).mono further⟩
    · rw [same]
      simp only [Store.perform, found]
    · rw [same]
      simp [Store.keepTarget]

theorem upholds_noted {ensures : Ledger → Except Stop Descriptor → Prop}
    {kind : LookupKind} {name : TypeName} {lookup : Lookup Descriptor}
    (persists : Persists ensures)
    (upholds : ∀ later, ledger.Within later →
      Upholds thread waits ensures lookup later) :
    Upholds thread waits ensures (noted kind name lookup) ledger := by
  refine upholds_quietly_bind trivial fun _ later grows => ?_
  apply (upholds later grows).attempt_bind
  intro outcome latest _ ensured
  refine upholds_quietly_bind trivial fun _ end_ further => ?_
  exact persists latest end_ outcome further ensured

end Lookup

end TypeAtlas
