import Mathlib.Algebra.Order.BigOperators.Group.List
import Mathlib.Algebra.Order.Ring.Nat
import Mathlib.Logic.Relation
import TypeAtlas.Proofs.Registry.History
import TypeAtlas.Registry.Latch

/-!
# Latches keep their first value and lose no wakeup
-/

namespace TypeAtlas

namespace Latch

/-! ### What a stage tells -/

namespace Stage

def stored? : Stage α → Option Bool
  | .announcing stored | .notifying stored | .notified stored => some stored
  | _ => none

/-- Whether a thread is parked or about to park. -/
def isResting : Stage α → Bool
  | .parking | .parked => true
  | _ => false

/-- Whether a publisher has yet to notify the threads that are parked. -/
def isDue : Stage α → Bool
  | .announcing _ | .notifying _ => true
  | _ => false

def hasNotified : Stage α → Bool
  | .notified _ => true
  | _ => false

/-- What a stage says about the cell is so. -/
def Fits (value? : Option α) : Stage α → Prop
  | .announcing _ | .notifying _ | .notified _ => value?.isSome
  | .leaving value => value? = some value
  | _ => True

@[simp]
theorem holdsLock_awake (stage : Stage α) :
    stage.awake.holdsLock = stage.holdsLock := by
  cases stage <;> rfl

@[simp]
theorem stored?_awake (stage : Stage α) :
    stage.awake.stored? = stage.stored? := by
  cases stage <;> rfl

@[simp]
theorem fits_awake {value? : Option α} (stage : Stage α) :
    stage.awake.Fits value? ↔ stage.Fits value? := by
  cases stage <;> rfl

theorem isResting_awake (stage : Stage α) :
    stage.awake.isResting = true ↔ stage = .parking := by
  cases stage <;> simp [awake, isResting]

theorem Fits.of_imp {value? later? : Option α} {stage : Stage α}
    (fits : stage.Fits value?)
    (kept : ∀ value, value? = some value → later? = some value) :
    stage.Fits later? := by
  cases stage with
  | leaving value => exact kept value fits
  | announcing | notifying | notified =>
    obtain ⟨value, found⟩ := Option.isSome_iff_exists.mp fits
    exact Option.isSome_of_eq_some (kept value found)
  | _ => trivial

end Stage

namespace Return

/-- What a call came to says about the cell what is so. -/
def Fits (value? : Option α) : Return α → Prop
  | .published _ => value?.isSome
  | .waited value => value? = some value
  | .got got? => ∀ value, got? = some value → value? = some value

def isStored : Return α → Bool
  | .published stored => stored
  | _ => false

def isPublished : Return α → Bool
  | .published _ => true
  | _ => false

theorem Fits.of_imp {value? later? : Option α} {result : Return α}
    (fits : result.Fits value?)
    (kept : ∀ value, value? = some value → later? = some value) :
    result.Fits later? := by
  cases result with
  | published stored =>
    obtain ⟨value, found⟩ := Option.isSome_iff_exists.mp fits
    exact Option.isSome_of_eq_some (kept value found)
  | waited value => exact kept value fits
  | got got? => exact fun value got => kept value (fits value got)

theorem isPublished_of_isStored {result : Return α}
    (stored : result.isStored) : result.isPublished := by
  cases result with
  | published => rfl
  | waited | got => exact stored

end Return

variable {α : Type} {latch later : Latch α} {thread : ThreadId}

/-! ### Moving a thread -/

@[simp]
theorem stages_move_self (latch : Latch α) (thread : ThreadId)
    (stage : Stage α) : (latch.move thread stage).stages thread = stage := by
  simp [move]

theorem stages_move_of_ne (latch : Latch α) {thread other : ThreadId}
    (stage : Stage α) (differs : other ≠ thread) :
    (latch.move thread stage).stages other = latch.stages other := by
  simp [move, differs]

/-- What every thread's stage meets still is so after a thread moved. -/
theorem forall_move {stage : Stage α} {motive : ThreadId → Stage α → Prop}
    (others : ∀ other ≠ thread, motive other (latch.stages other))
    (self : motive thread stage) (other : ThreadId) :
    motive other ((latch.move thread stage).stages other) := by
  by_cases same : other = thread
  · subst same
    simpa using self
  · simpa [stages_move_of_ne, same] using others other same

/-! ### The lock -/

/-- The threads that are at a stage with the lock are the one that holds it. -/
def Exclusive (latch : Latch α) : Prop :=
  ∀ thread, (latch.stages thread).holdsLock = true ↔
    latch.holder? = some thread

namespace Exclusive

theorem stay (exclusive : latch.Exclusive) {stage : Stage α}
    (same : stage.holdsLock = (latch.stages thread).holdsLock) :
    (latch.move thread stage).Exclusive :=
  forall_move
    (motive := fun other stage => stage.holdsLock ↔
      latch.holder? = some other)
    (fun other _ => exclusive other) (by rw [same]; exact exclusive thread)

theorem take (exclusive : latch.Exclusive) (free : latch.holder? = none)
    {stage : Stage α} (holds : stage.holdsLock = true) :
    ((latch.hold (some thread)).move thread stage).Exclusive := by
  refine forall_move
    (motive := fun other stage => stage.holdsLock ↔ some thread = some other)
    (fun other differs => ?_) (by simp [holds])
  simpa [free, differs.symm] using exclusive other

theorem release (exclusive : latch.Exclusive)
    (held : (latch.stages thread).holdsLock = true) {stage : Stage α}
    (leaves : stage.holdsLock = false) :
    ((latch.hold none).move thread stage).Exclusive := by
  refine forall_move
    (motive := fun other stage => stage.holdsLock ↔ none = some other)
    (fun other differs => ?_) (by simp [leaves])
  simpa [(exclusive thread).mp held, differs.symm] using exclusive other

theorem eq_of_holdsLock (exclusive : latch.Exclusive) {other : ThreadId}
    (holds : (latch.stages thread).holdsLock = true)
    (otherHolds : (latch.stages other).holdsLock = true) : other = thread :=
  Option.some.inj (((exclusive other).mp otherHolds).symm.trans
    ((exclusive thread).mp holds))

theorem goes (exclusive : latch.Exclusive) (goes : Goes latch later) :
    later.Exclusive := by
  cases goes with
  | @set thread value stage =>
    have set : (latch.set value).Exclusive := exclusive
    exact set.stay (by simp [stage]; rfl)
  | announce thread stage free => exact exclusive.take free rfl
  | notify thread stage =>
    have notified : latch.notifyAll.Exclusive := fun other => by
      simpa using exclusive other
    exact notified.stay (by simp [stage]; rfl)
  | returnStored thread stage | returnValue thread stage | park thread stage =>
    exact exclusive.release (by simp [stage, Stage.holdsLock]) rfl
  | glance thread stage | glanceInVain thread stage | check thread stage
  | checkInVain thread stage | peek thread stage =>
    exact exclusive.stay (by simp [stage, Stage.holdsLock])
  | enter thread stage free => exact exclusive.take free rfl

theorem moves (exclusive : latch.Exclusive) (moves : Moves latch later) :
    later.Exclusive := by
  cases moves with
  | go goes => exact exclusive.goes goes
  | call thread call idle =>
    exact exclusive.stay (by cases call <;> simp [idle] <;> rfl)
  | wake thread stage =>
    exact exclusive.stay (by simp [stage, Stage.holdsLock])

end Exclusive

/-! ### The cell -/

/-- A cell that was set stays as it is. -/
theorem value?_of_goes (goes : Goes latch later) {value : α}
    (found : latch.value? = some value) : later.value? = some value := by
  cases goes <;> simp [found]

/-- What was seen of the cell is so. -/
structure Kept (latch : Latch α) : Prop where
  first : latch.sets.getLast? = latch.value?.map fun value => (value, true)
  once : latch.sets.countP Prod.snd = latch.value?.isSome.toNat
  stages : ∀ thread, (latch.stages thread).Fits latch.value?
  returns : ∀ entry ∈ latch.returns, entry.2.Fits latch.value?

namespace Kept

theorem move (kept : latch.Kept) (stage : Stage α)
    (fits : stage.Fits latch.value?) : (latch.move thread stage).Kept where
  first := kept.first
  once := kept.once
  stages := forall_move (fun other _ => kept.stages other) fits
  returns := kept.returns

theorem set (kept : latch.Kept) (value : α) : (latch.set value).Kept where
  first := by
    have first := kept.first
    cases found : latch.value? with
    | none => simp_all
    | some old =>
      rw [found] at first
      simp [List.getLast?_cons, first, found]
  once := by
    cases found : latch.value? with
    | none => simp [kept.once, found]
    | some old => simp [kept.once, found]
  stages other := (kept.stages other).of_imp (by simp +contextual)
  returns entry returned :=
    (kept.returns entry returned).of_imp (by simp +contextual)

theorem finish (kept : latch.Kept) {result : Return α}
    (fits : result.Fits latch.value?) : (latch.finish thread result).Kept where
  first := kept.first
  once := kept.once
  stages := forall_move (fun other _ => kept.stages other) trivial
  returns entry returned := by
    obtain rfl | returned := List.mem_cons.mp returned
    · exact fits
    · exact kept.returns entry returned

theorem hold (kept : latch.Kept) (holder? : Option ThreadId) :
    (latch.hold holder?).Kept :=
  ⟨kept.first, kept.once, kept.stages, kept.returns⟩

theorem notifyAll (kept : latch.Kept) : latch.notifyAll.Kept where
  first := kept.first
  once := kept.once
  stages other := (latch.stages other).fits_awake.mpr (kept.stages other)
  returns := kept.returns

theorem fits (kept : latch.Kept) {stage : Stage α}
    (current : latch.stages thread = stage) : stage.Fits latch.value? :=
  current ▸ kept.stages thread

theorem goes (kept : latch.Kept) (goes : Goes latch later) : later.Kept := by
  cases goes with
  | @set thread value stage =>
    exact (kept.set value).move _ (show Option.isSome _ = true by simp)
  | announce thread stage =>
    have fits := kept.fits stage
    exact (kept.hold _).move _ fits
  | notify thread stage =>
    have fits := kept.fits stage
    exact kept.notifyAll.move _ fits
  | returnStored thread stage => exact (kept.hold none).finish (kept.fits stage)
  | glance thread _ found => exact kept.finish found
  | check thread _ found => exact kept.move _ found
  | returnValue thread stage => exact (kept.hold none).finish (kept.fits stage)
  | peek => exact kept.finish fun _ => id
  | glanceInVain => exact kept.move (.entering) trivial
  | checkInVain => exact kept.move (.parking) trivial
  | enter => exact (kept.hold _).move (.checking) trivial
  | park => exact (kept.hold none).move (.parked) trivial

theorem moves (kept : latch.Kept) (moves : Moves latch later) :
    later.Kept := by
  cases moves with
  | go goes => exact kept.goes goes
  | call thread call => exact kept.move _ (by cases call <;> trivial)
  | wake => exact kept.move .entering trivial

theorem isPublished_eq_false (kept : latch.Kept) (absent : latch.value? = none)
    {entry : ThreadId × Return α} (returned : entry ∈ latch.returns) :
    entry.2.isPublished = false := by
  have fits := kept.returns entry returned
  cases result : entry.2 <;> simp_all [Return.Fits, Return.isPublished]

theorem stored?_eq_none (kept : latch.Kept) (absent : latch.value? = none)
    (thread : ThreadId) : (latch.stages thread).stored? = none := by
  have fits := kept.stages thread
  cases stage : latch.stages thread <;>
    simp_all [Stage.Fits, Stage.stored?]

end Kept

/-! ### The publisher that stored its value -/

def storedCount (latch : Latch α) : Nat :=
  latch.returns.countP fun (_, result) => result.isStored

/-- At most one publisher stored its value. -/
structure Single (latch : Latch α) : Prop where
  once : latch.storedCount ≤ 1
  /-- While one that did has not returned, none has. -/
  before : ∀ thread, (latch.stages thread).stored? = some true →
    latch.storedCount = 0
  alone : ∀ thread other, (latch.stages thread).stored? = some true →
    (latch.stages other).stored? = some true → other = thread

namespace Single

theorem stay (single : latch.Single) (thread : ThreadId) (stage : Stage α)
    (same : stage.stored? = some true →
      (latch.stages thread).stored? = some true)
    (stages : ∀ other, (later.stages other).stored? =
      ((latch.move thread stage).stages other).stored?)
    (count : later.storedCount = latch.storedCount) : later.Single := by
  have stored : ∀ other, (later.stages other).stored? = some true →
      (latch.stages other).stored? = some true := fun other => by
    rw [stages]
    exact forall_move
      (motive := fun other stage => stage.stored? = some true →
        (latch.stages other).stored? = some true)
      (fun _ _ => id) same other
  exact {
    once := count ▸ single.once
    before := fun other is =>
      count.trans (single.before other (stored other is))
    alone := fun first second is isToo =>
      single.alone first second (stored first is) (stored second isToo) }

theorem set (kept : latch.Kept) (absent : latch.value? = none) (value : α)
    (thread : ThreadId) (stored : Bool) :
    ((latch.set value).move thread (.announcing stored)).Single := by
  have noneReturned : latch.storedCount = 0 := List.countP_eq_zero.mpr
    fun entry returned stored =>
      Bool.false_ne_true ((kept.isPublished_eq_false absent returned).symm.trans
        (Return.isPublished_of_isStored stored))
  have only : ∀ other, (((latch.set value).move thread
      (.announcing stored)).stages other).stored? = some true →
      other = thread := by
    refine forall_move
      (motive := fun other stage => stage.stored? = some true →
        other = thread)
      (fun other _ is => ?_) (fun _ => rfl)
    simp [kept.stored?_eq_none absent] at is
  exact {
    once := noneReturned ▸ Nat.zero_le 1
    before := fun _ _ => noneReturned
    alone := fun first second is isToo =>
      (only second isToo).trans (only first is).symm }

theorem returnStored (single : latch.Single)
    (stage : latch.stages thread = .notified true) :
    ((latch.hold none).finish thread (.published true)).Single := by
  have stored : (latch.stages thread).stored? = some true := by rw [stage]; rfl
  have rest : ∀ other, (((latch.hold none).finish thread
      (.published true)).stages other).stored? ≠ some true :=
    forall_move (motive := fun _ stage => stage.stored? ≠ some true)
      (fun other differs is => differs (single.alone thread other stored is))
      nofun
  have one : ((latch.hold none).finish thread
      (.published true)).storedCount = latch.storedCount + 1 := by
    simp [storedCount, Return.isStored]
  exact {
    once := by rw [one, single.before thread stored]
    before := fun other is => (rest other is).elim
    alone := fun first _ is => (rest first is).elim }

theorem goes (single : latch.Single) (kept : latch.Kept)
    (goes : Goes latch later) : later.Single := by
  cases goes with
  | @set thread value stage =>
    cases found : latch.value? with
    | none => exact set kept found value thread _
    | some old =>
      exact single.stay thread (.announcing false) nofun (fun _ => rfl) rfl
  | announce thread stage =>
    exact single.stay thread _ (by rw [stage]; exact id) (fun _ => rfl) rfl
  | notify thread stage =>
    refine single.stay thread _ (by rw [stage]; exact id) (fun other => ?_) rfl
    simp only [move, notifyAll_stages]
    split
    · rfl
    · exact Stage.stored?_awake _
  | @returnStored thread stored stage =>
    cases stored with
    | true => exact single.returnStored stage
    | false =>
      exact single.stay thread .idle nofun (fun _ => rfl)
        (by simp [storedCount, Return.isStored])
  | glance thread | returnValue thread | peek thread =>
    exact single.stay thread .idle nofun (fun _ => rfl)
      (by simp [storedCount, Return.isStored])
  | @check thread value =>
    exact single.stay thread (.leaving value) nofun (fun _ => rfl) rfl
  | glanceInVain thread =>
    exact single.stay thread .entering nofun (fun _ => rfl) rfl
  | checkInVain thread =>
    exact single.stay thread .parking nofun (fun _ => rfl) rfl
  | enter thread => exact single.stay thread .checking nofun (fun _ => rfl) rfl
  | park thread => exact single.stay thread .parked nofun (fun _ => rfl) rfl

theorem moves (single : latch.Single) (kept : latch.Kept)
    (moves : Moves latch later) : later.Single := by
  cases moves with
  | go goes => exact single.goes kept goes
  | call thread call =>
    exact single.stay thread call.stage (by cases call <;> nofun)
      (fun _ => rfl) rfl
  | wake thread => exact single.stay thread .entering nofun (fun _ => rfl) rfl

end Single

/-! ### Threads that park -/

/-- No thread newly rests, and no publisher newly has nothing left to do. -/
def Stage.Follows (before after : Stage α) : Prop :=
  (after.isResting → before.isResting) ∧ (before.isDue → after.isDue) ∧
    (after.hasNotified → before.hasNotified)

theorem follows_move {stage : Stage α}
    (follows : (latch.stages thread).Follows stage) (other : ThreadId) :
    (latch.stages other).Follows ((latch.move thread stage).stages other) :=
  forall_move (motive := fun other stage => (latch.stages other).Follows stage)
    (fun _ _ => ⟨id, id, id⟩) follows other

def HasPublished (latch : Latch α) : Prop :=
  ∃ entry ∈ latch.returns, entry.2.isPublished

/-- Threads that rest will hear of a value that was set. -/
structure Woken (latch : Latch α) : Prop where
  /-- While threads rest though a value is set, one is yet to notify them. -/
  heard : latch.value?.isSome → ∀ thread,
    (latch.stages thread).isResting → ∃ publisher,
      (latch.stages publisher).isDue
  /-- No thread rests once a publisher has notified all. -/
  quiet : (∃ thread, (latch.stages thread).hasNotified) ∨
    latch.HasPublished → ∀ thread, ¬(latch.stages thread).isResting

namespace Woken

theorem of_forall_not_isResting
    (quiet : ∀ thread, ¬(latch.stages thread).isResting) : latch.Woken where
  heard _ thread rests := (quiet thread rests).elim
  quiet _ := quiet

theorem of_value?_eq_none (kept : latch.Kept) (absent : latch.value? = none) :
    latch.Woken where
  heard found := by simp [absent] at found
  quiet := by
    rintro (⟨thread, notified⟩ | ⟨entry, returned, published⟩)
    · have fits := kept.stages thread
      cases stage : latch.stages thread <;>
        simp_all [Stage.Fits, Stage.hasNotified]
    · simp [kept.isPublished_eq_false absent returned] at published

theorem stay (woken : latch.Woken)
    (follows : ∀ thread, (latch.stages thread).Follows (later.stages thread))
    (value : later.value? = latch.value?)
    (published : later.HasPublished → latch.HasPublished) : later.Woken where
  heard found thread rests := by
    obtain ⟨publisher, due⟩ :=
      woken.heard (value ▸ found) thread ((follows thread).1 rests)
    exact ⟨publisher, (follows publisher).2.1 due⟩
  quiet told thread rests := by
    have toldBefore : (∃ other, (latch.stages other).hasNotified) ∨
        latch.HasPublished :=
      told.imp (Exists.imp fun other => (follows other).2.2) published
    exact woken.quiet toldBefore thread ((follows thread).1 rests)

theorem move (woken : latch.Woken) {stage next : Stage α}
    (current : latch.stages thread = stage) (follows : stage.Follows next) :
    (latch.move thread next).Woken :=
  woken.stay (follows_move (current ▸ follows)) rfl id

theorem hold (woken : latch.Woken) (holder? : Option ThreadId) :
    (latch.hold holder?).Woken :=
  ⟨woken.heard, woken.quiet⟩

theorem finish (woken : latch.Woken) {stage : Stage α} {result : Return α}
    (current : latch.stages thread = stage) (follows : stage.Follows .idle)
    (unpublished : result.isPublished = false) :
    (latch.finish thread result).Woken :=
  woken.stay (follows_move (current ▸ follows)) rfl
    (by simp [HasPublished, unpublished])

theorem set (woken : latch.Woken) {value : α} {stored : Bool}
    (stage : latch.stages thread = .setting value) :
    ((latch.set value).move thread (.announcing stored)).Woken where
  heard _ _ _ := ⟨thread, by simp [Stage.isDue]⟩
  quiet := by
    have moved : (latch.move thread (.announcing stored)).Woken :=
      woken.move stage ⟨nofun, nofun, nofun⟩
    exact moved.quiet

theorem goes (woken : latch.Woken) (exclusive : latch.Exclusive)
    (kept : latch.Kept) (goes : Goes latch later) : later.Woken := by
  cases goes with
  | set thread stage => exact woken.set stage
  | announce thread stage =>
    exact (woken.hold _).move stage ⟨nofun, fun _ => rfl, nofun⟩
  | notify thread stage =>
    refine of_forall_not_isResting (forall_move
      (motive := fun _ stage => ¬stage.isResting)
      (fun other differs rests => differs ?_) nofun)
    -- Who is not woken is about to park, and holds the lock.
    have parking := (Stage.isResting_awake _).mp rests
    exact exclusive.eq_of_holdsLock (by rw [stage]; rfl) (by rw [parking]; rfl)
  | returnStored thread stage =>
    have quiet := woken.quiet (.inl ⟨thread, by rw [stage]; rfl⟩)
    exact of_forall_not_isResting (forall_move
      (motive := fun _ stage => ¬stage.isResting)
      (fun other _ => quiet other) nofun)
  | glance thread stage | peek thread stage =>
    exact woken.finish stage ⟨nofun, nofun, nofun⟩ rfl
  | returnValue thread stage =>
    exact (woken.hold none).finish stage ⟨nofun, nofun, nofun⟩ rfl
  | glanceInVain thread stage | check thread stage =>
    exact woken.move stage ⟨nofun, nofun, nofun⟩
  | enter thread stage =>
    exact (woken.hold _).move stage ⟨nofun, nofun, nofun⟩
  | checkInVain thread stage absent =>
    exact of_value?_eq_none (kept.move .parking trivial) absent
  | park thread stage =>
    exact (woken.hold none).move stage ⟨fun _ => rfl, nofun, nofun⟩

theorem moves (woken : latch.Woken) (exclusive : latch.Exclusive)
    (kept : latch.Kept) (moves : Moves latch later) : later.Woken := by
  cases moves with
  | go goes => exact woken.goes exclusive kept goes
  | call thread call idle =>
    exact woken.move idle (by cases call <;> exact ⟨nofun, nofun, nofun⟩)
  | wake thread stage => exact woken.move stage ⟨nofun, nofun, nofun⟩

end Woken

/-! ### Every interleaving -/

structure Orderly (latch : Latch α) : Prop where
  exclusive : latch.Exclusive
  kept : latch.Kept
  single : latch.Single
  woken : latch.Woken

namespace Orderly

theorem fresh : ({} : Latch α).Orderly where
  exclusive := by simp [Exclusive, Stage.holdsLock]
  kept := ⟨rfl, rfl, fun _ => trivial, nofun⟩
  single := ⟨Nat.zero_le 1, fun _ _ => rfl, nofun⟩
  woken := Woken.of_forall_not_isResting nofun

theorem ready (value : α) : (ready value).Orderly where
  exclusive := by simp [Exclusive, Latch.ready, Stage.holdsLock]
  kept := ⟨rfl, rfl, fun _ => trivial, nofun⟩
  single := ⟨Nat.zero_le 1, fun _ _ => rfl, nofun⟩
  woken := Woken.of_forall_not_isResting nofun

theorem moves (orderly : latch.Orderly) (moves : Moves latch later) :
    later.Orderly where
  exclusive := orderly.exclusive.moves moves
  kept := orderly.kept.moves moves
  single := orderly.single.moves orderly.kept moves
  woken := orderly.woken.moves orderly.exclusive orderly.kept moves

end Orderly

theorem Reachable.orderly (reachable : Reachable latch) : latch.Orderly := by
  induction reachable with
  | fresh => exact .fresh
  | ready value => exact .ready value
  | move _ moves ih => exact ih.moves moves

/-- Who has published makes sure that no thread rests from then on. -/
theorem Orderly.not_isResting_of_published (orderly : latch.Orderly)
    (published : latch.HasPublished)
    (leads : Relation.ReflTransGen Moves latch later) (thread : ThreadId) :
    ¬(later.stages thread).isResting := by
  have both : later.Orderly ∧ later.HasPublished := by
    induction leads with
    | refl => exact ⟨orderly, published⟩
    | tail _ moves ih =>
      refine ⟨ih.1.moves moves, ?_⟩
      obtain ⟨entry, returned, published⟩ := ih.2
      refine ⟨entry, ?_, published⟩
      cases moves with
      | call | wake => exact returned
      | go goes => cases goes <;> simp [returned]
  exact both.1.woken.quiet (.inr both.2) thread

/-! ### Progress -/

/-- The thread that holds the lock can go on. -/
theorem exists_goes_of_holdsLock (holds : (latch.stages thread).holdsLock) :
    ∃ later, Goes latch later := by
  cases stage : latch.stages thread with
  | notifying => exact ⟨_, .notify thread stage⟩
  | notified => exact ⟨_, .returnStored thread stage⟩
  | parking => exact ⟨_, .park thread stage⟩
  | leaving => exact ⟨_, .returnValue thread stage⟩
  | checking =>
    cases found : latch.value? with
    | none => exact ⟨_, .checkInVain thread stage found⟩
    | some value => exact ⟨_, .check thread stage found⟩
  | _ => simp [stage, Stage.holdsLock] at holds

theorem Exclusive.exists_goes (exclusive : latch.Exclusive)
    (free : latch.holder? = none → ∃ later, Goes latch later) :
    ∃ later, Goes latch later := by
  cases held : latch.holder? with
  | none => exact free held
  | some holder =>
    exact exists_goes_of_holdsLock ((exclusive holder).mpr held)

/-- Some thread can go on unless all that are in a call wait for a value. -/
theorem Orderly.exists_goes_or_waits (orderly : latch.Orderly)
    (busy : latch.stages thread ≠ .idle) :
    (∃ later, Goes latch later) ∨
      latch.value? = none ∧ latch.stages thread = .parked := by
  have exclusive := orderly.exclusive
  cases stage : latch.stages thread with
  | idle => exact (busy stage).elim
  | setting => exact .inl ⟨_, .set thread stage⟩
  | announcing =>
    exact .inl (exclusive.exists_goes fun free =>
      ⟨_, .announce thread stage free⟩)
  | entering =>
    exact .inl (exclusive.exists_goes fun free =>
      ⟨_, .enter thread stage free⟩)
  | notifying | notified | checking | parking | leaving =>
    exact .inl (exists_goes_of_holdsLock (by rw [stage]; rfl))
  | glancing =>
    cases found : latch.value? with
    | none => exact .inl ⟨_, .glanceInVain thread stage found⟩
    | some value => exact .inl ⟨_, .glance thread stage found⟩
  | peeking => exact .inl ⟨_, .peek thread stage⟩
  | parked =>
    cases found : latch.value? with
    | none => exact .inr ⟨rfl, rfl⟩
    | some value =>
      obtain ⟨publisher, due⟩ :=
        orderly.woken.heard (by simp [found]) thread (by rw [stage]; rfl)
      cases next : latch.stages publisher with
      | announcing =>
        exact .inl (exclusive.exists_goes fun free =>
          ⟨_, .announce publisher next free⟩)
      | notifying => exact .inl ⟨_, .notify publisher next⟩
      | _ => simp [next, Stage.isDue] at due

/-- No thread but one starts a call in a move. -/
theorem exists_idle_of_moves (moves : Moves latch later) :
    ∃ thread, ∀ other ≠ thread, latch.stages other = .idle →
      later.stages other = .idle := by
  cases moves with
  | call thread | wake thread =>
    exact ⟨thread, fun other differs => (stages_move_of_ne _ _ differs).trans⟩
  | go goes =>
    cases goes with
    | notify thread =>
      refine ⟨thread, fun other differs idle => ?_⟩
      rw [stages_move_of_ne _ _ differs, notifyAll_stages, idle]
      rfl
    | set thread | announce thread | returnStored thread | glance thread
    | glanceInVain thread | enter thread | check thread | checkInVain thread
    | park thread | returnValue thread | peek thread =>
      exact ⟨thread, fun other differs => (stages_move_of_ne _ _ differs).trans⟩

/-- Finitely many threads are in a call at a time. -/
theorem Reachable.exists_busy (reachable : Reachable latch) :
    ∃ threads : List ThreadId,
      ∀ thread, latch.stages thread ≠ .idle → thread ∈ threads := by
  induction reachable with
  | fresh | ready => exact ⟨[], fun thread busy => (busy rfl).elim⟩
  | move _ moves ih =>
    obtain ⟨threads, busy⟩ := ih
    obtain ⟨mover, idle⟩ := exists_idle_of_moves moves
    refine ⟨mover :: threads, fun thread isBusy => ?_⟩
    by_cases same : thread = mover
    · exact same ▸ List.mem_cons_self
    · exact List.mem_cons_of_mem mover (busy thread fun wasIdle =>
        isBusy (idle thread same wasIdle))

/-- How many steps a call has left at most once the value is set. -/
def Stage.left : Stage α → Nat
  | .idle => 0
  | .notified _ | .glancing | .leaving _ | .peeking => 1
  | .notifying _ | .checking => 2
  | .announcing _ | .entering => 3
  | .setting _ | .parked => 4
  | .parking => 5

theorem Stage.left_awake_le (stage : Stage α) :
    stage.awake.left ≤ stage.left := by
  cases stage <;> simp [awake, left]

/-- One thread has fewer steps left of its call, and none has more. -/
def GetsOn (latch later : Latch α) : Prop :=
  ∃ thread, (later.stages thread).left < (latch.stages thread).left ∧
    ∀ other, (later.stages other).left ≤ (latch.stages other).left

theorem getsOn_move {stage : Stage α}
    (fewer : stage.left < (latch.stages thread).left) :
    latch.GetsOn (latch.move thread stage) :=
  ⟨thread, by simpa using fewer,
    forall_move
      (motive := fun other stage => stage.left ≤ (latch.stages other).left)
      (fun _ _ => Nat.le_refl _) fewer.le⟩

/-- Once the value is set, every step brings its call nearer to its return. -/
theorem getsOn_of_goes (found : latch.value?.isSome)
    (goes : Goes latch later) : latch.GetsOn later := by
  cases goes with
  | glanceInVain _ _ absent | checkInVain _ _ absent => simp [absent] at found
  | notify thread stage =>
    refine ⟨thread, by simp [stage, Stage.left], forall_move
      (motive := fun other stage => stage.left ≤ (latch.stages other).left)
      (fun other _ => Stage.left_awake_le _) (by simp [stage, Stage.left])⟩
  | set thread stage | announce thread stage | returnStored thread stage
  | glance thread stage | enter thread stage | check thread stage
  | park thread stage | returnValue thread stage | peek thread stage =>
    exact getsOn_move (by simp [stage, Stage.left])

theorem Stage.eq_idle_of_left_eq_zero {stage : Stage α}
    (atEnd : stage.left = 0) : stage = .idle := by
  cases stage <;> simp_all [left]

/-- How many steps the calls of some threads have left at most. -/
def leftAmong (latch : Latch α) (threads : List ThreadId) : Nat :=
  (threads.map fun thread => (latch.stages thread).left).sum

namespace GetsOn

variable {threads : List ThreadId}

theorem busy (getsOn : latch.GetsOn later)
    (busy : ∀ thread, latch.stages thread ≠ .idle → thread ∈ threads)
    (thread : ThreadId) (isBusy : later.stages thread ≠ .idle) :
    thread ∈ threads := by
  obtain ⟨_, -, noMore⟩ := getsOn
  refine busy thread fun idle => isBusy (Stage.eq_idle_of_left_eq_zero ?_)
  have none : (latch.stages thread).left = 0 := by rw [idle]; rfl
  exact Nat.le_zero.mp (none ▸ noMore thread)

theorem leftAmong_lt (getsOn : latch.GetsOn later)
    (busy : ∀ thread, latch.stages thread ≠ .idle → thread ∈ threads) :
    later.leftAmong threads < latch.leftAmong threads := by
  obtain ⟨mover, fewer, noMore⟩ := getsOn
  have moverBusy : latch.stages mover ≠ .idle := fun idle => by
    simp [idle, Stage.left] at fewer
  exact List.sum_lt_sum _ _ (fun thread _ => noMore thread)
    ⟨mover, busy mover moverBusy, fewer⟩

end GetsOn

/-- However threads go on that are in a call, be they notified or not, all of
their calls return. -/
inductive Drains : Latch α → Prop where
  | done {latch : Latch α} (idle : ∀ thread, latch.stages thread = .idle) :
    Drains latch
  | later {latch : Latch α} (progress : ∃ later, Goes latch later)
    (goes : ∀ later, Goes latch later → Drains later)
    (wakes : ∀ thread, latch.stages thread = .parked →
      Drains (latch.move thread .entering)) :
    Drains latch

/-- Once the value is set, all calls that were made return. -/
theorem Orderly.drains (orderly : latch.Orderly)
    (found : latch.value?.isSome) (threads : List ThreadId)
    (busy : ∀ thread, latch.stages thread ≠ .idle → thread ∈ threads) :
    latch.Drains := by
  induction total : latch.leftAmong threads
    using Nat.strong_induction_on generalizing latch with
  | _ left ih =>
    by_cases idle : ∀ thread, latch.stages thread = .idle
    · exact .done idle
    obtain ⟨thread, isBusy⟩ := not_forall.mp idle
    have drains {next : Latch α} (moves : Moves latch next)
        (getsOn : latch.GetsOn next) (set : next.value?.isSome) : next.Drains :=
      ih _ (total ▸ getsOn.leftAmong_lt busy) (orderly.moves moves) set
        (getsOn.busy busy) rfl
    refine .later ?_ (fun next goes => ?_) fun thread parked => ?_
    · obtain progress | ⟨absent, _⟩ := orderly.exists_goes_or_waits isBusy
      · exact progress
      · simp [absent] at found
    · obtain ⟨value, isValue⟩ := Option.isSome_iff_exists.mp found
      exact drains (.go goes) (getsOn_of_goes found goes)
        (Option.isSome_of_eq_some (value?_of_goes goes isValue))
    · exact drains (.wake thread parked)
        (getsOn_move (by simp [parked, Stage.left])) found

/-- What holds of a latch whatever its callers do. -/
structure KeepsFirst (latch : Latch α) : Prop where
  /-- At most one publisher is told that its value was stored. -/
  storedOnce : (latch.returns.countP fun (_, result) => result.isStored) ≤ 1
  setOnce : latch.sets ≠ [] → latch.sets.countP Prod.snd = 1
  waited : ∀ thread value, (thread, .waited value) ∈ latch.returns →
    latch.sets.getLast? = some (value, true)
  got : ∀ thread value, (thread, .got (some value)) ∈ latch.returns →
    latch.sets.getLast? = some (value, true)
  awake : ∀ thread stored, (thread, .published stored) ∈ latch.returns →
    ∀ later, Relation.ReflTransGen Moves latch later →
      ∀ other, later.stages other ≠ .parked
  /-- Once a value is set, all calls that were made return. -/
  drains : latch.value?.isSome → latch.Drains

theorem keepsFirst_of_reachable (reachable : Reachable latch) :
    latch.KeepsFirst := by
  have orderly := reachable.orderly
  have kept := orderly.kept
  have first : ∀ value, latch.value? = some value →
      latch.sets.getLast? = some (value, true) := fun value found => by
    rw [kept.first, found]
    rfl
  exact {
    storedOnce := orderly.single.once
    setOnce := fun tried => by
      rw [kept.once]
      cases found : latch.value? with
      | some value => rfl
      | none =>
        have noLast : latch.sets.getLast? = none := by
          rw [kept.first, found]
          rfl
        exact (tried (List.getLast?_eq_none_iff.mp noLast)).elim
    waited := fun thread value returned => first value (kept.returns _ returned)
    got := fun thread value returned =>
      first value (kept.returns _ returned value rfl)
    awake := fun thread stored returned later leads other parked =>
      orderly.not_isResting_of_published ⟨_, returned, rfl⟩ leads other
        (by rw [parked]; rfl)
    drains := fun found => by
      obtain ⟨threads, busy⟩ := reachable.exists_busy
      exact orderly.drains found threads busy }

theorem Reachable.call (reachable : Reachable latch) (thread : ThreadId)
    (call : Call α) (idle : latch.stages thread = .idle) :
    Reachable (latch.move thread call.stage) :=
  reachable.move (.call thread call idle)

theorem Reachable.go (reachable : Reachable latch) (goes : Goes latch later) :
    Reachable later :=
  reachable.move (.go goes)

/-- A value is set after a waiter found none and before the waiter parks. -/
theorem keepsFirst_of_crossing :
    ∃ latch : Latch Nat, Reachable latch ∧
      latch.returns = [(0, .waited 7), (1, .published true)] ∧
      latch.KeepsFirst := by
  have parked := Reachable.fresh
    |>.call 0 .wait rfl
    |>.go (.glanceInVain 0 rfl rfl)
    |>.go (.enter 0 rfl rfl)
    |>.go (.checkInVain 0 rfl rfl)
    |>.call 1 (.publish 7) rfl
    |>.go (.set 1 rfl)
    |>.go (.park 0 rfl)
  have published := parked
    |>.go (.announce 1 rfl rfl)
    |>.go (.notify 1 rfl)
    |>.go (.returnStored 1 rfl)
  have waited := published
    |>.go (.enter 0 rfl rfl)
    |>.go (.check 0 rfl rfl)
    |>.go (.returnValue 0 rfl)
  exact ⟨_, waited, rfl, keepsFirst_of_reachable waited⟩

/-! ### The latch of an entry -/

/-- A latch is that of an entry of a store. -/
def Guards (latch : Latch Body) (store : Store) (name : TypeName)
    (identity : Nat) : Prop :=
  ∃ entry, store.entryFor? name identity = some entry ∧
    entry.body? = latch.value?

/-- To publish a body is to try to set the cell. -/
theorem Guards.publish {latch : Latch Body} {store : Store} {name : TypeName}
    {identity : Nat} (guards : latch.Guards store name identity) (body : Body)
    (thread : ThreadId) :
    ∃ later, store.perform thread (.publish name identity body) =
      .ok ((), later) ∧ (latch.set body).Guards later name identity := by
  obtain ⟨entry, found, same⟩ := guards
  have numbered := (Store.entryFor?_eq_some.mp found).2
  refine ⟨_, by simp only [Store.perform, found]; rfl,
    entry.publish body, ?_, ?_⟩
  · exact Store.entryFor?_eq_some.mpr
      ⟨by simp [Store.setEntry, NameMap.get?_insert], numbered⟩
  · simp [Entry.publish, same]

/-- What a thread waited for is the body that awaiting the entry gives. -/
theorem Guards.await {latch : Latch Body} {store : Store} {name : TypeName}
    {identity : Nat} (guards : latch.Guards store name identity)
    (reachable : Reachable latch) {waiter : ThreadId} {body : Body}
    (waited : (waiter, .waited body) ∈ latch.returns) (thread : ThreadId) :
    store.perform thread (.await (.cached name identity)) =
      .ok (body, store) := by
  obtain ⟨entry, found, same⟩ := guards
  have held : latch.value? = some body :=
    reachable.orderly.kept.returns _ waited
  simp [Store.perform, Store.body?, found, same, held]

end Latch

end TypeAtlas
