import Mathlib.Tactic.Simps.Basic
import TypeAtlas.Registry.Store

/-!
# Latches

The body of an entry stands behind a latch: a cell that is set once, a lock, and
a signal on which threads park until a value is published.  A publisher sets the
cell first and takes the lock afterwards, to notify all threads that are parked.
A thread that waits looks at the cell without the lock, and then again with it
each time before it parks.  Parking releases the lock in the same step.  Parked
threads may wake up without being notified.

Any number of threads call a latch, each as often as it likes, and their steps
interleave in every way there is.
-/

namespace TypeAtlas

namespace Latch

/-- A call of a latch. -/
inductive Call (α : Type) where
  | publish (value : α)
  | wait
  | get

/-- What a call of a latch came to. -/
inductive Return (α : Type) where
  /-- A value was published, which was stored or came too late. -/
  | published (stored : Bool)
  | waited (value : α)
  | got (value? : Option α)

/-- Where a thread is in its call, if it is in one. -/
inductive Stage (α : Type) where
  | idle
  /-- About to set the cell. -/
  | setting (value : α)
  /-- Has set the cell or come too late, and is about to take the lock. -/
  | announcing (stored : Bool)
  /-- Holds the lock, and is about to notify all that are parked. -/
  | notifying (stored : Bool)
  /-- Holds the lock still, and is about to release it and return. -/
  | notified (stored : Bool)
  /-- About to look at the cell without the lock. -/
  | glancing
  /-- About to take the lock, for the first time or back. -/
  | entering
  /-- Holds the lock, and is about to look at the cell. -/
  | checking
  /-- Holds the lock, and is about to release it and park. -/
  | parking
  | parked
  /-- Holds the lock, and is about to release it and return a value. -/
  | leaving (value : α)
  /-- About to look at the cell and return. -/
  | peeking

/-- Where a call starts. -/
def Call.stage : Call α → Stage α
  | .publish value => .setting value
  | .wait => .glancing
  | .get => .peeking

namespace Stage

def holdsLock : Stage α → Bool
  | .notifying _ | .notified _ | .checking | .parking | .leaving _ => true
  | _ => false

/-- Where a thread is once all that are parked were notified. -/
def awake : Stage α → Stage α
  | .parked => .entering
  | stage => stage

end Stage

end Latch

/-- A latch with the threads that call it, and what they have done so far. -/
structure Latch (α : Type) where
  /-- The cell. -/
  value? : Option α := none
  /-- The thread that holds the lock. -/
  holder? : Option ThreadId := none
  stages : ThreadId → Latch.Stage α := fun _ => .idle
  /-- The attempts to set the cell and whether they did, the latest first. -/
  sets : List (α × Bool) := []
  /-- What calls have come to, the latest first. -/
  returns : List (ThreadId × Latch.Return α) := []

namespace Latch

/-- A latch with a value in its cell from the start. -/
def ready (value : α) : Latch α :=
  { value? := some value, sets := [(value, true)] }

/-- The latch with a thread at another stage. -/
@[simps value? holder? sets returns]
def move (latch : Latch α) (thread : ThreadId) (stage : Stage α) : Latch α :=
  { latch with
    stages := fun other => if other = thread then stage
      else latch.stages other }

/-- The latch after an attempt to set the cell, which keeps its first value. -/
@[simps]
def set (latch : Latch α) (value : α) : Latch α :=
  { latch with
    value? := latch.value?.or (some value)
    sets := (value, latch.value?.isNone) :: latch.sets }

@[simps]
def hold (latch : Latch α) (holder? : Option ThreadId) : Latch α :=
  { latch with holder? }

/-- The latch after all threads that are parked were notified. -/
@[simps]
def notifyAll (latch : Latch α) : Latch α :=
  { latch with stages := fun thread => (latch.stages thread).awake }

/-- The latch after the call of a thread came to something. -/
@[simps value? holder? sets returns]
def finish (latch : Latch α) (thread : ThreadId) (result : Return α) :
    Latch α :=
  { latch.move thread .idle with
    returns := (thread, result) :: latch.returns }

/-- A thread goes on in its call by one step. -/
inductive Goes (latch : Latch α) : Latch α → Prop where
  | set (thread : ThreadId) {value : α}
    (stage : latch.stages thread = .setting value) :
    Goes latch ((latch.set value).move thread
      (.announcing latch.value?.isNone))
  | announce (thread : ThreadId) {stored : Bool}
    (stage : latch.stages thread = .announcing stored)
    (free : latch.holder? = none) :
    Goes latch ((latch.hold (some thread)).move thread (.notifying stored))
  | notify (thread : ThreadId) {stored : Bool}
    (stage : latch.stages thread = .notifying stored) :
    Goes latch (latch.notifyAll.move thread (.notified stored))
  | returnStored (thread : ThreadId) {stored : Bool}
    (stage : latch.stages thread = .notified stored) :
    Goes latch ((latch.hold none).finish thread (.published stored))
  | glance (thread : ThreadId) {value : α}
    (stage : latch.stages thread = .glancing)
    (found : latch.value? = some value) :
    Goes latch (latch.finish thread (.waited value))
  | glanceInVain (thread : ThreadId)
    (stage : latch.stages thread = .glancing) (absent : latch.value? = none) :
    Goes latch (latch.move thread .entering)
  | enter (thread : ThreadId) (stage : latch.stages thread = .entering)
    (free : latch.holder? = none) :
    Goes latch ((latch.hold (some thread)).move thread .checking)
  | check (thread : ThreadId) {value : α}
    (stage : latch.stages thread = .checking)
    (found : latch.value? = some value) :
    Goes latch (latch.move thread (.leaving value))
  | checkInVain (thread : ThreadId)
    (stage : latch.stages thread = .checking) (absent : latch.value? = none) :
    Goes latch (latch.move thread .parking)
  | park (thread : ThreadId) (stage : latch.stages thread = .parking) :
    Goes latch ((latch.hold none).move thread .parked)
  | returnValue (thread : ThreadId) {value : α}
    (stage : latch.stages thread = .leaving value) :
    Goes latch ((latch.hold none).finish thread (.waited value))
  | peek (thread : ThreadId) (stage : latch.stages thread = .peeking) :
    Goes latch (latch.finish thread (.got latch.value?))

/-- What may happen next to a latch. -/
inductive Moves (latch : Latch α) : Latch α → Prop where
  | call (thread : ThreadId) (call : Call α)
    (idle : latch.stages thread = .idle) :
    Moves latch (latch.move thread call.stage)
  | go {later : Latch α} (goes : Goes latch later) : Moves latch later
  /-- A parked thread wakes up without being notified. -/
  | wake (thread : ThreadId) (stage : latch.stages thread = .parked) :
    Moves latch (latch.move thread .entering)

/-- The latches that come of calls of a latch that was just made. -/
inductive Reachable : Latch α → Prop where
  | fresh : Reachable {}
  | ready (value : α) : Reachable (ready value)
  | move {latch later : Latch α} (reachable : Reachable latch)
    (moves : Moves latch later) : Reachable later

end Latch

end TypeAtlas
