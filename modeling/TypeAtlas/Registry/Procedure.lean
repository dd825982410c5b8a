import TypeAtlas.Registry.Store

/-!
# Procedures

What a thread does to a registry is a procedure: one action on the store after
the other, each chosen by the answers to those before it.  An action is atomic,
and between two actions of one thread other threads may act.  Run on its own, a
procedure goes on to its end, or to where it waits for a descriptor that is not
published.
-/

namespace TypeAtlas

/-- What ends a lookup early. -/
inductive Stop where
  | error (error : Error)
  /-- A collaborator crashed. -/
  | crash (crash : Crash)
  /-- The descriptor is being assembled by another thread. -/
  | blocked (name : TypeName)
  /-- Assemblies are nested deeper than the bound that was computed. -/
  | exhausted
  deriving Repr, DecidableEq

/-- The two kinds of lookups of a name. -/
inductive LookupKind where
  /-- Waits until the descriptor is published. -/
  | topLevel
  /-- Takes the descriptor as it stands. -/
  | nested
  deriving Repr, DecidableEq

/-- What is found under a name that is asked for. -/
inductive Found where
  /-- Nothing, so that an entry was made for the asking thread to assemble. -/
  | made (identity : Nat)
  | present (identity : Nat) (builder : ThreadId) (isPublished : Bool)
  deriving Repr, DecidableEq

/-- A note on what goes on, which changes nothing. -/
inductive Mark where
  | asked (kind : LookupKind) (name : TypeName)
  | answered (kind : LookupKind) (name : TypeName)
    (outcome : Except Stop Descriptor)
  | building (name : TypeName)

/-- An atomic action on the store. -/
inductive Action where
  /-- Finds the entry of a name, or makes it. -/
  | enter (name : TypeName)
  /-- Publishes the body of an entry, unless it has one. -/
  | publish (name : TypeName) (identity : Nat) (body : Body)
  /-- Waits for the body of a descriptor. -/
  | await (descriptor : Descriptor)
  | recordHit
  | recordMiss
  | recordBuild (failed : Bool)
  /-- Takes an unused number. -/
  | takeNumber
  /-- Reads the target that is kept for a slot. -/
  | readTarget (slot : Nat)
  /-- Keeps a target for a slot, unless there is one, which is taken then. -/
  | keepTarget (slot : Nat) (target : Descriptor)
  /-- Looks at a descriptor as it stands. -/
  | look (descriptor : Descriptor)
  | report (event : Event)
  | mark (mark : Mark)

@[reducible]
def Action.Answer : Action → Type
  | .enter _ => Found
  | .await _ => Body
  | .takeNumber => Nat
  | .readTarget _ => Option Descriptor
  | .keepTarget _ _ => Descriptor
  | .look _ => Snapshot
  | .publish _ _ _ | .recordHit | .recordMiss | .recordBuild _ | .report _
  | .mark _ => Unit

/-- Performs an action of a thread: its answer and the store after it, or else
the descriptor that has to be published first. -/
def Store.perform (store : Store) (thread : ThreadId) :
    (action : Action) → Except Descriptor (action.Answer × Store)
  | .enter name =>
    match store.entries.get? name with
    | some entry =>
      .ok (.present entry.identity entry.builder entry.isPublished, store)
    | none =>
      let entry : Entry := { identity := store.fresh, builder := thread }
      .ok (.made store.fresh, store.useNumber.setEntry name entry)
  | .publish name identity body =>
    match store.entryFor? name identity with
    | some entry => .ok ((), store.setEntry name (entry.publish body))
    | none => .ok ((), store)
  | .await descriptor =>
    match store.body? descriptor with
    | some body => .ok (body, store)
    | none => .error descriptor
  | .recordHit => .ok ((), store.recordHit)
  | .recordMiss => .ok ((), store.recordMiss)
  | .recordBuild failed => .ok ((), store.recordBuild failed)
  | .takeNumber => .ok (store.fresh, store.useNumber)
  | .readTarget slot => .ok (store.targets.lookup slot, store)
  | .keepTarget slot target =>
    match store.targets.lookup slot with
    | some kept => .ok (kept, store)
    | none => .ok (target, store.keepTarget slot target)
  | .look descriptor => .ok (store.snapshot descriptor, store)
  | .report event => .ok ((), store.report event)
  | .mark _ => .ok ((), store)

/-- An action that was performed, with the answer that it had. -/
structure Deed where
  action : Action
  answer : action.Answer

/-- A tree of actions, which goes on by the answer to each. -/
inductive Procedure (α : Type) where
  | done (value : α)
  | act (action : Action) (next : action.Answer → Procedure α)

namespace Procedure

/-- The procedure that goes on with the value of another one. -/
def andThen : Procedure α → (α → Procedure β) → Procedure β
  | .done value, continue_ => continue_ value
  | .act action next, continue_ =>
    .act action fun answer => (next answer).andThen continue_

instance : Monad Procedure where
  pure := .done
  bind := andThen

theorem andThen_done (procedure : Procedure α) :
    procedure.andThen .done = procedure := by
  induction procedure with
  | done value => rfl
  | act action next ih => simp only [andThen, ih]

theorem andThen_assoc (procedure : Procedure α) (first : α → Procedure β)
    (second : β → Procedure γ) :
    (procedure.andThen first).andThen second =
      procedure.andThen fun value => (first value).andThen second := by
  induction procedure with
  | done value => rfl
  | act action next ih => simp only [andThen, ih]

instance : LawfulMonad Procedure :=
  LawfulMonad.mk' Procedure andThen_done (fun _ _ => rfl) andThen_assoc

/-- What came of running a procedure. -/
structure Run (α : Type) where
  /-- The value at the end, or the descriptor that is waited for. -/
  outcome : Except Descriptor α
  /-- What was done, in order. -/
  deeds : List Deed
  store : Store

/-- Runs a procedure of a thread while no other thread acts. -/
def run (thread : ThreadId) : Procedure α → Store → Run α
  | .done value, store => { outcome := .ok value, deeds := [], store }
  | .act action next, store =>
    match store.perform thread action with
    | .error descriptor => { outcome := .error descriptor, deeds := [], store }
    | .ok (answer, store) =>
      let rest := (next answer).run thread store
      { rest with deeds := ⟨action, answer⟩ :: rest.deeds }

end Procedure

abbrev Lookup := ExceptT Stop Procedure

namespace Lookup

def perform (action : Action) : Lookup action.Answer :=
  ExceptT.lift (.act action .done)

def fail (error : Error) : Lookup α :=
  throw (.error error)

/-- An outcome of which a failure ends the lookup. -/
def ofExcept (rephrase : ε → Error) : Except ε α → Lookup α
  | .ok value => pure value
  | .error error => fail (rephrase error)

/-- The outcome of a lookup, which itself does not end early. -/
def attempt (lookup : Lookup α) : Lookup (Except Stop α) :=
  ExceptT.lift (ExceptT.run lookup)

def mark (mark : Mark) : Lookup Unit :=
  perform (.mark mark)

/-- A lookup of a name, with notes of where it starts and how it ends. -/
def noted (kind : LookupKind) (name : TypeName) (lookup : Lookup Descriptor) :
    Lookup Descriptor := do
  mark (.asked kind name)
  let outcome ← attempt lookup
  mark (.answered kind name outcome)
  ExceptT.mk (pure outcome)

end Lookup

end TypeAtlas
