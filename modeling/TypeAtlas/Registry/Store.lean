import TypeAtlas.Descriptor.Basic
import TypeAtlas.Transform.Children

/-!
# The store of a registry

A registry keeps one descriptor for each name that it was asked for.  A name is
entered before its descriptor is assembled, so that types may refer to each
other in circles, and its body is published when assembly ends.  Everything
that lookups change is in the store: the entries, the statistics, the targets
of references to specializations, remembered child transforms, and what
collaborators report.
-/

namespace TypeAtlas

abbrev ThreadId := Nat

/-- A cached descriptor. -/
structure Entry where
  identity : Nat
  /-- The thread that entered the name and assembles the body. -/
  builder : ThreadId
  /-- The body, once it is published. -/
  body? : Option Body := none

namespace Entry

def isPublished (entry : Entry) : Bool :=
  entry.body?.isSome

/-- The entry with its body published; a body that was published stays. -/
def publish (entry : Entry) (body : Body) : Entry :=
  { entry with body? := entry.body?.or (some body) }

end Entry

/-- How a descriptor stands: unfinished, ready, or failed for a reason. -/
inductive BuildState where
  | inProgress
  | ready (category : Category)
  | failed (category : Category) (reason : String)
  deriving Repr, DecidableEq

def Body.state (body : Body) : BuildState :=
  match body.failure? with
  | none => .ready body.parts.category
  | some reason => .failed body.parts.category reason

/-- A descriptor as it stood at some time. -/
structure Snapshot where
  display : String
  state : BuildState
  deriving Repr, DecidableEq

/-- What a scripted introspection found out. -/
inductive Finding where
  | descriptor (snapshot : Snapshot)
  | error (error : Error)
  /-- What introspection is told about the type and the configuration. -/
  | surroundings (hasImplementation : Bool) (rootType : TypeName)
  deriving Repr, DecidableEq

/-- What a collaborator reported. -/
inductive Event where
  | call (call : Call)
  | introspecting (type : TypeName) (finding : Finding)

/-- Counts of lookups and of assemblies. -/
structure Stats where
  /-- Top-level lookups served by an entry that was there. -/
  hits : Nat := 0
  /-- Top-level lookups that made the entry. -/
  misses : Nat := 0
  /-- Assemblies, those inside others included. -/
  builds : Nat := 0
  /-- Assemblies that failed. -/
  failures : Nat := 0
  deriving Repr, DecidableEq

/-- All that lookups change. -/
structure Store where
  entries : NameMap Entry := NameMap.empty
  stats : Stats := {}
  /-- The next unused number for references and descriptors. -/
  fresh : Nat := 0
  /-- The targets of references to specializations, by the slot of each. -/
  targets : List (Nat × Descriptor) := []
  /-- Child transforms found before, by the type that was asked. -/
  memos : NameMap ChildTransforms.Memos := NameMap.empty
  /-- What was reported, the latest report first. -/
  reports : List Event := []

namespace Store

instance : Inhabited Store := ⟨{}⟩

/-- The entry that a name and an identity lead to. -/
def entryFor? (store : Store) (name : TypeName) (identity : Nat) :
    Option Entry :=
  (store.entries.get? name).filter fun entry => entry.identity == identity

def body? (store : Store) : Descriptor → Option Body
  | .cached name identity => (store.entryFor? name identity).bind Entry.body?
  | .detached _ _ body => some body

def snapshot (store : Store) (descriptor : Descriptor) : Snapshot :=
  match store.body? descriptor with
  | some body => ⟨body.display descriptor.expr, body.state⟩
  | none => ⟨descriptor.expr.render, .inProgress⟩

def useNumber (store : Store) : Store :=
  { store with fresh := store.fresh + 1 }

/-- The store with the entry of a name set. -/
def setEntry (store : Store) (name : TypeName) (entry : Entry) : Store :=
  { store with entries := store.entries.insert name entry }

/-- The store with a target kept for a slot. -/
def keepTarget (store : Store) (slot : Nat) (target : Descriptor) : Store :=
  { store with targets := (slot, target) :: store.targets }

/-- The store after a top-level lookup that an entry served. -/
def recordHit (store : Store) : Store :=
  { store with stats := { store.stats with hits := store.stats.hits + 1 } }

/-- The store after a top-level lookup that made an entry. -/
def recordMiss (store : Store) : Store :=
  { store with stats := { store.stats with misses := store.stats.misses + 1 } }

def recordBuild (store : Store) (failed : Bool) : Store :=
  { store with
    stats :=
      { store.stats with
        builds := store.stats.builds + 1
        failures := store.stats.failures + if failed then 1 else 0 } }

def report (store : Store) (event : Event) : Store :=
  { store with reports := event :: store.reports }

end Store

end TypeAtlas
