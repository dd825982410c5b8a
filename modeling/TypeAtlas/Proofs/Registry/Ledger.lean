import TypeAtlas.Proofs.Registry.Content

/-!
# Ledgers

A ledger is a store with a record of the expressions that its slots were taken
for.  In it, all names that a published body refers to are cached, and the
target that is kept for a slot is what the expression of the slot resolves to.
A procedure upholds the ledger when each of its actions, done at any later time,
leaves another ledger.  What a ledger tells stays true in all later ones, so
procedures of many threads may be interleaved in any way.
-/

namespace TypeAtlas

open Lookup

/-- A store, with the expressions that its slots were taken for. -/
structure Records where
  store : Store := {}
  wrapped : Nat → Option TypeExpr := fun _ => none

namespace Records

variable {records later latest : Records} {name : TypeName} {body : Body}
  {expression : TypeExpr} {reference : TypeRef} {descriptor : Descriptor}

def Caches (records : Records) (name : TypeName) : Prop :=
  ∃ entry, records.store.entries.get? name = some entry

def Names (records : Records) (name : TypeName) (descriptor : Descriptor) :
    Prop :=
  ∃ entry, records.store.entries.get? name = some entry ∧
    descriptor = .cached name entry.identity

/-- Whether a reference was taken, after all names in it had been cached. -/
structure Backs (records : Records) (reference : TypeRef) : Prop where
  caches : ∀ name ∈ reference.expr.names, records.Caches name
  taken : records.wrapped reference.slot = some reference.expr

/-- Whether all references in a body were taken. -/
def Covers (records : Records) (body : Body) : Prop :=
  ∀ reference ∈ body.references, records.Backs reference

/-- What an expression resolves to, by what is published for its head. -/
inductive Resolves (records : Records) (expression : TypeExpr) :
    Descriptor → Prop where
  | plain {descriptor : Descriptor}
    (unparameterized : expression.isParameterized = false)
    (names : records.Names expression.name descriptor) :
    Resolves records expression descriptor
  /-- The head takes no arguments, so those that are given are dropped. -/
  | dropped {descriptor : Descriptor} {body : Body}
    (parameterized : expression.isParameterized = true)
    (published : records.store.published? expression.name = some body)
    (takesNone : body.parts.category.arity? = none)
    (names : records.Names expression.name descriptor) :
    Resolves records expression descriptor
  | specialized {body : Body} {number : Nat} {references : List TypeRef}
    (parameterized : expression.isParameterized = true)
    (published : records.store.published? expression.name = some body)
    (arity : body.parts.category.arity? = some expression.args.length)
    (wraps : references.map TypeRef.expr = expression.args)
    (backs : ∀ reference ∈ references, records.Backs reference) :
    Resolves records expression
      (.detached number expression (specialized body references))

/-- Whether all that is recorded is recorded later as well. -/
structure Within (records later : Records) : Prop where
  entries : records.store.Within later.store
  targets : ∀ slot target, records.store.targets.lookup slot = some target →
    later.store.targets.lookup slot = some target
  wrapped : ∀ slot expression, records.wrapped slot = some expression →
    later.wrapped slot = some expression

theorem Within.refl (records : Records) : records.Within records where
  entries := Store.Within.refl _
  targets _ _ kept := kept
  wrapped _ _ taken := taken

theorem Within.trans (first : records.Within later)
    (second : later.Within latest) : records.Within latest where
  entries := first.entries.trans second.entries
  targets slot target kept :=
    second.targets slot target (first.targets slot target kept)
  wrapped slot expression taken :=
    second.wrapped slot expression (first.wrapped slot expression taken)

theorem Caches.mono (caches : records.Caches name)
    (grows : records.Within later) : later.Caches name := by
  obtain ⟨entry, found⟩ := caches
  obtain ⟨entryLater, foundLater, _⟩ := grows.entries name entry found
  exact ⟨entryLater, foundLater⟩

theorem Names.mono (names : records.Names name descriptor)
    (grows : records.Within later) : later.Names name descriptor := by
  obtain ⟨entry, found, rfl⟩ := names
  obtain ⟨entryLater, foundLater, within⟩ := grows.entries name entry found
  exact ⟨entryLater, foundLater, by rw [within.identity]⟩

theorem Names.caches (names : records.Names name descriptor) :
    records.Caches name := by
  obtain ⟨entry, found, _⟩ := names
  exact ⟨entry, found⟩

theorem Names.unique {other : Descriptor}
    (names : records.Names name descriptor)
    (namesToo : records.Names name other) : descriptor = other := by
  obtain ⟨entry, found, rfl⟩ := names
  obtain ⟨entryToo, foundToo, rfl⟩ := namesToo
  cases found.symm.trans foundToo
  rfl

theorem Backs.mono (backs : records.Backs reference)
    (grows : records.Within later) : later.Backs reference where
  caches name member := (backs.caches name member).mono grows
  taken := grows.wrapped _ _ backs.taken

theorem Covers.mono (covers : records.Covers body)
    (grows : records.Within later) : later.Covers body :=
  fun reference member => (covers reference member).mono grows

theorem Within.published? (grows : records.Within later)
    (published : records.store.published? name = some body) :
    later.store.published? name = some body := by
  obtain ⟨entry, found, given⟩ := Store.published?_eq_some.1 published
  obtain ⟨entryLater, foundLater, within⟩ := grows.entries name entry found
  exact Store.published?_eq_some.2
    ⟨entryLater, foundLater, within.body body given⟩

theorem Resolves.mono (resolves : records.Resolves expression descriptor)
    (grows : records.Within later) : later.Resolves expression descriptor := by
  cases resolves with
  | plain unparameterized names =>
    exact .plain unparameterized (names.mono grows)
  | dropped parameterized published takesNone names =>
    exact .dropped parameterized (grows.published? published) takesNone
      (names.mono grows)
  | specialized parameterized published arity wraps backs =>
    exact .specialized parameterized (grows.published? published) arity wraps
      fun reference member => (backs reference member).mono grows

theorem Names.published?_of_body? (names : records.Names name descriptor)
    (given : records.store.body? descriptor = some body) :
    records.store.published? name = some body := by
  obtain ⟨entry, found, rfl⟩ := names
  exact Store.published?_of_body? given

theorem Names.body?_of_published? (names : records.Names name descriptor)
    (published : records.store.published? name = some body) :
    records.store.body? descriptor = some body := by
  obtain ⟨entry, found, rfl⟩ := names
  obtain ⟨another, foundToo, given⟩ := Store.published?_eq_some.1 published
  cases found.symm.trans foundToo
  exact Store.body?_cached_eq_some.2 ⟨entry, found, rfl, given⟩

end Records

/-- Records that are in order.  What is published refers only to what was taken,
a target that is kept is what the expression of its slot resolves to, and slots
that are not used yet were not taken for anything. -/
structure Ledger extends Records where
  covered : ∀ name body, store.published? name = some body →
    toRecords.Covers body
  kept : ∀ slot target, store.targets.lookup slot = some target →
    ∃ expression, wrapped slot = some expression ∧
      toRecords.Resolves expression target
  unused : ∀ slot, store.fresh ≤ slot → wrapped slot = none

namespace Ledger

abbrev Within (ledger later : Ledger) : Prop :=
  ledger.toRecords.Within later.toRecords

def blank : Ledger where
  covered _ _ published := by cases published
  kept _ _ kept := by cases kept
  unused _ _ := rfl

def extend (ledger : Ledger) (records : Records)
    (grows : ledger.toRecords.Within records)
    (covered : ∀ name body, records.store.published? name = some body →
      ledger.store.published? name = some body ∨ records.Covers body)
    (kept : ∀ slot target,
      records.store.targets.lookup slot = some target →
        ledger.store.targets.lookup slot = some target ∨
          ∃ expression, records.wrapped slot = some expression ∧
            records.Resolves expression target)
    (unused : ∀ slot, records.store.fresh ≤ slot →
      records.wrapped slot = none) : Ledger where
  toRecords := records
  covered name body published := by
    rcases covered name body published with before | covers
    · exact (ledger.covered name body before).mono grows
    · exact covers
  kept slot target found := by
    rcases kept slot target found with before | resolves
    · obtain ⟨expression, taken, resolves⟩ := ledger.kept slot target before
      exact ⟨expression, grows.wrapped _ _ taken, resolves.mono grows⟩
    · exact resolves
  unused := unused

end Ledger

end TypeAtlas
