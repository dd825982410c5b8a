import TypeAtlas.Facts.Basic
import TypeAtlas.NameMap

/-!
# Facts tables

A facts table holds the facts of the types that are known, each under its own
name.  The facts put in last are the ones that count.
-/

namespace TypeAtlas

/-- The facts of the known types. -/
structure FactsTable where
  types : NameMap TypeFacts
  /-- Facts are kept under the name of the type that they describe. -/
  nameEq : ∀ name facts, types.get? name = some facts → facts.name = name

namespace FactsTable

def empty : FactsTable :=
  ⟨NameMap.empty, by simp⟩

instance : Inhabited FactsTable := ⟨empty⟩

def get? (table : FactsTable) (name : TypeName) : Option TypeFacts :=
  table.types.get? name

def contains (table : FactsTable) (name : TypeName) : Bool :=
  table.types.contains name

def names (table : FactsTable) : List TypeName :=
  table.types.names

def size (table : FactsTable) : Nat :=
  table.types.size

/-- The table with the facts of one type set. -/
def insert (table : FactsTable) (facts : TypeFacts) : FactsTable :=
  ⟨table.types.insert facts.name facts, by
    intro name found present
    rw [NameMap.get?_insert] at present
    split at present
    · simp_all
    · exact table.nameEq name found present⟩

/-- The table with the facts of several types set, one after the other. -/
def insertAll (table : FactsTable) (types : List TypeFacts) : FactsTable :=
  types.foldl insert table

@[simp]
theorem get?_insert (table : FactsTable) (facts : TypeFacts) (name : TypeName) :
    (table.insert facts).get? name =
      if name = facts.name then some facts else table.get? name :=
  NameMap.get?_insert table.types name facts.name facts

theorem name_eq_of_get? {table : FactsTable} {name : TypeName}
    {facts : TypeFacts} (found : table.get? name = some facts) :
    facts.name = name :=
  table.nameEq name facts found

end FactsTable

end TypeAtlas
