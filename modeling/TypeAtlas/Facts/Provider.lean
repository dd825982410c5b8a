import TypeAtlas.Error
import TypeAtlas.Facts.Table

/-!
# Facts providers

A provider answers requests for the facts of a type.  It answers from a table,
except for names on which it is known to fail or to crash.  The hierarchy of
types is read through a provider: a type that it gives no facts for has a place
in the hierarchy but nothing above it.
-/

namespace TypeAtlas

/-- The abrupt end of a collaborator, with its message where it left one. -/
structure Crash where
  message? : Option String
  deriving Repr, DecidableEq, Inhabited

def Crash.report (crash : Crash) : String :=
  crash.message?.getD "non-string panic payload"

/-- What a provider does, on every request, instead of answering. -/
inductive Disruption where
  | crash (crash : Crash)
  | failure (error : FactsError)
  deriving Repr, DecidableEq

/-- A source of facts: a table, and names that it does not answer from it. -/
structure Provider where
  table : FactsTable
  disruptions : NameMap Disruption := NameMap.empty

instance : Inhabited Provider := ⟨{ table := FactsTable.empty }⟩

namespace Provider

def ofTable (table : FactsTable) : Provider :=
  { table }

/-- The crash that a request for the facts of a name ends in. -/
def crash? (provider : Provider) (name : TypeName) : Option Crash :=
  match provider.disruptions.get? name with
  | some (.crash crash) => some crash
  | _ => none

/-- The facts of a name, or why there are none, where the request ends. -/
def facts (provider : Provider) (name : TypeName) :
    Except FactsError TypeFacts :=
  match provider.disruptions.get? name with
  | some (.failure error) => .error error
  | _ =>
    match provider.table.get? name with
    | some facts => .ok facts
    | none => .error (.notFound name)

/-- The facts that the provider gives for a name, if it gives any. -/
def known? (provider : Provider) (name : TypeName) : Option TypeFacts :=
  match provider.disruptions.get? name with
  | some _ => none
  | none => provider.table.get? name

theorem mem_names_of_known? {provider : Provider} {name : TypeName}
    {facts : TypeFacts} (known : provider.known? name = some facts) :
    name ∈ provider.table.names := by
  unfold known? at known
  split at known
  · simp at known
  · exact NameMap.mem_names_of_get? known

/-- The steps from a type to each of its supertypes. -/
def stepsFrom (provider : Provider) (name : TypeName) :
    List (TypeName × TypeName) :=
  match provider.known? name with
  | some facts => facts.supertypes.map fun supertype => (name, supertype)
  | none => []

def steps (provider : Provider) : List (TypeName × TypeName) :=
  provider.table.names.flatMap provider.stepsFrom

/-- The steps from types that are not among those already seen. -/
def stepsLeft (provider : Provider) (seen : List TypeName) :
    List (TypeName × TypeName) :=
  provider.steps.filter fun step => !seen.contains step.1

theorem stepsLeft_cons (provider : Provider) (name : TypeName)
    (seen : List TypeName) :
    provider.stepsLeft (name :: seen) =
      (provider.stepsLeft seen).filter fun step => !(step.1 == name) := by
  unfold stepsLeft
  rw [List.filter_filter]
  apply List.filter_congr
  intro step _
  by_cases same : step.1 = name <;> simp [same]

theorem length_stepsLeft_cons_le (provider : Provider) (name : TypeName)
    (seen : List TypeName) :
    (provider.stepsLeft (name :: seen)).length ≤
      (provider.stepsLeft seen).length := by
  rw [stepsLeft_cons]
  exact List.length_filter_le _ _

theorem stepsFrom_of_known? {provider : Provider} {name : TypeName}
    {facts : TypeFacts} (known : provider.known? name = some facts) :
    provider.stepsFrom name =
      facts.supertypes.map fun supertype => (name, supertype) := by
  rw [stepsFrom, known]

theorem stepsFrom_sublist_stepsLeft {provider : Provider} {name : TypeName}
    {facts : TypeFacts} {seen : List TypeName}
    (known : provider.known? name = some facts) (fresh : name ∉ seen) :
    (provider.stepsFrom name).Sublist (provider.stepsLeft seen) := by
  have isStep : (provider.stepsFrom name).Sublist provider.steps :=
    List.sublist_flatten_of_mem
      (List.mem_map_of_mem (mem_names_of_known? known))
  have isLeft : ∀ step ∈ provider.stepsFrom name,
      (!seen.contains step.1) = true := by
    rw [stepsFrom_of_known? known]
    simpa using fun _ _ => fresh
  have kept := isStep.filter fun step => !seen.contains step.1
  rwa [List.filter_eq_self.2 isLeft] at kept

/-- The steps from a type are no longer left once it was seen. -/
theorem length_supertypes_add_stepsLeft_cons_le {provider : Provider}
    {name : TypeName} {facts : TypeFacts} {seen : List TypeName}
    (known : provider.known? name = some facts) (fresh : name ∉ seen) :
    facts.supertypes.length + (provider.stepsLeft (name :: seen)).length ≤
      (provider.stepsLeft seen).length := by
  have counted : facts.supertypes.length ≤
      (provider.stepsLeft seen).countP fun step => step.1 == name := by
    have fewer := (stepsFrom_sublist_stepsLeft known fresh).countP_le
      (p := fun step => step.1 == name)
    simpa [stepsFrom_of_known? known, Function.comp_def] using fewer
  rw [stepsLeft_cons, ← List.countP_eq_length_filter,
    List.length_eq_countP_add_countP (fun step => step.1 == name)
      (l := provider.stepsLeft seen)]
  exact Nat.add_le_add counted
    (List.countP_mono_left fun step _ => by simp)

/-- The names met when the supertypes of a queue of types are followed breadth
first, without those already seen.  A name is met once, and what the provider
gives no facts for is met but not followed. -/
def walk (provider : Provider) (seen queue : List TypeName) : List TypeName :=
  match queue with
  | [] => []
  | name :: rest =>
    if name ∈ seen then
      walk provider seen rest
    else
      match _known : provider.known? name with
      | some facts =>
        name :: walk provider (name :: seen) (rest ++ facts.supertypes)
      | none => name :: walk provider (name :: seen) rest
termination_by queue.length + (provider.stepsLeft seen).length
decreasing_by
  · simp
  · have fewer := length_supertypes_add_stepsLeft_cons_le _known (by assumption)
    simp only [List.length_append, List.length_cons]
    omega
  · have noMore := length_stepsLeft_cons_le provider name seen
    simp only [List.length_cons]
    omega

/-- All supertypes of a type, near ones first, without the type itself. -/
def ancestors (provider : Provider) (facts : TypeFacts) : List TypeName :=
  provider.walk [facts.name] facts.supertypes

/-- Whether a type is another one or descends from it.  Nothing descends from
another type unless the provider gives facts for it. -/
def isSubtype (provider : Provider) (sub sup : TypeName) : Bool :=
  sub == sup ||
    (provider.known? sub).any fun facts =>
      (provider.ancestors facts).contains sup

/-- The crash in which finding the ancestors of a type ends. -/
def ancestorsCrash? (provider : Provider) (facts : TypeFacts) : Option Crash :=
  (provider.ancestors facts).findSome? provider.crash?

/-- The crash in which comparing a type with another one ends. -/
def subtypeCrash? (provider : Provider) (sub sup : TypeName) : Option Crash :=
  if sub == sup then none
  else
    (provider.crash? sub).or <|
      (provider.known? sub).bind provider.ancestorsCrash?

end Provider

end TypeAtlas
