import Mathlib.Data.List.Find
import Mathlib.Logic.Relation
import TypeAtlas.Proofs.Construction.Discovery
import TypeAtlas.Proofs.Registry.Remoteability
import TypeAtlas.Proofs.Registry.Stages

/-!
# The recipes of beans

A constructor without arguments is looked for twice: when a type is looked at as
a bean, and when its recipes are discovered.  The first search takes whatever is
visible enough and asks for nothing if the type is abstract or is made as
another type.  The second takes what can be called, and looks at the type that
is made instead.  If beans must have public constructors, the searches agree on
concrete types that are made as themselves, apart from the root type.  So in a
live registry a bean of this kind can be made from nothing.
-/

namespace TypeAtlas

open Construction

theorem TypeFacts.category_eq_other_iff {facts : TypeFacts} :
    facts.category = .other ↔
      ∀ rule ∈ categoryRules, rule.2 facts = false := by
  unfold category
  constructor
  · intro other rule member
    split at other
    next found =>
      have among := List.mem_of_find?_eq_some found
      rw [other] at among
      simp [categoryRules] at among
    next none => simpa using List.find?_eq_none.1 none rule member
  · intro none
    rw [List.find?_eq_none.2 fun rule member => by simp [none rule member]]

theorem TypeFacts.has_root_of_category {facts : TypeFacts}
    (other : facts.category = .other) : facts.has .root = false :=
  category_eq_other_iff.1 other (.object, fun facts => facts.has .root)
    (by simp [categoryRules])

theorem Visibility.reaches_exposed (visibility : Visibility) :
    visibility.reaches .exposed = (visibility == .exposed) := by
  cases visibility <;> rfl

namespace Construction

variable {facts : TypeFacts} {config : Config} {context : Context}

/-- Where beans need public constructors, they need those that can be called. -/
theorem hasBeanConstructor_of_exposed
    (exposed : config.beanConstructorVisibility = .exposed) :
    Bean.hasBeanConstructor facts config =
      facts.constructors.any (isNullary facts) := by
  unfold Bean.hasBeanConstructor
  refine congrArg facts.constructors.any (funext fun constructor => ?_)
  rw [exposed, Visibility.reaches_exposed, isNullary, ConstructorFacts.isUsable,
    Bool.and_comm (constructor.visibility == .exposed)]
  rfl

/-- Concrete types that are made as themselves need the constructor of beans. -/
theorem hasBeanConstructor_of_objection?_eq_none
    (noObjection : Bean.objection? facts config false = none)
    (concrete : facts.isAbstract = false) :
    Bean.hasBeanConstructor facts config = true := by
  by_contra missing
  unfold Bean.objection? at noObjection
  split at noObjection
  · cases noObjection
  · rw [if_pos (by simp [concrete, missing])] at noObjection
    cases noObjection

/-- A concrete type that is made as itself can be made if a bean of it can. -/
theorem isSome_findNoArg?_eq (other : facts.category = .other)
    (exposed : config.beanConstructorVisibility = .exposed)
    (own : context.implementation? = none) (concrete : facts.isAbstract = false)
    (notRoot : facts.name ≠ context.rootType) :
    (findNoArg? facts context).isSome =
      Bean.hasBeanConstructor facts config := by
  rw [hasBeanConstructor_of_exposed exposed, findNoArg?, own,
    TypeFacts.has_root_of_category other, Bool.eq_iff_iff]
  simp [notRoot, concrete, isNullary]

/-- A recipe makes the type that it is for, if no other is made instead. -/
theorem eq_of_findNoArg?_eq_some {recipe : NoArgRecipe}
    (own : context.implementation? = none)
    (found : findNoArg? facts context = some recipe) :
    recipe.source = facts.name ∧
      recipe.requiresEnclosing = facts.requiresEnclosing := by
  simp only [findNoArg?, own, Option.getD_none] at found
  split_ifs at found
  obtain ⟨constructor, -, rfl⟩ := Option.map_eq_some_iff.1 found
  exact ⟨rfl, rfl⟩

end Construction

namespace Parts

/-- Whether parts that say that a type is a bean are those of its outline, and
nothing that its facts say speaks against it. -/
def IsVetted (parts : Parts) (sources : Sources) (name : TypeName) : Prop :=
  parts.bean.shape?.isSome = true → ∃ facts bean,
    sources.provider.known? name = some facts ∧ facts.category = .other ∧
      Bean.objection? facts sources.config
          (sources.config.implementations.contains name) = none ∧
        parts = { Assembly.outlinedBy sources name facts with bean }

variable {parts : Parts} {sources : Sources} {name : TypeName}

theorem isVetted_of_undecided
    (undecided : Assembly.Outlining.Undecided parts) :
    parts.IsVetted sources name := by
  intro bean
  rw [undecided] at bean
  cases bean

/-- A concrete bean that is made as itself has a recipe that makes it from
nothing. -/
theorem IsVetted.exists_noArg (vetted : parts.IsVetted sources name)
    (exposed : sources.config.beanConstructorVisibility = .exposed)
    (bean : parts.bean.shape?.isSome = true)
    (concrete : parts.isAbstract = false)
    (own : sources.config.implementations.get? name = none)
    (notRoot : name ≠ sources.config.rootType) :
    ∃ facts recipe, sources.provider.known? name = some facts ∧
      parts.requiresEnclosing = facts.requiresEnclosing ∧
        parts.recipes.noArg? = some recipe ∧ recipe.source = name ∧
          recipe.requiresEnclosing = facts.requiresEnclosing := by
  obtain ⟨facts, verdict, known, other, noObjection, same⟩ := vetted bean
  have recipes : parts.recipes = discover facts facts.category
      (Assembly.contextOf sources name
        (Assembly.bindingsIn sources facts)) := by
    rw [same]
    rfl
  have enclosing : parts.requiresEnclosing = facts.requiresEnclosing := by
    rw [same]
    rfl
  have concrete : facts.isAbstract = false := by
    rw [same] at concrete
    exact concrete
  have ownToo : (Assembly.contextOf sources name
      (Assembly.bindingsIn sources facts)).implementation? = none := by
    rw [Assembly.contextOf, own]
    rfl
  obtain rfl := Provider.name_eq_of_known? known
  rw [NameMap.contains, own] at noObjection
  have made := hasBeanConstructor_of_objection?_eq_none noObjection concrete
  rw [← isSome_findNoArg?_eq other exposed ownToo concrete notRoot] at made
  obtain ⟨recipe, found⟩ := Option.isSome_iff_exists.1 made
  rw [recipes]
  exact ⟨facts, recipe, known, enclosing, found,
    eq_of_findNoArg?_eq_some ownToo found⟩

end Parts

namespace Assembly

variable {contract : Contract} {sources : Sources} {facts : TypeFacts}
  {past : Past} {body : Body}
  {reference : TypeExpr → Assembling Procedure TypeRef}

/-- The judgement of a type that is a bean had nothing to object to. -/
theorem judge_vets {hasImplementation : Bool}
    (references : ∀ expression, Steady contract (reference expression)) :
    Meets contract (fun _ outcome left => left = body ∧
        ∀ verdict, outcome = .ok verdict → verdict.shape?.isSome = true →
          Bean.objection? facts sources.config hasImplementation = none)
      (judge sources reference facts hasImplementation) past body := by
  cases objection : Bean.objection? facts sources.config hasImplementation with
  | none =>
    have steady :
        Steady contract (judge sources reference facts hasImplementation) :=
      (steady_sequential contract).judge reference
        fun draft _ => references draft.type
    exact (steady past body).mono fun _ _ _ same => ⟨same, fun _ _ _ => rfl⟩
  | some reason =>
    unfold judge
    rw [objection]
    refine meets_pure ⟨rfl, ?_⟩
    rintro _ ⟨⟩ bean
    cases bean

/-- Where introspection decides nothing, only members make a type a bean. -/
theorem verdict_vets {hasImplementation : Bool}
    (references : ∀ expression, Steady contract (reference expression)) :
    Meets contract (fun _ outcome left => left = body ∧
        ∀ verdict, outcome = .ok verdict → verdict.shape?.isSome = true →
          facts.category = .other ∧
            Bean.objection? facts sources.config hasImplementation = none)
      (verdict sources reference (fun _ _ => pure none) facts hasImplementation)
      past body := by
  unfold verdict
  cases other : facts.category == .other with
  | false =>
    refine meets_pure ⟨rfl, ?_⟩
    rintro _ ⟨⟩ bean
    cases bean
  | true =>
    have undecided : Draws contract (· = none)
        (pure none : Assembling Procedure (Option BeanVerdict)) :=
      draws_pure rfl
    refine undecided.meets_bind (fun _ _ => ⟨rfl, nofun⟩) fun later _ same => ?_
    subst same
    refine (judge_vets references).mono fun _ _ _ judged => ⟨judged.1, ?_⟩
    exact fun verdict given bean =>
      ⟨beq_iff_eq.1 other, judged.2 verdict given bean⟩

/-- Without scripts, what assemblies leave is vetted. -/
theorem assemble_isVetted
    (references : ∀ expression, Steady contract (reference expression))
    (name : TypeName) :
    Meets contract
      (fun _ => Lookup.LeavesFitting
        (fun name body => body.parts.IsVetted sources name) name)
      (assemble sources reference (fun _ _ => pure none) name) past
      (Body.blank name) := by
  obtain ⟨outcome, parts, outlined, leaves, undecided⟩ :=
    outline_runStages sources name
  have stops {left : Body} (stop : Stop) (same : left.parts = parts) :
      Lookup.LeavesFitting (fun name body => body.parts.IsVetted sources name)
        name (.error stop) left :=
    fun _ _ => Parts.isVetted_of_undecided (same ▸ undecided)
  unfold assemble
  apply Meets.bind
  apply meets_outline outlined
  rcases outcome with stop | ⟨facts, hasImplementation⟩
  · exact stops stop rfl
  apply Meets.bind
  apply (takeReferences_takes references name parts).mono
  rintro later (stop | _) left takes
  · exact stops stop takes.parts
  apply Meets.bind
  apply (verdict_vets references).mono
  rintro latest (stop | bean) left ⟨rfl, vets⟩
  · exact stops stop takes.parts
  obtain ⟨known, rfl, rfl⟩ := leaves
  refine meets_modify fun isBean => ?_
  obtain ⟨other, noObjection⟩ := vets bean rfl isBean
  refine ⟨facts, bean, known, other, noObjection, ?_⟩
  rw [takes.parts]

end Assembly

def Descriptor.IsVetted (sources : Sources) : Descriptor → Prop
  | .cached _ _ => True
  | .detached _ expression body => body.parts.IsVetted sources expression.name

namespace Lookup

/-- A specialization is a bean just if its type is, and has the same recipes. -/
theorem suits_isVetted (sources : Sources) :
    Suits (fun name body => body.parts.IsVetted sources name)
      (Descriptor.IsVetted sources) where
  cached _ _ := trivial
  specialized number expression body references vetted _ := by
    change (specialized body references).parts.IsVetted sources _
    rwa [specialized_parts]
  argumentList number references := by
    intro bean
    cases bean

theorem assemblesHanding_isVetted {sources : Sources}
    (plain : sources.IsPlain) (thread : ThreadId) :
    AssemblesHanding (fun name body => body.parts.IsVetted sources name)
      (Descriptor.IsVetted sources) { sources, thread } := by
  intro build builds name past
  rw [assembly_of_isPlain plain]
  refine Assembly.assemble_isVetted (fun expression => ?_) name
  exact Assembly.steady_lift (takeReference_hands builds expression)

end Lookup

namespace Pool

variable {sources : Sources} {pool : Pool} {descriptor : Descriptor}
  {body : Body}

theorem Lives.isVetted_of_shows (lives : Lives sources pool)
    (plain : sources.IsPlain) (shown : pool.Shows descriptor)
    (found : pool.store.body? descriptor = some body) :
    body.parts.IsVetted sources descriptor.name := by
  have suits := Lookup.suits_isVetted sources
  have hands := lives.hands suits (Lookup.assemblesHanding_isVetted plain)
  cases descriptor with
  | cached name identity => exact hands.fits_of_cached found
  | detached number expression own =>
    cases found
    exact hands.good_of_shows suits shown

/-- However threads interleave, beans that come up ready in a live registry
without scripts can be made from nothing, if beans must have public
constructors.  This holds of concrete types that are made as themselves, apart
from the root type: the constructor is one of the type, and takes an enclosing
instance just if the type needs one. -/
theorem makesBeans_of_lives (lives : Lives sources pool)
    (plain : sources.IsPlain)
    (exposed : sources.config.beanConstructorVisibility = .exposed)
    (shown : pool.ShowsReady descriptor body)
    (bean : body.parts.bean.shape?.isSome = true)
    (concrete : body.parts.isAbstract = false)
    (own : sources.config.implementations.get? descriptor.name = none)
    (notRoot : descriptor.name ≠ sources.config.rootType) :
    ∃ facts recipe, sources.provider.known? descriptor.name = some facts ∧
      body.parts.requiresEnclosing = facts.requiresEnclosing ∧
        body.parts.recipes.noArg? = some recipe ∧
          recipe.source = descriptor.name ∧
            (recipe.requiresEnclosing = true ↔
              facts.requiresEnclosing = true) := by
  have vetted := lives.isVetted_of_shows plain shown.shown shown.found
  obtain ⟨facts, recipe, known, enclosing, found, source, same⟩ :=
    vetted.exists_noArg exposed bean concrete own notRoot
  exact ⟨facts, recipe, known, enclosing, found, source, by rw [same]⟩

/-- Accounts, and entries that are made within an account. -/
def ledger : Sources where
  provider := Provider.ofTable <| FactsTable.empty.insertAll [
    { name := "Account", constructors := [{ params := [] }] },
    { name := "Entry"
      requiresEnclosing := true
      constructors := [
        { params := [] },
        { params := [.type (.named "Account")] }]
      fields := [{ name := "account", type := .named "Account" }] }]

def entered : Pool :=
  (List.replicate 20 0).foldl (advance ledger)
    ((start fun _ => []).ask 0 (.get "Entry"))

/-- An entry is made within its account. -/
theorem makesBeans_of_entry :
    ∃ (identity : Nat) (body : Body) (recipe : NoArgRecipe),
      Lives ledger entered ∧ ledger.IsPlain ∧
        entered.ShowsReady (.cached "Entry" identity) body ∧
          body.parts.bean.shape?.isSome = true ∧
            body.parts.isAbstract = false ∧
              body.parts.requiresEnclosing = true ∧
                body.parts.recipes.noArg? = some recipe ∧
                  recipe.source = "Entry" ∧
                    recipe.requiresEnclosing = true := by
  have lives : Lives ledger entered :=
    .head (.ask 0 (.get "Entry") nofun) <|
      leads_advance ledger _ (List.replicate 20 0)
  have caches : entered.cachesReady "Entry" (fun parts =>
      parts.bean.shape?.isSome && !parts.isAbstract &&
        parts.requiresEnclosing) = true := by
    decide +kernel
  obtain ⟨identity, body, shown, passes⟩ := exists_showsReady caches
  simp only [Bool.and_eq_true, Bool.not_eq_true'] at passes
  obtain ⟨⟨bean, concrete⟩, encloses⟩ := passes
  obtain ⟨facts, recipe, known, same, found, source, requires⟩ :=
    makesBeans_of_lives lives rfl rfl shown bean concrete rfl
      (show "Entry" ≠ "Object" by decide)
  exact ⟨identity, body, recipe, lives, rfl, shown, bean, concrete, encloses,
    found, source, requires.2 (same ▸ encloses)⟩

end Pool

end TypeAtlas
