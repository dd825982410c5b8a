import TypeAtlas.Proofs.Registry.Outline

/-!
# Assembling without a cache

Where no type is looked up, and references only wrap the expressions that they
are taken to, the assembly of a type is a function of the sources alone.  What
a registry publishes has the same content, but for the slots of references.
-/

namespace TypeAtlas

def TypeRef.withoutSlot (reference : TypeRef) : TypeRef :=
  { reference with slot := 0 }

def BeanProperty.withoutSlot (property : BeanProperty) : BeanProperty :=
  { property with type := property.type.withoutSlot }

def BeanVerdict.withoutSlots : BeanVerdict → BeanVerdict
  | .bean shape =>
    .bean { shape with
      properties := shape.properties.map BeanProperty.withoutSlot }
  | .notABean reason => .notABean reason

namespace Body

def withoutSlots (body : Body) : Body :=
  { body with
    parts := { body.parts with bean := body.parts.bean.withoutSlots }
    element? := body.element?.map TypeRef.withoutSlot
    key? := body.key?.map TypeRef.withoutSlot
    value? := body.value?.map TypeRef.withoutSlot
    args := body.args.map TypeRef.withoutSlot }

def references (body : Body) : List TypeRef :=
  body.element?.toList ++ body.key?.toList ++ body.value?.toList ++
    body.args ++
      match body.parts.bean with
      | .bean shape => shape.properties.map BeanProperty.type
      | .notABean _ => []

def referred (body : Body) : List TypeName :=
  TypeExpr.namesOfList (body.references.map TypeRef.expr)

end Body

theorem Body.references_withoutSlots (body : Body) :
    body.withoutSlots.references =
      body.references.map TypeRef.withoutSlot := by
  simp only [references, withoutSlots, Option.toList_map, List.map_append]
  congr 1
  cases body.parts.bean with
  | bean shape => simp [BeanVerdict.withoutSlots, BeanProperty.withoutSlot]
  | notABean reason => rfl

@[simp]
theorem Body.referred_withoutSlots (body : Body) :
    body.withoutSlots.referred = body.referred := by
  unfold referred
  rw [references_withoutSlots, List.map_map]
  rfl

/-- Whether no scripts are followed, so that members alone decide on beans. -/
def Sources.IsPlain (sources : Sources) : Prop :=
  sources.scripts = NameMap.empty

/-- Sources that know arrays and nothing else, each with what it holds. -/
def Sources.ofArrays (arrays : List (TypeName × TypeName)) : Sources where
  provider := Provider.ofTable <| FactsTable.empty.insertAll <|
    arrays.map fun (name, component) =>
      { name, arrayOf := some (.named component) }

namespace Assembly

/-- The reference to an expression, with nothing looked up. -/
def wrap (expression : TypeExpr) : Assembling Id TypeRef :=
  pure ⟨expression, 0⟩

/-- A step of assembly without a cache: its outcome, and the body it leaves. -/
def Assembling.runFree (assembling : Assembling Id α) (body : Body) :
    Except Stop α × Body :=
  Id.run ((ExceptT.run assembling).run body)

/-- The assembly of a type without a cache. -/
def cacheFree (sources : Sources) (name : TypeName) :
    Except Stop Unit × Body :=
  (assemble sources wrap (fun _ _ => pure none) name).runFree (Body.blank name)

end Assembly

open Assembly

/-- Whether the assembly of a type comes to its end without a cache. -/
def Sources.Assembles (sources : Sources) (name : TypeName) : Prop :=
  (cacheFree sources name).1 = .ok ()

instance (sources : Sources) (name : TypeName) :
    Decidable (sources.Assembles name) :=
  match ended : (cacheFree sources name).1 with
  | .ok () => isTrue ended
  | .error stop => isFalse (by simp [Sources.Assembles, ended])

/-- Whether a type refers to another one, by its assembly without a cache. -/
def Sources.Refers (sources : Sources) (name other : TypeName) : Prop :=
  sources.Assembles name ∧ other ∈ (cacheFree sources name).2.referred

namespace Assembly

variable {sources : Sources} {name : TypeName} {body : Body}

theorem runFree_bind (assembling : Assembling Id α)
    (next : α → Assembling Id β) :
    (assembling >>= next).runFree body =
      match assembling.runFree body with
      | (.ok value, left) => (next value).runFree left
      | (.error stop, left) => (.error stop, left) := by
  unfold Assembling.runFree
  rw [ExceptT.run_bind, StateT.run_bind]
  generalize (ExceptT.run assembling).run body = result
  obtain ⟨stop | value, left⟩ := result
  · rfl
  · rfl

/-- The body with what values of the type hold. -/
def holding (sources : Sources) (facts : TypeFacts) (body : Body) : Body :=
  match facts.category with
  | .array =>
    match facts.arrayOf with
    | none => body
    | some component => { body with element? := some ⟨component, 0⟩ }
  | .elementContainer =>
    { body with element? := some ⟨typeArgument sources facts 0, 0⟩ }
  | .pairContainer | .beanMap =>
    { body with
      key? := some ⟨typeArgument sources facts 0, 0⟩
      value? := some ⟨typeArgument sources facts 1, 0⟩ }
  | _ => body

theorem takeReferences_runFree (facts : TypeFacts) :
    (takeReferences sources wrap facts).runFree body =
      (.ok (), holding sources facts body) := by
  unfold holding takeReferences
  cases facts.category with
  | array => cases facts.arrayOf <;> rfl
  | _ => rfl

def freeProperty (draft : Bean.Draft) : BeanProperty where
  name := draft.name
  type := ⟨draft.type, 0⟩
  readOnly := !draft.writable
  setter? := draft.setter?

def freeJudgement (sources : Sources) (facts : TypeFacts)
    (hasImplementation : Bool) : BeanVerdict :=
  match Bean.objection? facts sources.config hasImplementation with
  | some reason => .notABean reason
  | none =>
    .bean {
      properties := (Bean.properties facts).map freeProperty
      dictionaryName? := (Bean.tagNames facts).1
      typePropertyName? := (Bean.tagNames facts).2 }

def freeVerdict (sources : Sources) (facts : TypeFacts)
    (hasImplementation : Bool) : BeanVerdict :=
  if facts.category == .other then
    freeJudgement sources facts hasImplementation
  else
    .notABean s!"Category '{facts.category.name}' is never a bean"

theorem mapM_property_runFree (drafts : List Bean.Draft) :
    (drafts.mapM (property wrap)).runFree body =
      (.ok (drafts.map freeProperty), body) := by
  induction drafts with
  | nil => rfl
  | cons draft rest ih =>
    rw [List.mapM_cons, runFree_bind]
    change (rest.mapM (property wrap) >>= _).runFree body = _
    rw [runFree_bind, ih]
    rfl

theorem judge_runFree (facts : TypeFacts) (hasImplementation : Bool) :
    (judge sources wrap facts hasImplementation).runFree body =
      (.ok (freeJudgement sources facts hasImplementation), body) := by
  unfold judge freeJudgement
  cases Bean.objection? facts sources.config hasImplementation with
  | some reason => rfl
  | none =>
    dsimp only
    rw [runFree_bind, mapM_property_runFree]
    rfl

theorem verdict_runFree (facts : TypeFacts) (hasImplementation : Bool) :
    (verdict sources wrap (fun _ _ => pure none) facts
      hasImplementation).runFree body =
        (.ok (freeVerdict sources facts hasImplementation), body) := by
  unfold verdict freeVerdict
  cases facts.category == .other with
  | false => rfl
  | true => exact judge_runFree facts hasImplementation

/-- The body of an outlined type, with what its values hold and the verdict. -/
def completed (sources : Sources) (facts : TypeFacts)
    (hasImplementation : Bool) (body : Body) : Body :=
  let held := holding sources facts body
  { held with
    parts :=
      { held.parts with
        bean := freeVerdict sources facts hasImplementation } }

theorem withoutSlots_outlined {parts : Parts}
    (undecided : Outlining.Undecided parts) :
    ({ Body.blank name with parts } : Body).withoutSlots =
      { Body.blank name with parts } := by
  unfold Body.withoutSlots
  rw [undecided]
  change ({ Body.blank name with parts := { parts with bean := _ } } : Body) = _
  rw [show (Parts.blank "").bean.withoutSlots = parts.bean from undecided.symm]

theorem outline_runFree (sources : Sources) (name : TypeName) :
    ∃ outcome parts,
      (liftOutline (outline sources name)).runFree (Body.blank name) =
        (outcome, { Body.blank name with parts }) ∧
      Outlining.Sound
        (fun (facts, _) => facts ∈ sources.provider.table.types.values)
        outcome parts :=
  ⟨_, _, rfl, outline_sound⟩

/-- What follows the outline, with nothing looked up. -/
def completion (sources : Sources) (facts : TypeFacts)
    (hasImplementation : Bool) : Assembling Id Unit := do
  takeReferences sources wrap facts
  let bean ← verdict sources wrap (fun _ _ => pure none) facts hasImplementation
  modify fun body => { body with parts := { body.parts with bean } }

theorem cacheFree_eq_completion {facts : TypeFacts} {hasImplementation : Bool}
    {left : Body}
    (outlined : (liftOutline (outline sources name)).runFree
      (Body.blank name) = (.ok (facts, hasImplementation), left)) :
    cacheFree sources name =
      (completion sources facts hasImplementation).runFree left := by
  unfold cacheFree assemble
  rw [runFree_bind, outlined]
  rfl

theorem cacheFree_of_outline {facts : TypeFacts} {hasImplementation : Bool}
    {left : Body}
    (outlined : (liftOutline (outline sources name)).runFree
      (Body.blank name) = (.ok (facts, hasImplementation), left)) :
    cacheFree sources name =
      (.ok (), completed sources facts hasImplementation left) := by
  rw [cacheFree_eq_completion outlined]
  unfold completion completed
  rw [runFree_bind, takeReferences_runFree]
  dsimp only
  rw [runFree_bind, verdict_runFree]
  rfl

theorem cacheFree_of_outline_error {stop : Stop} {left : Body}
    (outlined : (liftOutline (outline sources name)).runFree
      (Body.blank name) = (.error stop, left)) :
    cacheFree sources name = (.error stop, left) := by
  unfold cacheFree assemble
  rw [runFree_bind, outlined]

theorem references_completed {facts : TypeFacts} {hasImplementation : Bool}
    {parts : Parts} :
    (completed sources facts hasImplementation
        { Body.blank name with parts }).references.map TypeRef.expr =
      holdings sources facts ++
        judgedTypes sources facts hasImplementation := by
  unfold completed holding holdings freeVerdict judgedTypes
  cases facts.category with
  | array =>
    cases facts.arrayOf <;> simp [Body.references, Body.blank]
  | other =>
    unfold freeJudgement drafts
    cases Bean.objection? facts sources.config hasImplementation with
    | some reason => simp [Body.references, Body.blank]
    | none =>
      simp [Body.references, Body.blank, Function.comp_def, freeProperty]
  | _ => simp [Body.references, Body.blank]

/-- The names that an assembly asks for, as it goes on from an outline. -/
def requested (sources : Sources) (facts : TypeFacts)
    (hasImplementation : Bool) : List TypeName :=
  TypeExpr.namesOfList (holdings sources facts) ++
    TypeExpr.namesOfList (judgedTypes sources facts hasImplementation)

theorem requested_subset {facts : TypeFacts}
    (known : facts ∈ sources.provider.table.types.values)
    (hasImplementation : Bool) :
    requested sources facts hasImplementation ⊆ sources.mentioned :=
  List.append_subset.2 ⟨namesOfList_holdings_subset known,
    namesOfList_judgedTypes_subset known⟩

theorem referred_completed {facts : TypeFacts} {hasImplementation : Bool}
    {parts : Parts} :
    (completed sources facts hasImplementation
        { Body.blank name with parts }).referred =
      requested sources facts hasImplementation := by
  unfold Body.referred requested
  rw [references_completed]
  simp only [TypeExpr.namesOfList_eq, List.flatMap_append]

theorem assembles_of_outline {facts : TypeFacts} {hasImplementation : Bool}
    {left : Body}
    (outlined : (liftOutline (outline sources name)).runFree
      (Body.blank name) = (.ok (facts, hasImplementation), left)) :
    sources.Assembles name :=
  congrArg Prod.fst (cacheFree_of_outline outlined)

/-- A type refers to what its assembly asks for, and to nothing else. -/
theorem refers_iff_of_outline {facts : TypeFacts} {hasImplementation : Bool}
    {parts : Parts}
    (outlined : (liftOutline (outline sources name)).runFree
      (Body.blank name) =
        (.ok (facts, hasImplementation), { Body.blank name with parts }))
    (other : TypeName) :
    sources.Refers name other ↔
      other ∈ requested sources facts hasImplementation := by
  unfold Sources.Refers
  rw [cacheFree_of_outline outlined, referred_completed]
  exact and_iff_right (assembles_of_outline outlined)

end Assembly

end TypeAtlas
