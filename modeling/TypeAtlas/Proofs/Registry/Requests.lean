import TypeAtlas.Registry.Assembly

/-!
# What an assembly asks for

The references that the assembly of a type takes are determined by its facts,
its configuration and its category.  Every name in them is one of those that
the sources mention, so that only finitely many names can be reached from
assemblies.
-/

namespace TypeAtlas

namespace Bean

theorem mem_addMention {properties : List Draft} {mention draft : Draft}
    (member : draft ∈ addMention properties mention) :
    draft.type = mention.type ∨
      ∃ property ∈ properties, draft.type = property.type := by
  induction properties with
  | nil =>
    rw [addMention, List.mem_singleton] at member
    exact .inl (congrArg Draft.type member)
  | cons property rest ih =>
    rw [addMention] at member
    split at member
    · rcases List.mem_cons.1 member with here | later
      · subst here
        simp only [Draft.merge]
        split
        · exact .inl rfl
        · exact .inr ⟨property, List.mem_cons_self, rfl⟩
      · exact .inr ⟨draft, List.mem_cons_of_mem _ later, rfl⟩
    · rcases List.mem_cons.1 member with here | later
      · exact .inr ⟨property, List.mem_cons_self, congrArg Draft.type here⟩
      · rcases ih later with same | ⟨other, within, same⟩
        · exact .inl same
        · exact .inr ⟨other, List.mem_cons_of_mem _ within, same⟩

theorem exists_mention_of_mem_properties {facts : TypeFacts} {draft : Draft}
    (member : draft ∈ properties facts) :
    ∃ mention ∈ mentions facts, draft.type = mention.type := by
  have collected : ∀ (found : List Draft) (said : List Draft),
      draft ∈ said.foldl addMention found →
        ∃ mention ∈ found ++ said, draft.type = mention.type := by
    intro found said
    induction said generalizing found with
    | nil => exact fun member => ⟨draft, by simpa using member, rfl⟩
    | cons mention rest ih =>
      intro member
      obtain ⟨other, within, same⟩ := ih (addMention found mention) member
      rcases List.mem_append.1 within with merged | later
      · rcases mem_addMention merged with new | ⟨old, present, kept⟩
        · exact ⟨mention, by simp, same.trans new⟩
        · exact ⟨old, List.mem_append_left _ present, same.trans kept⟩
      · exact ⟨other, by simp [later], same⟩
  exact collected [] (mentions facts) member

theorem type_of_mem_mentions {facts : TypeFacts} {mention : Draft}
    (member : mention ∈ mentions facts) :
    (∃ method ∈ facts.methods, method.returns = some mention.type ∨
      .type mention.type ∈ method.params) ∨
    mention.type = .named "String" ∨
    ∃ field ∈ facts.fields, field.type = mention.type := by
  rcases List.mem_append.1 member with ofMethod | ofField
  · obtain ⟨method, within, said⟩ := List.mem_filterMap.1 ofMethod
    unfold ofMethod? at said
    split at said
    · cases said
    split at said
    · simp only [getter?, bind, Option.bind_eq_some_iff, pure,
        Option.some.injEq] at said
      obtain ⟨type, returned, name, _, rfl⟩ := said
      exact .inl ⟨method, within, .inl returned⟩
    next param params =>
      simp only [setter?, bind, Option.bind_eq_some_iff, pure,
        Option.some.injEq] at said
      obtain ⟨type, taken, name, _, rfl⟩ := said
      cases param with
      | type expression =>
        cases taken
        exact .inl ⟨method, within, .inr (by simp [params])⟩
      | text =>
        cases taken
        exact .inr (.inl rfl)
      | number kind => cases taken
      | session => cases taken
    · cases said
  · obtain ⟨field, within, said⟩ := List.mem_filterMap.1 ofField
    unfold ofField? at said
    split at said
    · cases said
    · cases said
      exact .inr (.inr ⟨field, within, rfl⟩)

/-- The type of a property is mentioned in the facts, or is that of texts. -/
theorem names_subset_of_mem_properties {facts : TypeFacts} {draft : Draft}
    (member : draft ∈ properties facts) :
    draft.type.names ⊆ Sources.mentionedIn facts ∨
      draft.type = .named "String" := by
  obtain ⟨mention, within, same⟩ := exists_mention_of_mem_properties member
  rw [same]
  rcases type_of_mem_mentions within with
    ⟨method, known, said⟩ | text | ⟨field, known, typed⟩
  · refine .inl (TypeExpr.names_subset_namesOfList ?_)
    refine List.mem_append_left _ (List.mem_append_right _ ?_)
    refine List.mem_flatMap.2 ⟨method, known, ?_⟩
    rcases said with returned | taken
    · exact List.mem_append_left _ (by simp [returned])
    · exact List.mem_append_right _ (List.mem_filterMap.2 ⟨_, taken, rfl⟩)
  · exact .inr text
  · refine .inl (TypeExpr.names_subset_namesOfList ?_)
    exact List.mem_append_right _ (List.mem_map.2 ⟨field, known, typed⟩)

end Bean

namespace Assembly

/-- The types that values of a type hold. -/
def holdings (sources : Sources) (facts : TypeFacts) : List TypeExpr :=
  match facts.category with
  | .array => facts.arrayOf.toList
  | .elementContainer => [typeArgument sources facts 0]
  | .pairContainer | .beanMap =>
    [typeArgument sources facts 0, typeArgument sources facts 1]
  | _ => []

/-- The properties by which a type is judged to be a bean. -/
def drafts (sources : Sources) (facts : TypeFacts)
    (hasImplementation : Bool) : List Bean.Draft :=
  match Bean.objection? facts sources.config hasImplementation with
  | some _ => []
  | none => Bean.properties facts

/-- The types that the verdict on a type refers to. -/
def judgedTypes (sources : Sources) (facts : TypeFacts)
    (hasImplementation : Bool) : List TypeExpr :=
  if facts.category == .other then
    (drafts sources facts hasImplementation).map Bean.Draft.type
  else
    []

theorem typeArgument_mem (sources : Sources) (facts : TypeFacts)
    (index : Nat) :
    typeArgument sources facts index ∈ facts.typeArgs ∨
      typeArgument sources facts index = .named sources.config.rootType := by
  unfold typeArgument
  cases found : facts.typeArgs[index]? with
  | none => exact .inr rfl
  | some expression => exact .inl (List.mem_of_getElem? found)

theorem mem_holdings {sources : Sources} {facts : TypeFacts}
    {expression : TypeExpr} (member : expression ∈ holdings sources facts) :
    expression ∈ facts.arrayOf.toList ++ facts.typeArgs ∨
      expression = .named sources.config.rootType := by
  have declared (index : Nat) :
      typeArgument sources facts index ∈
          facts.arrayOf.toList ++ facts.typeArgs ∨
        typeArgument sources facts index =
          .named sources.config.rootType :=
    (typeArgument_mem sources facts index).imp_left
      (List.mem_append_right _)
  unfold holdings at member
  split at member
  · exact .inl (List.mem_append_left _ member)
  · rw [List.mem_singleton.1 member]
    exact declared 0
  · rcases List.mem_cons.1 member with rfl | member
    · exact declared 0
    · rw [List.mem_singleton.1 member]
      exact declared 1
  · rcases List.mem_cons.1 member with rfl | member
    · exact declared 0
    · rw [List.mem_singleton.1 member]
      exact declared 1
  · cases member

variable {sources : Sources} {facts : TypeFacts}

theorem mentionedIn_subset
    (known : facts ∈ sources.provider.table.types.values) :
    Sources.mentionedIn facts ⊆ sources.mentioned := by
  intro name within
  have told := List.mem_flatMap.2 ⟨facts, known, within⟩
  simp [Sources.mentioned, told]

theorem namesOfList_holdings_subset
    (known : facts ∈ sources.provider.table.types.values) :
    TypeExpr.namesOfList (holdings sources facts) ⊆ sources.mentioned := by
  intro name within
  rw [TypeExpr.namesOfList_eq] at within
  obtain ⟨expression, member, within⟩ := List.mem_flatMap.1 within
  rcases mem_holdings member with declared | rfl
  · refine mentionedIn_subset known
      (TypeExpr.names_subset_namesOfList ?_ within)
    exact List.mem_append_left _ (List.mem_append_left _ declared)
  · simp_all [Sources.mentioned, TypeExpr.named, TypeExpr.names,
      TypeExpr.namesOfList]

theorem namesOfList_judgedTypes_subset {hasImplementation : Bool}
    (known : facts ∈ sources.provider.table.types.values) :
    TypeExpr.namesOfList (judgedTypes sources facts hasImplementation) ⊆
      sources.mentioned := by
  intro name within
  rw [TypeExpr.namesOfList_eq] at within
  obtain ⟨expression, member, within⟩ := List.mem_flatMap.1 within
  unfold judgedTypes at member
  split at member
  · obtain ⟨draft, drafted, rfl⟩ := List.mem_map.1 member
    unfold drafts at drafted
    split at drafted
    · cases drafted
    rcases Bean.names_subset_of_mem_properties drafted with declared | text
    · exact mentionedIn_subset known (declared within)
    · simp_all [Sources.mentioned, TypeExpr.named, TypeExpr.names,
        TypeExpr.namesOfList]
  · cases member

end Assembly

end TypeAtlas
