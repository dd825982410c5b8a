import Mathlib.Data.List.Dedup
import Mathlib.Logic.Relation
import TypeAtlas.Proofs.Registry.Remoteability
import TypeAtlas.Proofs.Registry.Stages
import TypeAtlas.Proofs.TypeExpr.Grammar

/-!
# Overloads and their signatures

A signature is the name of a method, with the texts of its parameters between
brackets.  Each parameter has the text of a type expression, and what stands
between the brackets is read like the arguments of an expression.  So methods
have one signature just when their names and the expressions agree.  A type may
be named like a parameter that takes no type, such as `text`; only then do
methods with other parameters have one signature, and hide each other.
-/

namespace TypeAtlas

namespace TypeExpr

variable {first second : TypeExpr} {levels : Nat}

/-- Expressions that consist of names are told apart by their texts. -/
theorem eq_of_render_eq (within : first.IsWithin levels)
    (withinToo : second.IsWithin levels)
    (same : first.render = second.render) : first = second := by
  have reads {expression : TypeExpr} (within : expression.IsWithin levels) :
      ∃ rest, readExpression levels expression.render.toList =
        .ok (expression, rest) := by
    have spells : Spells (expression.tokens ++ [])
        expression.render.toList := by
      rw [List.append_nil, toList_render]
      exact Spells.ofList_append expression.tokens
    obtain ⟨rest, read, _⟩ := readExpression_of_spells within spells trivial
    exact ⟨rest, read⟩
  obtain ⟨_, read⟩ := reads within
  obtain ⟨_, readToo⟩ := reads withinToo
  rw [same, readToo] at read
  cases read
  rfl

/-- Arguments stand between angle brackets, with commas between them. -/
theorem render_eq_intercalate (name : TypeName) (expression : TypeExpr)
    (rest : List TypeExpr) :
    (⟨name, expression :: rest⟩ : TypeExpr).render =
      name ++ "<" ++
        String.intercalate "," ((expression :: rest).map render) ++ ">" := by
  have joined : expression.render ++ renderMore rest =
      String.intercalate "," ((expression :: rest).map render) := by
    induction rest generalizing expression with
    | nil => simp [renderMore]
    | cons next rest ih =>
      rw [List.map_cons, List.map_cons, String.intercalate_cons_cons,
        ← List.map_cons, ← ih, renderMore]
      simp only [String.append_assoc]
  rw [render, ← joined]
  simp only [String.append_assoc]

theorem render_ne_empty (isName : IsName first.name) : first.render ≠ "" := by
  obtain ⟨name, args⟩ := first
  intro empty
  cases args with
  | nil => exact isName.1 empty
  | cons expression rest =>
    rw [render_eq_intercalate] at empty
    simp at empty

/-- Lists of well-formed expressions are told apart by their joined texts. -/
theorem eq_of_intercalate_eq {expressions others : List TypeExpr}
    (formed : ∀ expression ∈ expressions, expression.IsWellFormed)
    (formedToo : ∀ expression ∈ others, expression.IsWellFormed)
    (same : String.intercalate "," (expressions.map render) =
      String.intercalate "," (others.map render)) :
    expressions = others := by
  have isName : IsName "T" := by decide
  have visible {expression : TypeExpr} {rest : List TypeExpr}
      (formed : expression.IsWellFormed) :
      String.intercalate "," ((expression :: rest).map render) ≠ "" := by
    intro empty
    have nonempty := render_ne_empty
      (formed.named _ expression.name_mem_names)
    cases rest with
    | nil => exact nonempty (by simpa using empty)
    | cons next rest =>
      rw [List.map_cons, List.map_cons, String.intercalate_cons_cons] at empty
      simp at empty
  cases expressions with
  | nil =>
    cases others with
    | nil => rfl
    | cons other others =>
      exact (visible (formedToo other List.mem_cons_self) same.symm).elim
  | cons expression expressions =>
    cases others with
    | nil => exact (visible (formed expression List.mem_cons_self) same).elim
    | cons other others =>
      -- As arguments of one type, both lists are read from the same text.
      have within {args : List TypeExpr}
          (formed : ∀ expression ∈ args, expression.IsWellFormed) :
          (⟨"T", args⟩ : TypeExpr).IsWithin (deepestLevel + 2) :=
        ⟨isName, fun argument member =>
          isWellFormed_iff_isWithin.1 (formed argument member)⟩
      have sameText : (⟨"T", expression :: expressions⟩ : TypeExpr).render =
          (⟨"T", other :: others⟩ : TypeExpr).render := by
        rw [render_eq_intercalate, render_eq_intercalate, same]
      have sameArgs := eq_of_render_eq (within formed) (within formedToo)
        sameText
      exact congrArg TypeExpr.args sameArgs

end TypeExpr

namespace ParamShape

/-- The expression that has the text of a parameter. -/
def spelled : ParamShape → TypeExpr
  | .text => .named "text"
  | .number kind => .named ("number:" ++ kind.name)
  | .session => .named "session"
  | .type expression => expression

theorem render_spelled (shape : ParamShape) :
    shape.spelled.render = shape.render := by
  cases shape <;> simp [spelled, render, TypeExpr.named, TypeExpr.render]

/-- The parameters that take no values of a type, by their texts. -/
def worded : List (String × ParamShape) :=
  ("text", .text) :: ("session", .session) ::
    NumberKind.named.map fun (name, kind) => ("number:" ++ name, .number kind)

/-- Whether a parameter takes no type that is named like another parameter. -/
def IsPlain : ParamShape → Prop
  | .type expression => ∀ entry ∈ worded, expression ≠ .named entry.1
  | _ => True

instance : (shape : ParamShape) → Decidable shape.IsPlain
  | .type expression =>
    inferInstanceAs
      (Decidable (∀ entry ∈ worded, expression ≠ .named entry.1))
  | .text | .number _ | .session => .isTrue trivial

theorem exists_worded {shape : ParamShape} (typeless : shape.typeName? = none) :
    ∃ word, shape.spelled = .named word ∧ (word, shape) ∈ worded ∧
      worded.lookup word = some shape := by
  cases shape with
  | text => exact ⟨_, rfl, by decide, by decide⟩
  | session => exact ⟨_, rfl, by decide, by decide⟩
  | number kind =>
    refine ⟨_, rfl, ?_⟩
    cases kind <;> decide
  | type expression => cases typeless

/-- Plain parameters have texts of their own. -/
theorem eq_of_spelled_eq {first second : ParamShape} (plain : first.IsPlain)
    (plainToo : second.IsPlain) (same : first.spelled = second.spelled) :
    first = second := by
  have typed {shape : ParamShape} {expression : TypeExpr}
      (typeless : shape.typeName? = none)
      (plain : (ParamShape.type expression).IsPlain) :
      shape.spelled ≠ expression := by
    obtain ⟨word, spelled, member, _⟩ := exists_worded typeless
    exact fun same => plain _ member (same.symm.trans spelled)
  have typeless {first second : ParamShape}
      (typeless : first.typeName? = none)
      (typelessToo : second.typeName? = none)
      (same : first.spelled = second.spelled) : first = second := by
    obtain ⟨word, spelled, _, found⟩ := exists_worded typeless
    obtain ⟨other, spelledToo, _, foundToo⟩ := exists_worded typelessToo
    rw [spelled, spelledToo] at same
    cases congrArg TypeExpr.name same
    exact Option.some.inj (found.symm.trans foundToo)
  cases first with
  | type expression =>
    cases second with
    | type other => exact congrArg ParamShape.type same
    | _ => exact (typed rfl plain same.symm).elim
  | _ =>
    cases second with
    | type other => exact (typed rfl plainToo same).elim
    | _ => exact typeless rfl rfl same

theorem eq_of_map_spelled_eq {shapes others : List ParamShape}
    (plain : ∀ shape ∈ shapes, shape.IsPlain)
    (plainToo : ∀ shape ∈ others, shape.IsPlain)
    (same : shapes.map spelled = others.map spelled) : shapes = others := by
  induction shapes generalizing others with
  | nil => exact (List.map_eq_nil_iff.1 same.symm).symm
  | cons shape rest ih =>
    obtain ⟨other, tail, rfl, spelled, tails⟩ :=
      List.map_eq_cons_iff.1 same.symm
    obtain ⟨plainHead, plainRest⟩ := List.forall_mem_cons.1 plain
    obtain ⟨plainOther, plainTail⟩ := List.forall_mem_cons.1 plainToo
    rw [eq_of_spelled_eq plainHead plainOther spelled.symm,
      ih plainRest plainTail tails.symm]

end ParamShape

namespace MethodFacts

/-- Whether a method has a name without brackets and commas, and its parameters
take types with texts that they are read from. -/
structure IsSpelled (method : MethodFacts) : Prop where
  named : '(' ∉ method.name.toList ∧ ')' ∉ method.name.toList ∧
    ',' ∉ method.name.toList
  formed : ∀ expression, .type expression ∈ method.params →
    expression.IsWellFormed

/-- What tells a method from its overloads. -/
def overload (method : MethodFacts) : String × List ParamShape :=
  (method.name, method.params)

/-- What a signature tells of a method. -/
def spelling (method : MethodFacts) : String × List TypeExpr :=
  (method.name, method.params.map ParamShape.spelled)

variable {first second : MethodFacts}

theorem IsSpelled.isWellFormed {method : MethodFacts}
    (spelled : method.IsSpelled) {expression : TypeExpr}
    (member : expression ∈ method.params.map ParamShape.spelled) :
    expression.IsWellFormed := by
  obtain ⟨shape, among, rfl⟩ := List.mem_map.1 member
  cases shape with
  | type expression => exact spelled.formed expression among
  | number kind => cases kind <;> decide
  | text => decide
  | session => decide

instance (method : MethodFacts) : Decidable method.IsSpelled :=
  decidable_of_iff
    (('(' ∉ method.name.toList ∧ ')' ∉ method.name.toList ∧
        ',' ∉ method.name.toList) ∧
      ∀ expression ∈ method.params.map ParamShape.spelled,
        expression.IsWellFormed)
    ⟨fun ⟨named, formed⟩ => ⟨named, fun _ member =>
        formed _ (List.mem_map.2 ⟨_, member, rfl⟩)⟩,
      fun spelled => ⟨spelled.named, fun _ => spelled.isWellFormed⟩⟩

/-- The bracket that opens behind the name is the first of a signature. -/
theorem eq_of_append_cons_eq {mark : α} {before other after later : List α}
    (absent : mark ∉ before) (absentToo : mark ∉ other)
    (same : before ++ mark :: after = other ++ mark :: later) :
    before = other ∧ after = later := by
  induction before generalizing other with
  | nil =>
    cases other with
    | nil => exact ⟨rfl, List.tail_eq_of_cons_eq same⟩
    | cons item rest =>
      exact absurd (List.mem_cons.2 (.inl (List.head_eq_of_cons_eq same)))
        absentToo
  | cons item rest ih =>
    rw [List.mem_cons, not_or] at absent
    cases other with
    | nil => exact (absent.1 (List.head_eq_of_cons_eq same).symm).elim
    | cons head tail =>
      rw [List.mem_cons, not_or] at absentToo
      obtain ⟨rfl, tails⟩ := List.cons.inj same
      obtain ⟨rfl, rfl⟩ := ih absent.2 absentToo.2 tails
      exact ⟨rfl, rfl⟩

/-- Signatures tell names and the texts of parameters, and nothing else. -/
theorem signature_eq_iff (spelled : first.IsSpelled)
    (spelledToo : second.IsSpelled) :
    first.signature = second.signature ↔ first.spelling = second.spelling := by
  have texts (method : MethodFacts) :
      method.params.map ParamShape.render =
        (method.params.map ParamShape.spelled).map TypeExpr.render := by
    rw [List.map_map]
    exact List.map_congr_left fun shape _ => shape.render_spelled.symm
  constructor
  · intro same
    have split (method : MethodFacts) : method.signature.toList =
        method.name.toList ++ '(' :: ((String.intercalate ","
          ((method.params.map ParamShape.spelled).map TypeExpr.render)).toList
            ++ [')']) := by
      rw [signature, texts]
      simp
    have same := congrArg String.toList same
    rw [split, split] at same
    obtain ⟨names, inner⟩ := eq_of_append_cons_eq spelled.named.1
      spelledToo.named.1 same
    have params := TypeExpr.eq_of_intercalate_eq
      (fun _ => spelled.isWellFormed) (fun _ => spelledToo.isWellFormed)
      (String.toList_inj.1 (List.append_cancel_right inner))
    exact Prod.ext (String.toList_inj.1 names) params
  · intro same
    obtain ⟨names, params⟩ := Prod.mk.inj same
    unfold signature
    rw [texts, texts, names, params]

theorem overload_eq_iff (plain : ∀ shape ∈ first.params, shape.IsPlain)
    (plainToo : ∀ shape ∈ second.params, shape.IsPlain) :
    first.overload = second.overload ↔ first.spelling = second.spelling := by
  unfold overload spelling
  rw [Prod.mk.injEq, Prod.mk.injEq]
  exact and_congr_right fun _ => ⟨congrArg (List.map ParamShape.spelled),
    ParamShape.eq_of_map_spelled_eq plain plainToo⟩

end MethodFacts

def TypeFacts.publicMethods (facts : TypeFacts) : List MethodFacts :=
  facts.methods.filter fun method => method.visibility == .exposed

/-- Whether methods that are listed by their signatures are among given ones,
with one of them for each key that any of those has. -/
structure NameMap.ListsEach [DecidableEq κ] (listed : NameMap MethodFacts)
    (methods : List MethodFacts) (key : MethodFacts → κ) : Prop where
  told : ∀ first ∈ methods, ∀ second ∈ methods,
    first.signature = second.signature ↔ key first = key second
  signed : ∀ name method, listed.get? name = some method →
    method ∈ methods ∧ name = method.signature
  once : (listed.values.map key).Perm (methods.map key).dedup

namespace Parts

variable {facts : TypeFacts} {name : String} {method : MethodFacts}

theorem exists_get?_signature (member : method ∈ facts.publicMethods) :
    ∃ listed, (methodsBy MethodFacts.signature facts.methods).get?
      method.signature = some listed := by
  obtain ⟨among, exposed⟩ := List.mem_filter.1 member
  have signs : ∃ other ∈ facts.methods, other.visibility = .exposed ∧
      other.signature = method.signature :=
    ⟨method, among, beq_iff_eq.1 exposed, rfl⟩
  obtain ⟨last, ends⟩ := exists_lastWith_iff.2 signs
  exact ⟨last, (get?_methodsBy_iff _ _).2 ends⟩

theorem signed_of_get? (found : (methodsBy MethodFacts.signature
    facts.methods).get? name = some method) :
    method ∈ facts.publicMethods ∧ name = method.signature := by
  have last := (get?_methodsBy_iff _ _).1 found
  refine ⟨List.mem_filter.2 ⟨last.mem, ?_⟩, last.held.2.symm⟩
  rw [last.held.1]
  rfl

/-- Where keys are told by signatures, each key is listed once. -/
theorem listsEach_methodsBy [DecidableEq κ] {key : MethodFacts → κ}
    (told : ∀ first ∈ facts.publicMethods, ∀ second ∈ facts.publicMethods,
      first.signature = second.signature ↔ key first = key second) :
    (methodsBy MethodFacts.signature facts.methods).ListsEach
      facts.publicMethods key := by
  set listed := methodsBy MethodFacts.signature facts.methods with is
  have signed {name : String} {method : MethodFacts}
      (found : listed.get? name = some method) :
      method ∈ facts.publicMethods ∧ name = method.signature :=
    signed_of_get? (is ▸ found)
  refine ⟨told, fun _ _ => signed, ?_⟩
  have nodup : (listed.values.map key).Nodup := by
    unfold NameMap.values
    rw [List.map_map]
    refine listed.nodup_names.of_map.map_on ?_
    rintro ⟨name, method⟩ member ⟨other, another⟩ memberToo same
    have found := NameMap.get?_of_mem member
    have foundToo := NameMap.get?_of_mem memberToo
    obtain ⟨among, rfl⟩ := signed found
    obtain ⟨amongToo, rfl⟩ := signed foundToo
    have sameName := (told _ among _ amongToo).2 same
    rw [sameName, foundToo] at found
    rw [sameName, Option.some.inj found]
  refine (List.perm_ext_iff_of_nodup nodup (List.nodup_dedup _)).2 fun _ => ?_
  rw [List.mem_dedup, List.mem_map, List.mem_map]
  constructor
  · rintro ⟨method, member, rfl⟩
    obtain ⟨⟨name, method⟩, within, rfl⟩ := List.mem_map.1 member
    exact ⟨method, (signed (NameMap.get?_of_mem within)).1, rfl⟩
  · rintro ⟨method, member, rfl⟩
    obtain ⟨last, found⟩ := exists_get?_signature member
    obtain ⟨among, same⟩ := signed found
    exact ⟨last, NameMap.mem_values_of_get? found,
      (told _ among _ member).1 same.symm⟩

end Parts

namespace Assembly

open Outlining

variable {sources : Sources} {name : TypeName} {facts : TypeFacts}

theorem outline_leaves_publicMethods
    (known : sources.provider.known? name = some facts)
    (walks : sources.provider.ancestorsCrash? facts = none) :
    Leaves (fun _ left => left.publicMethods =
        Parts.methodsBy MethodFacts.signature facts.methods)
      (outline sources name) (Parts.blank name) := by
  refine Leaves.bind_steady (requestFacts_leaves _ _) (fun stop unknown => ?_)
    fun found same => ?_
  · rw [known] at unknown
    cases unknown
  rw [known] at same
  cases same
  apply leaves_modify_bind
  have goesOn (parts : Parts) :
      Leaves (fun outcome left => left = parts ∧ outcome = .ok ())
        (crashOn (sources.provider.ancestorsCrash? facts)) parts := by
    rw [walks]
    exact ⟨rfl, rfl⟩
  refine Leaves.bind_steady (goesOn _) (fun _ same => nomatch same)
    fun _ _ => ?_
  apply leaves_modify_bind
  apply leaves_modify_bind
  -- The methods are listed by now, and no later step alters them.
  refine Leaves.bind_steady (bindingsOf_leaves facts _) (fun _ _ => rfl)
    fun bindings _ => ?_
  refine Leaves.bind_steady (crashOn_leaves _) (fun _ _ => rfl) fun _ _ => ?_
  apply Leaves.bind
  apply (requestImplementation_leaves_known rfl).mono
  rintro (stop | implementation?) left ⟨rfl, _⟩
  · rfl
  dsimp only [Outlining.GoesOn]
  refine Leaves.bind_steady (crashOn_leaves _) (fun _ _ => rfl) fun _ _ => ?_
  exact leaves_modify_bind rfl

end Assembly

namespace Pool

variable {sources : Sources} {pool : Pool} {descriptor : Descriptor}
  {body : Body} {facts : TypeFacts}

/-- However threads interleave, a descriptor whose type is known, and so are its
ancestors, lists one public method for each name with texts of parameters.  If
no parameter takes a type that is named like another parameter, this is one for
each name with a list of parameters. -/
theorem listsOverloads_of_lives (lives : Lives sources pool)
    (shown : pool.Shows descriptor)
    (found : pool.store.body? descriptor = some body)
    (proper : body.parts.category ≠ .argumentList)
    (known : sources.provider.known? descriptor.name = some facts)
    (walks : sources.provider.ancestorsCrash? facts = none)
    (spelled : ∀ method ∈ facts.publicMethods, method.IsSpelled) :
    body.parts.publicMethods.ListsEach facts.publicMethods
        MethodFacts.spelling ∧
      ((∀ method ∈ facts.publicMethods, ∀ shape ∈ method.params,
          shape.IsPlain) →
        body.parts.publicMethods.ListsEach facts.publicMethods
          MethodFacts.overload) := by
  rcases lives.isSourced_of_shows shown found with ⟨references, rfl⟩ |
    isOutlined
  · exact (proper rfl).elim
  obtain ⟨bean, same⟩ := isOutlined.parts
  have listed : body.parts.publicMethods =
      Parts.methodsBy MethodFacts.signature facts.methods := by
    rw [same]
    exact Assembly.outline_leaves_publicMethods known walks
  have told (first : MethodFacts) (member : first ∈ facts.publicMethods)
      (second : MethodFacts) (memberToo : second ∈ facts.publicMethods) :=
    MethodFacts.signature_eq_iff (spelled first member)
      (spelled second memberToo)
  rw [listed]
  refine ⟨Parts.listsEach_methodsBy told, fun plain => ?_⟩
  apply Parts.listsEach_methodsBy
  intro first member second memberToo
  rw [told first member second memberToo]
  exact (MethodFacts.overload_eq_iff (plain first member)
    (plain second memberToo)).symm

/-- A shelf, on which what is put is told apart by brackets and commas. -/
def shelf : TypeFacts where
  name := "Shelf"
  methods := [
    { name := "put", params := [.type ⟨"Map", [.named "K", .named "V"]⟩] },
    { name := "put"
      params := [.type ⟨"Map", [.named "K"]⟩, .type (.named "V")] },
    { name := "put", params := [.text, .number .int] },
    { name := "put", params := [], visibility := .guarded },
    { name := "put", params := [.text, .number .int], isStatic := true }]

/-- A note, on which texts are written or values of a type named `text`. -/
def note : TypeFacts where
  name := "Note"
  methods := [
    { name := "write", params := [.text] },
    { name := "write", params := [.type (.named "text")] }]

def stationery : Sources where
  provider := Provider.ofTable (FactsTable.empty.insertAll [shelf, note])

def furnished : Pool :=
  (List.replicate 20 0).foldl (advance stationery)
    (((start fun _ => []).ask 0 (.get "Shelf")).ask 0 (.get "Note"))

theorem furnished_lives : Lives stationery furnished :=
  .head (.ask 0 (.get "Shelf") nofun) <|
    .head (.ask 0 (.get "Note") nofun) <|
      leads_advance stationery _ (List.replicate 20 0)

/-- A shelf lists three public methods, the last two of its five being one. -/
theorem listsOverloads_of_shelf :
    ∃ identity body, Lives stationery furnished ∧
      furnished.ShowsReady (.cached "Shelf" identity) body ∧
        body.parts.category ≠ .argumentList ∧
          stationery.provider.known? "Shelf" = some shelf ∧
            stationery.provider.ancestorsCrash? shelf = none ∧
              (∀ method ∈ shelf.publicMethods, method.IsSpelled) ∧
                (∀ method ∈ shelf.publicMethods, ∀ shape ∈ method.params,
                  shape.IsPlain) ∧
                  body.parts.publicMethods.names =
                    ["put(Map<K,V>)", "put(Map<K>,V)",
                      "put(text,number:int)"] ∧
                    body.parts.publicMethods.ListsEach shelf.publicMethods
                      MethodFacts.overload := by
  have caches : furnished.cachesReady "Shelf" (fun parts =>
      parts.category != .argumentList &&
        parts.publicMethods.names ==
          ["put(Map<K,V>)", "put(Map<K>,V)", "put(text,number:int)"]) =
        true := by
    decide +kernel
  have known : stationery.provider.known? "Shelf" = some shelf := by
    rfl
  have walks : stationery.provider.ancestorsCrash? shelf = none := by
    decide +kernel
  have spelled : ∀ method ∈ shelf.publicMethods, method.IsSpelled := by
    decide
  have plain : ∀ method ∈ shelf.publicMethods, ∀ shape ∈ method.params,
      shape.IsPlain := by
    decide
  obtain ⟨identity, body, ready, passes⟩ := exists_showsReady caches
  simp only [Bool.and_eq_true, bne_iff_ne, ne_eq, beq_iff_eq] at passes
  obtain ⟨proper, names⟩ := passes
  obtain ⟨-, lists⟩ := listsOverloads_of_lives furnished_lives ready.shown
    ready.found proper known walks spelled
  exact ⟨identity, body, furnished_lives, ready, proper, known, walks, spelled,
    plain, names, lists plain⟩

/-- A note lists one of two public methods that take different parameters. -/
theorem not_listsEach_of_note :
    ∃ identity body,
      furnished.ShowsReady (.cached "Note" identity) body ∧
        (∀ method ∈ note.publicMethods, method.IsSpelled) ∧
          note.publicMethods.length = 2 ∧
            body.parts.publicMethods.names = ["write(text)"] ∧
              ¬ body.parts.publicMethods.ListsEach note.publicMethods
                MethodFacts.overload := by
  have caches : furnished.cachesReady "Note" (fun parts =>
      parts.publicMethods.names == ["write(text)"]) = true := by
    decide +kernel
  obtain ⟨identity, body, ready, names⟩ := exists_showsReady caches
  refine ⟨identity, body, ready, by decide, by decide,
    beq_iff_eq.1 names, fun lists => ?_⟩
  have once := lists.once.length_eq
  have one : (body.parts.publicMethods.values.map
      MethodFacts.overload).length = 1 := by
    have names := congrArg List.length (beq_iff_eq.1 names)
    simpa [NameMap.values, NameMap.names] using names
  have two : (note.publicMethods.map MethodFacts.overload).dedup.length = 2 :=
    by decide
  omega

end Pool

end TypeAtlas
