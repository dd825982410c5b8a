import TypeAtlas.Proofs.Bean.Mentions
import TypeAtlas.Proofs.Construction.Makers

/-!
# The properties of a bean

Getters, setters and public fields are told by their names and by what they take
and return, and each of them mentions one property.  A type has the properties
that its members mention.  Of the members that mention a property, methods
before fields, the first one that reads it and the first one that writes it say
all there is to say of it.
-/

namespace TypeAtlas

namespace Bean

/-- A member of a type that may read or write a property. -/
inductive Member where
  | method (method : MethodFacts)
  | field (field : FieldFacts)

def members (facts : TypeFacts) : List Member :=
  facts.methods.map .method ++ facts.fields.map .field

/-- Whether an accessor has the name of a property behind a verb.  The property
starts with a small letter there, unless two capitals stand in front. -/
def IsNamedFor (property verb accessor : String) : Prop :=
  ∃ first rest, accessor.toList = verb.toList ++ first :: rest ∧
    Text.isUppercase first = true ∧ property.toList =
      if rest.head?.any Text.isUppercase then first :: rest
      else Text.lowercase first ++ rest

/-- Whether no tag gives a member another part than that of a property. -/
def IsUntagged (tags : List MemberTag) : Prop :=
  .ignore ∉ tags ∧ .nameProperty ∉ tags ∧ .parentProperty ∉ tags

structure IsEligible (method : MethodFacts) : Prop where
  bound : method.isStatic = false
  usable : method.isUsable = true
  untagged : IsUntagged method.tags

structure IsEligibleField (field : FieldFacts) : Prop where
  bound : field.isStatic = false
  visible : field.visibility = .exposed
  untagged : IsUntagged field.tags

namespace Member

/-- Whether a member reads a property, whose values have a type. -/
inductive ReadsAs (property : String) (type : TypeExpr) : Member → Prop where
  | getter {method : MethodFacts} (eligible : IsEligible method)
    (params : method.params = []) (returns : method.returns = some type)
    (named : IsNamedFor property "get" method.name ∨
      (type.name = "boolean" ∨ type.name = "Boolean") ∧
        IsNamedFor property "is" method.name) :
    ReadsAs property type (.method method)
  | field {field : FieldFacts} (eligible : IsEligibleField field)
    (named : field.name = property) (typed : field.type = type) :
    ReadsAs property type (.field field)

/-- Whether a member writes a property, and what is bound to it for that. -/
inductive WritesAs (property : String) (type : TypeExpr)
    (setter? : Option Invoker) : Member → Prop where
  | setter {method : MethodFacts} {param : ParamShape}
    (eligible : IsEligible method) (params : method.params = [param])
    (takes : param = .type type ∨ param = .text ∧ type = .named "String")
    (named : IsNamedFor property "set" method.name)
    (bound : method.invoker? = setter?) :
    WritesAs property type setter? (.method method)
  | field {field : FieldFacts} (eligible : IsEligibleField field)
    (named : field.name = property) (typed : field.type = type)
    (bound : field.setter? = setter?) :
    WritesAs property type setter? (.field field)

def Reads (property : String) (member : Member) : Prop :=
  ∃ type, member.ReadsAs property type

def Writes (property : String) (member : Member) : Prop :=
  ∃ type setter?, member.WritesAs property type setter?

def mention? : Member → Option Draft
  | .method accessor => ofMethod? accessor
  | .field plain => ofField? plain

end Member

variable {facts : TypeFacts} {method : MethodFacts} {field : FieldFacts}
  {property verb accessor : String} {type : TypeExpr} {member : Member}
  {bound? : Option Invoker} {mention : Draft} {tags : List MemberTag}

theorem propertyName?_eq_some_iff :
    propertyName? verb accessor = some property ↔
      IsNamedFor property verb accessor := by
  have spelled (letters : List Char) :
      some (String.ofList letters) = some property ↔
        property.toList = letters := by
    rw [Option.some.injEq, ← String.toList_inj, String.toList_ofList, eq_comm]
  unfold propertyName? IsNamedFor
  by_cases starts : verb.toList <+: accessor.toList
  · obtain ⟨behind, split⟩ := starts
    have dropped : accessor.toList.drop verb.length = behind := by
      rw [← split, ← String.length_toList, List.drop_left]
    rw [if_pos (List.isPrefixOf_iff_prefix.2 ⟨behind, split⟩), dropped,
      ← split]
    cases behind with
    | nil => simp
    | cons first rest =>
      simp only [List.append_cancel_left_eq, List.cons.injEq]
      by_cases capital : Text.isUppercase first = true
      · rw [if_neg (by simp [capital]), ← apply_ite some,
          ← apply_ite String.ofList, spelled]
        constructor
        · intro letters
          exact ⟨first, rest, ⟨rfl, rfl⟩, capital, letters⟩
        · rintro ⟨_, _, ⟨rfl, rfl⟩, _, letters⟩
          exact letters
      · simp [capital]
  · rw [if_neg (by rwa [List.isPrefixOf_iff_prefix])]
    refine iff_of_false nofun ?_
    rintro ⟨first, rest, split, -⟩
    exact starts ⟨first :: rest, split.symm⟩

theorem isSetAside_eq_false_iff :
    isSetAside tags = false ↔ IsUntagged tags := by
  simp [isSetAside, IsUntagged, and_assoc]

theorem isEligible_iff :
    IsEligible method ↔ (method.isStatic || !method.isUsable ||
      isSetAside method.tags) = false := by
  simp only [Bool.or_eq_false_iff, Bool.not_eq_false',
    isSetAside_eq_false_iff]
  constructor
  · intro eligible
    exact ⟨⟨eligible.bound, eligible.usable⟩, eligible.untagged⟩
  · rintro ⟨⟨bound, usable⟩, untagged⟩
    exact ⟨bound, usable, untagged⟩

theorem isEligibleField_iff :
    IsEligibleField field ↔ (field.isStatic ||
      field.visibility != .exposed || isSetAside field.tags) = false := by
  simp only [Bool.or_eq_false_iff, bne_eq_false_iff_eq,
    isSetAside_eq_false_iff]
  constructor
  · intro eligible
    exact ⟨⟨eligible.bound, eligible.visible⟩, eligible.untagged⟩
  · rintro ⟨⟨bound, visible⟩, untagged⟩
    exact ⟨bound, visible, untagged⟩

theorem mentions_eq (facts : TypeFacts) :
    mentions facts = (members facts).filterMap Member.mention? := by
  simp [mentions, members, List.filterMap_append, List.filterMap_map,
    Function.comp_def, Member.mention?]

theorem ofField?_eq_some_iff :
    ofField? field = some mention ↔ IsEligibleField field ∧
      mention = ⟨field.name, field.type, true, true, field.setter?⟩ := by
  rw [isEligibleField_iff]
  unfold ofField?
  split
  next fails => simp [fails]
  next eligible => simp [eq_false_of_ne_true eligible, eq_comm]

theorem ofMethod?_eq_some_iff :
    ofMethod? method = some mention ↔ IsEligible method ∧
      (method.params = [] ∧ getter? method = some mention ∨
        ∃ param, method.params = [param] ∧
          setter? method param = some mention) := by
  rw [isEligible_iff]
  unfold ofMethod?
  split
  next fails => simp [fails]
  next eligible =>
    rw [eq_false_of_ne_true eligible, eq_self, true_and]
    rcases method.params with _ | ⟨param, _ | ⟨second, rest⟩⟩ <;> simp

/-- A method that is named for a property behind one verb is so for no other. -/
theorem propertyName?_get_of_is (isNamed : IsNamedFor property "is" accessor) :
    propertyName? "get" accessor = none := by
  refine Option.eq_none_iff_forall_ne_some.2 fun other found => ?_
  obtain ⟨first, rest, split, -⟩ := isNamed
  obtain ⟨_, _, same, -⟩ := propertyName?_eq_some_iff.1 found
  rw [split] at same
  simp at same

theorem getter?_eq_some_iff :
    getter? method = some mention ↔ ∃ property type,
      method.returns = some type ∧
        (IsNamedFor property "get" method.name ∨
          (type.name = "boolean" ∨ type.name = "Boolean") ∧
            IsNamedFor property "is" method.name) ∧
          mention = ⟨property, type, true, false, none⟩ := by
  simp only [getter?, Option.bind_eq_bind, Option.bind_eq_some_iff,
    Option.or_eq_some_iff, Option.pure_def, Option.some.injEq,
    propertyName?_eq_some_iff, Option.ite_none_right_eq_some, isTruthType,
    Bool.or_eq_true, beq_iff_eq]
  constructor
  · rintro ⟨type, returns, property, named, rfl⟩
    exact ⟨property, type, returns, named.imp_right And.right, rfl⟩
  · rintro ⟨property, type, returns, named, rfl⟩
    refine ⟨type, returns, property, named.imp_right ?_, rfl⟩
    rintro ⟨truth, isNamed⟩
    exact ⟨propertyName?_get_of_is isNamed, truth, isNamed⟩

theorem setterType?_eq_some_iff {param : ParamShape} :
    setterType? param = some type ↔
      param = .type type ∨ param = .text ∧ type = .named "String" := by
  cases param <;> simp [setterType?, eq_comm]

theorem setter?_eq_some_iff {param : ParamShape} :
    setter? method param = some mention ↔ ∃ property type,
      (param = .type type ∨ param = .text ∧ type = .named "String") ∧
        IsNamedFor property "set" method.name ∧
          mention = ⟨property, type, false, true, method.invoker?⟩ := by
  simp only [setter?, Option.bind_eq_bind, Option.bind_eq_some_iff,
    Option.pure_def, Option.some.injEq, propertyName?_eq_some_iff,
    setterType?_eq_some_iff]
  constructor
  · rintro ⟨type, param, property, named, rfl⟩
    exact ⟨property, type, param, named, rfl⟩
  · rintro ⟨property, type, param, named, rfl⟩
    exact ⟨type, param, property, named, rfl⟩

namespace Member

theorem readsAs_iff :
    member.ReadsAs property type ↔ ∃ mention, member.mention? = some mention ∧
      mention.name = property ∧ mention.readable = true ∧
        mention.type = type := by
  constructor
  · rintro (⟨eligible, params, returns, named⟩ | ⟨eligible, named, typed⟩)
    · refine ⟨⟨property, type, true, false, none⟩, ?_, rfl, rfl, rfl⟩
      exact ofMethod?_eq_some_iff.2 ⟨eligible, .inl ⟨params,
        getter?_eq_some_iff.2 ⟨property, type, returns, named, rfl⟩⟩⟩
    · exact ⟨_, ofField?_eq_some_iff.2 ⟨eligible, rfl⟩, named, rfl, typed⟩
  · rintro ⟨mention, told, rfl, reads, rfl⟩
    cases member with
    | method method =>
      obtain ⟨eligible, ⟨params, got⟩ | ⟨param, params, set⟩⟩ :=
        ofMethod?_eq_some_iff.1 told
      · obtain ⟨property, type, returns, named, rfl⟩ :=
          getter?_eq_some_iff.1 got
        exact .getter eligible params returns named
      · obtain ⟨property, type, -, -, rfl⟩ := setter?_eq_some_iff.1 set
        cases reads
    | field field =>
      obtain ⟨eligible, rfl⟩ := ofField?_eq_some_iff.1 told
      exact .field eligible rfl rfl

theorem writesAs_iff :
    member.WritesAs property type bound? ↔ ∃ mention,
      member.mention? = some mention ∧ mention.name = property ∧
        mention.writable = true ∧ mention.type = type ∧
          mention.setter? = bound? := by
  constructor
  · rintro (⟨eligible, params, takes, named, bound⟩ |
      ⟨eligible, named, typed, bound⟩)
    · refine ⟨⟨property, type, false, true, _⟩, ?_, rfl, rfl, rfl, bound⟩
      exact ofMethod?_eq_some_iff.2 ⟨eligible, .inr ⟨_, params,
        setter?_eq_some_iff.2 ⟨property, type, takes, named, rfl⟩⟩⟩
    · exact ⟨_, ofField?_eq_some_iff.2 ⟨eligible, rfl⟩, named, rfl, typed,
        bound⟩
  · rintro ⟨mention, told, rfl, writes, rfl, rfl⟩
    cases member with
    | method method =>
      obtain ⟨eligible, ⟨params, got⟩ | ⟨param, params, set⟩⟩ :=
        ofMethod?_eq_some_iff.1 told
      · obtain ⟨property, type, -, -, rfl⟩ := getter?_eq_some_iff.1 got
        cases writes
      · obtain ⟨property, type, takes, named, rfl⟩ :=
          setter?_eq_some_iff.1 set
        exact .setter eligible params takes named rfl
    | field field =>
      obtain ⟨eligible, rfl⟩ := ofField?_eq_some_iff.1 told
      exact .field eligible rfl rfl rfl

def Passes (test : Draft → Bool) (property : String) (member : Member) :
    Prop :=
  ∃ mention, member.mention? = some mention ∧ mention.name = property ∧
    test mention = true

instance (test : Draft → Bool) (property : String) :
    DecidablePred (Passes test property) :=
  fun member => decidable_of_iff
    (∃ mention ∈ member.mention?, mention.name = property ∧
      test mention = true) Iff.rfl

theorem reads_eq (property : String) :
    Reads property = Passes Draft.readable property := by
  funext member
  apply propext
  simp only [Reads, readsAs_iff, Passes]
  constructor
  · rintro ⟨type, mention, told, named, reads, -⟩
    exact ⟨mention, told, named, reads⟩
  · rintro ⟨mention, told, named, reads⟩
    exact ⟨_, mention, told, named, reads, rfl⟩

theorem writes_eq (property : String) :
    Writes property = Passes Draft.writable property := by
  funext member
  apply propext
  simp only [Writes, writesAs_iff, Passes]
  constructor
  · rintro ⟨type, bound?, mention, told, named, writes, -⟩
    exact ⟨mention, told, named, writes⟩
  · rintro ⟨mention, told, named, writes⟩
    exact ⟨_, _, mention, told, named, writes, rfl, rfl⟩

instance (property : String) : DecidablePred (Reads property) :=
  fun member => decidable_of_iff (Passes Draft.readable property member)
    (by rw [reads_eq])

instance (property : String) : DecidablePred (Writes property) :=
  fun member => decidable_of_iff (Passes Draft.writable property member)
    (by rw [writes_eq])

theorem isMention_of_mention? (told : member.mention? = some mention) :
    mention.IsMention := by
  cases member with
  | method method =>
    obtain ⟨-, ⟨-, got⟩ | ⟨param, -, set⟩⟩ := ofMethod?_eq_some_iff.1 told
    · obtain ⟨property, type, -, -, rfl⟩ := getter?_eq_some_iff.1 got
      exact ⟨.inl rfl, fun _ => rfl⟩
    · obtain ⟨property, type, -, -, rfl⟩ := setter?_eq_some_iff.1 set
      exact ⟨.inr rfl, nofun⟩
  | field field =>
    obtain ⟨-, rfl⟩ := ofField?_eq_some_iff.1 told
    exact ⟨.inl rfl, nofun⟩

def Mentions (member : Member) (property : String) : Prop :=
  member.Reads property ∨ member.Writes property

theorem mentions_iff :
    member.Mentions property ↔
      ∃ mention, member.mention? = some mention ∧ property = mention.name := by
  unfold Mentions
  rw [reads_eq, writes_eq]
  constructor
  · rintro (⟨mention, told, rfl, -⟩ | ⟨mention, told, rfl, -⟩) <;>
      exact ⟨mention, told, rfl⟩
  · rintro ⟨mention, told, rfl⟩
    exact (isMention_of_mention? told).reads_or_writes.imp
      (fun reads => ⟨mention, told, rfl, reads⟩)
      fun writes => ⟨mention, told, rfl, writes⟩

end Member

/-- Whether a property is what members make of its name: the first member that
reads it gives its type, or else the first that writes it, which gives its
setter. -/
structure IsMerged (members : List Member) (property : Draft) : Prop where
  writable_iff : property.writable = true ↔
    ∃ member ∈ members, member.Writes property.name
  setter : ∀ member, FirstWith (Member.Writes property.name) members member →
    ∃ type, member.WritesAs property.name type property.setter?
  unset : property.writable = false → property.setter? = none
  typeRead : ∀ member, FirstWith (Member.Reads property.name) members member →
    member.ReadsAs property.name property.type
  typeWritten : (∀ member ∈ members, ¬ member.Reads property.name) →
    ∀ member, FirstWith (Member.Writes property.name) members member →
      ∃ bound?, member.WritesAs property.name property.type bound?

theorem isMention_of_mem (member : mention ∈ mentions facts) :
    mention.IsMention := by
  rw [mentions_eq] at member
  obtain ⟨source, -, told⟩ := List.mem_filterMap.1 member
  exact Member.isMention_of_mention? told

theorem relevant_mentions (test : Draft → Bool) (property : String)
    (facts : TypeFacts) :
    relevant test property (mentions facts) =
      ((members facts).filter (Member.Passes test property)).filterMap
        Member.mention? := by
  rw [mentions_eq]
  unfold relevant
  induction members facts with
  | nil => rfl
  | cons first rest ih =>
    rw [List.filterMap_cons, List.filter_cons]
    cases told : first.mention? with
    | none =>
      have fails : ¬ first.Passes test property := by
        simp [Member.Passes, told]
      simp [fails, ih]
    | some mention =>
      have passes_iff : first.Passes test property ↔
          (mention.name == property && test mention) = true := by
        simp [Member.Passes, told]
      by_cases passes : first.Passes test property
      · rw [if_pos (decide_eq_true passes), List.filterMap_cons, told,
          List.filter_cons, if_pos (passes_iff.1 passes), ih]
      · rw [if_neg (by simpa using passes), List.filter_cons,
          if_neg (mt passes_iff.2 passes), ih]

theorem relevant_eq_nil_iff {test : Draft → Bool} :
    relevant test property (mentions facts) = [] ↔
      ∀ member ∈ members facts, ¬ member.Passes test property := by
  rw [relevant_mentions]
  simp only [List.filterMap_eq_nil_iff, List.mem_filter, decide_eq_true_eq]
  constructor
  · rintro none member listed ⟨mention, told, named⟩
    have absent := none member ⟨listed, mention, told, named⟩
    rw [told] at absent
    cases absent
  · rintro none member ⟨listed, passes⟩
    exact (none member listed passes).elim

/-- The first member that passes a test gives the first mention that does. -/
theorem head?_relevant {test : Draft → Bool}
    (first : FirstWith (Member.Passes test property) (members facts) member) :
    ∃ mention, member.mention? = some mention ∧ mention.name = property ∧
      test mention = true ∧
        (relevant test property (mentions facts)).head? = some mention := by
  obtain ⟨before, after, split, passes, others⟩ := first
  obtain ⟨mention, told, named, tested⟩ := passes
  refine ⟨mention, told, named, tested, ?_⟩
  have none : before.filter (Member.Passes test property) = [] := by
    simpa [List.filter_eq_nil_iff] using others
  have here : member.Passes test property := ⟨mention, told, named, tested⟩
  simp [relevant_mentions, split, none, here, told]

theorem areToldBy_properties (facts : TypeFacts) :
    AreToldBy Member.Mentions (members facts)
      ((properties facts).map Draft.name) := by
  have tells : Member.Mentions = fun member property =>
      ∃ mention, member.mention? = some mention ∧ property = mention.name := by
    funext member property
    exact propext Member.mentions_iff
  rw [tells]
  apply AreToldBy.of_filterMap
  rw [← mentions_eq]
  exact areToldBy_foldl_addMention (mentions facts)

theorem named?_properties (facts : TypeFacts) (name : String) :
    named? name (properties facts) =
      summary? name (relevant Draft.readable name (mentions facts))
        (relevant Draft.writable name (mentions facts)) :=
  named?_foldl_addMention (fun _ => isMention_of_mem) name

theorem isMerged_of_mem {property : Draft}
    (member : property ∈ properties facts) :
    IsMerged (members facts) property := by
  have found : named? property.name (properties facts) = some property :=
    (named?_eq_some_iff (areToldBy_properties facts).nodup).2 ⟨member, rfl⟩
  rw [named?_properties] at found
  obtain ⟨type, writable, setter⟩ := summary?_eq_some found
  have unwritten := @relevant_eq_nil_iff facts property.name Draft.writable
  refine ⟨?writable, ?setter, ?unset, ?typeRead, ?typeWritten⟩
  case writable =>
    rw [Member.writes_eq, writable, Bool.not_eq_true', ← Bool.not_eq_true,
      List.isEmpty_iff, unwritten]
    simp
  case setter =>
    intro writer first
    rw [Member.writes_eq] at first
    obtain ⟨mention, told, named, writes, head⟩ := head?_relevant first
    rw [head, Option.bind_some] at setter
    exact ⟨_, Member.writesAs_iff.2
      ⟨mention, told, named, writes, rfl, setter.symm⟩⟩
  case unset =>
    intro readOnly
    rw [readOnly, Bool.false_eq, Bool.not_eq_false', List.isEmpty_iff]
      at writable
    rw [setter, writable]
    rfl
  case typeRead =>
    intro reader first
    rw [Member.reads_eq] at first
    obtain ⟨mention, told, named, reads, head⟩ := head?_relevant first
    rw [List.head?_append, head, Option.some_or, Option.map_some,
      Option.some.injEq] at type
    exact Member.readsAs_iff.2 ⟨mention, told, named, reads, type⟩
  case typeWritten =>
    intro unread writer first
    rw [Member.reads_eq] at unread
    rw [Member.writes_eq] at first
    obtain ⟨mention, told, named, writes, head⟩ := head?_relevant first
    rw [relevant_eq_nil_iff.2 unread, List.nil_append, head, Option.map_some,
      Option.some.injEq] at type
    exact ⟨_, Member.writesAs_iff.2
      ⟨mention, told, named, writes, type, rfl⟩⟩

/-- Whether methods have the accessors of each property that others have,
getters in the same order and setters in the same order. -/
def HaveAccessorsOf (methods others : List MethodFacts) : Prop :=
  ∀ property,
    (methods.map Member.method).filter (Member.Reads property) =
        (others.map Member.method).filter (Member.Reads property) ∧
      (methods.map Member.method).filter (Member.Writes property) =
        (others.map Member.method).filter (Member.Writes property)

theorem relevant_withMethods {test : Draft → Bool} {methods : List MethodFacts}
    (same : (methods.map Member.method).filter (Member.Passes test property) =
      (facts.methods.map Member.method).filter
        (Member.Passes test property)) :
    relevant test property (mentions { facts with methods }) =
      relevant test property (mentions facts) := by
  rw [relevant_mentions, relevant_mentions]
  simp only [members, List.filter_append, same]

/-- The properties of a type are those that its members mention, in the order of
first mention, and each is what members make of its name.  The order of methods
matters only as far as some read or some write the same property. -/
theorem properties_areMerged (facts : TypeFacts) :
    AreToldBy Member.Mentions (members facts)
        ((properties facts).map Draft.name) ∧
      (∀ property ∈ properties facts, IsMerged (members facts) property) ∧
        ∀ methods, HaveAccessorsOf methods facts.methods →
          (properties { facts with methods }).Perm (properties facts) := by
  refine ⟨areToldBy_properties facts, fun _ => isMerged_of_mem, ?_⟩
  intro methods same
  refine perm_of_named?_eq (areToldBy_properties _).nodup
    (areToldBy_properties _).nodup fun name => ?_
  obtain ⟨readers, writers⟩ := same name
  simp only [Member.reads_eq, Member.writes_eq] at readers writers
  rw [named?_properties, named?_properties, relevant_withMethods readers,
    relevant_withMethods writers]

/-- A getter and a setter that disagree, and a field between two names. -/
example :
    (properties {
      name := "Switch"
      methods := [
        { name := "setOn", params := [.text] },
        { name := "isOn", params := [], returns := some (.named "boolean") }]
      fields := [
        { name := "label", type := .named "String" },
        { name := "on", type := .named "Number" }] }).map
        (fun property => (property.name, property.type, property.writable)) =
      [("on", .named "boolean", true), ("label", .named "String", true)] := by
  decide +kernel

end Bean

end TypeAtlas
