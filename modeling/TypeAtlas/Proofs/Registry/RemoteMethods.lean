import Mathlib.Data.List.Induction
import TypeAtlas.Proofs.Construction.Makers
import TypeAtlas.Proofs.Facts.Ancestors
import TypeAtlas.Registry.Assembly

/-!
# The methods that may be called from afar

A type is remoteable if it carries a remoteable tag or descends from a known
type that does.  Ancestors are met near ones first, so that the first of them to
carry a tag is as near as any, and its first remoteable tag says which of its
methods may be called from afar, and by which keys.  Where methods share a key,
the last one has it.
-/

namespace TypeAtlas

/-- Whether an item is the last of a list of which something holds. -/
def LastWith (holds : α → Prop) (items : List α) (item : α) : Prop :=
  ∃ before after, items = before ++ item :: after ∧ holds item ∧
    ∀ other ∈ after, ¬ holds other

namespace LastWith

variable {holds : α → Prop} {items : List α} {item : α}

theorem mem (ends : LastWith holds items item) : item ∈ items := by
  obtain ⟨before, after, rfl, _⟩ := ends
  simp

theorem held (ends : LastWith holds items item) : holds item := by
  obtain ⟨before, after, _, held, _⟩ := ends
  exact held

end LastWith

section Lists

variable {holds : α → Prop} {items : List α} {item last : α}

theorem not_lastWith_nil : ¬ LastWith holds [] item := by
  intro ends
  cases ends.mem

theorem lastWith_concat_iff :
    LastWith holds (items ++ [last]) item ↔
      holds last ∧ item = last ∨ ¬ holds last ∧ LastWith holds items item := by
  constructor
  · rintro ⟨before, after, split, held, others⟩
    rcases List.eq_nil_or_concat after with rfl | ⟨more, final, rfl⟩
    · obtain ⟨-, same⟩ := List.append_inj' split rfl
      cases same
      exact .inl ⟨held, rfl⟩
    · rw [List.concat_eq_append, ← List.cons_append,
        ← List.append_assoc] at split
      obtain ⟨rfl, same⟩ := List.append_inj' split rfl
      cases same
      refine .inr ⟨others last (by simp), before, more, rfl, held, ?_⟩
      intro other member
      exact others other (by simp [member])
  · rintro (⟨held, rfl⟩ | ⟨fails, before, after, rfl, held, others⟩)
    · exact ⟨items, [], rfl, held, by simp⟩
    · refine ⟨before, after ++ [last], by simp, held, ?_⟩
      intro other member
      rcases List.mem_append.1 member with among | here
      · exact others other among
      · rwa [List.mem_singleton.1 here]

theorem exists_lastWith_iff :
    (∃ item, LastWith holds items item) ↔ ∃ item ∈ items, holds item := by
  constructor
  · rintro ⟨item, ends⟩
    exact ⟨item, ends.mem, ends.held⟩
  induction items using List.reverseRecOn with
  | nil => simp
  | append_singleton items last ih =>
    rintro ⟨item, member, held⟩
    by_cases final : holds last
    · exact ⟨last, lastWith_concat_iff.2 (.inl ⟨final, rfl⟩)⟩
    have earlier : item ∈ items := by
      rcases List.mem_append.1 member with earlier | here
      · exact earlier
      · rw [List.mem_singleton.1 here] at held
        exact (final held).elim
    obtain ⟨found, ends⟩ := ih ⟨item, earlier, held⟩
    exact ⟨found, lastWith_concat_iff.2 (.inr ⟨final, ends⟩)⟩

theorem lastWith_filter_iff (test : α → Bool) :
    LastWith holds (items.filter test) item ↔
      LastWith (fun other => test other = true ∧ holds other) items item := by
  induction items using List.reverseRecOn with
  | nil => simp [not_lastWith_nil]
  | append_singleton items last ih =>
    by_cases passes : test last = true
    · simp [List.filter_append, passes, lastWith_concat_iff, ih]
    · simp [List.filter_append, passes, lastWith_concat_iff, ih]

theorem exists_firstWith_of_findSome? {find : α → Option β} {given : β}
    (found : items.findSome? find = some given) :
    ∃ item, FirstWith (fun item => (find item).isSome = true) items item ∧
      find item = some given := by
  obtain ⟨before, item, after, split, gives, others⟩ :=
    List.findSome?_eq_some_iff.1 found
  refine ⟨item, ⟨before, after, split, by simp [gives], ?_⟩, gives⟩
  intro other member
  simp [others other member]

theorem FirstWith.of_pairwise {relation : α → α → Prop} {other : α}
    (first : FirstWith holds items item) (ordered : items.Pairwise relation)
    (member : other ∈ items) (held : holds other) :
    other = item ∨ relation item other := by
  obtain ⟨before, after, rfl, -, none⟩ := first
  simp only [List.mem_append, List.mem_cons] at member
  rcases member with earlier | here | later
  · exact (none other earlier held).elim
  · exact .inl here
  · rw [List.pairwise_append, List.pairwise_cons] at ordered
    exact .inr (ordered.2.1.1 other later)

end Lists

theorem NameMap.ofList_concat (entries : List (String × α)) (name : String)
    (value : α) :
    ofList (entries ++ [(name, value)]) =
      (ofList entries).insert name value := by
  simp [ofList]

theorem NameMap.mem_names_iff {map : NameMap α} {name : String} :
    name ∈ map.names ↔ ∃ value, map.get? name = some value :=
  ⟨exists_get?_of_mem_names, fun ⟨_, found⟩ => mem_names_of_get? found⟩

theorem NameMap.get?_of_mem {map : NameMap α} {name : String} {value : α}
    (member : (name, value) ∈ map.entries) : map.get? name = some value := by
  obtain ⟨other, found⟩ := exists_get?_of_mem_names
    (List.mem_map.2 ⟨_, member, rfl⟩)
  obtain ⟨before, after, split, _⟩ := List.lookup_eq_some_iff.1 found
  have memberToo : (name, other) ∈ map.entries := by simp [split]
  have same := List.inj_on_of_nodup_map map.nodup_names member memberToo rfl
  cases same
  exact found

/-- Whether a tag makes a type remoteable. -/
def TypeTag.IsRemoteable : TypeTag → Prop
  | .remoteable _ _ => True
  | _ => False

/-- Whether a type carries a tag that makes it remoteable. -/
def TypeFacts.IsCarrier (facts : TypeFacts) : Prop :=
  ∃ tag ∈ facts.tags, tag.IsRemoteable

namespace TypeFacts

variable {facts : TypeFacts} {annotatedOnly keyByName : Bool}

theorem isSome_remoteableTag?_iff :
    facts.remoteableTag?.isSome = true ↔ facts.IsCarrier := by
  simp only [remoteableTag?, IsCarrier, List.isSome_findSome?,
    List.any_eq_true]
  refine exists_congr fun tag => and_congr_right fun _ => ?_
  cases tag <;> simp [TypeTag.IsRemoteable]

/-- The first remoteable tag of a type is the one that counts. -/
theorem firstWith_of_remoteableTag?
    (tagged : facts.remoteableTag? = some (annotatedOnly, keyByName)) :
    FirstWith TypeTag.IsRemoteable facts.tags
      (.remoteable annotatedOnly keyByName) := by
  obtain ⟨before, tag, after, split, gives, others⟩ :=
    List.findSome?_eq_some_iff.1 tagged
  cases tag with
  | remoteable annotated named =>
    cases gives
    refine ⟨before, after, split, trivial, fun other member remoteable => ?_⟩
    cases other with
    | remoteable _ _ => cases others _ member
    | _ => cases remoteable
  | _ => cases gives

end TypeFacts

namespace MethodFacts

/-- Whether a method of a carrier may be called from afar: it is public and, if
the carrier's tag asks for that, annotated. -/
structure IsRemote (method : MethodFacts) (annotatedOnly : Bool) : Prop where
  exposed : method.visibility = .exposed
  annotated : annotatedOnly = true → MemberTag.remoteMethod ∈ method.tags

def remoteKey (method : MethodFacts) (keyByName : Bool) : String :=
  if keyByName then method.name else method.signature

theorem isRemote_iff {method : MethodFacts} {annotatedOnly : Bool} :
    method.IsRemote annotatedOnly ↔
      (!annotatedOnly || method.tags.contains .remoteMethod) = true ∧
        method.visibility = .exposed := by
  constructor
  · rintro ⟨exposed, annotated⟩
    cases annotatedOnly <;> simp_all
  · rintro ⟨passes, exposed⟩
    exact ⟨exposed, fun asked => by simpa [asked] using passes⟩

end MethodFacts

/-- Whether methods are those of a carrier that may be called from afar, the
last one that has a key being called by it. -/
structure NameMap.AreRemoteOf (methods : NameMap MethodFacts)
    (carrier : TypeFacts) (annotatedOnly keyByName : Bool) : Prop where
  keys : ∀ key, key ∈ methods.names ↔ ∃ method ∈ carrier.methods,
    method.IsRemote annotatedOnly ∧ method.remoteKey keyByName = key
  called : ∀ key method, methods.get? key = some method ↔
    LastWith (fun other => other.IsRemote annotatedOnly ∧
      other.remoteKey keyByName = key) carrier.methods method

namespace Parts

/-- Of the public methods that have a key, the last one is listed by it. -/
theorem get?_methodsBy_iff (key : MethodFacts → String)
    (methods : List MethodFacts) {name : String} {method : MethodFacts} :
    (methodsBy key methods).get? name = some method ↔
      LastWith (fun other => other.visibility = .exposed ∧ key other = name)
        methods method := by
  unfold methodsBy
  induction methods using List.reverseRecOn with
  | nil => simp [NameMap.ofList, not_lastWith_nil]
  | append_singleton methods last ih =>
    rw [lastWith_concat_iff, ← ih]
    by_cases exposed : last.visibility = .exposed
    · by_cases same : name = key last
      · simp [List.filter_append, exposed, NameMap.ofList_concat, same, eq_comm]
      · simp [List.filter_append, exposed, NameMap.ofList_concat, same,
          Ne.symm same]
    · simp [List.filter_append, exposed]

theorem areRemoteOf_remoteMethods (carrier : TypeFacts)
    (annotatedOnly keyByName : Bool) :
    (remoteMethods carrier annotatedOnly keyByName).AreRemoteOf carrier
      annotatedOnly keyByName := by
  have called (key : String) (method : MethodFacts) :
      (remoteMethods carrier annotatedOnly keyByName).get? key = some method ↔
        LastWith (fun other => other.IsRemote annotatedOnly ∧
          other.remoteKey keyByName = key) carrier.methods method := by
    unfold remoteMethods
    rw [get?_methodsBy_iff, lastWith_filter_iff]
    simp only [MethodFacts.isRemote_iff, and_assoc]
    cases keyByName <;> rfl
  refine ⟨fun key => ?_, called⟩
  simp only [NameMap.mem_names_iff, called]
  exact exists_lastWith_iff

end Parts

namespace Provider

/-- Whether a type carries a remoteable tag, or a type that it descends from. -/
def IsRemoteable (provider : Provider) (name : TypeName) : Prop :=
  ∃ above carrier, provider.isSubtype name above = true ∧
    provider.known? above = some carrier ∧ carrier.IsCarrier

/-- Whether a type is as near as any that carries a remoteable tag, the number
of supertype steps being the least that leads to any such type. -/
structure IsNearestCarrier (provider : Provider) (facts carrier : TypeFacts)
    (steps : Nat) : Prop where
  known : provider.known? carrier.name = some carrier
  tagged : carrier.IsCarrier
  climbs : provider.Climbs (fun _ => True) facts steps carrier.name
  nearest : ∀ more other, provider.known? other.name = some other →
    other.IsCarrier →
      provider.Climbs (fun _ => True) facts more other.name → steps ≤ more

variable {provider : Provider} {facts : TypeFacts} {name sub sup : TypeName}
  {methods : NameMap MethodFacts}

theorem IsRemoteable.of_isSubtype (remoteable : provider.IsRemoteable sup)
    (descends : provider.isSubtype sub sup = true) :
    provider.IsRemoteable sub := by
  obtain ⟨above, carrier, leads, known, tagged⟩ := remoteable
  rw [isSubtype_iff] at leads descends
  exact ⟨above, carrier, isSubtype_iff.2 (descends.trans leads), known, tagged⟩

def remoteMethods? (provider : Provider) (name : TypeName) :
    Option (NameMap MethodFacts) :=
  (provider.known? name).bind fun carrier =>
    carrier.remoteableTag?.map fun (annotatedOnly, keyByName) =>
      Parts.remoteMethods carrier annotatedOnly keyByName

theorem isSome_remoteMethods?_iff :
    (provider.remoteMethods? name).isSome = true ↔
      ∃ carrier, provider.known? name = some carrier ∧ carrier.IsCarrier := by
  unfold remoteMethods?
  cases provider.known? name with
  | none => simp
  | some carrier => simp [TypeFacts.isSome_remoteableTag?_iff]

/-- A known type is asked first for its methods, and its ancestors after it. -/
theorem remoteableMethodsOf?_eq (known : provider.known? name = some facts)
    (ancestors : List TypeName) :
    Parts.remoteableMethodsOf? provider facts ancestors =
      (name :: ancestors).findSome? provider.remoteMethods? := by
  unfold Parts.remoteableMethodsOf?
  rw [← List.filterMap_cons_some known, ← List.head?_filterMap,
    List.filterMap_filterMap, List.head?_filterMap]
  rfl

theorem isSome_remoteableMethodsOf?_iff
    (known : provider.known? name = some facts) :
    (Parts.remoteableMethodsOf? provider facts
        (provider.ancestors facts)).isSome = true ↔
      provider.IsRemoteable name := by
  rw [remoteableMethodsOf?_eq known, List.isSome_findSome?, List.any_eq_true]
  unfold IsRemoteable
  simp only [mem_cons_ancestors_iff known, isSome_remoteMethods?_iff,
    isSubtype_iff, exists_and_left]

/-- A remoteable type has the methods of a nearest type that carries a tag. -/
theorem exists_isNearestCarrier (known : provider.known? name = some facts)
    (given : Parts.remoteableMethodsOf? provider facts
      (provider.ancestors facts) = some methods) :
    ∃ carrier steps annotatedOnly keyByName,
      provider.IsNearestCarrier facts carrier steps ∧
        FirstWith TypeTag.IsRemoteable carrier.tags
            (.remoteable annotatedOnly keyByName) ∧
          methods.AreRemoteOf carrier annotatedOnly keyByName := by
  have named := name_eq_of_known? known
  rw [remoteableMethodsOf?_eq known, ← named] at given
  obtain ⟨near, first, gives⟩ := exists_firstWith_of_findSome? given
  obtain ⟨carrier, found, gives⟩ := Option.bind_eq_some_iff.1 gives
  obtain ⟨⟨annotatedOnly, keyByName⟩, tagged, rfl⟩ :=
    Option.map_eq_some_iff.1 gives
  obtain rfl := name_eq_of_known? found
  have tellsAll := tellsAll_of_known? known
  have reaches := @mem_cons_ancestors_iff_climbs provider facts
  obtain ⟨_, climbs⟩ := (reaches tellsAll).1 first.mem
  obtain ⟨steps, least⟩ := climbs.exists_isLeast
  refine ⟨carrier, steps, annotatedOnly, keyByName, ?_,
    TypeFacts.firstWith_of_remoteableTag? tagged,
    Parts.areRemoteOf_remoteMethods carrier annotatedOnly keyByName⟩
  refine ⟨found, ?_, least.1, fun more other knownOther tagged climbs => ?_⟩
  · exact TypeFacts.isSome_remoteableTag?_iff.1 (by simp [tagged])
  -- The other carrier is among the types that are asked, and not before this.
  have listed := (reaches tellsAll).2 ⟨more, climbs⟩
  have counts := isSome_remoteMethods?_iff.2 ⟨other, knownOther, tagged⟩
  rcases first.of_pairwise (pairwise_cons_ancestors tellsAll) listed counts with
    same | noFarther
  · exact least.2 (same ▸ climbs)
  · obtain ⟨fewest, leastOther⟩ := climbs.exists_isLeast
    exact (noFarther steps fewest least leastOther).trans (leastOther.2 climbs)

end Provider

end TypeAtlas
