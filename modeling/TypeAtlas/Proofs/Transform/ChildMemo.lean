import Mathlib.Data.List.Forall2
import TypeAtlas.Proofs.Transform.Children

/-!
# Remembering children

Children are asked for on two sides, and what is remembered of the answers on
one side is a memo of its own.  A memo grows by the answers about known names
until it is full.  Whatever has been asked before, an answer is the first child
that applies, and the memo of a side is what the questions on this side alone
have made of it.
-/

namespace TypeAtlas

namespace ChildTransforms

/-- A question for the first child whose type on a side applies to a name. -/
structure Query where
  side : Side
  name : TypeName
  deriving Repr, DecidableEq

def answerAll (children : List Transform) (provider? : Option Provider) :
    List Query → Memos → Except Crash (List (Option Transform) × Memos)
  | [], memos => .ok ([], memos)
  | query :: rest, memos => do
    let (child?, memos) ←
      lookup children provider? query.side query.name memos
    let (answers, memos) ← answerAll children provider? rest memos
    return (child? :: answers, memos)

/-- Whether the type of a child on a side is a name or an ancestor of it. -/
def Applies (provider? : Option Provider) (query : Query)
    (child : Transform) : Prop :=
  match provider? with
  | some provider =>
    provider.DescendsFrom query.name (query.side.typeOf child)
  | none => query.name = query.side.typeOf child

/-- Whether an answer is the first child in list order that applies. -/
def IsFirst (children : List Transform) (provider? : Option Provider)
    (query : Query) : Option Transform → Prop
  | some child => ∃ before after,
      children = before ++ child :: after ∧ Applies provider? query child ∧
        ∀ other ∈ before, ¬ Applies provider? query other
  | none => ∀ child ∈ children, ¬ Applies provider? query child

def namesOn (side : Side) (queries : List Query) : List TypeName :=
  (queries.filter fun query => query.side = side).map Query.name

variable {children : List Transform} {provider? : Option Provider}
  {side : Side} {name : TypeName} {memos : Memos} {memo : Memo}

theorem descends_iff {query : Query} {child : Transform} :
    descends provider? query.name (query.side.typeOf child) = true ↔
      Applies provider? query child := by
  cases provider? with
  | none => exact beq_iff_eq
  | some provider => exact Provider.isSubtype_iff

theorem isFirst_first? (children : List Transform)
    (provider? : Option Provider) (query : Query) :
    IsFirst children provider? query
      (first? children provider? query.side query.name) := by
  unfold first?
  cases found : children.find? fun child =>
      descends provider? query.name (query.side.typeOf child) with
  | none =>
    intro child member
    rw [← descends_iff]
    exact List.find?_eq_none.1 found child member
  | some child =>
    obtain ⟨applies, before, after, split, earlier⟩ :=
      List.find?_eq_some_iff_append.1 found
    refine ⟨before, after, split, descends_iff.1 applies, ?_⟩
    intro other member
    rw [← descends_iff]
    simpa using earlier other member

/-! ### One memo -/

def remember (children : List Transform) (provider? : Option Provider)
    (side : Side) (memo : Memo) (name : TypeName) : Memo :=
  if !children.isEmpty && (memo.get? name).isNone &&
      memo.size < memoLimit && isKnown provider? name then
    memo.insert name (place? children provider? side name)
  else
    memo

/-- Whether a memo is not overfull and holds answers about known names. -/
structure Sound (children : List Transform) (provider? : Option Provider)
    (side : Side) (memo : Memo) : Prop where
  answers : ∀ name place, memo.get? name = some place →
    place = place? children provider? side name
  known : ∀ name place, memo.get? name = some place →
    isKnown provider? name = true
  bounded : memo.size ≤ memoLimit

theorem sound_empty : Sound children provider? side NameMap.empty where
  answers _ _ remembered := nomatch remembered
  known _ _ remembered := nomatch remembered
  bounded := Nat.zero_le _

theorem Sound.remember (sound : Sound children provider? side memo)
    (name : TypeName) :
    Sound children provider? side
      (remember children provider? side memo name) := by
  unfold ChildTransforms.remember
  split
  next fits =>
    simp only [Bool.and_eq_true, decide_eq_true_eq, Option.isNone_iff_eq_none]
      at fits
    obtain ⟨⟨⟨_, absent⟩, room⟩, known⟩ := fits
    constructor
    · intro asked place remembered
      rw [NameMap.get?_insert] at remembered
      split at remembered
      next same =>
        cases remembered
        rw [same]
      · exact sound.answers asked place remembered
    · intro asked place remembered
      rw [NameMap.get?_insert] at remembered
      split at remembered
      next same => rw [same, known]
      · exact sound.known asked place remembered
    · rw [NameMap.size_insert_of_get?_eq_none absent]
      exact room
  · exact sound

theorem Sound.foldl (sound : Sound children provider? side memo)
    (names : List TypeName) :
    Sound children provider? side
      (names.foldl (ChildTransforms.remember children provider? side)
        memo) := by
  induction names generalizing memo with
  | nil => exact sound
  | cons name rest ih => exact ih (sound.remember name)

/-! ### The memos of both sides -/

@[simp]
theorem Memos.set_get (memos : Memos) (side : Side) :
    memos.set (memos.get side) side = memos := by
  cases side <;> rfl

section Undisturbed

variable (undisturbed : ∀ provider, provider? = some provider →
  provider.disruptions = NameMap.empty)
include undisturbed

/-- One question: the answer, and what it leaves of the memo of its side. -/
theorem lookup_eq (sound : Sound children provider? side (memos.get side))
    (name : TypeName) :
    lookup children provider? side name memos =
      .ok (first? children provider? side name,
        memos.set (remember children provider? side (memos.get side) name)
          side) := by
  have calm : provider?.bind (·.crash? name) = none := by
    cases provider? with
    | none => rfl
    | some provider => exact Provider.crash?_eq_none (undisturbed _ rfl) name
  unfold lookup remember
  by_cases empty : children.isEmpty = true
  · rw [List.isEmpty_iff.1 empty]
    simp [first?]
  cases found : (memos.get side).get? name with
  | some place =>
    have computed := sound.answers name place found
    subst computed
    simp [empty, found, place?_bind]
  | none =>
    simp [empty, found, placeCrash?_eq_none undisturbed, calm, place?_bind,
      apply_ite fun memo => memos.set memo side]

/-- Questions asked one after the other are all answered by the first child that
applies, and the memo of a side comes from the names asked for on it. -/
theorem answerAll_eq (queries : List Query)
    (sound : ∀ side, Sound children provider? side (memos.get side)) :
    ∃ later,
      answerAll children provider? queries memos =
        .ok (queries.map fun query =>
          first? children provider? query.side query.name, later) ∧
      ∀ side, later.get side =
        (namesOn side queries).foldl (remember children provider? side)
          (memos.get side) := by
  induction queries generalizing memos with
  | nil => exact ⟨memos, rfl, fun _ => rfl⟩
  | cons query rest ih =>
    obtain ⟨side, name⟩ := query
    have kept (other : Side) : Sound children provider? other
        ((memos.set (remember children provider? side (memos.get side) name)
          side).get other) := by
      by_cases same : other = side
      · subst same
        rw [Memos.get_set_self]
        exact (sound other).remember name
      · rw [Memos.get_set_of_ne same]
        exact sound other
    obtain ⟨later, answered, folded⟩ := ih kept
    refine ⟨later, ?_, fun other => ?_⟩
    · rw [answerAll, lookup_eq undisturbed (sound side)]
      change (do
        let (answers, memos) ← answerAll children provider? rest _
        return (_ :: answers, memos)) = _
      rw [answered]
      rfl
    · rw [folded other]
      by_cases same : other = side
      · subst same
        simp [namesOn]
      · simp [namesOn, Ne.symm same, Memos.get_set_of_ne same]

end Undisturbed

/-- What comes of questions about children: every answer is the first child that
applies, as without any memo.  What is remembered on a side are such answers,
about names that the provider knows and not too many, and it is what the
questions on this side alone would have left. -/
structure Transparent (children : List Transform)
    (provider? : Option Provider) (queries : List Query)
    (answers : List (Option Transform)) (memos : Memos) : Prop where
  unmemoized : answers = queries.map fun query =>
    (place? children provider? query.side query.name).bind (children[·]?)
  first : List.Forall₂ (IsFirst children provider?) queries answers
  entries : ∀ side name place, (memos.get side).get? name = some place →
    place = place? children provider? side name ∧
      isKnown provider? name = true
  bounded : ∀ side, (memos.get side).size ≤ memoLimit
  apart : ∀ side, ∃ own,
    answerAll children provider?
        (queries.filter fun query => query.side = side) {} =
      .ok (((queries.zip answers).filter fun asked =>
        asked.1.side = side).map Prod.snd, own) ∧
    own.get side = memos.get side

/-- Memos of children are transparent and bounded, whatever is asked. -/
theorem exists_transparent_answerAll (children : List Transform)
    (table? : Option FactsTable) (queries : List Query) :
    ∃ answers memos,
      answerAll children (table?.map Provider.ofTable) queries {} =
        .ok (answers, memos) ∧
      Transparent children (table?.map Provider.ofTable) queries answers
        memos := by
  have undisturbed (provider : Provider)
      (provided : table?.map Provider.ofTable = some provider) :
      provider.disruptions = NameMap.empty := by
    obtain ⟨table, _, rfl⟩ := Option.map_eq_some_iff.1 provided
    rfl
  generalize table?.map Provider.ofTable = provider? at undisturbed ⊢
  have fresh (side : Side) :
      Sound children provider? side (({} : Memos).get side) := by
    cases side <;> exact sound_empty
  obtain ⟨memos, answered, folded⟩ :=
    answerAll_eq undisturbed queries fresh
  have sound (side : Side) : Sound children provider? side
      (memos.get side) := by
    rw [folded side]
    exact (fresh side).foldl _
  refine ⟨_, memos, answered, ?_, ?_, ?_, ?_, ?_⟩
  · simp only [place?_bind]
  · rw [List.forall₂_map_right_iff]
    exact List.forall₂_same.2 fun query _ =>
      isFirst_first? children provider? query
  · intro side name place remembered
    exact ⟨(sound side).answers name place remembered,
      (sound side).known name place remembered⟩
  · exact fun side => (sound side).bounded
  · intro side
    obtain ⟨own, ownAnswered, ownFolded⟩ := answerAll_eq undisturbed
      (queries.filter fun query => query.side = side) fresh
    refine ⟨own, ?_, ?_⟩
    · rw [ownAnswered]
      rw [← List.map_prod_left_eq_zip, List.filter_map, List.map_map]
      rfl
    · rw [ownFolded side, folded side]
      simp [namesOn]

end ChildTransforms

end TypeAtlas
