import Mathlib.Data.List.Induction
import TypeAtlas.Descriptor.Basic

/-!
# The selection of transforms

Of the bindings of a type, the earliest of those that score highest for a format
is selected, and none if all of them score zero.  So a further binding takes the
selection over only if it scores higher than the one selected before, or as high
and stands before it; and the order of bindings decides only between those that
tie.
-/

namespace TypeAtlas

variable {bindings others before after : List Binding} {format : Format}
  {winner binding : Binding}

def Binding.score (binding : Binding) (format : Format) : Nat :=
  binding.transform.score format

/-- The score of what is selected, zero if nothing is. -/
def highestScore (bindings : List Binding) (format : Format) : Nat :=
  ((selectBinding? bindings format).map Prod.snd).getD 0

/-- Whether a binding is the earliest that scores highest, and above zero. -/
structure Wins (format : Format) (before : List Binding) (winner : Binding)
    (after : List Binding) : Prop where
  positive : 0 < winner.score format
  first : ∀ other ∈ before, other.score format < winner.score format
  best : ∀ other ∈ after, other.score format ≤ winner.score format

namespace Wins

theorem score_le (wins : Wins format before winner after)
    (member : binding ∈ before ++ winner :: after) :
    binding.score format ≤ winner.score format := by
  rcases List.mem_append.1 member with earlier | member
  · exact Nat.le_of_lt (wins.first binding earlier)
  rcases List.mem_cons.1 member with rfl | later
  · exact Nat.le_refl _
  · exact wins.best binding later

/-- What stands behind a winner wins over nothing that the winner is among. -/
theorem not_wins_behind {between rest : List Binding} {other : Binding}
    (wins : Wins format before winner (between ++ other :: rest)) :
    ¬ Wins format (before ++ winner :: between) other rest := by
  intro winsToo
  have above := wins.best other (by simp)
  have below := winsToo.first winner (by simp)
  exact Nat.not_lt.2 above below

theorem unique {earlier later : List Binding} {other : Binding}
    (wins : Wins format before winner after)
    (winsToo : Wins format earlier other later)
    (same : before ++ winner :: after = earlier ++ other :: later) :
    before = earlier ∧ winner = other ∧ after = later := by
  rcases List.append_eq_append_iff.1 same with
    ⟨between, rfl, split⟩ | ⟨between, rfl, split⟩
  · cases between with
    | nil =>
      obtain ⟨rfl, rfl⟩ := List.cons.inj split
      exact ⟨(List.append_nil _).symm, rfl, rfl⟩
    | cons head between =>
      obtain ⟨rfl, rfl⟩ := List.cons.inj split
      exact (wins.not_wins_behind winsToo).elim
  · cases between with
    | nil =>
      obtain ⟨rfl, rfl⟩ := List.cons.inj split
      exact ⟨List.append_nil _, rfl, rfl⟩
    | cons head between =>
      obtain ⟨rfl, rfl⟩ := List.cons.inj split
      exact (winsToo.not_wins_behind wins).elim

theorem insert_before {between rest : List Binding}
    (wins : Wins format (before ++ between) winner rest)
    (lower : binding.score format < winner.score format) :
    Wins format (before ++ binding :: between) winner rest := by
  refine ⟨wins.positive, fun other member => ?_, wins.best⟩
  rcases List.mem_append.1 member with earlier | member
  · exact wins.first other (List.mem_append_left _ earlier)
  rcases List.mem_cons.1 member with rfl | later
  · exact lower
  · exact wins.first other (List.mem_append_right _ later)

theorem insert_behind {between rest : List Binding}
    (wins : Wins format before winner (between ++ rest))
    (noHigher : binding.score format ≤ winner.score format) :
    Wins format before winner (between ++ binding :: rest) := by
  refine ⟨wins.positive, wins.first, fun other member => ?_⟩
  rcases List.mem_append.1 member with earlier | member
  · exact wins.best other (List.mem_append_left _ earlier)
  rcases List.mem_cons.1 member with rfl | later
  · exact noHigher
  · exact wins.best other (List.mem_append_right _ later)

end Wins

/-- A binding at the end is selected if it scores higher than what is before. -/
theorem selectBinding?_concat (bindings : List Binding) (last : Binding)
    (format : Format) :
    selectBinding? (bindings ++ [last]) format =
      if highestScore bindings format < last.score format then
        some (last, last.score format)
      else selectBinding? bindings format := by
  unfold selectBinding?
  rw [List.foldl_append]
  rfl

/-- Whether a selection is that of the winner, or of nothing where none wins. -/
def IsSelection (bindings : List Binding) (format : Format) :
    Option (Binding × Nat) → Prop
  | none => ∀ binding ∈ bindings, binding.score format = 0
  | some (winner, score) => ∃ before after,
      bindings = before ++ winner :: after ∧ winner.score format = score ∧
        Wins format before winner after

theorem isSelection_selectBinding? (bindings : List Binding)
    (format : Format) :
    IsSelection bindings format (selectBinding? bindings format) := by
  induction bindings using List.reverseRecOn with
  | nil => exact nofun
  | append_singleton bindings last ih =>
    rw [selectBinding?_concat]
    unfold highestScore
    cases selected : selectBinding? bindings format with
    | none =>
      rw [selected] at ih
      dsimp only [Option.map_none, Option.getD_none]
      split
      next positive =>
        refine ⟨bindings, [], rfl, rfl, positive, fun other member => ?_, nofun⟩
        rwa [ih other member]
      next zero =>
        intro other member
        rcases List.mem_append.1 member with earlier | here
        · exact ih other earlier
        · rw [List.mem_singleton.1 here]
          exact Nat.eq_zero_of_not_pos zero
    | some best =>
      obtain ⟨winner, score⟩ := best
      rw [selected] at ih
      obtain ⟨before, after, rfl, rfl, wins⟩ := ih
      dsimp only [Option.map_some, Option.getD_some]
      split
      next higher =>
        refine ⟨_, [], rfl, rfl, Nat.lt_trans wins.positive higher, ?_, nofun⟩
        intro other member
        exact Nat.lt_of_le_of_lt (wins.score_le member) higher
      next lower =>
        refine ⟨before, after ++ [last], by simp, rfl, wins.positive,
          wins.first, fun other member => ?_⟩
        rcases List.mem_append.1 member with among | here
        · exact wins.best other among
        · rw [List.mem_singleton.1 here]
          exact Nat.not_lt.1 lower

/-- A binding is selected just if it wins in its place. -/
theorem selectBinding?_eq_some_iff {score : Nat} :
    selectBinding? bindings format = some (winner, score) ↔
      ∃ before after, bindings = before ++ winner :: after ∧
        winner.score format = score ∧ Wins format before winner after := by
  have selection := isSelection_selectBinding? bindings format
  constructor
  · intro selected
    rwa [selected] at selection
  · rintro ⟨before, after, rfl, rfl, wins⟩
    cases selected : selectBinding? (before ++ winner :: after) format with
    | none =>
      rw [selected] at selection
      exact (Nat.ne_of_gt wins.positive (selection winner (by simp))).elim
    | some best =>
      obtain ⟨other, score⟩ := best
      rw [selected] at selection
      obtain ⟨earlier, later, same, rfl, winsToo⟩ := selection
      obtain ⟨-, rfl, -⟩ := wins.unique winsToo same
      rfl

theorem selectBinding?_eq_none_iff :
    selectBinding? bindings format = none ↔
      ∀ binding ∈ bindings, binding.score format = 0 := by
  have selection := isSelection_selectBinding? bindings format
  constructor
  · intro none
    rwa [none] at selection
  · intro zero
    cases selected : selectBinding? bindings format with
    | none => rfl
    | some best =>
      obtain ⟨before, after, rfl, -, wins⟩ :=
        selectBinding?_eq_some_iff.1 selected
      exact (Nat.ne_of_gt wins.positive (zero best.1 (by simp))).elim

theorem Wins.selectBinding? (wins : Wins format before winner after) :
    selectBinding? (before ++ winner :: after) format =
      some (winner, winner.score format) :=
  selectBinding?_eq_some_iff.2 ⟨before, after, rfl, rfl, wins⟩

theorem Wins.highestScore (wins : Wins format before winner after) :
    highestScore (before ++ winner :: after) format = winner.score format := by
  rw [TypeAtlas.highestScore, wins.selectBinding?]
  rfl

/-- Either some binding wins, or all of them score zero. -/
theorem exists_wins_or (bindings : List Binding) (format : Format) :
    (∃ before winner after, bindings = before ++ winner :: after ∧
        Wins format before winner after) ∨
      ∀ binding ∈ bindings, binding.score format = 0 := by
  cases selected : selectBinding? bindings format with
  | none => exact .inr (selectBinding?_eq_none_iff.1 selected)
  | some best =>
    obtain ⟨before, after, split, -, wins⟩ :=
      selectBinding?_eq_some_iff.1 selected
    exact .inl ⟨before, best.1, after, split, wins⟩

/-- Whether a binding that is put between others takes the selection over: it
scores higher than what is selected of the others, or as high and stands before
it. -/
def TakesOver (format : Format) (before : List Binding) (binding : Binding)
    (after : List Binding) : Prop :=
  highestScore (before ++ after) format < binding.score format ∨
    ∃ between winner rest, after = between ++ winner :: rest ∧
      Wins format (before ++ between) winner rest ∧
        binding.score format = winner.score format

theorem highestScore_eq_zero
    (zero : ∀ binding ∈ bindings, binding.score format = 0) :
    highestScore bindings format = 0 := by
  rw [highestScore, selectBinding?_eq_none_iff.2 zero]
  rfl

theorem score_le_highestScore (member : binding ∈ bindings) :
    binding.score format ≤ highestScore bindings format := by
  rcases exists_wins_or bindings format with
    ⟨before, winner, after, rfl, wins⟩ | zero
  · rw [wins.highestScore]
    exact wins.score_le member
  · rw [zero binding member]
    exact Nat.zero_le _

theorem TakesOver.wins (takesOver : TakesOver format before binding after) :
    Wins format before binding after := by
  rcases takesOver with higher | ⟨between, winner, rest, rfl, wins, same⟩
  · have lower (other : Binding) (member : other ∈ before ++ after) :
        other.score format < binding.score format :=
      Nat.lt_of_le_of_lt (score_le_highestScore member) higher
    refine ⟨Nat.zero_lt_of_lt higher, fun other member => ?_,
      fun other member => Nat.le_of_lt ?_⟩
    · exact lower other (List.mem_append_left _ member)
    · exact lower other (List.mem_append_right _ member)
  · refine ⟨same ▸ wins.positive, fun other member => ?_,
      fun other member => ?_⟩
    · rw [same]
      exact wins.first other (List.mem_append_left _ member)
    · rw [same]
      have among : other ∈ (before ++ between) ++ winner :: rest := by
        rw [List.append_assoc]
        exact List.mem_append_right _ member
      exact wins.score_le among

/-- A binding that does not take the selection over leaves it as it is. -/
theorem selectBinding?_insert_of_not_takesOver
    (keeps : ¬ TakesOver format before binding after) :
    selectBinding? (before ++ binding :: after) format =
      selectBinding? (before ++ after) format := by
  obtain ⟨noHigher, noEarlier⟩ := not_or.1 keeps
  have lower := Nat.not_lt.1 noHigher
  rcases exists_wins_or (before ++ after) format with
    ⟨earlier, winner, later, split, wins⟩ | zero
  · rw [split, wins.highestScore] at lower
    rw [split, wins.selectBinding?]
    have behind (between : List Binding) (same : earlier = before ++ between)
        (found : after = between ++ winner :: later) :
        selectBinding? (before ++ binding :: after) format =
          some (winner, winner.score format) := by
      subst same found
      have below : binding.score format < winner.score format :=
        Nat.lt_of_le_of_ne lower fun ties =>
          noEarlier ⟨between, winner, later, rfl, wins, ties⟩
      simpa using (wins.insert_before below).selectBinding?
    rcases List.append_eq_append_iff.1 split with
      ⟨between, same, found⟩ | ⟨_ | ⟨head, between⟩, rfl, found⟩
    · exact behind between same found
    · exact behind [] (by simp) found.symm
    · obtain ⟨rfl, rfl⟩ := List.cons.inj found
      simpa using (wins.insert_behind lower).selectBinding?
  · have here : binding.score format = 0 := by
      rw [highestScore_eq_zero zero] at lower
      exact Nat.le_zero.1 lower
    rw [selectBinding?_eq_none_iff.2 zero, selectBinding?_eq_none_iff]
    intro other member
    rcases List.mem_append.1 member with earlier | member
    · exact zero other (List.mem_append_left _ earlier)
    rcases List.mem_cons.1 member with rfl | later
    · exact here
    · exact zero other (List.mem_append_right _ later)

/-- What is selected of rearranged bindings ties with what was selected. -/
theorem highestScore_perm (same : others.Perm bindings) :
    highestScore others format = highestScore bindings format := by
  have le {some others : List Binding} (same : some.Perm others) :
      highestScore some format ≤ highestScore others format := by
    rcases exists_wins_or some format with
      ⟨before, winner, after, rfl, wins⟩ | zero
    · rw [wins.highestScore]
      exact score_le_highestScore (same.subset (by simp))
    · rw [highestScore_eq_zero zero]
      exact Nat.zero_le _
  exact Nat.le_antisymm (le same) (le same.symm)

/-- Whether bindings are selected as they score for a format: the earliest that
scores highest, if any scores above zero. -/
structure SelectsEarliestBest (format : Format) (bindings : List Binding) :
    Prop where
  none_iff : selectBinding? bindings format = none ↔
    ∀ binding ∈ bindings, binding.score format = 0
  some_iff : ∀ winner score,
    selectBinding? bindings format = some (winner, score) ↔
      ∃ before after, bindings = before ++ winner :: after ∧
        winner.score format = score ∧ Wins format before winner after
  /-- A further binding is selected if it takes over, else alters nothing. -/
  inserted : ∀ before binding after, bindings = before ++ after →
    (TakesOver format before binding after →
      selectBinding? (before ++ binding :: after) format =
        some (binding, binding.score format)) ∧
    (¬ TakesOver format before binding after →
      selectBinding? (before ++ binding :: after) format =
        selectBinding? bindings format)
  /-- The order of bindings decides only between those that tie. -/
  rearranged : ∀ others, others.Perm bindings →
    (selectBinding? others format = none ↔
      selectBinding? bindings format = none) ∧
    ∀ winner score, selectBinding? others format = some (winner, score) →
      winner ∈ bindings ∧ winner.score format = score ∧
        score = highestScore bindings format
  /-- A type is written as the winner's surrogate, or else as itself. -/
  serialized : ∀ (body : Body) (name : TypeName),
    body.parts.bindings = bindings →
      (∀ before winner after, bindings = before ++ winner :: after →
        Wins format before winner after →
          body.serializedType name format = winner.transform.surrogate) ∧
      ((∀ binding ∈ bindings, binding.score format = 0) →
        body.serializedType name format = name)

/-- The type that values are written as is that of the selected binding. -/
theorem serializedType_eq (body : Body) (name : TypeName) (format : Format) :
    body.serializedType name format =
      ((selectBinding? body.parts.bindings format).map fun (winner, _) =>
        winner.transform.surrogate).getD name := by
  unfold Body.serializedType Body.applied? AppliedTransform.select?
  cases selectBinding? body.parts.bindings format <;> rfl

/-- However bindings score, the earliest that scores highest is selected. -/
theorem selectsEarliestBest (format : Format) (bindings : List Binding) :
    SelectsEarliestBest format bindings where
  none_iff := selectBinding?_eq_none_iff
  some_iff _ _ := selectBinding?_eq_some_iff
  inserted := by
    rintro before binding after rfl
    exact ⟨fun takesOver => takesOver.wins.selectBinding?,
      selectBinding?_insert_of_not_takesOver⟩
  rearranged others same := by
    constructor
    · rw [selectBinding?_eq_none_iff, selectBinding?_eq_none_iff]
      exact forall_congr' fun binding => imp_congr_left same.mem_iff
    · intro winner score selected
      obtain ⟨before, after, rfl, rfl, wins⟩ :=
        selectBinding?_eq_some_iff.1 selected
      rw [← highestScore_perm same, wins.highestScore]
      exact ⟨same.subset (by simp), rfl, rfl⟩
  serialized body name same := by
    constructor
    · rintro before winner after split wins
      rw [serializedType_eq, same, split, wins.selectBinding?]
      rfl
    · intro zero
      rw [serializedType_eq, same, selectBinding?_eq_none_iff.2 zero]
      rfl

end TypeAtlas
