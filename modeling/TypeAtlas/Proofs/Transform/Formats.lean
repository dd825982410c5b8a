import Mathlib.Data.List.Fold
import Mathlib.Data.List.Forall2
import Mathlib.Data.List.MinMax
import Mathlib.Data.List.TakeWhile
import Mathlib.Order.Nat
import TypeAtlas.Transform.Format

/-!
# The scores of formats

A list of patterns scores as its best pattern does: the format by its name, then
all subtypes of its main type, then everything.  A pattern is tested for
everything before it is tested for a main type, though it scores less by that,
and the two tests overlap; but only in one pattern, which counts as everything.
Case, order and repetitions do not alter the score, and further patterns can
only raise it.
-/

namespace TypeAtlas

namespace Text

/-- Whether two texts differ in the case of ASCII letters at most. -/
def AlikeButCase (first second : String) : Prop :=
  List.Forall₂ (fun letter other => letter.toLower = other.toLower)
    first.toList second.toList

variable {first second third text other : String}

theorem alikeButCase_iff : AlikeButCase first second ↔
    first.toList.map Char.toLower = second.toList.map Char.toLower := by
  rw [← List.forall₂_eq_eq_eq, List.forall₂_map_left_iff,
    List.forall₂_map_right_iff, AlikeButCase]

theorem equalAscii_iff :
    equalAscii first second = true ↔ AlikeButCase first second := by
  rw [equalAscii, beq_iff_eq, alikeButCase_iff, ← String.toList_inj, lowerAscii,
    lowerAscii, String.toList_map, String.toList_map]

namespace AlikeButCase

theorem symm (alike : AlikeButCase first second) :
    AlikeButCase second first :=
  alikeButCase_iff.2 (alikeButCase_iff.1 alike).symm

theorem trans (alike : AlikeButCase first second)
    (alikeNext : AlikeButCase second third) : AlikeButCase first third :=
  alikeButCase_iff.2
    ((alikeButCase_iff.1 alike).trans (alikeButCase_iff.1 alikeNext))

theorem toNat_toLower (character : Char) :
    character.toLower.toNat =
      if 65 ≤ character.toNat ∧ character.toNat ≤ 90 then character.toNat + 32
      else character.toNat := by
  unfold Char.toLower
  simp only [UInt32.le_iff_toNat_le, Char.reduceVal, UInt32.reduceToNat,
    Char.toNat_val]
  split
  · have small : character.val.toNat ≤ 90 := by
      rw [Char.toNat_val]
      omega
    rw [← Char.toNat_val, UInt32.toNat_add, ← Char.toNat_val]
    simp
    omega
  · rfl

theorem isAlpha_eq_false_iff (character : Char) :
    character.isAlpha = false ↔
      ¬ (65 ≤ character.toNat ∧ character.toNat ≤ 90) ∧
        ¬ (97 ≤ character.toNat ∧ character.toNat ≤ 122) := by
  delta Char.isAlpha Char.isUpper Char.isLower
  simp [UInt32.le_iff_toNat_le]

theorem eq_of_toLower_eq {character letter : Char}
    (noLetter : character.isAlpha = false)
    (same : letter.toLower = character.toLower) : letter = character := by
  have codes := congrArg Char.toNat same
  rw [isAlpha_eq_false_iff] at noLetter
  rw [toNat_toLower, toNat_toLower, if_neg noLetter.1] at codes
  apply Char.toNat_inj.1
  split at codes
  · omega
  · exact codes

theorem eq_of_noLetters (alike : AlikeButCase other text)
    (noLetters : ∀ character ∈ text.toList, character.isAlpha = false) :
    other = text := by
  rw [← String.toList_inj]
  unfold AlikeButCase at alike
  generalize other.toList = letters, text.toList = characters
    at alike noLetters ⊢
  induction alike with
  | nil => rfl
  | cons same _ ih =>
    rw [List.forall_mem_cons] at noLetters
    rw [eq_of_toLower_eq noLetters.1 same, ih noLetters.2]

theorem not_mem {character : Char} (alike : AlikeButCase first second)
    (noLetter : character.isAlpha = false)
    (absent : character ∉ first.toList) : character ∉ second.toList := by
  intro present
  have mapped : character.toLower ∈ second.toList.map Char.toLower :=
    List.mem_map_of_mem present
  rw [← alikeButCase_iff.1 alike] at mapped
  obtain ⟨letter, member, same⟩ := List.mem_map.1 mapped
  exact absent (eq_of_toLower_eq noLetter same ▸ member)

theorem exists_append (alike : AlikeButCase (first ++ second) text) :
    ∃ start rest, text = start ++ rest ∧ AlikeButCase first start ∧
      AlikeButCase second rest := by
  rw [alikeButCase_iff, String.toList_append, List.map_append, eq_comm,
    List.map_eq_append_iff] at alike
  obtain ⟨start, rest, split, starts, ends⟩ := alike
  refine ⟨String.ofList start, String.ofList rest, ?_, ?_, ?_⟩
  · rw [← String.ofList_append, ← split, String.ofList_toList]
  · rw [alikeButCase_iff, String.toList_ofList, starts]
  · rw [alikeButCase_iff, String.toList_ofList, ends]

end AlikeButCase

end Text

namespace Format

open Text (AlikeButCase)

/-- Whether a pattern is that for all subtypes of the main type of a format,
which must have one.  The pattern for everything is none. -/
def IsRangeOf (pattern : String) (format : Format) : Prop :=
  pattern ≠ "*/*" ∧ ∃ stem main rest, pattern = stem ++ "/*" ∧
    format = main ++ "/" ++ rest ∧ '/' ∉ main.toList ∧ AlikeButCase main stem

/-- Whether a score is that of the most specific pattern of a list that suits a
format. -/
structure IsBestScore (patterns : List String) (format : Format)
    (score : Nat) : Prop where
  unrestricted : score = 1 ↔ patterns = []
  exact : (∃ pattern ∈ patterns, AlikeButCase pattern format) → score = 100
  range : (∀ pattern ∈ patterns, ¬ AlikeButCase pattern format) →
    (∃ pattern ∈ patterns, IsRangeOf pattern format) → score = 50
  wildcard : (∀ pattern ∈ patterns, ¬ AlikeButCase pattern format) →
    (∀ pattern ∈ patterns, ¬ IsRangeOf pattern format) →
    ("*" ∈ patterns ∨ "*/*" ∈ patterns) → score = 10
  unsuited : patterns ≠ [] →
    (∀ pattern ∈ patterns, ¬ AlikeButCase pattern format) →
    (∀ pattern ∈ patterns, ¬ IsRangeOf pattern format) →
    "*" ∉ patterns → "*/*" ∉ patterns → score = 0

variable {patterns others : List String} {format other : Format}
  {pattern counterpart : String} {bound : Nat}

theorem rangeOf?_eq_some_iff {range : String} :
    rangeOf? pattern = some range ↔ pattern = range ++ "/*" := by
  have suffix : pattern = range ++ "/*" ↔
      pattern.toList.reverse = '*' :: '/' :: range.toList.reverse := by
    rw [← String.toList_inj, String.toList_append, ← List.reverse_inj]
    simp
  rw [suffix, rangeOf?]
  split
  next main reversed =>
    simp only [reversed, Option.some.injEq, List.cons.injEq, true_and]
    rw [← String.toList_inj, String.toList_ofList, List.reverse_eq_iff]
  next other => exact iff_of_false nofun (other _)

theorem mainType?_eq_some_iff {main : String} :
    mainType? format = some main ↔
      ∃ rest, format = main ++ "/" ++ rest ∧ '/' ∉ main.toList := by
  constructor
  · intro found
    have split := List.takeWhile_append_dropWhile (p := (· != '/'))
      (l := format.toList)
    unfold mainType? at found
    split at found
    next => cases found
    next nonempty =>
      obtain ⟨slash, rest, begins⟩ := List.exists_cons_of_ne_nil nonempty
      cases found
      have isSlash : slash = '/' := by
        have stops := List.head_dropWhile_not (· != '/') nonempty
        simpa [begins] using stops
      refine ⟨String.ofList rest, ?_, ?_⟩
      · refine String.toList_inj.1 (split.symm.trans ?_)
        rw [begins, isSlash]
        simp
      · intro member
        rw [String.toList_ofList] at member
        simpa using List.mem_takeWhile_imp member
  · rintro ⟨rest, rfl, first⟩
    have before : ∀ letter ∈ main.toList, (letter != '/') = true :=
      fun letter member => bne_iff_ne.2 fun same => first (same ▸ member)
    have spelled : (main ++ "/" ++ rest).toList =
        main.toList ++ '/' :: rest.toList := by simp
    rw [mainType?, spelled, List.dropWhile_append_of_pos before,
      List.takeWhile_append_of_pos before]
    simp

/-- A pattern that does not stand for everything is tested for a main type. -/
theorem isRange_iff (restricted : pattern ≠ "*/*") :
    isRange pattern format = true ↔ IsRangeOf pattern format := by
  constructor
  · intro isRange
    unfold Format.isRange at isRange
    split at isRange
    next stem main hasStem hasMain =>
      obtain ⟨rest, split, first⟩ := mainType?_eq_some_iff.1 hasMain
      exact ⟨restricted, stem, main, rest, rangeOf?_eq_some_iff.1 hasStem,
        split, first, Text.equalAscii_iff.1 isRange⟩
    next => cases isRange
  · rintro ⟨-, stem, main, rest, hasStem, split, first, alike⟩
    rw [isRange, rangeOf?_eq_some_iff.2 hasStem,
      mainType?_eq_some_iff.2 ⟨rest, split, first⟩]
    exact Text.equalAscii_iff.2 alike

theorem not_isRangeOf_of_wildcard (wildcard : pattern = "*" ∨ pattern = "*/*") :
    ¬ IsRangeOf pattern format := by
  rintro ⟨restricted, stem, main, rest, hasStem, -⟩
  rcases wildcard with rfl | rfl
  · have lengths := congrArg (fun text => text.toList.length) hasStem
    simp at lengths
  · exact restricted rfl

open scoped Classical in
/-- The tests of a pattern, in the order of what they score. -/
theorem scorePattern_eq (pattern : String) (format : Format) :
    scorePattern pattern format =
      if AlikeButCase pattern format then 100
      else if IsRangeOf pattern format then 50
      else if pattern = "*" ∨ pattern = "*/*" then 10
      else 0 := by
  unfold scorePattern
  by_cases alike : AlikeButCase pattern format
  · simp [alike, Text.equalAscii_iff.2 alike, exactScore]
  have unlike : Text.equalAscii pattern format = false :=
    Bool.eq_false_iff.2 fun equal => alike (Text.equalAscii_iff.1 equal)
  by_cases wildcard : pattern = "*" ∨ pattern = "*/*"
  · have noRange : ¬ IsRangeOf pattern format :=
      not_isRangeOf_of_wildcard wildcard
    simp [alike, unlike, noRange, wildcard, wildcardScore, or_comm]
  · rw [not_or] at wildcard
    simp [alike, unlike, wildcard, isRange_iff wildcard.2, rangeScore]

/-- Whether a pattern is for all of a main type has nothing to do with case. -/
theorem IsRangeOf.of_alike (isRange : IsRangeOf pattern format)
    (alike : AlikeButCase pattern counterpart)
    (alikeFormat : AlikeButCase format other) :
    IsRangeOf counterpart other := by
  obtain ⟨restricted, stem, main, rest, rfl, rfl, first, named⟩ := isRange
  obtain ⟨start, range, rfl, alikeStem, alikeRange⟩ := alike.exists_append
  obtain ⟨front, more, rfl, alikeFront, -⟩ := alikeFormat.exists_append
  obtain ⟨head, slash, rfl, alikeHead, alikeSlash⟩ := alikeFront.exists_append
  have isRange := alikeRange.symm.eq_of_noLetters (by simp)
  have isSlash := alikeSlash.symm.eq_of_noLetters (by simp)
  subst isRange isSlash
  refine ⟨fun everything => restricted ?_, start, head, more, rfl, rfl,
    alikeHead.not_mem (by decide) first,
    alikeHead.symm.trans (named.trans alikeStem)⟩
  rw [everything] at alike
  exact alike.eq_of_noLetters (by simp)

theorem scorePattern_of_alike (alike : AlikeButCase pattern counterpart)
    (alikeFormat : AlikeButCase format other) :
    scorePattern counterpart other = scorePattern pattern format := by
  have exact : AlikeButCase counterpart other ↔ AlikeButCase pattern format :=
    ⟨fun same => alike.trans (same.trans alikeFormat.symm),
      fun same => alike.symm.trans (same.trans alikeFormat)⟩
  have range : IsRangeOf counterpart other ↔ IsRangeOf pattern format :=
    ⟨fun isRange => isRange.of_alike alike.symm alikeFormat.symm,
      fun isRange => isRange.of_alike alike alikeFormat⟩
  have wildcard (text : String)
      (noLetters : ∀ character ∈ text.toList, character.isAlpha = false) :
      counterpart = text ↔ pattern = text :=
    ⟨fun same => (same ▸ alike).eq_of_noLetters noLetters,
      fun same => (same ▸ alike.symm).eq_of_noLetters noLetters⟩
  classical
  simp only [scorePattern_eq, exact, range, wildcard "*" (by simp),
    wildcard "*/*" (by simp)]

theorem scorePatterns_le_iff (restricted : patterns ≠ []) :
    scorePatterns patterns format ≤ bound ↔
      ∀ pattern ∈ patterns, scorePattern pattern format ≤ bound := by
  have isMax : scorePatterns patterns format =
      (patterns.map (scorePattern · format)).foldr max ⊥ := by
    rw [scorePatterns, if_neg (by simpa using restricted), List.foldl_eq_foldr]
    rfl
  rw [isMax]
  constructor
  · intro below pattern member
    refine le_trans ?_ below
    exact List.le_max_of_le (List.mem_map_of_mem member) (le_refl _)
  · intro below
    refine List.max_le_of_forall_le _ _ ?_
    simpa using below

/-- Patterns score no less than others do that all have a match among them. -/
theorem scorePatterns_le_scorePatterns (restricted : patterns ≠ [])
    (matched : ∀ pattern ∈ patterns, ∃ counterpart ∈ others,
      scorePattern pattern format ≤ scorePattern counterpart other) :
    scorePatterns patterns format ≤ scorePatterns others other := by
  refine (scorePatterns_le_iff restricted).2 fun pattern member => ?_
  obtain ⟨counterpart, among, less⟩ := matched pattern member
  exact less.trans <|
    (scorePatterns_le_iff (List.ne_nil_of_mem among)).1 (le_refl _) _ among

theorem scorePatterns_eq_of_mem_iff
    (same : ∀ pattern, pattern ∈ patterns ↔ pattern ∈ others) :
    scorePatterns others format = scorePatterns patterns format := by
  rcases eq_or_ne patterns [] with rfl | restricted
  · rw [List.eq_nil_iff_forall_not_mem.2 fun pattern member =>
      List.not_mem_nil ((same pattern).2 member)]
  have restrictedToo : others ≠ [] := by
    obtain ⟨pattern, member⟩ := List.exists_mem_of_ne_nil patterns restricted
    exact List.ne_nil_of_mem ((same pattern).1 member)
  refine Nat.le_antisymm
    (scorePatterns_le_scorePatterns restrictedToo fun pattern member => ?_)
    (scorePatterns_le_scorePatterns restricted fun pattern member => ?_)
  · exact ⟨pattern, (same pattern).2 member, le_refl _⟩
  · exact ⟨pattern, (same pattern).1 member, le_refl _⟩

theorem scorePatterns_eq_of_alike
    (alike : List.Forall₂ AlikeButCase patterns others)
    (alikeFormat : AlikeButCase format other) :
    scorePatterns others other = scorePatterns patterns format := by
  have scores : others.map (scorePattern · other) =
      patterns.map (scorePattern · format) := by
    induction alike with
    | nil => rfl
    | cons alike _ ih =>
      rw [List.map_cons, List.map_cons, ih,
        scorePattern_of_alike alike alikeFormat]
  have length := alike.length_eq
  unfold scorePatterns
  rw [scores]
  cases patterns <;> cases others <;> simp_all

/-- If one pattern reaches a score that none exceeds, the list has it. -/
theorem scorePatterns_eq_of_mem (member : pattern ∈ patterns)
    (reached : scorePattern pattern format = bound)
    (below : ∀ pattern ∈ patterns, scorePattern pattern format ≤ bound) :
    scorePatterns patterns format = bound := by
  have restricted := List.ne_nil_of_mem member
  refine Nat.le_antisymm ((scorePatterns_le_iff restricted).2 below) ?_
  rw [← reached]
  exact (scorePatterns_le_iff restricted).1 (le_refl _) pattern member

/-- A pattern does not score what only an empty list does. -/
theorem scorePattern_ne_one (pattern : String) (format : Format) :
    scorePattern pattern format ≠ 1 := by
  rw [scorePattern_eq]
  split_ifs <;> decide

theorem scorePatterns_eq_one_iff :
    scorePatterns patterns format = 1 ↔ patterns = [] := by
  constructor
  · intro one
    by_contra restricted
    have none : scorePatterns patterns format ≤ 0 := by
      refine (scorePatterns_le_iff restricted).2 fun pattern member => ?_
      have below := (scorePatterns_le_iff restricted).1 one.le pattern member
      have notOne := scorePattern_ne_one pattern format
      omega
    omega
  · rintro rfl
    rfl

theorem isBestScore_scorePatterns (patterns : List String) (format : Format) :
    IsBestScore patterns format (scorePatterns patterns format) where
  unrestricted := scorePatterns_eq_one_iff
  exact := by
    rintro ⟨pattern, member, alike⟩
    refine scorePatterns_eq_of_mem member ?_ fun other among => ?_
    · rw [scorePattern_eq, if_pos alike]
    · rw [scorePattern_eq]
      split_ifs <;> decide
  range := by
    rintro unlike ⟨pattern, member, isRange⟩
    refine scorePatterns_eq_of_mem member ?_ fun other among => ?_
    · rw [scorePattern_eq, if_neg (unlike pattern member), if_pos isRange]
    · rw [scorePattern_eq, if_neg (unlike other among)]
      split_ifs <;> decide
  wildcard := by
    intro unlike noRange everything
    obtain ⟨pattern, member, isWildcard⟩ :
        ∃ pattern ∈ patterns, pattern = "*" ∨ pattern = "*/*" := by
      rcases everything with star | stars
      · exact ⟨_, star, .inl rfl⟩
      · exact ⟨_, stars, .inr rfl⟩
    refine scorePatterns_eq_of_mem member ?_ fun other among => ?_
    · rw [scorePattern_eq, if_neg (unlike pattern member),
        if_neg (noRange pattern member), if_pos isWildcard]
    · rw [scorePattern_eq, if_neg (unlike other among),
        if_neg (noRange other among)]
      split_ifs <;> decide
  unsuited := by
    intro restricted unlike noRange noStar noStars
    have unsuited : ∀ pattern ∈ patterns, scorePattern pattern format = 0 := by
      intro pattern member
      rw [scorePattern_eq, if_neg (unlike pattern member),
        if_neg (noRange pattern member), if_neg]
      rintro (rfl | rfl)
      · exact noStar member
      · exact noStars member
    obtain ⟨pattern, member⟩ := List.exists_mem_of_ne_nil patterns restricted
    exact scorePatterns_eq_of_mem member (unsuited pattern member)
      fun other among => (unsuited other among).le

/-- A list of patterns scores for a format as its most specific pattern does
that suits the format.  So the score is that of any list with the same patterns,
it has nothing to do with case, and further patterns can only raise it. -/
theorem scorePatterns_takesBest (patterns : List String) (format : Format) :
    IsBestScore patterns format (scorePatterns patterns format) ∧
      (∀ others, (∀ pattern, pattern ∈ patterns ↔ pattern ∈ others) →
        scorePatterns others format = scorePatterns patterns format) ∧
      (∀ others other, List.Forall₂ AlikeButCase patterns others →
        AlikeButCase format other →
        scorePatterns others other = scorePatterns patterns format) ∧
      ∀ others, patterns ≠ [] → patterns ⊆ others →
        scorePatterns patterns format ≤ scorePatterns others format := by
  refine ⟨isBestScore_scorePatterns patterns format,
    fun others => scorePatterns_eq_of_mem_iff,
    fun others other => scorePatterns_eq_of_alike, ?_⟩
  intro others restricted among
  refine scorePatterns_le_scorePatterns restricted fun pattern member => ?_
  exact ⟨pattern, among member, le_refl _⟩

/-- The pattern for everything is no range, whatever the main type. -/
example : scorePatterns ["*/*"] "*/json" = 10 := by
  decide +kernel

end Format

end TypeAtlas
