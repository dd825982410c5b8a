import Mathlib.Data.List.TakeWhile
import TypeAtlas.TypeExpr.Parser

/-!
# The grammar of type expressions

The text of an expression is a row of tokens: names, brackets and commas.  A
text spells a row of tokens when it consists of their spellings with any blanks
around them.  The reader accepts exactly the texts that spell the tokens of an
expression whose names are names and whose arguments are not nested too deeply,
and it gives that expression.
-/

namespace TypeAtlas

namespace TypeExpr

inductive Token where
  | word (name : TypeName)
  | opening
  | comma
  | closing
  deriving Repr, DecidableEq

def Token.spelling : Token → List Char
  | .word name => name.toList
  | .opening => ['<']
  | .comma => [',']
  | .closing => ['>']

mutual

/-- The tokens of an expression, in the order in which it is rendered. -/
def tokens : TypeExpr → List Token
  | ⟨name, []⟩ => [.word name]
  | ⟨name, first :: rest⟩ =>
    .word name :: .opening :: (tokens first ++ tokensOfMore rest)

/-- The tokens behind an argument, up to the bracket that ends the arguments. -/
def tokensOfMore : List TypeExpr → List Token
  | [] => [.closing]
  | expression :: rest => .comma :: (tokens expression ++ tokensOfMore rest)

end

/-- Whether a text spells tokens one by one, with blanks around them. -/
inductive Spells : List Token → List Char → Prop where
  | blank {blanks : List Char}
    (blank : ∀ character ∈ blanks, Text.isBlank character = true) :
    Spells [] blanks
  | token {tokens : List Token} {blanks rest : List Char}
    (blank : ∀ character ∈ blanks, Text.isBlank character = true)
    (token : Token) (spells : Spells tokens rest) :
    Spells (token :: tokens) (blanks ++ token.spelling ++ rest)

/-- Whether a text may be the name of a type in an expression. -/
def IsName (name : TypeName) : Prop :=
  name ≠ "" ∧ ∀ character ∈ name.toList,
    character ≠ '<' ∧ character ≠ '>' ∧ character ≠ ',' ∧
      Text.isBlank character = false

-- The characters of the name are tried one by one, not all that there are.
instance (name : TypeName) : Decidable (IsName name) :=
  @instDecidableAnd _ _ inferInstance (List.decidableBAll _ name.toList)

mutual

/-- How far below the whole expression its arguments are nested. -/
def depth : TypeExpr → Nat
  | ⟨_, args⟩ => depthOfList args

def depthOfList : List TypeExpr → Nat
  | [] => 0
  | expression :: rest => max (depth expression + 1) (depthOfList rest)

end

/-- Whether an expression has a text that it is read from. -/
structure IsWellFormed (expression : TypeExpr) : Prop where
  named : ∀ name ∈ expression.names, IsName name
  shallow : expression.depth ≤ deepestLevel

instance (expression : TypeExpr) : Decidable expression.IsWellFormed :=
  decidable_of_iff ((∀ name ∈ expression.names, IsName name) ∧
    expression.depth ≤ deepestLevel)
    ⟨fun ⟨named, shallow⟩ => ⟨named, shallow⟩,
      fun formed => ⟨formed.named, formed.shallow⟩⟩

/-- Whether an expression has names only, and at most the given number of
levels, its own included. -/
def IsWithin : (levels : Nat) → TypeExpr → Prop
  | 0, _ => False
  | levels + 1, expression =>
    IsName expression.name ∧
      ∀ argument ∈ expression.args, IsWithin levels argument

theorem depthOfList_le_iff {expressions : List TypeExpr} {bound : Nat} :
    depthOfList expressions ≤ bound ↔
      ∀ expression ∈ expressions, expression.depth + 1 ≤ bound := by
  induction expressions with
  | nil => simp [depthOfList]
  | cons expression rest ih =>
    rw [depthOfList, Nat.max_le, ih, List.forall_mem_cons]

theorem isWithin_iff {levels : Nat} {expression : TypeExpr} :
    expression.IsWithin (levels + 1) ↔
      (∀ name ∈ expression.names, IsName name) ∧
        expression.depth ≤ levels := by
  induction levels generalizing expression with
  | zero =>
    obtain ⟨name, args⟩ := expression
    cases args with
    | nil => simp [IsWithin, names, namesOfList, depth, depthOfList]
    | cons first rest =>
      have outside : ¬ IsWithin 1 ⟨name, first :: rest⟩ :=
        fun within => within.2 first List.mem_cons_self
      simp [outside, depth, depthOfList]
  | succ levels ih =>
    obtain ⟨name, args⟩ := expression
    rw [IsWithin, names_eq, List.forall_mem_cons, and_assoc]
    refine and_congr_right fun _ => ?_
    simp only [ih, depth, depthOfList_le_iff, Nat.add_le_add_iff_right,
      namesOfList_eq, List.forall_mem_flatMap]
    exact ⟨fun each => ⟨fun argument member => (each argument member).1,
        fun argument member => (each argument member).2⟩,
      fun both argument member =>
        ⟨both.1 argument member, both.2 argument member⟩⟩

theorem isWellFormed_iff_isWithin {expression : TypeExpr} :
    expression.IsWellFormed ↔ expression.IsWithin (deepestLevel + 1) := by
  rw [isWithin_iff]
  exact ⟨fun formed => ⟨formed.named, formed.shallow⟩,
    fun within => ⟨within.1, within.2⟩⟩

theorem isNameCharacter_iff {character : Char} :
    isNameCharacter character = true ↔
      character ≠ '<' ∧ character ≠ '>' ∧ character ≠ ',' ∧
        Text.isBlank character = false := by
  simp [isNameCharacter, and_assoc]

theorem isName_ofList_iff {characters : List Char} :
    IsName (String.ofList characters) ↔
      characters ≠ [] ∧
        ∀ character ∈ characters, isNameCharacter character = true := by
  simp [IsName, isNameCharacter_iff]

/-- Whether a token, if it is a word, has a name for it. -/
def Token.IsProper : Token → Prop
  | .word name => IsName name
  | _ => True

theorem Token.IsProper.exists_spelling {token : Token}
    (proper : token.IsProper) :
    ∃ character rest, token.spelling = character :: rest ∧
      Text.isBlank character = false := by
  cases token with
  | word name =>
    obtain ⟨nonempty, characters⟩ := proper
    cases spelling : name.toList with
    | nil => exact (nonempty (String.toList_eq_nil_iff.1 spelling)).elim
    | cons character rest =>
      rw [spelling] at characters
      exact ⟨character, rest, spelling,
        (characters character List.mem_cons_self).2.2.2⟩
  | opening => exact ⟨'<', [], rfl, by decide⟩
  | comma => exact ⟨',', [], rfl, by decide⟩
  | closing => exact ⟨'>', [], rfl, by decide⟩

namespace Spells

variable {tokens : List Token} {token : Token} {text : List Char}

theorem cons (token : Token) (spells : Spells tokens text) :
    Spells (token :: tokens) (token.spelling ++ text) :=
  @Spells.token _ [] _ nofun token spells

theorem of_skipBlanks (spells : Spells tokens (Text.skipBlanks text)) :
    Spells tokens text := by
  have skipped : ∀ character ∈ text.takeWhile Text.isBlank,
      Text.isBlank character = true :=
    fun _ member => List.mem_takeWhile_imp member
  have whole : text = text.takeWhile Text.isBlank ++ Text.skipBlanks text :=
    List.takeWhile_append_dropWhile.symm
  rw [whole]
  generalize Text.skipBlanks text = rest at spells
  cases spells with
  | blank blank =>
    refine .blank fun character member => ?_
    rcases List.mem_append.1 member with before | within
    · exact skipped character before
    · exact blank character within
  | token blank token spells =>
    rw [← List.append_assoc, ← List.append_assoc]
    refine .token (fun character member => ?_) token spells
    rcases List.mem_append.1 member with before | within
    · exact skipped character before
    · exact blank character within

/-- A token is found behind the blanks of a text that spells it first. -/
theorem exists_skipBlanks (spells : Spells (token :: tokens) text)
    (proper : token.IsProper) :
    ∃ rest, Text.skipBlanks text = token.spelling ++ rest ∧
      Spells tokens rest := by
  cases spells with
  | @token _ blanks rest blank _ spells =>
    obtain ⟨character, more, spelling, visible⟩ := proper.exists_spelling
    refine ⟨rest, ?_, spells⟩
    unfold Text.skipBlanks
    rw [List.append_assoc, List.dropWhile_append_of_pos blank, spelling,
      List.cons_append, List.dropWhile_cons_of_neg (by simp [visible])]

theorem skipBlanks_eq_nil (spells : Spells [] text) :
    Text.skipBlanks text = [] := by
  cases spells with
  | blank blank => exact List.dropWhile_eq_nil_iff.2 blank

theorem ofList_append (tokens : List Token) :
    Spells tokens (tokens.flatMap Token.spelling) := by
  induction tokens with
  | nil => exact .blank nofun
  | cons token rest ih => exact Spells.cons token ih

/-- Without its blanks, a text is the spellings of its tokens. -/
theorem filter_eq (spells : Spells tokens text)
    (proper : ∀ token ∈ tokens, token.IsProper) :
    text.filter (fun character => !Text.isBlank character) =
      tokens.flatMap Token.spelling := by
  have dropped {blanks : List Char}
      (blank : ∀ character ∈ blanks, Text.isBlank character = true) :
      blanks.filter (fun character => !Text.isBlank character) = [] :=
    List.filter_eq_nil_iff.2 fun character member => by
      simp [blank character member]
  induction spells with
  | blank blank => exact dropped blank
  | token blank token spells ih =>
    have kept : token.spelling.filter
        (fun character => !Text.isBlank character) = token.spelling := by
      refine List.filter_eq_self.2 fun character member => ?_
      have own := proper token List.mem_cons_self
      cases token with
      | word name => simp [(own.2 character member).2.2.2]
      | opening => rw [List.mem_singleton.1 member]; decide
      | comma => rw [List.mem_singleton.1 member]; decide
      | closing => rw [List.mem_singleton.1 member]; decide
    rw [List.filter_append, List.filter_append, dropped blank, kept,
      ih fun other member => proper other (List.mem_cons_of_mem _ member)]
    rfl

end Spells

/-- Whether tokens may stand behind a whole expression. -/
def Follows : List Token → Prop
  | [] | .comma :: _ | .closing :: _ => True
  | _ => False

/-- Whether tokens may stand behind a name. -/
def Delimits : List Token → Prop
  | .word _ :: _ => False
  | _ => True

theorem Follows.delimits {after : List Token} (follows : Follows after) :
    Delimits after := by
  cases after with
  | nil => trivial
  | cons token rest => cases token <;> trivial

theorem Spells.delimited {after : List Token} {text : List Char}
    (spells : Spells after text) (delimits : Delimits after) :
    text.takeWhile isNameCharacter = [] := by
  have ends {character : Char} {rest : List Char}
      (different : isNameCharacter character = false) :
      (character :: rest).takeWhile isNameCharacter = [] :=
    List.takeWhile_cons_of_neg (by simp [different])
  have blankEnds {character : Char} (blank : Text.isBlank character = true) :
      isNameCharacter character = false := by
    simp [isNameCharacter, blank]
  cases spells with
  | blank blank =>
    cases text with
    | nil => rfl
    | cons character rest =>
      exact ends (blankEnds (blank character List.mem_cons_self))
  | @token _ blanks rest blank token spells =>
    cases blanks with
    | cons character blanks =>
      exact ends (blankEnds (blank character List.mem_cons_self))
    | nil =>
      cases token with
      | word name => exact delimits.elim
      | opening => exact ends (by decide)
      | comma => exact ends (by decide)
      | closing => exact ends (by decide)

/-- A name is read where a text spells it, and nothing goes on with it. -/
theorem readName_of_spells {name : TypeName} {after : List Token}
    {text : List Char} (isName : IsName name)
    (spells : Spells (.word name :: after) text) (delimits : Delimits after) :
    ∃ rest, readName text = .ok (name, rest) ∧ Spells after rest := by
  obtain ⟨rest, skipped, spellsRest⟩ := spells.exists_skipBlanks
    (show (Token.word name).IsProper from isName)
  have named : ∀ character ∈ name.toList, isNameCharacter character = true :=
    fun character member =>
      isNameCharacter_iff.2 (isName.2 character member)
  have stops := spellsRest.delimited delimits
  have taken : (name.toList ++ rest).takeWhile isNameCharacter =
      name.toList := by
    rw [List.takeWhile_append_of_pos named, stops, List.append_nil]
  have dropped : (name.toList ++ rest).dropWhile isNameCharacter = rest := by
    have whole : rest.takeWhile isNameCharacter ++
        rest.dropWhile isNameCharacter = rest :=
      List.takeWhile_append_dropWhile
    rw [stops, List.nil_append] at whole
    rw [List.dropWhile_append_of_pos named, whole]
  refine ⟨rest, ?_, spellsRest⟩
  unfold readName
  simp only [skipped, Token.spelling, taken, dropped]
  split
  next empty => exact (isName.1 (String.toList_eq_nil_iff.1 empty)).elim
  next => rw [String.ofList_toList]

theorem spells_of_readName {name : TypeName} {text rest : List Char}
    (read : readName text = .ok (name, rest)) :
    IsName name ∧ ∀ after, Spells after rest →
      Spells (.word name :: after) text := by
  unfold readName at read
  dsimp only at read
  split at read
  · cases read
  next taken nonempty =>
    cases read
    have whole : Text.skipBlanks text =
        (Text.skipBlanks text).takeWhile isNameCharacter ++
          (Text.skipBlanks text).dropWhile isNameCharacter :=
      List.takeWhile_append_dropWhile.symm
    refine ⟨isName_ofList_iff.2 ⟨nonempty, fun character member =>
      List.mem_takeWhile_imp member⟩, fun after spells => ?_⟩
    apply Spells.of_skipBlanks
    rw [whole]
    have spelled := Spells.cons
      (.word (String.ofList
        ((Text.skipBlanks text).takeWhile isNameCharacter))) spells
    simpa [Token.spelling] using spelled

section Reading

variable {levels : Nat} {text rest : List Char}

theorem spells_of_readArguments {holds : TypeExpr → Prop}
    {readArgument : List Char → Except Fault (TypeExpr × List Char)}
    (sound : ∀ text argument rest, readArgument text = .ok (argument, rest) →
      holds argument ∧ ∀ after, Spells after rest →
        Spells (argument.tokens ++ after) text)
    {rounds : Nat} {args : List TypeExpr}
    (read : readArguments readArgument rounds text = .ok (args, rest)) :
    (∀ argument ∈ args, holds argument) ∧ ∃ first more, args = first :: more ∧
      ∀ after, Spells after rest →
        Spells (first.tokens ++ tokensOfMore more ++ after) text := by
  induction rounds generalizing text args with
  | zero => cases read
  | succ rounds ih =>
    simp only [readArguments, bind, Except.bind, pure, Except.pure] at read
    split at read
    · cases read
    next argument readFirst =>
    obtain ⟨argument, behind⟩ := argument
    obtain ⟨held, spellsFirst⟩ := sound _ _ _ readFirst
    dsimp only at read
    split at read
    next behindComma skipped =>
      split at read
      · cases read
      next found readMore =>
      obtain ⟨more, end_⟩ := found
      cases read
      obtain ⟨heldMore, second, others, rfl, spellsMore⟩ := ih readMore
      refine ⟨List.forall_mem_cons.2 ⟨held, heldMore⟩, argument, _, rfl,
        fun after spells => ?_⟩
      rw [List.append_assoc]
      apply spellsFirst
      apply Spells.of_skipBlanks
      rw [skipped, tokensOfMore]
      exact Spells.cons .comma (spellsMore after spells)
    next behindBracket skipped =>
      cases read
      refine ⟨List.forall_mem_cons.2 ⟨held, nofun⟩, argument, [], rfl,
        fun after spells => ?_⟩
      rw [List.append_assoc]
      apply spellsFirst
      apply Spells.of_skipBlanks
      rw [skipped, tokensOfMore]
      exact Spells.cons .closing spells
    · cases read

theorem spells_of_readExpression {expression : TypeExpr}
    (read : readExpression levels text = .ok (expression, rest)) :
    expression.IsWithin levels ∧ ∀ after, Spells after rest →
      Spells (expression.tokens ++ after) text := by
  induction levels generalizing text expression rest with
  | zero => cases read
  | succ levels ih =>
    simp only [readExpression, bind, Except.bind, pure, Except.pure] at read
    split at read
    · cases read
    next found readFirst =>
    obtain ⟨name, behind⟩ := found
    obtain ⟨isName, spellsName⟩ := spells_of_readName readFirst
    dsimp only at read
    split at read
    next inside skipped =>
      split at read
      · cases read
      next found readArgs =>
      obtain ⟨args, end_⟩ := found
      cases read
      obtain ⟨within, first, more, rfl, spellsArgs⟩ :=
        spells_of_readArguments (fun _ _ _ => ih) readArgs
      refine ⟨⟨isName, within⟩, fun after spells => ?_⟩
      rw [tokens, List.cons_append]
      apply spellsName
      apply Spells.of_skipBlanks
      rw [skipped]
      exact Spells.cons .opening (spellsArgs after spells)
    next skipped =>
      cases read
      refine ⟨⟨isName, nofun⟩, fun after spells => ?_⟩
      rw [tokens]
      exact spellsName after spells.of_skipBlanks

/-- Arguments are read where a text spells them, given enough rounds. -/
theorem readArguments_of_spells
    {readArgument : List Char → Except Fault (TypeExpr × List Char)}
    {after : List Token} {rounds : Nat} {first : TypeExpr}
    {more : List TypeExpr}
    (complete : ∀ argument ∈ first :: more, ∀ after text,
      Spells (argument.tokens ++ after) text → Follows after →
        ∃ rest, readArgument text = .ok (argument, rest) ∧ Spells after rest)
    (enough : more.length < rounds)
    (spells : Spells (first.tokens ++ (tokensOfMore more ++ after)) text) :
    ∃ rest, readArguments readArgument rounds text = .ok (first :: more, rest) ∧
      Spells after rest := by
  induction more generalizing first rounds text with
  | nil =>
    obtain ⟨rounds, rfl⟩ := Nat.exists_eq_succ_of_ne_zero
      (Nat.ne_of_gt enough)
    obtain ⟨behind, readFirst, spellsBehind⟩ :=
      complete first List.mem_cons_self _ _ spells trivial
    obtain ⟨rest, skipped, spellsRest⟩ :=
      spellsBehind.exists_skipBlanks (show Token.closing.IsProper from trivial)
    refine ⟨rest, ?_, spellsRest⟩
    simp only [readArguments, readFirst, bind, Except.bind, skipped,
      Token.spelling, List.singleton_append, pure, Except.pure]
  | cons second others ih =>
    obtain ⟨rounds, rfl⟩ := Nat.exists_eq_succ_of_ne_zero
      (Nat.ne_of_gt (Nat.lt_of_le_of_lt (Nat.zero_le _) enough))
    rw [tokensOfMore, List.cons_append, List.append_assoc] at spells
    obtain ⟨behind, readFirst, spellsBehind⟩ :=
      complete first List.mem_cons_self _ _ spells trivial
    obtain ⟨onward, skipped, spellsOnward⟩ :=
      spellsBehind.exists_skipBlanks (show Token.comma.IsProper from trivial)
    obtain ⟨rest, readMore, spellsRest⟩ := ih
      (fun argument member =>
        complete argument (List.mem_cons_of_mem _ member))
      (Nat.lt_of_succ_lt_succ enough) spellsOnward
    refine ⟨rest, ?_, spellsRest⟩
    simp only [readArguments, readFirst, bind, Except.bind, skipped,
      Token.spelling, List.singleton_append, readMore, pure, Except.pure]

mutual

/-- Only names are written as words in the text of an expression. -/
theorem isProper_of_mem_tokens : (expression : TypeExpr) →
    (∀ name ∈ expression.names, IsName name) →
      ∀ token ∈ expression.tokens, token.IsProper
  | ⟨name, []⟩, named, token, member => by
    rw [tokens, List.mem_singleton] at member
    rw [member]
    exact named name (name_mem_names _)
  | ⟨name, first :: rest⟩, named, token, member => by
    rw [names, namesOfList] at named
    rw [tokens] at member
    rcases List.mem_cons.1 member with rfl | member
    · exact named name List.mem_cons_self
    rcases List.mem_cons.1 member with rfl | member
    · trivial
    rcases List.mem_append.1 member with within | behind
    · refine isProper_of_mem_tokens first (fun other among => ?_) token within
      exact named other (List.mem_cons_of_mem _
        (List.mem_append_left _ among))
    · refine isProper_of_mem_tokensOfMore rest (fun other among => ?_) token
        behind
      exact named other (List.mem_cons_of_mem _
        (List.mem_append_right _ among))

theorem isProper_of_mem_tokensOfMore : (expressions : List TypeExpr) →
    (∀ name ∈ namesOfList expressions, IsName name) →
      ∀ token ∈ tokensOfMore expressions, token.IsProper
  | [], _, token, member => by
    rw [tokensOfMore, List.mem_singleton] at member
    rw [member]
    trivial
  | expression :: rest, named, token, member => by
    rw [namesOfList] at named
    rw [tokensOfMore] at member
    rcases List.mem_cons.1 member with rfl | member
    · trivial
    rcases List.mem_append.1 member with within | behind
    · exact isProper_of_mem_tokens expression (fun other among =>
        named other (List.mem_append_left _ among)) token within
    · exact isProper_of_mem_tokensOfMore rest (fun other among =>
        named other (List.mem_append_right _ among)) token behind

end

/-- Whether a token is a bracket or a comma. -/
def Token.isSymbol : Token → Bool
  | .word _ => false
  | _ => true

theorem Spells.countP_isSymbol_le {tokens : List Token}
    (spells : Spells tokens text) :
    tokens.countP Token.isSymbol ≤ text.length := by
  induction spells with
  | blank blank => exact Nat.zero_le _
  | @token tokens blanks rest blank token spells ih =>
    rw [List.countP_cons]
    simp only [List.length_append]
    cases token with
    | word name =>
      simp only [Token.isSymbol, Bool.false_eq_true, if_false]
      omega
    | opening | comma | closing =>
      simp only [Token.isSymbol, if_true, Token.spelling, List.length_singleton]
      omega

theorem length_lt_countP_tokensOfMore (expressions : List TypeExpr) :
    expressions.length <
      (tokensOfMore expressions).countP Token.isSymbol := by
  induction expressions with
  | nil =>
    rw [tokensOfMore]
    decide
  | cons expression rest ih =>
    simp only [tokensOfMore, List.countP_cons, List.countP_append,
      Token.isSymbol, if_true, List.length_cons]
    omega

theorem Spells.closed {after : List Token} (spells : Spells after text)
    (follows : Follows after) :
    Spells after (Text.skipBlanks text) ∧
      ∀ rest, Text.skipBlanks text ≠ '<' :: rest := by
  rcases after with _ | ⟨_ | _ | _ | _, after⟩
  · rw [spells.skipBlanks_eq_nil]
    exact ⟨.blank nofun, nofun⟩
  · exact follows.elim
  · exact follows.elim
  · obtain ⟨rest, skipped, spellsRest⟩ :=
      spells.exists_skipBlanks (show Token.comma.IsProper from trivial)
    rw [skipped]
    exact ⟨Spells.cons .comma spellsRest, nofun⟩
  · obtain ⟨rest, skipped, spellsRest⟩ :=
      spells.exists_skipBlanks (show Token.closing.IsProper from trivial)
    rw [skipped]
    exact ⟨Spells.cons .closing spellsRest, nofun⟩

/-- An expression is read where a text spells its tokens. -/
theorem readExpression_of_spells {expression : TypeExpr} {after : List Token}
    (within : expression.IsWithin levels)
    (spells : Spells (expression.tokens ++ after) text)
    (follows : Follows after) :
    ∃ rest, readExpression levels text = .ok (expression, rest) ∧
      Spells after rest := by
  induction levels generalizing text expression after with
  | zero => exact within.elim
  | succ levels ih =>
    obtain ⟨name, args⟩ := expression
    obtain ⟨isName, argsWithin⟩ := within
    cases args with
    | nil =>
      rw [tokens, List.singleton_append] at spells
      obtain ⟨behind, readFirst, spellsBehind⟩ :=
        readName_of_spells isName spells follows.delimits
      obtain ⟨spellsRest, closed⟩ := spellsBehind.closed follows
      refine ⟨Text.skipBlanks behind, ?_, spellsRest⟩
      -- That no bracket opens, which is `closed`, decides the match.
      simp only [readExpression, readFirst, bind, Except.bind]
      rfl
    | cons first more =>
      rw [tokens, List.cons_append, List.cons_append, List.append_assoc]
        at spells
      obtain ⟨behind, readFirst, spellsBehind⟩ :=
        readName_of_spells isName spells trivial
      obtain ⟨inside, skipped, spellsInside⟩ :=
        spellsBehind.exists_skipBlanks
          (show Token.opening.IsProper from trivial)
      have enough : more.length < inside.length + 1 := by
        have symbols := spellsInside.countP_isSymbol_le
        have commas := length_lt_countP_tokensOfMore more
        simp only [List.countP_append] at symbols
        omega
      obtain ⟨rest, readArgs, spellsRest⟩ := readArguments_of_spells
        (fun argument member after text => ih (argsWithin argument member))
        enough spellsInside
      refine ⟨rest, ?_, spellsRest⟩
      simp only [readExpression, readFirst, bind, Except.bind, skipped,
        Token.spelling, List.singleton_append, readArgs, pure, Except.pure]

end Reading

/-- A text is read as the expression whose tokens it spells. -/
theorem parse_eq_ok_iff {text : String} {expression : TypeExpr} :
    parse text = .ok expression ↔
      expression.IsWellFormed ∧ Spells expression.tokens text.toList := by
  rw [isWellFormed_iff_isWithin, ← List.append_nil expression.tokens]
  unfold parse readAll
  simp only [bind, Except.bind, pure, Except.pure]
  constructor
  · intro parsed
    split at parsed
    next found readAll =>
      cases parsed
      split at readAll
      · cases readAll
      next found read =>
        obtain ⟨found, rest⟩ := found
        dsimp only at readAll
        split at readAll
        next skipped =>
          cases readAll
          obtain ⟨within, spells⟩ := spells_of_readExpression read
          refine ⟨within, spells [] (Spells.of_skipBlanks ?_)⟩
          rw [skipped]
          exact .blank nofun
        · cases readAll
    · cases parsed
  · rintro ⟨within, spells⟩
    obtain ⟨rest, read, spellsRest⟩ :=
      readExpression_of_spells within spells trivial
    simp only [read, spellsRest.skipBlanks_eq_nil]

mutual

/-- The text of an expression is its tokens, without any blanks. -/
theorem toList_render : (expression : TypeExpr) →
    expression.render.toList = expression.tokens.flatMap Token.spelling
  | ⟨name, []⟩ => by simp [render, tokens, Token.spelling]
  | ⟨name, first :: rest⟩ => by
    simp [render, tokens, Token.spelling, toList_render first,
      toList_renderMore rest]

theorem toList_renderMore : (expressions : List TypeExpr) →
    (renderMore expressions).toList ++ ['>'] =
      (tokensOfMore expressions).flatMap Token.spelling
  | [] => rfl
  | expression :: rest => by
    simp [renderMore, tokensOfMore, Token.spelling, toList_render expression,
      ← toList_renderMore rest]

end

/-- A well-formed expression is read back from its text. -/
theorem parse_render {expression : TypeExpr}
    (formed : expression.IsWellFormed) :
    parse expression.render = .ok expression := by
  refine parse_eq_ok_iff.2 ⟨formed, ?_⟩
  rw [toList_render]
  exact Spells.ofList_append expression.tokens

theorem toList_render_of_parse {text : String} {expression : TypeExpr}
    (parsed : parse text = .ok expression) :
    expression.render.toList =
      text.toList.filter fun character => !Text.isBlank character := by
  obtain ⟨formed, spells⟩ := parse_eq_ok_iff.1 parsed
  rw [toList_render, spells.filter_eq]
  exact isProper_of_mem_tokens expression formed.named

/-- Exactly the texts that spell the tokens of a well-formed expression are
read, and as this expression.  The tokens are those of its rendered text, which
is hence read back where the expression is well formed, and which is any text
that it is read from without the blanks. -/
theorem parse_iff_spells :
    (∀ text expression, parse text = .ok expression ↔
      expression.IsWellFormed ∧ Spells expression.tokens text.toList) ∧
    (∀ expression : TypeExpr,
      expression.render.toList = expression.tokens.flatMap Token.spelling ∧
        (parse expression.render = .ok expression ↔
          expression.IsWellFormed)) ∧
    ∀ text expression, parse text = .ok expression →
      expression.render.toList =
        text.toList.filter fun character => !Text.isBlank character :=
  ⟨fun _ _ => parse_eq_ok_iff,
    fun expression => ⟨toList_render expression,
      fun parsed => (parse_eq_ok_iff.1 parsed).1, parse_render⟩,
    fun _ _ => toList_render_of_parse⟩

theorem parse_iff_spells_of_blanks :
    parse " Map < String ,List<Node> > " =
        .ok ⟨"Map", [.named "String", ⟨"List", [.named "Node"]⟩]⟩ ∧
      Spells [.word "Map", .opening, .word "String", .comma, .word "List",
        .opening, .word "Node", .closing, .closing]
        " Map < String ,List<Node> > ".toList := by
  have parsed : parse " Map < String ,List<Node> > " =
      .ok ⟨"Map", [.named "String", ⟨"List", [.named "Node"]⟩]⟩ := by
    decide +kernel
  exact ⟨parsed, ((parse_iff_spells.1 _ _).1 parsed).2⟩

end TypeExpr

end TypeAtlas
