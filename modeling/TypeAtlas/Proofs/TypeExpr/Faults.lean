import Mathlib.Data.List.DropRight
import Mathlib.Data.List.TakeWhile
import TypeAtlas.TypeExpr.Parser

/-!
# Where reading an expression stops

A place says what reading has come to between two characters of a text: how many
brackets are open there, and whether a name is due.  From every place the text
can go on to the end of an expression, and a text is read as an expression just
if its characters lead from the first place to one at which an expression may
end.  A fault lies at the first character that leads nowhere, so that what
stands before it is the beginning of some expression, and no longer one with it.
-/

namespace TypeAtlas

namespace TypeExpr

/-- What was read last, and so what may follow. -/
inductive Standing where
  /-- Nothing of a name yet, which is due. -/
  | due
  | inName
  /-- A name, and blanks that have ended it. -/
  | behindName
  /-- A closing bracket, and maybe blanks. -/
  | closed
  deriving Repr, DecidableEq

/-- A place in a text of which the characters before have been read. -/
structure Place where
  /-- The number of brackets that are open. -/
  level : Nat
  standing : Standing
  deriving Repr, DecidableEq

namespace Place

def start : Place :=
  ⟨0, .due⟩

/-- The place behind a blank: names end there, and nothing else changes. -/
def behindBlank (place : Place) : Place :=
  match place.standing with
  | .inName => { place with standing := .behindName }
  | _ => place

/-- The place behind a character, if the character may stand there. -/
def step (place : Place) (character : Char) : Option Place :=
  if Text.isBlank character then some place.behindBlank
  else if isNameCharacter character then
    if place.standing = .due ∨ place.standing = .inName then
      some { place with standing := .inName }
    else none
  else if place.standing = .due then none
  else if character = '<' then
    if place.standing = .closed ∨ place.level = deepestLevel then none
    else some ⟨place.level + 1, .due⟩
  else if place.level = 0 then none
  else if character = ',' then some { place with standing := .due }
  else some ⟨place.level - 1, .closed⟩

/-- The place behind some characters, if all of them may stand there. -/
def run (place : Place) (characters : List Char) : Option Place :=
  characters.foldlM step place

/-- Whether an expression may end at a place. -/
structure IsWhole (place : Place) : Prop where
  level : place.level = 0
  standing : place.standing ≠ .due

variable {place next : Place} {character : Char} {text rest : List Char}

@[simp]
theorem run_cons (place : Place) (character : Char) (rest : List Char) :
    place.run (character :: rest) =
      (place.step character).bind fun next => next.run rest :=
  List.foldlM_cons

@[simp]
theorem run_append (place : Place) (first second : List Char) :
    place.run (first ++ second) =
      (place.run first).bind fun next => next.run second :=
  List.foldlM_append

theorem step_blank (blank : Text.isBlank character = true) :
    place.step character = some place.behindBlank := by
  rw [step, if_pos blank]

theorem behindBlank_of_ne (steady : place.standing ≠ .inName) :
    place.behindBlank = place := by
  unfold behindBlank
  split
  next within => exact (steady within).elim
  next => rfl

theorem isNameCharacter_eq_false_of_blank
    (blank : Text.isBlank character = true) :
    isNameCharacter character = false := by
  simp [isNameCharacter, blank]

theorem isNameCharacter_of_ne (visible : Text.isBlank character = false)
    (opening : character ≠ '<') (comma : character ≠ ',')
    (closing : character ≠ '>') : isNameCharacter character = true := by
  simp [isNameCharacter, visible, opening, comma, closing]

theorem step_name (named : isNameCharacter character = true)
    (takes : place.standing = .due ∨ place.standing = .inName) :
    place.step character = some { place with standing := .inName } := by
  have visible : Text.isBlank character = false := by
    by_contra blank
    rw [isNameCharacter_eq_false_of_blank (by simpa using blank)] at named
    cases named
  rw [step, if_neg (by simp [visible]), if_pos named, if_pos takes]

theorem step_symbol
    (symbol : character = '<' ∨ character = ',' ∨ character = '>') :
    place.step character =
      if place.standing = .due then none
      else if character = '<' then
        if place.standing = .closed ∨ place.level = deepestLevel then none
        else some ⟨place.level + 1, .due⟩
      else if place.level = 0 then none
      else if character = ',' then some { place with standing := .due }
      else some ⟨place.level - 1, .closed⟩ := by
  have visible : Text.isBlank character = false := by
    rcases symbol with rfl | rfl | rfl <;> decide
  have unnamed : isNameCharacter character = false := by
    rcases symbol with rfl | rfl | rfl <;> decide
  simp [step, visible, unnamed]

theorem step_opening (named : place.standing = .inName ∨
    place.standing = .behindName) :
    place.step '<' =
      if place.level = deepestLevel then none
      else some ⟨place.level + 1, .due⟩ := by
  rw [step_symbol (.inl rfl)]
  rcases named with standing | standing <;> simp [standing]

theorem step_comma (read : place.standing ≠ .due) (inside : place.level ≠ 0) :
    place.step ',' = some { place with standing := .due } := by
  rw [step_symbol (.inr (.inl rfl))]
  simp [read, inside]

theorem step_closing (read : place.standing ≠ .due)
    (inside : place.level ≠ 0) :
    place.step '>' = some ⟨place.level - 1, .closed⟩ := by
  rw [step_symbol (.inr (.inr rfl))]
  simp [read, inside]

/-- Outside of all brackets there is nothing to separate or to close. -/
theorem step_outermost (outermost : place.level = 0)
    (symbol : character = ',' ∨ character = '>') :
    place.step character = none := by
  rw [step_symbol (.inr symbol)]
  rcases symbol with rfl | rfl <;> simp [outermost]

/-- Where a name was read, closing all brackets ends the expression. -/
theorem exists_closing (level : Nat) {standing : Standing}
    (read : standing ≠ .due) :
    ∃ more last, (⟨level, standing⟩ : Place).run more = some last ∧
      last.IsWhole := by
  induction level generalizing standing with
  | zero => exact ⟨[], _, rfl, rfl, read⟩
  | succ level ih =>
    have closed : Standing.closed ≠ .due := nofun
    obtain ⟨more, last, ran, whole⟩ := ih closed
    refine ⟨'>' :: more, last, ?_, whole⟩
    rw [run_cons, step_closing read (Nat.succ_ne_zero level)]
    exact ran

/-- From any place, the text may go on to the end of an expression. -/
theorem exists_completion (place : Place) :
    ∃ more last, place.run more = some last ∧ last.IsWhole := by
  by_cases due : place.standing = .due
  · have named : Standing.inName ≠ .due := nofun
    obtain ⟨more, last, ran, whole⟩ := exists_closing place.level named
    refine ⟨'X' :: more, last, ?_, whole⟩
    rw [run_cons, step_name (by decide) (.inl due)]
    exact ran
  · exact exists_closing place.level due

/-! ### From one place to another -/

/-- Whether the characters before the rest of a text lead to a place. -/
def Leads (first : Place) (text : List Char) (place : Place)
    (rest : List Char) : Prop :=
  ∃ seen, text = seen ++ rest ∧ first.run seen = some place

variable {first : Place}

theorem Leads.refl (place : Place) (text : List Char) :
    Leads place text place text :=
  ⟨[], rfl, rfl⟩

theorem Leads.trans {behind : List Char} (leads : Leads first text place rest)
    (goesOn : Leads place rest next behind) : Leads first text next behind := by
  obtain ⟨seen, rfl, ran⟩ := leads
  obtain ⟨more, rfl, ranMore⟩ := goesOn
  refine ⟨seen ++ more, (List.append_assoc ..).symm, ?_⟩
  rw [run_append, ran]
  exact ranMore

theorem Leads.cons (leads : Leads first text place (character :: rest))
    (stepped : place.step character = some next) :
    Leads first text next rest := by
  refine leads.trans ⟨[character], rfl, ?_⟩
  rw [run_cons, stepped]
  rfl

theorem run_blanks (steady : place.standing ≠ .inName) {blanks : List Char}
    (blank : ∀ character ∈ blanks, Text.isBlank character = true) :
    place.run blanks = some place := by
  induction blanks with
  | nil => rfl
  | cons character rest ih =>
    obtain ⟨here, later⟩ := List.forall_mem_cons.1 blank
    rw [run_cons, step_blank here, behindBlank_of_ne steady]
    exact ih later

/-- Blanks lead nowhere else, but from inside of a name. -/
theorem leads_skipBlanks {level : Nat} {standing : Standing}
    (steady : standing ≠ .inName) (text : List Char) :
    Leads ⟨level, standing⟩ text ⟨level, standing⟩ (Text.skipBlanks text) :=
  ⟨text.takeWhile Text.isBlank, List.takeWhile_append_dropWhile.symm,
    run_blanks steady fun _ member => List.mem_takeWhile_imp member⟩

theorem isBlank_of_mem_head?
    (member : character ∈ (Text.skipBlanks text).head?) :
    Text.isBlank character = false := by
  have visible := List.head?_dropWhile_not Text.isBlank text
  unfold Text.skipBlanks at member
  rw [Option.mem_def.1 member] at visible
  exact visible

/-- Whether a rest, if it is not empty, starts with what may not stand there. -/
def IsStuck (place : Place) (rest : List Char) : Prop :=
  ∀ character ∈ rest.head?, place.step character = none

/-- Whether nothing may follow but a comma or a closing bracket. -/
def Ends (place : Place) (rest : List Char) : Prop :=
  ∀ character ∈ rest.head?, character ≠ ',' → character ≠ '>' →
    place.step character = none

/-- Where neither of the symbols that may follow is next, reading is stuck. -/
theorem Ends.isStuck (ends : place.Ends rest)
    (comma : ∀ others, rest ≠ ',' :: others)
    (closing : ∀ others, rest ≠ '>' :: others) : place.IsStuck rest := by
  intro character member
  obtain ⟨others, found⟩ := List.head?_eq_some_iff.1 member
  refine ends character member ?_ ?_
  · rintro rfl
    exact comma others found
  · rintro rfl
    exact closing others found

theorem ends_closed (level : Nat) (text : List Char) :
    (⟨level, .closed⟩ : Place).Ends (Text.skipBlanks text) := by
  intro character member comma closing
  have visible := isBlank_of_mem_head? member
  by_cases opening : character = '<'
  · subst opening
    rfl
  · have word := isNameCharacter_of_ne visible opening comma closing
    simp [step, visible, word]

theorem run_name (named : ∀ character ∈ text, isNameCharacter character = true)
    (level : Nat) :
    (⟨level, .inName⟩ : Place).run text = some ⟨level, .inName⟩ := by
  induction text with
  | nil => rfl
  | cons character rest ih =>
    obtain ⟨here, later⟩ := List.forall_mem_cons.1 named
    rw [run_cons, step_name here (.inr rfl)]
    exact ih later

theorem leads_name (level : Nat)
    (nonempty : (Text.skipBlanks text).takeWhile isNameCharacter ≠ []) :
    Leads ⟨level, .due⟩ text ⟨level, .inName⟩
      ((Text.skipBlanks text).dropWhile isNameCharacter) := by
  have due : Standing.due ≠ .inName := nofun
  refine (leads_skipBlanks due text).trans
    ⟨_, List.takeWhile_append_dropWhile.symm, ?_⟩
  have named : ∀ character ∈ (Text.skipBlanks text).takeWhile isNameCharacter,
      isNameCharacter character = true :=
    fun _ member => List.mem_takeWhile_imp member
  cases taken : (Text.skipBlanks text).takeWhile isNameCharacter with
  | nil => exact (nonempty taken).elim
  | cons first others =>
    rw [taken] at named
    obtain ⟨here, later⟩ := List.forall_mem_cons.1 named
    rw [run_cons, step_name here (.inl rfl)]
    exact run_name later level

/-- Whether a place is at or behind the end of a name, and none may start. -/
structure IsBehindName (place : Place) (level : Nat) (rest : List Char) :
    Prop where
  level : place.level = level
  standing : place.standing = .inName ∨ place.standing = .behindName
  ended : ∀ character ∈ rest.head?, isNameCharacter character = true →
    place.step character = none

theorem IsBehindName.ends {level : Nat}
    (behind : place.IsBehindName level (Text.skipBlanks text))
    (unopened : ∀ others, Text.skipBlanks text ≠ '<' :: others) :
    place.Ends (Text.skipBlanks text) := by
  intro character member comma closing
  obtain ⟨others, found⟩ := List.head?_eq_some_iff.1 member
  refine behind.ended character member (isNameCharacter_of_ne
    (isBlank_of_mem_head? member) ?_ comma closing)
  rintro rfl
  exact unopened others found

/-- Blanks lead behind a name that has ended; without any the place is at it. -/
theorem exists_isBehindName (level : Nat)
    (ended : ∀ character ∈ rest.head?, isNameCharacter character = false) :
    ∃ place : Place, place.IsBehindName level (Text.skipBlanks rest) ∧
      Leads ⟨level, .inName⟩ rest place (Text.skipBlanks rest) := by
  cases rest with
  | nil => exact ⟨⟨level, .inName⟩, ⟨rfl, .inl rfl, nofun⟩, .refl _ _⟩
  | cons character others =>
    by_cases blank : Text.isBlank character = true
    · have behindName : Standing.behindName ≠ .inName := nofun
      have behind : Leads ⟨level, .inName⟩ (character :: others)
          ⟨level, .behindName⟩ (Text.skipBlanks others) :=
        ((Leads.refl _ _).cons (step_blank blank)).trans
          (leads_skipBlanks behindName others)
      have skipped : Text.skipBlanks (character :: others) =
          Text.skipBlanks others :=
        List.dropWhile_cons_of_pos blank
      rw [skipped]
      refine ⟨_, ⟨rfl, .inr rfl, fun next member named => ?_⟩, behind⟩
      have visible := isBlank_of_mem_head? member
      simp [step, visible, named]
    · have skipped : Text.skipBlanks (character :: others) =
          character :: others :=
        List.dropWhile_cons_of_neg blank
      rw [skipped]
      refine ⟨_, ⟨rfl, .inl rfl, fun next member named => ?_⟩, .refl _ _⟩
      rw [ended next member] at named
      cases named

/-- A name and the blanks behind it lead to where a symbol is due. -/
theorem leads_readName {name : TypeName} (level : Nat)
    (read : readName text = .ok (name, rest)) :
    ∃ place : Place, place.IsBehindName level (Text.skipBlanks rest) ∧
      Leads ⟨level, .due⟩ text place (Text.skipBlanks rest) := by
  unfold readName at read
  dsimp only at read
  split at read
  · cases read
  next nonempty =>
    cases read
    have stops :=
      List.head?_dropWhile_not isNameCharacter (Text.skipBlanks text)
    obtain ⟨place, behind, leads⟩ :=
      exists_isBehindName level fun character member => by
        rw [Option.mem_def.1 member] at stops
        exact stops
    exact ⟨place, behind, (leads_name level nonempty).trans leads⟩

end Place

open Place

/-- How reading from a place ends with a fault. -/
inductive StopsAt (first : Place) (text : List Char) : Fault → Prop where
  /-- The next character, if there is one, may not stand where it does. -/
  | stuck {cause : FaultCause} {place : Place} {rest : List Char}
    (proper : cause ≠ .nestedTooDeeply) (leads : Leads first text place rest)
    (stuck : place.IsStuck rest) (unfinished : rest = [] → ¬ place.IsWhole) :
    StopsAt first text ⟨cause, rest⟩
  /-- A bracket was read that may not stand where it does. -/
  | tooDeep {place : Place} {rest : List Char}
    (leads : Leads first text place ('<' :: rest))
    (full : place.step '<' = none) :
    StopsAt first text ⟨.nestedTooDeeply, rest⟩

section Reading

variable {text rest : List Char} {first place : Place} {fault : Fault}
  {level : Nat}

theorem StopsAt.of_leads (stops : StopsAt place rest fault)
    (leads : Leads first text place rest) : StopsAt first text fault := by
  cases stops with
  | stuck proper goesOn stuck unfinished =>
    exact .stuck proper (leads.trans goesOn) stuck unfinished
  | tooDeep goesOn full => exact .tooDeep (leads.trans goesOn) full

theorem stopsAt_readName (refused : readName text = .error fault) :
    StopsAt ⟨level, .due⟩ text fault := by
  unfold readName at refused
  dsimp only at refused
  split at refused
  next none =>
    cases refused
    have due : Standing.due ≠ .inName := nofun
    refine .stuck nofun (leads_skipBlanks due text)
      (fun character member => ?_) fun _ whole => whole.standing rfl
    have visible := isBlank_of_mem_head? member
    have unnamed : isNameCharacter character = false := by
      cases found : Text.skipBlanks text with
      | nil =>
        rw [found] at member
        cases member
      | cons head others =>
        rw [found] at member none
        cases Option.mem_def.1 member
        by_contra named
        rw [List.takeWhile_cons_of_pos (by simpa using named)] at none
        cases none
    simp [step, visible, unnamed]
  · cases refused

/-- What reading an expression at a level comes to. -/
def ReadsAt (level : Nat) (text : List Char) :
    Except Fault (TypeExpr × List Char) → Prop
  | .ok (_, rest) => ∃ place : Place, place.level = level ∧
      place.standing ≠ .due ∧
        Leads ⟨level, .due⟩ text place (Text.skipBlanks rest) ∧
          place.Ends (Text.skipBlanks rest)
  | .error fault => StopsAt ⟨level, .due⟩ text fault

/-- What reading arguments comes to, which are nested below a level. -/
def ReadsBelow (level : Nat) (text : List Char) :
    Except Fault (List TypeExpr × List Char) → Prop
  | .ok (_, rest) => Leads ⟨level + 1, .due⟩ text ⟨level, .closed⟩ rest
  | .error fault => StopsAt ⟨level + 1, .due⟩ text fault

/-- Something is read between the places at which names are and are not due. -/
theorem Place.Leads.length_lt
    (leads : Leads ⟨level, .due⟩ text place rest)
    (read : place.standing ≠ .due) : rest.length < text.length := by
  obtain ⟨seen, rfl, ran⟩ := leads
  cases seen with
  | nil =>
    cases ran
    exact (read rfl).elim
  | cons character seen =>
    rw [List.length_append, List.length_cons]
    omega

theorem readArguments_readsBelow
    {readArgument : List Char → Except Fault (TypeExpr × List Char)}
    (each : ∀ text, ReadsAt (level + 1) text (readArgument text))
    {rounds : Nat} (enough : text.length < rounds) :
    ReadsBelow level text (readArguments readArgument rounds text) := by
  induction rounds generalizing text with
  | zero => exact (Nat.not_lt_zero _ enough).elim
  | succ rounds ih =>
    have reads := each text
    simp only [readArguments, bind, Except.bind, pure, Except.pure]
    cases read : readArgument text with
    | error fault =>
      rw [read] at reads
      exact reads
    | ok found =>
      obtain ⟨argument, behind⟩ := found
      rw [read] at reads
      obtain ⟨place, sameLevel, standing, leads, ends⟩ := reads
      have inside : place.level ≠ 0 := by simp [sameLevel]
      dsimp only
      split
      next further skipped =>
        rw [skipped] at leads
        have onward : Leads ⟨level + 1, .due⟩ text ⟨level + 1, .due⟩ further :=
          leads.cons (by rw [step_comma standing inside, sameLevel])
        have fewer := leads.length_lt standing
        rw [List.length_cons] at fewer
        have readsMore := @ih further (by omega)
        cases more : readArguments readArgument rounds further with
        | error fault =>
          rw [more] at readsMore
          exact readsMore.of_leads onward
        | ok found =>
          rw [more] at readsMore
          exact onward.trans readsMore
      next further skipped =>
        rw [skipped] at leads
        exact leads.cons (by rw [step_closing standing inside, sameLevel]; rfl)
      next comma closing =>
        exact .stuck nofun leads (ends.isStuck comma closing)
          fun _ whole => inside whole.level

/-- One level of an expression is read, if the next one is or is too deep. -/
theorem readExpression_succ_readsAt {levels : Nat}
    (below : level ≠ deepestLevel →
      ∀ text, ReadsAt (level + 1) text (readExpression levels text))
    (tooDeep : level = deepestLevel → levels = 0) (text : List Char) :
    ReadsAt level text (readExpression (levels + 1) text) := by
  simp only [readExpression, bind, Except.bind, pure, Except.pure]
  cases read : readName text with
  | error fault => exact stopsAt_readName read
  | ok found =>
    obtain ⟨name, behind⟩ := found
    obtain ⟨place, isBehind, leads⟩ := leads_readName level read
    have standing := isBehind.standing
    obtain rfl := isBehind.level
    have named : place.standing ≠ .due := by
      rcases standing with inside | behind <;> simp [*]
    dsimp only
    split
    next inside skipped =>
      rw [skipped] at leads
      have stepped := step_opening standing
      by_cases deepest : place.level = deepestLevel
      · rw [if_pos deepest] at stepped
        rw [tooDeep deepest]
        exact .tooDeep leads stepped
      · rw [if_neg deepest] at stepped
        have onward := leads.cons stepped
        have readsArguments := readArguments_readsBelow (below deepest)
          (Nat.lt_succ_self inside.length)
        cases arguments : readArguments (readExpression levels)
            (inside.length + 1) inside with
        | error fault =>
          rw [arguments] at readsArguments
          exact readsArguments.of_leads onward
        | ok found =>
          rw [arguments] at readsArguments
          have closed : Standing.closed ≠ .inName := nofun
          exact ⟨⟨place.level, .closed⟩, rfl, nofun,
            (onward.trans readsArguments).trans (leads_skipBlanks closed _),
            ends_closed _ _⟩
    next unopened =>
      have once : Text.skipBlanks (Text.skipBlanks behind) =
          Text.skipBlanks behind :=
        List.dropWhile_idempotent Text.isBlank behind
      refine ⟨place, rfl, named, once.symm ▸ leads, ?_⟩
      rw [once]
      exact isBehind.ends unopened

/-- An expression is read along the places of its text, at each level. -/
theorem readExpression_readsAt {levels : Nat}
    (allLevels : level + levels = deepestLevel) (text : List Char) :
    ReadsAt level text (readExpression (levels + 1) text) := by
  induction levels generalizing level text with
  | zero =>
    exact readExpression_succ_readsAt (fun less => (less allLevels).elim)
      (fun _ => rfl) text
  | succ levels ih =>
    refine readExpression_succ_readsAt (fun _ => ih (by omega))
      (fun deepest => ?_) text
    omega

end Reading

/-- Whether a text leads to where an expression may end. -/
def IsAccepted (text : List Char) : Prop :=
  ∃ place, Place.start.run text = some place ∧ place.IsWhole

theorem StopsAt.not_isAccepted {text : List Char} {fault : Fault}
    (stops : StopsAt Place.start text fault) : ¬ IsAccepted text := by
  rintro ⟨last, ran, whole⟩
  cases stops with
  | @stuck cause place rest _ leads stuck unfinished =>
    obtain ⟨seen, rfl, ranSeen⟩ := leads
    rw [run_append, ranSeen] at ran
    cases rest with
    | nil =>
      cases ran
      exact unfinished rfl whole
    | cons character rest =>
      rw [Option.bind_some, run_cons, stuck character rfl] at ran
      cases ran
  | @tooDeep place rest leads full =>
    obtain ⟨seen, rfl, ranSeen⟩ := leads
    rw [run_append, ranSeen, Option.bind_some, run_cons, full] at ran
    cases ran

/-- A text is read just if it is accepted, and else a fault stops reading. -/
theorem readAll_cases (text : List Char) :
    (∃ expression, readAll text = .ok expression ∧ IsAccepted text) ∨
      ∃ fault, readAll text = .error fault ∧
        StopsAt Place.start text fault := by
  have reads : ReadsAt 0 text (readExpression (deepestLevel + 1) text) :=
    readExpression_readsAt (Nat.zero_add _) text
  unfold readAll
  simp only [bind, Except.bind, pure, Except.pure]
  cases read : readExpression (deepestLevel + 1) text with
  | error fault =>
    rw [read] at reads
    exact .inr ⟨fault, rfl, reads⟩
  | ok found =>
    obtain ⟨expression, behind⟩ := found
    rw [read] at reads
    obtain ⟨place, outermost, standing, leads, ends⟩ := reads
    dsimp only
    split
    next ended =>
      rw [ended] at leads
      obtain ⟨seen, rfl, ran⟩ := leads
      refine .inl ⟨expression, rfl, place, ?_, outermost, standing⟩
      rwa [List.append_nil]
    next further =>
      refine .inr ⟨_, rfl, .stuck nofun leads (fun character member => ?_)
        fun empty => (further empty).elim⟩
      by_cases symbol : character = ',' ∨ character = '>'
      · exact step_outermost outermost symbol
      · obtain ⟨comma, closing⟩ := not_or.1 symbol
        exact ends character member comma closing

theorem exists_parse_iff {text : String} :
    (∃ expression, parse text = .ok expression) ↔ IsAccepted text.toList := by
  rcases readAll_cases text.toList with
    ⟨expression, read, accepted⟩ | ⟨fault, refused, stops⟩
  · refine iff_of_true ⟨expression, ?_⟩ accepted
    unfold parse
    rw [read]
  · refine iff_of_false ?_ stops.not_isAccepted
    rintro ⟨expression, parsed⟩
    unfold parse at parsed
    rw [refused] at parsed
    cases parsed

theorem exists_stopsAt {text : String} {error : ParseError}
    (rejected : parse text = .error error) :
    ∃ fault, StopsAt Place.start text.toList fault ∧
      error = {
        input := text
        position := byteLength text.toList - byteLength fault.rest
        cause := fault.cause } := by
  rcases readAll_cases text.toList with
    ⟨expression, read, -⟩ | ⟨fault, refused, stops⟩
  · unfold parse at rejected
    rw [read] at rejected
    cases rejected
  · unfold parse at rejected
    rw [refused] at rejected
    cases rejected
    exact ⟨fault, stops, rfl⟩

/-- Whether a text may go on so that an expression is read from it. -/
def IsBeginning (text : String) : Prop :=
  ∃ more expression, parse (text ++ more) = .ok expression

/-- The beginnings of expressions are the texts that lead to a place. -/
theorem isBeginning_iff {text : String} :
    IsBeginning text ↔ ∃ place, Place.start.run text.toList = some place := by
  constructor
  · rintro ⟨more, parsed⟩
    obtain ⟨last, ran, -⟩ := exists_parse_iff.1 parsed
    rw [String.toList_append, run_append] at ran
    obtain ⟨place, ranSeen, -⟩ := Option.bind_eq_some_iff.1 ran
    exact ⟨place, ranSeen⟩
  · rintro ⟨place, ran⟩
    obtain ⟨more, last, completes, whole⟩ := place.exists_completion
    refine ⟨String.ofList more, exists_parse_iff.2 ⟨last, ?_, whole⟩⟩
    rw [String.toList_append, String.toList_ofList, run_append, ran]
    exact completes

theorem byteLength_eq_utf8ByteSize (characters : List Char) :
    byteLength characters = (String.ofList characters).utf8ByteSize := by
  induction characters with
  | nil => rfl
  | cons character rest ih =>
    rw [byteLength, ih, String.ofList_cons, String.utf8ByteSize_append,
      String.utf8ByteSize_singleton]

/-- The offset of a fault counts the bytes that stand before it. -/
theorem byteLength_append_sub (seen rest : List Char) :
    byteLength (seen ++ rest) - byteLength rest =
      (String.ofList seen).utf8ByteSize := by
  rw [byteLength_eq_utf8ByteSize, byteLength_eq_utf8ByteSize,
    String.ofList_append, String.utf8ByteSize_append, Nat.add_sub_cancel]

/-- Whether an error points between two parts of its text at what no
continuation repairs.  The first part is the beginning of an expression, and it
is none any more with the next character; or else it ends in a bracket that is
one too many. -/
structure ParseError.PointsBetween (error : ParseError)
    (before after : String) : Prop where
  input : error.input = before ++ after
  position : error.position = before.utf8ByteSize
  begins : error.cause ≠ .nestedTooDeeply → IsBeginning before
  breaks : error.cause ≠ .nestedTooDeeply →
    ∀ character rest, after.toList = character :: rest →
      ¬ IsBeginning (before.push character)
  tooDeep : error.cause = .nestedTooDeeply →
    ∃ inside, before = inside ++ "<" ∧ IsBeginning inside ∧
      ¬ IsBeginning before

/-- An error points behind the text that leads to the place of its fault. -/
theorem StopsAt.pointsBetween {text : String} {fault : Fault}
    (stops : StopsAt Place.start text.toList fault) :
    ∃ before after, ParseError.PointsBetween
      { input := text
        position := byteLength text.toList - byteLength fault.rest
        cause := fault.cause } before after := by
  cases stops with
  | @stuck cause place rest proper leads stuck unfinished =>
    obtain ⟨seen, split, ran⟩ := leads
    refine ⟨String.ofList seen, String.ofList rest, ?_, ?_, fun _ => ?_,
      fun _ character others next beginning => ?_, fun tooDeep => ?_⟩
    · rw [← String.ofList_append, ← split, String.ofList_toList]
    · rw [split, byteLength_append_sub]
    · exact isBeginning_iff.2 ⟨place, by rwa [String.toList_ofList]⟩
    · rw [String.toList_ofList] at next
      obtain ⟨other, ranNext⟩ := isBeginning_iff.1 beginning
      rw [String.toList_push, String.toList_ofList, run_append, ran,
        Option.bind_some, run_cons, stuck character (by rw [next]; rfl)]
        at ranNext
      cases ranNext
    · exact (proper tooDeep).elim
  | @tooDeep place rest leads full =>
    obtain ⟨seen, split, ran⟩ := leads
    have split : text.toList = (seen ++ ['<']) ++ rest := by simp [split]
    refine ⟨String.ofList (seen ++ ['<']), String.ofList rest, ?_, ?_,
      fun proper => (proper rfl).elim, fun proper => (proper rfl).elim,
      fun _ => ⟨String.ofList seen, String.ofList_append, ?_,
        fun beginning => ?_⟩⟩
    · rw [← String.ofList_append, ← split, String.ofList_toList]
    · rw [split, byteLength_append_sub]
    · exact isBeginning_iff.2 ⟨place, by rwa [String.toList_ofList]⟩
    · obtain ⟨other, ranNext⟩ := isBeginning_iff.1 beginning
      rw [String.toList_ofList, run_append, ran, Option.bind_some, run_cons,
        full] at ranNext
      cases ranNext

theorem FaultCause.message_eq_iff {cause : FaultCause} :
    cause.message = "type expression nested too deeply" ↔
      cause = .nestedTooDeeply := by
  cases cause <;> decide

/-- The error of a rejected text points between two of its characters, or at its
end.  What stands before it is the beginning of an expression, and what comes
next is not how any expression goes on; only where arguments are nested too
deeply, it points behind the bracket that opens one level too many. -/
theorem parse_pointsBetween {text : String} {error : ParseError}
    (rejected : parse text = .error error) :
    error.input = text ∧ error.position ≤ text.utf8ByteSize ∧
      (⟨error.position⟩ : String.Pos.Raw).IsValid text ∧
        (error.cause.message = "type expression nested too deeply" ↔
          error.cause = .nestedTooDeeply) ∧
          ∃ before after, text = before ++ after ∧
            error.PointsBetween before after := by
  obtain ⟨fault, stops, rfl⟩ := exists_stopsAt rejected
  obtain ⟨before, after, points⟩ := stops.pointsBetween
  have split : text = before ++ after := points.input
  refine ⟨rfl, ?_, ?_, FaultCause.message_eq_iff, before, after, split, points⟩
  · rw [points.position, split, String.utf8ByteSize_append]
    exact Nat.le_add_right _ _
  · exact String.Pos.Raw.isValid_iff_exists_append.2
      ⟨before, after, split, String.Pos.Raw.ext points.position⟩

/-- Behind a blank of three bytes and a name, a second name is too many. -/
theorem parse_pointsBetween_of_words :
    let error : ParseError :=
      { input := "Map<\u3000Größe x>", position := 15
        cause := .expectedSeparator }
    parse "Map<\u3000Größe x>" = .error error ∧
      ∃ before after, "Map<\u3000Größe x>" = before ++ after ∧
        error.PointsBetween before after := by
  intro error
  have rejected : parse "Map<\u3000Größe x>" = .error error := by
    decide +kernel
  obtain ⟨-, -, -, -, points⟩ := parse_pointsBetween rejected
  exact ⟨rejected, points⟩

end TypeExpr

end TypeAtlas
