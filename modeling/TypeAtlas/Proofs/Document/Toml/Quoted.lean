import Mathlib.Data.List.TakeWhile
import TypeAtlas.Document.Toml.Quoted

/-!
# Quoted texts and keys of TOML are read back

A text is read back from its quoted form, whichever form was picked for it, and
so is a key.
-/

namespace TypeAtlas

namespace Document

namespace Toml

/-! ### Texts on one line -/

theorem codeEscape?_hexadecimal {code : Nat}
    (control : code < 0x20 ∨ code = 0x7F) :
    ∃ first second third fourth,
      (Numeral.hexadecimal 4 code).map Char.toUpper =
        [first, second, third, fourth] ∧
      codeEscape? [first, second, third, fourth] = some (Char.ofNat code) := by
  have widthFour (code : Nat) : (Numeral.hexadecimal 4 code).map Char.toUpper =
      [(Numeral.hexDigit (code / 4096 % 16)).toUpper,
        (Numeral.hexDigit (code / 256 % 16)).toUpper,
        (Numeral.hexDigit (code / 16 % 16)).toUpper,
        (Numeral.hexDigit (code / 1 % 16)).toUpper] :=
    rfl
  refine ⟨_, _, _, _, widthFour code, ?_⟩
  obtain small | rfl := control
  · revert code
    decide
  · decide

/-- How a character is written in basic forms: by an escape or by itself. -/
theorem escape_cases (character : Char) :
    (∃ letter, escape character = ['\\', letter] ∧ letter ≠ 'u' ∧
      letter ≠ 'U' ∧ (∀ rest, endsLine (letter :: rest) = false) ∧
      simpleEscape? letter = some character) ∨
    (∃ first second third fourth,
      escape character = ['\\', 'u', first, second, third, fourth] ∧
        codeEscape? [first, second, third, fourth] = some character) ∨
    (escape character = [character] ∧ isControl character = false ∧
      character ≠ '"' ∧ character ≠ '\\') := by
  unfold escape
  split
  · exact .inl ⟨'"', rfl, by decide, by decide, fun _ => rfl, rfl⟩
  · exact .inl ⟨'\\', rfl, by decide, by decide, fun _ => rfl, rfl⟩
  · exact .inl ⟨'n', rfl, by decide, by decide, fun _ => rfl, rfl⟩
  · exact .inl ⟨'r', rfl, by decide, by decide, fun _ => rfl, rfl⟩
  · exact .inl ⟨'t', rfl, by decide, by decide, fun _ => rfl, rfl⟩
  next notQuote notBackslash _ _ _ =>
    split
    next backspace =>
      exact .inl ⟨'b', rfl, by decide, by decide, fun _ => rfl, by
        rw [← Char.ofNat_toNat character, backspace]; rfl⟩
    split
    next formFeed =>
      exact .inl ⟨'f', rfl, by decide, by decide, fun _ => rfl, by
        rw [← Char.ofNat_toNat character, formFeed]; rfl⟩
    split
    next control =>
      have code : character.toNat < 0x20 ∨ character.toNat = 0x7F := by
        simp only [isControl, Bool.or_eq_true, Bool.and_eq_true,
          decide_eq_true_eq, beq_iff_eq] at control
        exact control.imp_left And.left
      obtain ⟨first, second, third, fourth, digits, value⟩ :=
        codeEscape?_hexadecimal code
      rw [Char.ofNat_toNat] at value
      exact .inr (.inl
        ⟨first, second, third, fourth, by rw [digits], value⟩)
    next plain =>
      exact .inr (.inr ⟨rfl, by simpa using plain, notQuote, notBackslash⟩)

theorem readBasic_escape (character : Char) (rest : List Char) :
    readBasic (escape character ++ rest) =
      (readBasic rest).map (prepend character) := by
  obtain ⟨letter, written, notSmall, notLarge, _, read⟩ |
      ⟨first, second, third, fourth, written, read⟩ |
      ⟨written, plain, notQuote, notBackslash⟩ := escape_cases character
  · rw [written, List.cons_append, List.cons_append, List.nil_append,
      readBasic.eq_4, read]
    · cases readBasic rest <;> rfl
    · simp_all
    · simp_all
  · rw [written]
    simp only [List.cons_append, List.nil_append]
    rw [readBasic, read]
    cases readBasic rest <;> rfl
  · rw [written, List.singleton_append, readBasic.eq_5,
      if_neg (by simp [plain])]
    all_goals simp_all

theorem readBasic_flatMap_escape (text rest : List Char) :
    readBasic (text.flatMap escape ++ '"' :: rest) = some (text, rest) := by
  induction text with
  | nil => rw [List.flatMap_nil, List.nil_append, readBasic]
  | cons character more ih =>
    rw [List.flatMap_cons, List.append_assoc, readBasic_escape, ih]
    rfl

theorem readLiteral_append {text : List Char}
    (plain : ∀ character ∈ text, isControl character = false)
    (noQuote : '\'' ∉ text) (rest : List Char) :
    readLiteral (text ++ '\'' :: rest) = some (text, rest) := by
  induction text with
  | nil => rw [List.nil_append, readLiteral]
  | cons character more ih =>
    obtain ⟨plainFirst, plainMore⟩ := List.forall_mem_cons.mp plain
    obtain ⟨differs, noMore⟩ := List.ne_and_not_mem_of_not_mem_cons noQuote
    rw [List.cons_append, readLiteral.eq_2 _ _ (fun same => differs same.symm),
      if_neg (by simp [plainFirst]), ih plainMore noMore]
    rfl

/-! ### Texts over several lines -/

/-- Whether a text does not start with a quote. -/
def Closes (quote : Char) (text : List Char) : Prop :=
  ∀ more, text ≠ quote :: more

/-- Whether a text does not start with two quotes. -/
def Alone (quote : Char) (text : List Char) : Prop :=
  ∀ more, text ≠ quote :: quote :: more

theorem closes_cons {quote first : Char} (differs : first ≠ quote)
    (rest : List Char) : Closes quote (first :: rest) := fun _ same =>
  differs (List.cons.inj same).1

theorem Closes.alone {quote : Char} {text : List Char}
    (closes : Closes quote text) : Alone quote text := fun _ => closes _

theorem Closes.alone_cons {quote : Char} {text : List Char}
    (closes : Closes quote text) (first : Char) :
    Alone quote (first :: text) := fun _ same =>
  closes _ (List.cons.inj same).2

theorem readBasicLines_escape (character : Char) (rest : List Char) :
    readBasicLines false (escape character ++ rest) =
      (readBasicLines false rest).map (prepend character) := by
  obtain ⟨letter, written, notSmall, notLarge, goesOn, read⟩ |
      ⟨first, second, third, fourth, written, read⟩ |
      ⟨written, plain, notQuote, notBackslash⟩ := escape_cases character
  · rw [written, List.cons_append, List.cons_append, List.nil_append,
      readBasicLines.eq_6, goesOn, if_neg Bool.false_ne_true, read]
    · cases readBasicLines false rest <;> rfl
    · simp_all
    · simp_all
  · rw [written]
    simp only [List.cons_append, List.nil_append]
    rw [readBasicLines, read]
    cases readBasicLines false rest <;> rfl
  · rw [written, List.singleton_append, readBasicLines.eq_7, if_neg (by simp),
      if_neg (by simp [plain])]
    all_goals simp_all

theorem readBasicLines_break (rest : List Char) :
    readBasicLines false ('\n' :: rest) =
      (readBasicLines false rest).map (prepend '\n') := by
  rw [readBasicLines.eq_7] <;> simp [isControl]

/-- A quote is read as itself where not two more follow. -/
theorem readBasicLines_quote {rest : List Char} (alone : Alone '"' rest) :
    readBasicLines false ('"' :: rest) =
      (readBasicLines false rest).map (prepend '"') := by
  rw [readBasicLines.eq_7] <;> simp_all [isControl, Alone]

theorem readBasicLines_closing {quotes : Nat} (few : quotes ≤ 2)
    {rest : List Char} (closes : Closes '"' rest) :
    readBasicLines false (List.replicate quotes '"' ++ (tripled '"' ++ rest)) =
      some (List.replicate quotes '"', rest) := by
  obtain rfl | rfl | rfl : quotes = 0 ∨ quotes = 1 ∨ quotes = 2 := by omega
  · exact readBasicLines.eq_3 _ _ (fun _ => closes _) closes
  · exact readBasicLines.eq_2 _ _ closes
  · exact readBasicLines.eq_1 _ _

/-- What is written by an escape does not start what is written. -/
theorem closes_escape {mark : Char} (escaped : mark = '"' ∨ mark = '\n')
    (character : Char) (rest : List Char) :
    Closes mark (escape character ++ rest) := by
  obtain ⟨letter, written, _⟩ |
      ⟨first, second, third, fourth, written, _⟩ |
      ⟨written, plain, notQuote, _⟩ := escape_cases character
  all_goals rw [written]
  · exact closes_cons (by rintro rfl; simp at escaped) _
  · exact closes_cons (by rintro rfl; simp at escaped) _
  · refine closes_cons ?_ _
    rintro rfl
    obtain quote | rfl := escaped
    · exact notQuote quote
    · exact absurd plain (by decide)

/-- After two quotes in a row no third one is written. -/
theorem closes_escapeLines {quotes : Nat} {character : Char}
    (full : 2 ≤ quotes ∨ character ≠ '"') (more rest : List Char) :
    Closes '"' (escapeLines quotes (character :: more) ++ rest) := by
  simp only [escapeLines, beq_iff_eq]
  split
  next quote =>
    have many : 2 ≤ quotes := full.resolve_right (not_not.mpr quote)
    rw [if_neg (by omega)]
    exact closes_cons (by decide) _
  next notQuote =>
    split
    · exact closes_cons (by decide) _
    · rw [List.append_assoc]
      exact closes_escape (.inl rfl) character _

/-- Two quotes are written behind another one only at the end. -/
theorem alone_escapeLines {quotes : Nat} (opened : 0 < quotes)
    {next : Char} {others : List Char}
    (goesOn : 2 ≤ quotes ∨ next ≠ '"' ∨ others ≠ [])
    (rest : List Char) :
    Alone '"' (escapeLines quotes (next :: others) ++ rest) := by
  by_cases full : 2 ≤ quotes ∨ next ≠ '"'
  · exact (closes_escapeLines full others rest).alone
  · obtain ⟨few, quote⟩ := not_or.mp full
    have one : quotes = 1 := by omega
    rw [← or_assoc] at goesOn
    obtain ⟨third, last, rfl⟩ :=
      List.exists_cons_of_ne_nil (goesOn.resolve_left full)
    have written : escapeLines quotes (next :: third :: last) =
        '"' :: escapeLines 2 (third :: last) := by
      rw [escapeLines, if_pos (by simpa using quote), if_pos (by omega), one]
    rw [written]
    exact (closes_escapeLines (.inl (Nat.le_refl 2)) last rest).alone_cons '"'

theorem readBasicLines_escapeLines {quotes : Nat} (few : quotes ≤ 2)
    (text : List Char) {rest : List Char} (closes : Closes '"' rest) :
    readBasicLines false
        (escapeLines quotes text ++ (tripled '"' ++ rest)) =
      some (text, rest) := by
  induction text generalizing quotes with
  | nil => exact readBasicLines_closing (Nat.zero_le 2) closes
  | cons character more ih =>
    have fromStart := ih (Nat.zero_le 2)
    by_cases quote : character = '"'
    · subst quote
      by_cases room : quotes < 2
      · have written : escapeLines quotes ('"' :: more) =
            '"' :: escapeLines (quotes + 1) more := by
          simp [escapeLines, room]
        rw [written]
        -- The quotes at the end of a text are read with the closing ones.
        cases more with
        | nil => exact readBasicLines_closing (by decide : 1 ≤ 2) closes
        | cons next others =>
          by_cases goesOn : 2 ≤ quotes + 1 ∨ next ≠ '"' ∨ others ≠ []
          · rw [List.cons_append, readBasicLines_quote (alone_escapeLines
              (Nat.zero_lt_succ quotes) goesOn _), ih (by omega)]
            rfl
          · obtain ⟨few, quote, last⟩ : quotes = 0 ∧ next = '"' ∧
              others = [] := by simpa using goesOn
            subst few quote last
            exact readBasicLines_closing (Nat.le_refl 2) closes
      · have written : escapeLines quotes ('"' :: more) =
            escape '"' ++ escapeLines 0 more := by
          simp [escapeLines, room, escape]
        rw [written, List.append_assoc, readBasicLines_escape,
          fromStart]
        rfl
    · by_cases break_ : character = '\n'
      · subst break_
        have written : escapeLines quotes ('\n' :: more) =
            '\n' :: escapeLines 0 more := by
          simp [escapeLines]
        rw [written, List.cons_append, readBasicLines_break, fromStart]
        rfl
      · have written : escapeLines quotes (character :: more) =
            escape character ++ escapeLines 0 more := by
          simp [escapeLines, quote, break_]
        rw [written, List.append_assoc, readBasicLines_escape,
          fromStart]
        rfl

theorem le_longestRun (mark : Char) (current : Nat) (text : List Char) :
    current ≤ longestRun mark current text := by
  induction text generalizing current with
  | nil => exact Nat.le_refl current
  | cons character more ih =>
    rw [longestRun]
    split
    · exact Nat.le_of_succ_le (ih (current + 1))
    · exact Nat.le_max_left _ _

theorem readLiteralLines_closing {quotes : Nat} (few : quotes ≤ 2)
    {rest : List Char} (closes : Closes '\'' rest) :
    readLiteralLines
        (List.replicate quotes '\'' ++ (tripled '\'' ++ rest)) =
      some (List.replicate quotes '\'', rest) := by
  obtain rfl | rfl | rfl : quotes = 0 ∨ quotes = 1 ∨ quotes = 2 := by omega
  · exact readLiteralLines.eq_3 _ (fun _ => closes _) closes
  · exact readLiteralLines.eq_2 _ closes
  · exact readLiteralLines.eq_1 _

/-- A character is read as itself, a quote where not two more follow. -/
theorem readLiteralLines_cons {character : Char} {rest : List Char}
    (plain : isControl character = false ∨ character = '\n')
    (alone : character = '\'' → Alone '\'' rest) :
    readLiteralLines (character :: rest) =
      (readLiteralLines rest).map (prepend character) := by
  have allowed : ¬(isControl character && character != '\n') = true := by
    obtain plain | rfl := plain <;> simp_all
  rw [readLiteralLines.eq_4, if_neg allowed]
  all_goals exact fun _ quote => alone quote _

/-- In a run of at most two, two quotes are behind another one at the end. -/
theorem alone_of_longestRun {quote next : Char} {others : List Char}
    {current : Nat}
    (short : longestRun quote current (quote :: next :: others) ≤ 2)
    (goesOn : next ≠ quote ∨ others ≠ []) (rest : List Char) :
    Alone quote (next :: others ++ rest) := by
  by_cases same : next = quote
  · subst same
    obtain ⟨third, last, rfl⟩ :=
      List.exists_cons_of_ne_nil (goesOn.resolve_left (by simp))
    have differs : third ≠ next := by
      rintro rfl
      have long := le_longestRun third (current + 1 + 1 + 1) last
      simp only [longestRun, beq_self_eq_true, if_true] at short
      omega
    exact (closes_cons differs _).alone_cons next
  · exact (closes_cons same _).alone

theorem longestRun_cons_le {mark character : Char} {current : Nat}
    {more : List Char}
    (short : longestRun mark current (character :: more) ≤ 2) :
    ∃ later, longestRun mark later more ≤ 2 := by
  rw [longestRun] at short
  split at short
  · exact ⟨_, short⟩
  · exact ⟨_, (Nat.max_le.mp short).2⟩

theorem readLiteralLines_append {text : List Char} {current : Nat}
    (plain : ∀ character ∈ text,
      isControl character = false ∨ character = '\n')
    (short : longestRun '\'' current text ≤ 2)
    {rest : List Char} (closes : Closes '\'' rest) :
    readLiteralLines (text ++ (tripled '\'' ++ rest)) = some (text, rest) := by
  induction text generalizing current with
  | nil => exact readLiteralLines_closing (Nat.zero_le 2) closes
  | cons character more ih =>
    obtain ⟨plainFirst, plainMore⟩ := List.forall_mem_cons.mp plain
    obtain ⟨later, shortMore⟩ := longestRun_cons_le short
    have read (alone : character = '\'' →
        Alone '\'' (more ++ (tripled '\'' ++ rest))) :
        readLiteralLines (character :: more ++ (tripled '\'' ++ rest)) =
          some (character :: more, rest) := by
      rw [List.cons_append, readLiteralLines_cons plainFirst alone,
        ih plainMore shortMore]
      rfl
    by_cases quote : character = '\''
    · subst quote
      cases more with
      | nil => exact readLiteralLines_closing (by decide : 1 ≤ 2) closes
      | cons next others =>
        by_cases goesOn : next ≠ '\'' ∨ others ≠ []
        · exact read fun _ => alone_of_longestRun short goesOn _
        · obtain ⟨rfl, rfl⟩ : next = '\'' ∧ others = [] := by
            simpa using goesOn
          exact readLiteralLines_closing (Nat.le_refl 2) closes
    · exact read fun same => (quote same).elim

/-! ### The form that is picked -/

/-- What may be relied on where a form is picked for a text. -/
def Form.Fits (text : List Char) : Form → Prop
  | .basic => True
  | .literal =>
    (∀ character ∈ text, isControl character = false) ∧ '\'' ∉ text
  | .basicLines => True
  | .literalLines =>
    (∀ character ∈ text, isControl character = false ∨ character = '\n') ∧
      longestRun '\'' 0 text ≤ 2

theorem fits_formOf (text : List Char) : (formOf text).Fits text := by
  unfold formOf
  dsimp only
  split
  · trivial
  split
  next literal =>
    simp [Form.Fits] at literal ⊢
    refine ⟨fun character among => ?_, literal.2⟩
    exact (literal.1.1 character among).resolve_right
      (ne_of_mem_of_not_mem among literal.1.2)
  split
  · trivial
  split
  next literal =>
    simp [Form.Fits] at literal ⊢
    exact ⟨literal.1, literal.2⟩
  split <;> trivial

/-- Behind triple quotes a text starts where it does, past its line break. -/
theorem dropOpeningBreak_append {text body : List Char}
    (same : '\n' ∉ text → Closes '\n' body) :
    dropOpeningBreak (openingBreak text ++ body) = body := by
  unfold openingBreak
  split
  · rfl
  next noBreak =>
    have closes := same (by simpa using noBreak)
    rw [List.nil_append, dropOpeningBreak.eq_2 _ closes]

theorem closes_append {mark : Char} {text rest : List Char}
    (absent : mark ∉ text) (closes : Closes mark rest) :
    Closes mark (text ++ rest) := by
  cases text with
  | nil => exact closes
  | cons first more =>
    exact closes_cons (List.ne_of_not_mem_cons absent).symm _

theorem closes_break_escapeLines {text : List Char} (noBreak : '\n' ∉ text)
    (rest : List Char) :
    Closes '\n' (escapeLines 0 text ++ (tripled '"' ++ rest)) := by
  cases text with
  | nil => exact closes_cons (by decide) _
  | cons character more =>
    have notBreak := (List.ne_of_not_mem_cons noBreak).symm
    simp only [escapeLines, beq_iff_eq, if_neg notBreak]
    split
    · exact closes_cons (by decide) _
    · rw [List.append_assoc]
      exact closes_escape (.inr rfl) character _

theorem readText_writeText (text : List Char) {rest : List Char}
    (double : Closes '"' rest) (single : Closes '\'' rest) :
    readText (writeText text ++ rest) = some (text, rest) := by
  have fits := fits_formOf text
  unfold writeText
  cases form : formOf text with
  | basic =>
    have alone : Alone '"' (text.flatMap escape ++ '"' :: rest) := by
      cases text with
      | nil => exact double.alone_cons '"'
      | cons character more =>
        rw [List.flatMap_cons, List.append_assoc]
        exact (closes_escape (.inl rfl) character _).alone
    simp only [writeForm, List.cons_append, List.append_assoc, List.nil_append]
    rw [readText.eq_3 _ alone, readBasic_flatMap_escape]
  | literal =>
    rw [form] at fits
    have alone : Alone '\'' (text ++ '\'' :: rest) := by
      cases text with
      | nil => exact single.alone_cons '\''
      | cons character more =>
        exact (closes_cons (List.ne_of_not_mem_cons fits.2).symm _).alone
    simp only [writeForm, List.cons_append, List.append_assoc, List.nil_append]
    rw [readText.eq_4 _ alone, readLiteral_append fits.1 fits.2]
  | basicLines =>
    simp only [writeForm, List.append_assoc]
    show readBasicLines false (dropOpeningBreak (openingBreak text ++
      (escapeLines 0 text ++ (tripled '"' ++ rest)))) = _
    rw [dropOpeningBreak_append fun noBreak =>
      closes_break_escapeLines noBreak rest]
    exact readBasicLines_escapeLines (Nat.zero_le 2) text double
  | literalLines =>
    rw [form] at fits
    simp only [writeForm, List.append_assoc]
    show readLiteralLines (dropOpeningBreak (openingBreak text ++
      (text ++ (tripled '\'' ++ rest)))) = _
    have closes : Closes '\n' (tripled '\'' ++ rest) :=
      closes_cons (by decide) _
    rw [dropOpeningBreak_append fun noBreak => closes_append noBreak closes]
    exact readLiteralLines_append fits.1 fits.2 single

/-! ### Keys -/

/-- Whether a text does not go on with a character of a key without quotes. -/
def EndsKey (text : List Char) : Prop :=
  ∀ character ∈ text.head?, isBare character = false

theorem readKeyPart_of_bare {key : List Char} (bare : isBareKey key)
    {rest : List Char} (ends : EndsKey rest) :
    readKeyPart (key ++ rest) = some (key, rest) := by
  simp only [isBareKey, Bool.and_eq_true, List.all_eq_true] at bare
  obtain ⟨nonempty, all⟩ := bare
  have taken : (key ++ rest).takeWhile isBare = key := by
    rw [List.takeWhile_append_of_pos all]
    cases rest with
    | nil => simp
    | cons first more => simp [ends first rfl]
  have left : (key ++ rest).dropWhile isBare = rest := by
    rw [List.dropWhile_append_of_pos all]
    cases rest with
    | nil => simp
    | cons first more => simp [ends first rfl]
  cases key with
  | nil => simp at nonempty
  | cons first more =>
    have bareFirst := all first List.mem_cons_self
    rw [List.cons_append, readKeyPart.eq_3, ← List.cons_append, taken, left]
    all_goals
      intro _ same
      rw [(List.cons.inj same).1] at bareFirst
      exact absurd bareFirst (by decide)

/-- A key with quotes is written on one line. -/
theorem keyFormOf_cases (key : List Char) :
    keyFormOf key = .basic ∨
      keyFormOf key = .literal ∧ Form.literal.Fits key := by
  unfold keyFormOf
  dsimp only
  split
  · exact .inl rfl
  split
  next literal => exact .inr ⟨rfl, by simpa [Form.Fits] using literal⟩
  · exact .inl rfl

theorem readKeyPart_writeKey (key : List Char) {rest : List Char}
    (ends : EndsKey rest) :
    readKeyPart (writeKey key ++ rest) = some (key, rest) := by
  unfold writeKey
  split
  next bare => exact readKeyPart_of_bare bare ends
  obtain form | ⟨form, plain, noQuote⟩ := keyFormOf_cases key
  all_goals
    simp only [form, writeForm, List.cons_append, List.append_assoc,
      List.nil_append]
  · exact readBasic_flatMap_escape key rest
  · exact readLiteral_append plain noQuote rest

/-! ### No returns -/

theorem return_not_mem_escape (character : Char) :
    '\r' ∉ escape character := by
  have digit : ∀ value < 16,
      (Numeral.hexDigit value).toUpper ≠ '\r' := by decide
  have digits (code : Nat) :
      '\r' ∉ (Numeral.hexadecimal 4 code).map Char.toUpper := by
    simp only [Numeral.hexadecimal, List.mem_map, not_exists, not_and]
    rintro _ ⟨place, _, rfl⟩
    exact digit _ (Nat.mod_lt _ (by decide))
  unfold escape
  split
  all_goals try decide
  next notReturn _ =>
    split
    · decide
    split
    · decide
    split
    · simp [digits]
    · simpa using fun same => notReturn same.symm

theorem return_not_mem_escapeLines (quotes : Nat) (text : List Char) :
    '\r' ∉ escapeLines quotes text := by
  induction text generalizing quotes with
  | nil => simp [escapeLines]
  | cons character more ih =>
    unfold escapeLines
    split
    · split <;> simp [ih]
    split
    · simp [ih]
    · simp [ih, return_not_mem_escape]

theorem return_not_mem_writeForm {text : List Char} {form : Form}
    (fits : form.Fits text) : '\r' ∉ writeForm text form := by
  have break_ : '\r' ∉ openingBreak text := by
    unfold openingBreak
    split <;> decide
  cases form with
  | basic => simp [writeForm, return_not_mem_escape]
  | literal =>
    have absent : '\r' ∉ text := fun among =>
      absurd (fits.1 _ among) (by decide)
    simp [writeForm, absent]
  | basicLines =>
    simp [writeForm, tripled, break_, return_not_mem_escapeLines]
  | literalLines =>
    have absent : '\r' ∉ text := fun among =>
      absurd (fits.1 _ among) (by decide)
    simp [writeForm, tripled, break_, absent]

theorem return_not_mem_writeText (text : List Char) :
    '\r' ∉ writeText text :=
  return_not_mem_writeForm (fits_formOf text)

theorem return_not_mem_writeKey (key : List Char) : '\r' ∉ writeKey key := by
  unfold writeKey
  split
  next bare =>
    simp only [isBareKey, Bool.and_eq_true, List.all_eq_true] at bare
    exact fun among => absurd (bare.2 _ among) (by decide)
  · obtain form | ⟨form, fits⟩ := keyFormOf_cases key
    · rw [form]
      exact return_not_mem_writeForm trivial
    · rw [form]
      exact return_not_mem_writeForm fits

end Toml

end Document

end TypeAtlas
