import Mathlib.Data.List.TakeWhile
import TypeAtlas.Document.Json.Printer
import TypeAtlas.Document.Json.Reader
import TypeAtlas.Proofs.Document.Node

/-!
# Printed documents are read back

A document that consists of null, truth values, strings, lists, and tables
whose keys are strings is read back from its printed text, whatever indentation
it was printed at and whatever follows it.  Numbers and the nodes that other
formats have in addition are printed too, but need not be read as what they
were.
-/

namespace TypeAtlas

namespace Document

namespace Json

section Strings

theorem hexValue?_hexadecimal :
    ∀ code < 0x20, ∃ first second third fourth,
      Numeral.hexadecimal 4 code = [first, second, third, fourth] ∧
        Numeral.hexValue? [first, second, third, fourth] = some code := by
  have widthFour (code : Nat) : Numeral.hexadecimal 4 code =
      [Numeral.hexDigit (code / 4096 % 16), Numeral.hexDigit (code / 256 % 16),
        Numeral.hexDigit (code / 16 % 16), Numeral.hexDigit (code / 1 % 16)] :=
    rfl
  intro code small
  refine ⟨_, _, _, _, widthFour code, ?_⟩
  revert code
  decide

/-- A character is read as one code, whether it is escaped or not. -/
theorem readCodes_escape (character : Char) (rest : List Char) :
    readCodes (escape character ++ rest) =
      (readCodes rest).map fun (codes, rest) =>
        (character.toNat :: codes, rest) := by
  have escaped (letter : Char) (code : Nat) (isEscape : letter ≠ 'u')
      (read : simpleEscape? letter = some code) :
      readCodes ('\\' :: letter :: rest) =
        (readCodes rest).map fun (codes, rest) => (code :: codes, rest) := by
    rw [readCodes.eq_3 _ _ (fun _ _ _ _ _ isU _ => isEscape isU), read]
    cases readCodes rest <;> rfl
  unfold escape
  split
  · exact escaped '"' 0x22 (by decide) rfl
  · exact escaped '\\' 0x5C (by decide) rfl
  · exact escaped 'n' 0x0A (by decide) rfl
  · exact escaped 'r' 0x0D (by decide) rfl
  · exact escaped 't' 0x09 (by decide) rfl
  next notQuote notBackslash _ _ _ =>
    split
    next backspace =>
      rw [backspace]
      exact escaped 'b' 0x08 (by decide) rfl
    split
    next formFeed =>
      rw [formFeed]
      exact escaped 'f' 0x0C (by decide) rfl
    split
    next control =>
      obtain ⟨first, second, third, fourth, digits, value⟩ :=
        hexValue?_hexadecimal character.toNat control
      rw [digits, List.cons_append, List.cons_append, List.cons_append,
        List.cons_append, List.cons_append, List.cons_append, List.nil_append,
        readCodes, value]
      cases readCodes rest <;> rfl
    next printable =>
      rw [List.singleton_append, readCodes.eq_4 _ _ notQuote
        (fun _ _ _ _ _ isBackslash _ => notBackslash isBackslash)
        (fun _ _ isBackslash _ => notBackslash isBackslash), if_neg printable]

theorem readCodes_flatMap_escape (characters rest : List Char) :
    readCodes (characters.flatMap escape ++ '"' :: rest) =
      some (characters.map Char.toNat, rest) := by
  induction characters with
  | nil => simp [readCodes]
  | cons character more ih =>
    rw [List.flatMap_cons, List.append_assoc, readCodes_escape, ih]
    rfl

theorem decodeCodes?_map_toNat (characters : List Char) :
    decodeCodes? (characters.map Char.toNat) = some characters := by
  have noSurrogate (character : Char) :
      isHighSurrogate character.toNat = false ∧
        isLowSurrogate character.toNat = false := by
    have valid : character.toNat < 0xD800 ∨
        0xDFFF < character.toNat ∧ character.toNat < 0x110000 :=
      character.valid
    simp only [isHighSurrogate, isLowSurrogate, Bool.and_eq_false_iff,
      decide_eq_false_iff_not]
    omega
  induction characters with
  | nil => rfl
  | cons character more ih =>
    cases more with
    | nil => simp [decodeCodes?, noSurrogate]
    | cons next more =>
      rw [List.map_cons] at ih
      simp [decodeCodes?, noSurrogate, ih]

theorem stringNode_map_toNat (text : String) :
    stringNode (text.toList.map Char.toNat) = .text text := by
  unfold stringNode
  rw [decodeCodes?_map_toNat]
  exact congrArg Node.text String.ofList_toList

end Strings

/-- Whether a text starts like a value, and not like the end of a list. -/
def Starts (text : List Char) : Prop :=
  ∃ first rest, text = first :: rest ∧ isSpace first = false ∧
    first ≠ ']' ∧ first ≠ '}'

namespace Starts

variable {text : List Char}

theorem of_cons {first : Char} {rest : List Char}
    (visible : isSpace first = false) (noList : first ≠ ']')
    (noTable : first ≠ '}') : Starts (first :: rest) :=
  ⟨first, rest, rfl, visible, noList, noTable⟩

theorem append (starts : Starts text) (after : List Char) :
    Starts (text ++ after) := by
  obtain ⟨first, rest, rfl, start⟩ := starts
  exact ⟨first, rest ++ after, rfl, start⟩

end Starts

theorem skipSpace_of_visible {first : Char} {rest : List Char}
    (visible : isSpace first = false) :
    skipSpace (first :: rest) = first :: rest :=
  List.dropWhile_cons_of_neg (by simp [visible])

theorem skipSpace_lineAt {first : Char} {rest : List Char} (level : Nat)
    (visible : isSpace first = false) :
    skipSpace ((lineAt level).toList ++ first :: rest) = first :: rest := by
  have spaces : ∀ character ∈ (lineAt level).toList,
      isSpace character = true := by
    intro character member
    rw [lineAt, String.toList_ofList] at member
    rcases List.mem_cons.1 member with rfl | member
    · decide
    · rw [List.eq_of_mem_replicate member]
      decide
  unfold skipSpace
  rw [List.dropWhile_append_of_pos spaces]
  exact skipSpace_of_visible visible

theorem Starts.skipSpace_lineAt {text : List Char} (starts : Starts text)
    (level : Nat) :
    skipSpace ((lineAt level).toList ++ text) = text := by
  obtain ⟨first, rest, rfl, visible, _⟩ := starts
  exact Json.skipSpace_lineAt level visible

/-- Whether a text is read as an item, whatever follows it. -/
def Reads (readItem : List Char → Option (α × List Char)) (text : List Char)
    (item : α) : Prop :=
  Starts text ∧ ∀ rest, readItem (text ++ rest) = some (item, rest)

section Items

variable {readItem : List Char → Option (α × List Char)}
  {print : α → List Char} {opening close : Char} {level : Nat}

def itemLines (level : Nat) (pieces : List (List Char)) : List Char :=
  (',' :: (lineAt (level + 1)).toList).intercalate pieces ++
    (lineAt level).toList

theorem toList_bracketed (printed : α → String) (first : α) (more : List α) :
    (bracketed opening close level ((first :: more).map printed)).toList =
      opening :: ((lineAt (level + 1)).toList ++
        (itemLines level ((first :: more).map (String.toList ∘ printed)) ++
          [close])) := by
  simp [bracketed, itemLines]

theorem toList_bracketed_nil :
    (bracketed opening close level []).toList = [opening, close] := by
  simp [bracketed]

theorem itemLines_singleton (piece : List Char) :
    itemLines level [piece] = piece ++ (lineAt level).toList := by
  rw [itemLines, List.intercalate_singleton]

theorem itemLines_cons_cons (piece next : List Char)
    (pieces : List (List Char)) :
    itemLines level (piece :: next :: pieces) =
      piece ++ ',' :: ((lineAt (level + 1)).toList ++
        itemLines level (next :: pieces)) := by
  simp [itemLines]

theorem Starts.itemLines {piece : List Char} (starts : Starts piece)
    {pieces : List (List Char)} :
    Starts (itemLines level (piece :: pieces)) := by
  cases pieces with
  | nil =>
    rw [itemLines_singleton]
    exact starts.append _
  | cons next pieces =>
    rw [itemLines_cons_cons]
    exact starts.append _

theorem length_lineAt (level : Nat) :
    (lineAt level).toList.length = 2 * level + 1 := by
  simp [lineAt]

/-- Every item leaves room in the text for itself and for all the others. -/
theorem length_lt_length_itemLines (level : Nat)
    (pieces : List (List Char)) :
    pieces.length ≤ (itemLines level pieces).length ∧
      ∀ piece ∈ pieces, piece.length < (itemLines level pieces).length := by
  induction pieces with
  | nil => exact ⟨Nat.zero_le _, nofun⟩
  | cons piece pieces ih =>
    cases pieces with
    | nil =>
      simp only [itemLines_singleton, List.length_append, length_lineAt,
        List.length_singleton, List.mem_singleton, forall_eq]
      omega
    | cons next pieces =>
      obtain ⟨room, shorter⟩ := ih
      simp only [itemLines_cons_cons, List.length_append, List.length_cons]
        at room shorter ⊢
      refine ⟨by omega, fun other member => ?_⟩
      rcases List.mem_cons.1 member with rfl | member
      · omega
      · have fits := shorter other member
        omega

theorem length_le_of_bracketed {pieces : List (List Char)} {levels : Nat}
    (enough : ((lineAt (level + 1)).toList ++
      (itemLines level pieces ++ [close])).length ≤ levels)
    {piece : List Char} (member : piece ∈ pieces) : piece.length ≤ levels := by
  have shorter := (length_lt_length_itemLines level pieces).2 piece member
  simp only [List.length_append] at enough
  exact Nat.le_of_lt (Nat.lt_of_lt_of_le shorter (by omega))

/-- Items are read from their lines, up to the bracket behind them. -/
theorem readItems_itemLines {first : α} {more : List α} {rounds : Nat}
    (visible : isSpace close = false) (noComma : close ≠ ',')
    (reads : ∀ item ∈ first :: more, Reads readItem (print item) item)
    (enough : more.length < rounds) (rest : List Char) :
    readItems readItem close rounds
        (itemLines level ((first :: more).map print) ++ close :: rest) =
      some (first :: more, rest) := by
  induction more generalizing first rounds with
  | nil =>
    obtain ⟨rounds, rfl⟩ := Nat.exists_eq_succ_of_ne_zero
      (Nat.ne_of_gt enough)
    have read := (reads first List.mem_cons_self).2
    simp only [List.map_cons, List.map_nil, itemLines_singleton,
      List.append_assoc, readItems, read, bind, Option.bind]
    rw [skipSpace_lineAt level visible]
    simp
  | cons second others ih =>
    obtain ⟨rounds, rfl⟩ := Nat.exists_eq_succ_of_ne_zero
      (Nat.ne_of_gt (Nat.lt_of_le_of_lt (Nat.zero_le _) enough))
    have read := (reads first List.mem_cons_self).2
    have readMore := ih (fun item member =>
      reads item (List.mem_cons_of_mem _ member))
      (Nat.lt_of_succ_lt_succ enough)
    have starts : Starts (itemLines level ((second :: others).map print) ++
        close :: rest) := by
      have second_reads := reads second (List.mem_cons_of_mem _
        List.mem_cons_self)
      exact second_reads.1.itemLines.append _
    simp only [List.map_cons, itemLines_cons_cons, List.append_assoc,
      List.cons_append, readItems, read, bind, Option.bind]
    rw [skipSpace_of_visible (by decide)]
    simp only [← List.map_cons, starts.skipSpace_lineAt, readMore, pure]

/-- What stands between brackets is read by as many rounds as it is long. -/
theorem exists_inside (close : Char) {first : α} {more : List α}
    (visible : isSpace close = false) (noComma : close ≠ ',')
    (reads : ∀ item ∈ first :: more, Reads readItem (print item) item)
    (rest : List Char) :
    ∃ inside, Starts inside ∧
      skipSpace (((lineAt (level + 1)).toList ++
        (itemLines level ((first :: more).map print) ++ [close])) ++ rest) =
          inside ∧
      readItems readItem close (inside.length + 1) inside =
        some (first :: more, rest) := by
  have starts : Starts (itemLines level ((first :: more).map print) ++
      close :: rest) :=
    Starts.append (reads first List.mem_cons_self).1.itemLines _
  refine ⟨_, starts, ?_, readItems_itemLines visible noComma reads ?_ rest⟩
  · rw [List.append_assoc, List.append_assoc, List.singleton_append]
    exact starts.skipSpace_lineAt (level + 1)
  · have room := (length_lt_length_itemLines level
      ((first :: more).map print)).1
    simp only [List.length_map, List.length_cons, List.length_append]
      at room ⊢
    omega

end Items

theorem prettyItems_eq (level : Nat) (items : List Node) :
    prettyItems level items = items.map (pretty level) := by
  induction items with
  | nil => rw [prettyItems, List.map_nil]
  | cons item rest ih => rw [prettyItems, ih, List.map_cons]

def prettyEntry (level : Nat) (entry : Node × Node) : String :=
  pretty level entry.1 ++ ": " ++ pretty level entry.2

theorem prettyEntries_eq (level : Nat) (entries : List (Node × Node)) :
    prettyEntries level entries = entries.map (prettyEntry level) := by
  induction entries with
  | nil => rw [prettyEntries, List.map_nil]
  | cons entry rest ih => rw [prettyEntries, ih, List.map_cons, prettyEntry]

theorem toList_quote (text : String) :
    (quote text).toList = '"' :: (text.toList.flatMap escape ++ ['"']) := by
  simp [quote]

theorem reads_entry {readNode : List Char → Option (Node × List Char)}
    {key : String} {value : Node} {text : List Char}
    (reads : Reads readNode text value) :
    Reads (readEntry readNode) ((quote key).toList ++ ':' :: ' ' :: text)
      (.text key, value) := by
  obtain ⟨⟨first, tail, rfl, visible, _⟩, readText⟩ := reads
  rw [toList_quote]
  refine ⟨.of_cons (by decide) (by decide) (by decide), fun rest => ?_⟩
  have skipped : skipSpace (' ' :: first :: (tail ++ rest)) =
      first :: tail ++ rest :=
    skipSpace_of_visible visible
  simp only [List.cons_append, List.append_assoc, List.nil_append, readEntry,
    readCodes_flatMap_escape, bind, Option.bind]
  rw [skipSpace_of_visible (by decide)]
  simp only [skipped, readText, stringNode_map_toNat, pure]

theorem readValue_list {levels : Nat} {text inside : List Char}
    (skipped : skipSpace text = inside) (starts : Starts inside) :
    readValue (levels + 1) ('[' :: text) =
      (readItems (readValue levels) ']' (inside.length + 1) inside).map
        fun (items, rest) => (.list items, rest) := by
  obtain ⟨first, tail, rfl, _, noList, _⟩ := starts
  simp only [readValue, skipped]
  split
  next isList => exact (noList (List.cons.inj isList).1).elim
  next => rfl

theorem readValue_table {levels : Nat} {text inside : List Char}
    (skipped : skipSpace text = inside) (starts : Starts inside) :
    readValue (levels + 1) ('{' :: text) =
      (readItems (readEntry (readValue levels)) '}' (inside.length + 1)
        inside).map fun (entries, rest) => (.table entries, rest) := by
  obtain ⟨first, tail, rfl, _, _, noTable⟩ := starts
  simp only [readValue, skipped]
  split
  next isTable => exact (noTable (List.cons.inj isTable).1).elim
  next => rfl

/-- A printed value is read where as many levels are allowed as it is long. -/
theorem reads_pretty {node : Node} (isData : node.IsData)
    {level levels : Nat}
    (enough : (pretty level node).toList.length ≤ levels) :
    Reads (readValue levels) (pretty level node).toList node := by
  induction isData generalizing level levels with
  | null =>
    have printed : (pretty level .null).toList = "null".toList := by
      rw [pretty]
    rw [printed] at enough ⊢
    obtain ⟨levels, rfl⟩ := Nat.exists_eq_add_of_le' enough
    exact ⟨.of_cons (by decide) (by decide) (by decide), fun _ => rfl⟩
  | boolean value =>
    have printed : (pretty level (.boolean value)).toList =
        (if value then "true" else "false").toList := by
      rw [pretty]
    rw [printed] at enough ⊢
    cases value <;>
    · obtain ⟨levels, rfl⟩ := Nat.exists_eq_add_of_le' enough
      exact ⟨.of_cons (by decide) (by decide) (by decide), fun _ => rfl⟩
  | text value =>
    rw [pretty, toList_quote] at enough ⊢
    obtain ⟨levels, rfl⟩ := Nat.exists_eq_add_of_le' enough
    refine ⟨.of_cons (by decide) (by decide) (by decide), fun rest => ?_⟩
    rw [List.length_cons, ← Nat.add_assoc]
    simp only [List.cons_append, List.append_assoc, List.nil_append, readValue,
      readCodes_flatMap_escape, stringNode_map_toNat, Option.map_some]
  | @list items _ ih =>
    rw [pretty, prettyItems_eq] at enough ⊢
    cases items with
    | nil =>
      rw [List.map_nil, toList_bracketed_nil] at enough ⊢
      obtain ⟨levels, rfl⟩ := Nat.exists_eq_add_of_le' enough
      exact ⟨.of_cons (by decide) (by decide) (by decide), fun _ => rfl⟩
    | cons first more =>
      rw [toList_bracketed] at enough ⊢
      cases levels with
      | zero => cases enough
      | succ levels =>
        have reads : ∀ item ∈ first :: more, Reads (readValue levels)
            ((String.toList ∘ pretty (level + 1)) item) item :=
          fun item member => ih item member
            (length_le_of_bracketed (Nat.le_of_succ_le_succ enough)
              (List.mem_map_of_mem member))
        refine ⟨.of_cons (by decide) (by decide) (by decide), fun rest => ?_⟩
        obtain ⟨inside, starts, skipped, read⟩ :=
          exists_inside ']' (by decide) (by decide) reads rest
        rw [List.cons_append, readValue_list skipped starts, read]
        rfl
  | @table entries keys _ ih =>
    rw [pretty, prettyEntries_eq] at enough ⊢
    cases entries with
    | nil =>
      rw [List.map_nil, toList_bracketed_nil] at enough ⊢
      obtain ⟨levels, rfl⟩ := Nat.exists_eq_add_of_le' enough
      exact ⟨.of_cons (by decide) (by decide) (by decide), fun _ => rfl⟩
    | cons first more =>
      rw [toList_bracketed] at enough ⊢
      cases levels with
      | zero => cases enough
      | succ levels =>
        have reads : ∀ entry ∈ first :: more,
            Reads (readEntry (readValue levels))
              ((String.toList ∘ prettyEntry (level + 1)) entry) entry := by
          rintro ⟨node, value⟩ member
          obtain ⟨key, rfl⟩ := keys _ member
          have fits := length_le_of_bracketed (Nat.le_of_succ_le_succ enough)
            (List.mem_map_of_mem member)
          have printed : (String.toList ∘ prettyEntry (level + 1))
              (.text key, value) = (quote key).toList ++
                ':' :: ' ' :: (pretty (level + 1) value).toList := by
            simp [prettyEntry, pretty]
          rw [printed] at fits ⊢
          have shorter : (pretty (level + 1) value).toList.length ≤ levels := by
            simp only [List.length_append, List.length_cons] at fits
            omega
          exact reads_entry (ih _ member shorter)
        refine ⟨.of_cons (by decide) (by decide) (by decide), fun rest => ?_⟩
        obtain ⟨inside, starts, skipped, read⟩ :=
          exists_inside '}' (by decide) (by decide) reads rest
        rw [List.cons_append, readValue_table skipped starts, read]
        rfl

/-- A document without numbers is read back from its printed text. -/
theorem read?_pretty {node : Node} (isData : node.IsData) (level : Nat) :
    read? (pretty level node) = some node := by
  obtain ⟨starts, read⟩ := reads_pretty isData
    (Nat.le_succ (pretty level node).toList.length)
  obtain ⟨first, tail, text, visible, _⟩ := starts
  have whole := read []
  rw [List.append_nil] at whole
  have skipped : skipSpace (pretty level node).toList =
      (pretty level node).toList := by
    rw [text]
    exact skipSpace_of_visible visible
  simp only [read?, skipped, whole, bind, Option.bind]
  rfl

end Json

end Document

end TypeAtlas
