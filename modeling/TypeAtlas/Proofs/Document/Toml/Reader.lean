import TypeAtlas.Document.Toml.Printer
import TypeAtlas.Document.Toml.Reader
import TypeAtlas.Proofs.Document.Toml.Quoted

/-!
# Printed TOML is read back
-/

namespace TypeAtlas

namespace Document

namespace Toml

/-! ### Values -/

inductive IsScalar : Node → Prop
  | text (value : String) : IsScalar (.text value)
  | boolean (value : Bool) : IsScalar (.boolean value)

/-- Whether a node is a scalar or a list of scalars. -/
inductive IsSimple : Node → Prop
  | scalar {node : Node} (isScalar : IsScalar node) : IsSimple node
  | list {items : List Node}
    (items_isScalar : ∀ item ∈ items, IsScalar item) : IsSimple (.list items)

/-- Whether what follows a value ends it: its line, or its place in a list. -/
def EndsValue (rest : List Char) : Prop :=
  ∃ mark more, rest = mark :: more ∧
    (mark = '\n' ∨ mark = ',' ∨ mark = ']')

theorem EndsValue.closes {rest : List Char} (ends : EndsValue rest)
    {quote : Char} (isQuote : quote = '"' ∨ quote = '\'') :
    Closes quote rest := by
  obtain ⟨mark, more, rfl, isEnd⟩ := ends
  refine closes_cons ?_ more
  rintro rfl
  obtain rfl | rfl := isQuote <;> simp at isEnd

theorem exists_writeText_eq_cons (text : List Char) :
    ∃ quote more, writeText text = quote :: more ∧
      (quote = '"' ∨ quote = '\'') := by
  unfold writeText
  cases formOf text with
  | basic => exact ⟨_, _, rfl, .inl rfl⟩
  | literal => exact ⟨_, _, rfl, .inr rfl⟩
  | basicLines => exact ⟨_, _, rfl, .inl rfl⟩
  | literalLines => exact ⟨_, _, rfl, .inr rfl⟩

theorem readLiteralWord_true {rest : List Char} (ends : EndsValue rest) :
    readLiteralWord ('t' :: 'r' :: 'u' :: 'e' :: rest) =
      some (.boolean true, rest) := by
  obtain ⟨mark, more, rfl, rfl | rfl | rfl⟩ := ends <;> rfl

theorem readLiteralWord_false {rest : List Char} (ends : EndsValue rest) :
    readLiteralWord ('f' :: 'a' :: 'l' :: 's' :: 'e' :: rest) =
      some (.boolean false, rest) := by
  obtain ⟨mark, more, rfl, rfl | rfl | rfl⟩ := ends <;> rfl

theorem readValue_of_quote {quote : Char}
    (isQuote : quote = '"' ∨ quote = '\'') (levels : Nat) (rest : List Char) :
    readValue (levels + 1) (quote :: rest) =
      (readText (quote :: rest)).map fun (content, rest) =>
        (.text (String.ofList content), rest) := by
  obtain rfl | rfl := isQuote <;> rfl

theorem IsScalar.readValue_writeValue {node : Node} (isScalar : IsScalar node)
    (levels : Nat) {rest : List Char} (ends : EndsValue rest) :
    readValue (levels + 1) (writeValue node ++ rest) = some (node, rest) := by
  cases isScalar with
  | text value =>
    have read := readText_writeText value.toList (ends.closes (.inl rfl))
      (ends.closes (.inr rfl))
    obtain ⟨quote, more, written, isQuote⟩ :=
      exists_writeText_eq_cons value.toList
    rw [writeValue]
    rw [written, List.cons_append] at read ⊢
    rw [readValue_of_quote isQuote, read, Option.map_some]
    simp only [String.ofList_toList]
  | boolean value =>
    cases value with
    | true => exact readLiteralWord_true ends
    | false => exact readLiteralWord_false ends

/-- Whether a text starts neither with filler nor with a bracket. -/
def Starts (text : List Char) : Prop :=
  ∃ first more, text = first :: more ∧ first ≠ '\n' ∧ first ≠ '#' ∧
    isSpace first = false ∧ first ≠ '[' ∧ first ≠ ']'

theorem Starts.append {text : List Char} (starts : Starts text)
    (rest : List Char) : Starts (text ++ rest) := by
  obtain ⟨first, more, rfl, start⟩ := starts
  exact ⟨first, more ++ rest, rfl, start⟩

theorem Starts.skipFiller {text : List Char} (starts : Starts text) :
    skipFiller false text = text := by
  obtain ⟨first, more, rfl, noBreak, noComment, visible, _⟩ := starts
  simp [Toml.skipFiller, noBreak, noComment, visible]

theorem Starts.skipSpaces {text : List Char} (starts : Starts text) :
    skipSpaces text = text := by
  obtain ⟨first, more, rfl, _, _, visible, _⟩ := starts
  simp [Toml.skipSpaces, visible]

theorem starts_of_quote {quote : Char} (isQuote : quote = '"' ∨ quote = '\'')
    (more : List Char) : Starts (quote :: more) := by
  refine ⟨quote, more, rfl, ?_⟩
  obtain rfl | rfl := isQuote <;> decide

theorem starts_writeText (text : List Char) : Starts (writeText text) := by
  obtain ⟨quote, more, written, isQuote⟩ := exists_writeText_eq_cons text
  exact written ▸ starts_of_quote isQuote more

theorem IsScalar.starts_writeValue {node : Node} (isScalar : IsScalar node) :
    Starts (writeValue node) := by
  cases isScalar with
  | text value =>
    rw [writeValue]
    exact starts_writeText value.toList
  | boolean value => cases value <;> exact ⟨_, _, rfl, by decide⟩

/-! ### Lists -/

section Items

variable {levels : Nat} {items : List Node}

theorem writeValues_eq_map (items : List Node) :
    writeValues items = items.map writeValue := by
  induction items with
  | nil => rfl
  | cons item more ih => rw [writeValues, ih, List.map_cons]

def itemLines (items : List Node) : List Char :=
  (items.map writeValue).flatMap fun item => itemIndent ++ item ++ [',', '\n']

theorem itemLines_cons (item : Node) (more : List Node) :
    itemLines (item :: more) =
      itemIndent ++ (writeValue item ++ ',' :: '\n' :: itemLines more) := by
  simp [itemLines]

theorem length_le_length_itemLines (items : List Node) :
    items.length ≤ (itemLines items).length := by
  induction items with
  | nil => simp
  | cons item more ih =>
    rw [itemLines_cons]
    simp only [List.length_cons, List.length_append]
    omega

theorem skipFiller_itemIndent (text : List Char) :
    skipFiller false (itemIndent ++ text) = skipFiller false text := by
  rfl

theorem skipFiller_break (text : List Char) :
    skipFiller false ('\n' :: text) = skipFiller false text :=
  rfl

theorem Starts.readItems_comma {text rest : List Char} (starts : Starts text)
    {item : Node} (read : readValue levels text = some (item, ',' :: rest))
    (rounds : Nat) :
    readItems (readValue levels) (rounds + 1) text =
      (readItems (readValue levels) rounds (Toml.skipFiller false rest)).map
        fun (items, rest) => (item :: items, rest) := by
  obtain ⟨first, more, rfl, _, _, _, _, notEnd⟩ := starts
  rw [readItems.eq_3 _ _ _ (by simp [notEnd]), read]
  show (readItems _ _ (Toml.skipFiller false rest)).bind _ = _
  cases readItems (readValue levels) rounds (Toml.skipFiller false rest) <;> rfl

theorem Starts.readItems_bracket {text rest : List Char}
    (starts : Starts text) {item : Node}
    (read : readValue levels text = some (item, ']' :: rest)) (rounds : Nat) :
    readItems (readValue levels) (rounds + 1) text = some ([item], rest) := by
  obtain ⟨first, more, rfl, _, _, _, _, notEnd⟩ := starts
  rw [readItems.eq_3 _ _ _ (by simp [notEnd]), read]
  rfl

theorem readItems_itemLines (levels : Nat)
    (items_isScalar : ∀ item ∈ items, IsScalar item) {rounds : Nat}
    (enough : items.length < rounds) (rest : List Char) :
    readItems (readValue (levels + 1)) rounds
        (skipFiller false (itemLines items ++ ']' :: rest)) =
      some (items, rest) := by
  induction items generalizing rounds with
  | nil =>
    obtain ⟨rounds, rfl⟩ := Nat.exists_eq_add_of_lt enough
    rfl
  | cons item more ih =>
    obtain ⟨isScalar, moreScalar⟩ := List.forall_mem_cons.mp items_isScalar
    obtain ⟨fewer, rfl⟩ : ∃ fewer, rounds = fewer + 1 :=
      Nat.exists_eq_add_one.mpr (Nat.zero_lt_of_lt enough)
    have readMore := ih moreScalar (Nat.lt_of_succ_lt_succ enough)
    have ends : EndsValue (',' :: '\n' :: (itemLines more ++ ']' :: rest)) :=
      ⟨_, _, rfl, .inr (.inl rfl)⟩
    have starts := isScalar.starts_writeValue.append
      (',' :: '\n' :: (itemLines more ++ ']' :: rest))
    rw [itemLines_cons, List.append_assoc, skipFiller_itemIndent,
      List.append_assoc, List.cons_append, List.cons_append, starts.skipFiller,
      starts.readItems_comma (isScalar.readValue_writeValue levels ends),
      skipFiller_break, readMore]
    rfl

theorem readValue_of_bracket {inner text rest : List Char}
    (skipped : skipFiller false inner = text)
    (read : readItems (readValue (levels + 1)) (inner.length + 1) text =
      some (items, rest)) :
    readValue (levels + 2) ('[' :: inner) = some (.list items, rest) := by
  rw [readValue, skipped, read]
  rfl

theorem readValue_list (levels : Nat)
    (items_isScalar : ∀ item ∈ items, IsScalar item) (rest : List Char) :
    readValue (levels + 2) (writeValue (.list items) ++ rest) =
      some (.list items, rest) := by
  rw [writeValue, writeValues_eq_map]
  match items with
  | [] => exact readValue_of_bracket rfl rfl
  | [item] =>
    have isScalar := items_isScalar item List.mem_cons_self
    have ends : EndsValue (']' :: rest) := ⟨_, _, rfl, .inr (.inr rfl)⟩
    have starts := isScalar.starts_writeValue.append (']' :: rest)
    have read := readValue_of_bracket starts.skipFiller
      (starts.readItems_bracket (isScalar.readValue_writeValue levels ends) _)
    simpa [bracketed] using read
  | first :: second :: more =>
    have short := length_le_length_itemLines (first :: second :: more)
    have read := readValue_of_bracket (skipFiller_break _)
      (readItems_itemLines levels items_isScalar (by grind) rest)
    simpa [bracketed, itemLines] using read

theorem IsSimple.readValue_writeValue {node : Node} (isSimple : IsSimple node)
    (levels : Nat) {rest : List Char} (ends : EndsValue rest) :
    readValue (levels + 2) (writeValue node ++ rest) = some (node, rest) := by
  cases isSimple with
  | scalar isScalar => exact isScalar.readValue_writeValue (levels + 1) ends
  | list items_isScalar => exact readValue_list levels items_isScalar rest

theorem IsSimple.starts_writeValue {node : Node} (isSimple : IsSimple node) :
    ∃ first more, writeValue node = first :: more ∧
      isSpace first = false := by
  cases isSimple with
  | scalar isScalar =>
    obtain ⟨first, more, written, _, _, visible, _⟩ :=
      isScalar.starts_writeValue
    exact ⟨first, more, written, visible⟩
  | @list items items_isScalar =>
    rw [writeValue]
    match writeValues items with
    | [] | [_] | _ :: _ :: _ => exact ⟨'[', _, rfl, rfl⟩

end Items

/-! ### Lines -/

theorem starts_of_bare {first : Char} (bare : isBare first)
    (more : List Char) : Starts (first :: more) := by
  have differs {mark : Char} (notBare : isBare mark = false) :
      first ≠ mark := by
    rintro rfl
    simp [notBare] at bare
  have visible : isSpace first = false := by
    simp [isSpace, differs (rfl : isBare ' ' = false),
      differs (rfl : isBare '\t' = false)]
  exact ⟨first, more, rfl, differs rfl, differs rfl, visible, differs rfl,
    differs rfl⟩

theorem exists_writeKey_eq_cons (key : List Char) :
    ∃ first more, writeKey key = first :: more ∧
      (isBare first ∨ first = '"' ∨ first = '\'') := by
  unfold writeKey
  split
  next bare =>
    simp only [isBareKey, Bool.and_eq_true, List.all_eq_true] at bare
    cases key with
    | nil => simp at bare
    | cons first more =>
      exact ⟨first, more, rfl, .inl (bare.2 first List.mem_cons_self)⟩
  · obtain form | ⟨form, _⟩ := keyFormOf_cases key
    · exact ⟨'"', _, by rw [form]; rfl, .inr (.inl rfl)⟩
    · exact ⟨'\'', _, by rw [form]; rfl, .inr (.inr rfl)⟩

theorem starts_writeKey (key : List Char) : Starts (writeKey key) := by
  obtain ⟨first, more, written, bare | quote⟩ := exists_writeKey_eq_cons key
  · exact written ▸ starts_of_bare bare more
  · exact written ▸ starts_of_quote quote more

theorem readKeyParts_writeKey (rounds : Nat) (key : String)
    {rest more : List Char} {mark : Char} (ends : EndsKey rest)
    (next : skipSpaces rest = mark :: more) (last : mark ≠ '.') :
    readKeyParts (rounds + 1) (writeKey key.toList ++ rest) =
      some ([key], mark :: more) := by
  rw [readKeyParts, readKeyPart_writeKey _ ends]
  simp only [bind, Option.bind, next, String.ofList_toList]
  split
  · simp_all
  · rfl

theorem readKey_writeKey (key : String) {rest more : List Char} {mark : Char}
    (ends : EndsKey rest) (next : skipSpaces rest = mark :: more)
    (last : mark ≠ '.') :
    readKey (writeKey key.toList ++ rest) = some ([], key, mark :: more) := by
  unfold readKey
  rw [readKeyParts_writeKey _ key ends next last]
  rfl

def entryLine (entry : String × Node) : List Char :=
  writeKey entry.1.toList ++
    ' ' :: '=' :: ' ' :: (writeValue entry.2 ++ ['\n'])

def entryNode (entry : String × Node) : Node × Node :=
  (.text entry.1, entry.2)

theorem writeLines_map (entries : List (String × Node)) :
    writeLines (entries.map entryNode) = entries.flatMap entryLine := by
  unfold writeLines
  induction entries with
  | nil => rfl
  | cons entry more ih =>
    rw [List.map_cons, entryNode, writePairs, List.flatMap_cons, ih]
    simp [entryLine, keyText, Node.text?, Node.untagged]

theorem readPair?_entryLine (key : String) {value : Node}
    (isSimple : IsSimple value) (levels : Nat) (rest : List Char) :
    readPair? (readValue (levels + 2)) (entryLine (key, value) ++ rest) =
      some (([], key, value), '\n' :: rest) := by
  have ends : EndsValue ('\n' :: rest) := ⟨_, _, rfl, .inl rfl⟩
  have visible : skipSpaces (' ' :: (writeValue value ++ '\n' :: rest)) =
      writeValue value ++ '\n' :: rest := by
    obtain ⟨first, more, written, visible⟩ := isSimple.starts_writeValue
    rw [written]
    simp [skipSpaces, isSpace] at visible ⊢
    simp [visible]
  have endsKey : EndsKey (' ' :: '=' :: ' ' ::
      (writeValue value ++ '\n' :: rest)) := by
    simp [EndsKey, isBare]
  have line : entryLine (key, value) ++ rest = writeKey key.toList ++
      ' ' :: '=' :: ' ' :: (writeValue value ++ '\n' :: rest) := by
    simp [entryLine]
  unfold readPair?
  rw [line, readKey_writeKey key endsKey rfl (by decide)]
  show (readValue _ (skipSpaces (' ' :: _))).bind _ = _
  rw [visible, isSimple.readValue_writeValue levels ends]
  rfl

theorem starts_entryLine (entry : String × Node) (rest : List Char) :
    Starts (entryLine entry ++ rest) :=
  ((starts_writeKey _).append _).append _

theorem readLine_entryLine (key : String) {value : Node}
    (isSimple : IsSimple value) (draft : Draft) (rest : List Char) :
    readLine draft (entryLine (key, value) ++ rest) =
      (draft.add [] key value).map fun draft => (draft, '\n' :: rest) := by
  obtain ⟨first, more, written, _, _, _, notHeader, _⟩ :=
    starts_entryLine (key, value) rest
  have read := readPair?_entryLine key isSimple more.length rest
  rw [written] at read ⊢
  rw [readLine.eq_2 _ _ (by simp [notHeader]), List.length_cons, read]
  show (draft.add [] key value).bind _ = _
  cases draft.add [] key value <;> rfl

theorem readLines_entryLine {key : String} {value : Node}
    (isSimple : IsSimple value) {draft later : Draft}
    (added : draft.add [] key value = some later) (rounds : Nat)
    (rest : List Char) :
    readLines (rounds + 1) draft (entryLine (key, value) ++ rest) =
      readLines rounds later rest := by
  have starts := starts_entryLine (key, value) rest
  have read := readLine_entryLine key isSimple draft rest
  rw [added] at read
  obtain ⟨first, more, written, start⟩ := starts
  rw [written] at read ⊢
  rw [readLines, Starts.skipFiller ⟨first, more, rfl, start⟩]
  simp only [read]
  rfl

/-- The lines of a table are read one by one, each with a key that is new. -/
theorem readLines_entryLines (grown : List (String × Node) → Draft)
    (adds : ∀ entries key value, key ∉ entries.map Prod.fst →
      (grown entries).add [] key value =
        some (grown (entries ++ [(key, value)])))
    (earlier : List (String × Node)) {entries : List (String × Node)}
    (distinct : ((earlier ++ entries).map Prod.fst).Nodup)
    (simple : ∀ entry ∈ entries, IsSimple entry.2) (rounds : Nat)
    (rest : List Char) :
    readLines (entries.length + rounds) (grown earlier)
        (entries.flatMap entryLine ++ rest) =
      readLines rounds (grown (earlier ++ entries)) rest := by
  induction entries generalizing earlier with
  | nil => simp
  | cons entry more ih =>
    obtain ⟨key, value⟩ := entry
    obtain ⟨isSimple, moreSimple⟩ := List.forall_mem_cons.mp simple
    have new : key ∉ earlier.map Prod.fst := by
      rw [List.map_append, List.nodup_append] at distinct
      exact fun among => distinct.2.2 key among key List.mem_cons_self rfl
    have counted : ((key, value) :: more).length + rounds =
        more.length + rounds + 1 := Nat.succ_add_eq_add_succ _ _
    rw [List.append_cons] at distinct ⊢
    rw [List.flatMap_cons, List.append_assoc, counted,
      readLines_entryLine isSimple (adds earlier key value new),
      ih _ distinct moreSimple]

/-! ### Tables -/

theorem alterKey_append {key : String} {change : Option Item → Option Item}
    {earlier : Entries} (new : key ∉ earlier.map Prod.fst)
    (entries : Entries) :
    alterKey key change (earlier ++ entries) =
      (alterKey key change entries).map (earlier ++ ·) := by
  induction earlier with
  | nil => simp
  | cons entry more ih =>
    obtain ⟨name, item⟩ := entry
    obtain ⟨differs, newMore⟩ := List.ne_and_not_mem_of_not_mem_cons new
    rw [List.cons_append, alterKey, if_neg (by simpa using differs.symm),
      ih newMore]
    cases alterKey key change entries <;> rfl

/-- A table whose entries are values, as it stands while it is read. -/
def valueEntries (entries : List (String × Node)) : Entries :=
  entries.map fun (key, value) => (key, .value value)

abbrev Section := String × List (String × Node)

/-- The draft of a document that is read up to entries of its last table. -/
def draftOf (fields : List (String × Node)) (sections : List Section) :
    Draft where
  entries := valueEntries fields ++
    sections.map fun (name, entries) =>
      (name, .table .header (valueEntries entries))
  path := (sections.getLast?.map Prod.fst).toList

theorem valueEntries_append (first second : List (String × Node)) :
    valueEntries (first ++ second) =
      valueEntries first ++ valueEntries second :=
  List.map_append

theorem addValue_valueEntries {key : String} {entries : List (String × Node)}
    (new : key ∉ entries.map Prod.fst) (value : Node) :
    addValue [] key value (valueEntries entries) =
      some (valueEntries (entries ++ [(key, value)])) := by
  have newEntry : key ∉ (valueEntries entries).map Prod.fst := by
    simpa [valueEntries] using new
  show addKey key (.value value) (valueEntries entries) = _
  rw [addKey, ← List.append_nil (valueEntries entries),
    alterKey_append newEntry, valueEntries_append]
  rfl

theorem add_draftOf_nil {fields : List (String × Node)} {key : String}
    (new : key ∉ fields.map Prod.fst) (value : Node) :
    (draftOf fields []).add [] key value =
      some (draftOf (fields ++ [(key, value)]) []) := by
  have added := addValue_valueEntries new value
  show (addValue [] key value (valueEntries fields ++ [])).map _ = _
  rw [List.append_nil, added]
  simp [draftOf]

section Sections

variable {fields : List (String × Node)} {sections : List Section}
  {name : String}

theorem alterKey_draftOf (change : Option Item → Option Item)
    (new : name ∉ fields.map Prod.fst ++ sections.map Prod.fst)
    (entries : Entries) :
    alterKey name change ((draftOf fields sections).entries ++ entries) =
      (alterKey name change entries).map
        ((draftOf fields sections).entries ++ ·) := by
  refine alterKey_append ?_ entries
  simpa [draftOf, valueEntries] using new

theorem entries_draftOf_concat (entries : List (String × Node)) :
    (draftOf fields (sections ++ [(name, entries)])).entries =
      (draftOf fields sections).entries ++
        [(name, .table .header (valueEntries entries))] := by
  simp [draftOf]

theorem path_draftOf_concat (entries : List (String × Node)) :
    (draftOf fields (sections ++ [(name, entries)])).path = [name] := by
  simp [draftOf]

theorem add_draftOf_concat
    (newName : name ∉ fields.map Prod.fst ++ sections.map Prod.fst)
    {entries : List (String × Node)} {key : String}
    (new : key ∉ entries.map Prod.fst) (value : Node) :
    (draftOf fields (sections ++ [(name, entries)])).add [] key value =
      some (draftOf fields
        (sections ++ [(name, entries ++ [(key, value)])])) := by
  have added := addValue_valueEntries new value
  rw [Draft.add, entries_draftOf_concat, path_draftOf_concat, alterTable,
    alterKey_draftOf _ newName]
  simp only [alterKey, beq_self_eq_true, if_true, mayEnter, Bool.not_false,
    Bool.true_or, alterTable, added, Option.map_some]
  simp [draftOf]

theorem openAt_draftOf
    (newName : name ∉ fields.map Prod.fst ++ sections.map Prod.fst) :
    (draftOf fields sections).openAt [] name openTable =
      some (draftOf fields (sections ++ [(name, [])])) := by
  rw [Draft.openAt, alterTable, openTable,
    ← List.append_nil (draftOf fields sections).entries,
    alterKey_draftOf _ newName]
  simp [alterKey, draftOf, valueEntries]

def sectionText (table : Section) : List Char :=
  '\n' :: '[' ::
    (writeKey table.1.toList ++ ']' :: '\n' :: table.2.flatMap entryLine)

theorem readHeader_writeKey
    (newName : name ∉ fields.map Prod.fst ++ sections.map Prod.fst)
    (rest : List Char) :
    readHeader (draftOf fields sections)
        (writeKey name.toList ++ ']' :: rest) =
      some (draftOf fields (sections ++ [(name, [])]), rest) := by
  have starts := (starts_writeKey name.toList).append (']' :: rest)
  have endsKey : EndsKey (']' :: rest) := by simp [EndsKey, isBare]
  have read := readKey_writeKey name endsKey rfl (by decide)
  rw [← starts.skipSpaces] at read
  obtain ⟨first, more, written, _, _, _, notHeader, _⟩ := starts
  rw [written] at read ⊢
  rw [readHeader.eq_2 _ _ (by simp [notHeader]), read]
  show ((draftOf fields sections).openAt [] name openTable).bind _ = _
  rw [openAt_draftOf newName]
  rfl

theorem readLines_header
    (newName : name ∉ fields.map Prod.fst ++ sections.map Prod.fst)
    (rounds : Nat) (rest : List Char) :
    readLines (rounds + 1) (draftOf fields sections)
        ('\n' :: '[' :: (writeKey name.toList ++ ']' :: '\n' :: rest)) =
      readLines rounds (draftOf fields (sections ++ [(name, [])])) rest := by
  rw [readLines]
  show (readHeader _ _).bind _ = _
  rw [readHeader_writeKey newName]
  rfl

theorem readLines_section
    (newName : name ∉ fields.map Prod.fst ++ sections.map Prod.fst)
    {entries : List (String × Node)}
    (distinct : (entries.map Prod.fst).Nodup)
    (simple : ∀ entry ∈ entries, IsSimple entry.2) (rounds : Nat)
    (rest : List Char) :
    readLines (entries.length + rounds + 1) (draftOf fields sections)
        (sectionText (name, entries) ++ rest) =
      readLines rounds (draftOf fields (sections ++ [(name, entries)]))
        rest := by
  have lines := readLines_entryLines
    (fun entries => draftOf fields (sections ++ [(name, entries)]))
    (fun entries key value new => add_draftOf_concat newName new value)
    [] distinct simple rounds rest
  have header := readLines_header newName (entries.length + rounds)
    (entries.flatMap entryLine ++ rest)
  rw [List.nil_append] at lines
  rw [← lines, ← header]
  simp [sectionText]

end Sections

/-! ### Documents -/

/-- How many lines tables take that are not empty. -/
def lineCount : List Section → Nat
  | [] => 0
  | table :: more => table.2.length + 1 + lineCount more

/-- The tables of a document whose names are new, each with distinct keys. -/
theorem readLines_sections {fields : List (String × Node)}
    (earlier : List Section) {sections : List Section}
    (distinct : (fields.map Prod.fst ++
      (earlier ++ sections).map Prod.fst).Nodup)
    (keys : ∀ table ∈ sections, (table.2.map Prod.fst).Nodup)
    (simple : ∀ table ∈ sections, ∀ entry ∈ table.2, IsSimple entry.2)
    (rounds : Nat) (rest : List Char) :
    readLines (lineCount sections + rounds) (draftOf fields earlier)
        (sections.flatMap sectionText ++ rest) =
      readLines rounds (draftOf fields (earlier ++ sections)) rest := by
  induction sections generalizing earlier with
  | nil => simp [lineCount]
  | cons table more ih =>
    obtain ⟨name, entries⟩ := table
    obtain ⟨distinctKeys, moreKeys⟩ := List.forall_mem_cons.mp keys
    obtain ⟨simpleEntries, moreSimple⟩ := List.forall_mem_cons.mp simple
    have newName : name ∉ fields.map Prod.fst ++ earlier.map Prod.fst := by
      rw [List.map_append, ← List.append_assoc, List.nodup_append] at distinct
      exact fun among => distinct.2.2 name among name List.mem_cons_self rfl
    have counted : lineCount ((name, entries) :: more) + rounds =
        entries.length + (lineCount more + rounds) + 1 := by
      simp only [lineCount]
      omega
    rw [List.append_cons] at distinct ⊢
    rw [counted, List.flatMap_cons, List.append_assoc,
      readLines_section newName distinctKeys simpleEntries,
      ih _ distinct moreKeys moreSimple]

theorem plainBreaks_of_not_mem {text : List Char} (noReturn : '\r' ∉ text) :
    plainBreaks text = text := by
  induction text with
  | nil => rfl
  | cons character more ih =>
    obtain ⟨differs, noMore⟩ := List.ne_and_not_mem_of_not_mem_cons noReturn
    rw [plainBreaks.eq_2 _ _ (fun _ same _ => differs same.symm), ih noMore]

theorem IsScalar.return_not_mem_writeValue {node : Node}
    (isScalar : IsScalar node) : '\r' ∉ writeValue node := by
  cases isScalar with
  | text value =>
    rw [writeValue]
    exact return_not_mem_writeText value.toList
  | boolean value => cases value <;> simp [writeValue]

theorem IsSimple.return_not_mem_writeValue {node : Node}
    (isSimple : IsSimple node) : '\r' ∉ writeValue node := by
  cases isSimple with
  | scalar isScalar => exact isScalar.return_not_mem_writeValue
  | @list items items_isScalar =>
    have pieces : ∀ piece ∈ items.map writeValue, '\r' ∉ piece := by
      intro piece among
      obtain ⟨item, isItem, rfl⟩ := List.mem_map.mp among
      exact (items_isScalar item isItem).return_not_mem_writeValue
    rw [writeValue, writeValues_eq_map]
    match items.map writeValue, pieces with
    | [], _ => decide
    | [piece], pieces => simpa [bracketed] using pieces
    | _ :: _ :: _, pieces => simpa [bracketed, itemIndent] using pieces

theorem return_not_mem_entryLines {entries : List (String × Node)}
    (simple : ∀ entry ∈ entries, IsSimple entry.2) :
    '\r' ∉ entries.flatMap entryLine := by
  simp only [List.mem_flatMap, not_exists, not_and]
  intro entry among
  simp [entryLine, return_not_mem_writeKey,
    (simple entry among).return_not_mem_writeValue]

/-- A document: fields that are texts, truth values or lists of such, and then
tables of such fields, all with distinct names. -/
structure IsDocument (fields : List (String × Node))
    (sections : List Section) : Prop where
  names : (fields.map Prod.fst ++ sections.map Prod.fst).Nodup
  keys : ∀ table ∈ sections, (table.2.map Prod.fst).Nodup
  simple : ∀ entry ∈ fields, IsSimple entry.2
  sections_simple : ∀ table ∈ sections, ∀ entry ∈ table.2,
    IsSimple entry.2

def sectionNode (table : Section) : Node × Node :=
  (.text table.1, .table (table.2.map entryNode))

def documentNode (fields : List (String × Node)) (sections : List Section) :
    Node :=
  .table (fields.map entryNode ++ sections.map sectionNode)

theorem nodesOfEntries_append (first second : Entries) :
    nodesOfEntries (first ++ second) =
      nodesOfEntries first ++ nodesOfEntries second := by
  induction first with
  | nil => rfl
  | cons entry more ih =>
    rw [List.cons_append, nodesOfEntries, nodesOfEntries, ih, List.cons_append]

theorem nodesOfEntries_valueEntries (entries : List (String × Node)) :
    nodesOfEntries (valueEntries entries) = entries.map entryNode := by
  induction entries with
  | nil => rfl
  | cons entry more ih =>
    rw [valueEntries, List.map_cons, ← valueEntries, nodesOfEntries, ih]
    rfl

theorem table_draftOf (fields : List (String × Node))
    (sections : List Section) :
    .table (nodesOfEntries (draftOf fields sections).entries) =
      documentNode fields sections := by
  have tables : nodesOfEntries (sections.map fun (name, entries) =>
      (name, .table .header (valueEntries entries))) =
      sections.map sectionNode := by
    induction sections with
    | nil => rfl
    | cons table more ih =>
      rw [List.map_cons, nodesOfEntries, ih, Item.toNode,
        nodesOfEntries_valueEntries]
      rfl
  rw [draftOf, nodesOfEntries_append, nodesOfEntries_valueEntries, tables,
    documentNode]

theorem IsSimple.isSection_eq_false {key value : Node}
    (isSimple : IsSimple value) : isSection (key, value) = false := by
  cases isSimple with
  | scalar isScalar => cases isScalar <;> rfl
  | list => rfl

theorem IsSimple.writeSection_eq_nil {key value : Node}
    (isSimple : IsSimple value) : writeSection (key, value) = [] := by
  cases isSimple with
  | scalar isScalar => cases isScalar <;> rfl
  | list => rfl

theorem writeSection_sectionNode (table : Section) :
    writeSection (sectionNode table) = sectionText table := by
  rw [sectionNode, writeSection, writeLines_map]
  simp [sectionText, keyText, Node.text?, Node.untagged]

namespace IsDocument

variable {fields : List (String × Node)} {sections : List Section}

theorem toList_print (isDocument : IsDocument fields sections) :
    (print (documentNode fields sections)).toList =
      fields.flatMap entryLine ++ sections.flatMap sectionText := by
  have plain : (fields.map entryNode ++ sections.map sectionNode).filter
      (fun entry => !isSection entry) = fields.map entryNode := by
    have kept : ∀ entry ∈ fields.map entryNode,
        (!isSection entry) = true := by
      simp only [List.forall_mem_map, Bool.not_eq_true']
      exact fun entry among =>
        (isDocument.simple entry among).isSection_eq_false
    rw [List.filter_append, List.filter_eq_self.mpr kept, List.filter_map]
    simp [Function.comp_def, sectionNode, isSection]
  have noSections : (fields.map entryNode).flatMap writeSection = [] := by
    simp only [List.flatMap_eq_nil_iff, List.forall_mem_map]
    exact fun entry among =>
      (isDocument.simple entry among).writeSection_eq_nil
  rw [documentNode, print, String.toList_ofList, plain, writeLines_map,
    List.flatMap_append, noSections, List.nil_append, List.flatMap_map]
  simp only [writeSection_sectionNode]

theorem return_not_mem (isDocument : IsDocument fields sections) :
    '\r' ∉ (print (documentNode fields sections)).toList := by
  have tables : ∀ table ∈ sections, '\r' ∉ sectionText table :=
    fun table among => by
      simp [sectionText, return_not_mem_writeKey,
        return_not_mem_entryLines (isDocument.sections_simple table among)]
  rw [isDocument.toList_print]
  simp only [List.mem_append, not_or]
  exact ⟨return_not_mem_entryLines isDocument.simple, by simpa using tables⟩

theorem withoutByteOrderMark_eq (isDocument : IsDocument fields sections) :
    withoutByteOrderMark (print (documentNode fields sections)).toList =
      (print (documentNode fields sections)).toList := by
  have unmarked {first : Char} (differs : first ≠ '\uFEFF')
      (more : List Char) :
      withoutByteOrderMark (first :: more) = first :: more := by
    have other : first.toNat ≠ 0xFEFF := fun same => differs (by
      rw [← Char.ofNat_toNat first, same])
    simp [withoutByteOrderMark, other]
  rw [isDocument.toList_print]
  cases fields with
  | cons field more =>
    obtain ⟨first, others, written, start⟩ :=
      exists_writeKey_eq_cons field.1.toList
    rw [List.flatMap_cons, entryLine, written]
    refine unmarked ?_ _
    rintro rfl
    exact absurd start (by decide)
  | nil =>
    cases sections with
    | nil => rfl
    | cons table more => exact unmarked (by decide) _

theorem length_le_length_entryLines (entries : List (String × Node)) :
    entries.length ≤ (entries.flatMap entryLine).length := by
  induction entries with
  | nil => exact Nat.le_refl 0
  | cons entry more ih =>
    rw [List.flatMap_cons, entryLine]
    simp only [List.length_cons, List.length_append]
    omega

theorem lineCount_le_length (sections : List Section) :
    lineCount sections ≤ (sections.flatMap sectionText).length := by
  induction sections with
  | nil => exact Nat.le_refl 0
  | cons table more ih =>
    have lines := length_le_length_entryLines table.2
    rw [lineCount, List.flatMap_cons, sectionText]
    simp only [List.length_cons, List.length_append]
    omega

/-- A document is read back from what is printed of it. -/
theorem read?_print (isDocument : IsDocument fields sections) :
    read? (print (documentNode fields sections)) =
      some (documentNode fields sections) := by
  obtain ⟨rounds, enough⟩ : ∃ rounds, (fields.flatMap entryLine ++
      sections.flatMap sectionText).length + 1 =
      fields.length + (lineCount sections + (rounds + 1)) := by
    have lines := length_le_length_entryLines fields
    have tables := lineCount_le_length sections
    refine ⟨(fields.flatMap entryLine).length - fields.length +
      ((sections.flatMap sectionText).length - lineCount sections), ?_⟩
    rw [List.length_append]
    omega
  have fieldsRead := readLines_entryLines (draftOf · [])
    (fun _ _ value new => add_draftOf_nil new value) []
    (List.nodup_append.mp isDocument.names).1 isDocument.simple
    (lineCount sections + (rounds + 1)) (sections.flatMap sectionText)
  have sectionsRead := readLines_sections [] isDocument.names
    isDocument.keys isDocument.sections_simple (rounds + 1) []
  rw [List.append_nil] at sectionsRead
  have read : readLines (rounds + 1) (draftOf fields sections) [] =
      some (draftOf fields sections).entries := rfl
  unfold read?
  rw [isDocument.withoutByteOrderMark_eq,
    plainBreaks_of_not_mem isDocument.return_not_mem, isDocument.toList_print]
  show (readLines _ (draftOf [] []) _).map _ = _
  rw [enough, fieldsRead, List.nil_append, sectionsRead, List.nil_append, read,
    Option.map_some, table_draftOf]

end IsDocument

end Toml

end Document

end TypeAtlas
