/-
This file proves that a set written as a document is read back as the same set.

The document is put together from pieces, and each piece is one line for the reader, whatever stands
behind it: a header, an assignment or an empty line. So the lines that are read are known. Putting
them together gives one table for each definition under the key of the list, in order, and each
table decodes to its definition. What is left is that the definitions of a set make that set again.

Two steps of the reader look at the whole source before that, and neither finds anything: there is
no byte order mark, and no carriage return, as none is ever written as it is.
-/
import Inlay.PatchSet.Encode
import Inlay.PatchSet.Load
import Inlay.Proofs.Collection
import Inlay.Proofs.Quoting

namespace Inlay

namespace Toml

/-! ### The source as a whole -/

theorem foldr_unifyCharacter {source : Text} (absent : '\r' ∉ source) :
    (source.foldr unifyCharacter (none, [])).2 = source := by
  induction source with
  | nil => rfl
  | cons character source inductionHypothesis =>
    have other : character ≠ '\r' := fun same => absent (same ▸ List.mem_cons_self)
    have later := inductionHypothesis fun member => absent (List.mem_cons_of_mem _ member)
    rw [List.foldr_cons, unifyCharacter, if_neg fun both => other both.1, later]

/-- Without carriage returns the line ends are unified already. -/
theorem unifyNewlines_of_not_mem {source : Text} (absent : '\r' ∉ source) :
    unifyNewlines source = source :=
  foldr_unifyCharacter absent

/-! ### Pieces that are lines -/

/-- A piece of a document that is read as this line, whatever follows. -/
structure ReadsAs (piece : Text) (line : Line) : Prop where
  nonempty : piece ≠ []
  unreturned : '\r' ∉ piece
  reads : ∀ turns rest, readLine turns (piece ++ rest) = some (line, rest)

theorem readLines_of_readLine {turns : Nat} {lines : List Line} {source rest : Text} {line : Line}
    (nonempty : source ≠ []) (reads : readLine (turns + 1) source = some (line, rest)) :
    readLines (turns + 1) lines source = readLines turns (line :: lines) rest := by
  cases source with
  | nil => exact absurd rfl nonempty
  | cons character source =>
    have step : readLines (turns + 1) lines (character :: source) =
        (readLine (turns + 1) (character :: source)).bind
          fun read => readLines turns (read.1 :: lines) read.2 := rfl
    rw [step, reads, Option.bind_some]

/-- Pieces that are lines one by one are read as these lines. -/
theorem readLines_flatten {pieces : List (Text × Line)}
    (each : ∀ piece ∈ pieces, ReadsAs piece.1 piece.2) {turns : Nat}
    (enough : (pieces.map Prod.fst).flatten.length ≤ turns) (lines : List Line) :
    readLines turns lines (pieces.map Prod.fst).flatten =
      some (lines.reverse ++ pieces.map Prod.snd) := by
  induction pieces generalizing turns lines with
  | nil =>
    rw [List.map_nil, List.map_nil, List.append_nil]
    cases turns <;> rfl
  | cons piece pieces inductionHypothesis =>
    obtain ⟨nonempty, -, reads⟩ := each piece List.mem_cons_self
    have later : ∀ other ∈ pieces, ReadsAs other.1 other.2 :=
      fun other member => each other (List.mem_cons_of_mem _ member)
    have taken : 0 < piece.1.length := List.length_pos_of_ne_nil nonempty
    rw [List.map_cons, List.flatten_cons] at enough ⊢
    rw [List.length_append] at enough
    obtain ⟨fewer, rfl⟩ : ∃ fewer, turns = fewer + 1 := ⟨turns - 1, by omega⟩
    rw [readLines_of_readLine (List.append_ne_nil_of_left_ne_nil nonempty _) (reads _ _),
      inductionHypothesis later (by omega), List.reverse_cons, List.append_assoc,
      List.singleton_append, List.map_cons]

theorem carriage_not_mem_flatten {pieces : List (Text × Line)}
    (each : ∀ piece ∈ pieces, ReadsAs piece.1 piece.2) :
    '\r' ∉ (pieces.map Prod.fst).flatten := by
  intro member
  obtain ⟨part, isPart, inPart⟩ := List.mem_flatten.1 member
  obtain ⟨piece, isPiece, rfl⟩ := List.mem_map.1 isPart
  exact (each piece isPiece).unreturned inPart

/-! ### The lines of a written definition -/

theorem readsAs_blank : ReadsAs ['\n'] .blank :=
  ⟨List.cons_ne_nil _ _, by decide, fun _ _ => rfl⟩

theorem readsAs_header :
    ReadsAs (['[', '['] ++ Definition.listKey ++ [']', ']', '\n'])
      (.element [Definition.listKey]) :=
  ⟨List.cons_ne_nil _ _, by decide, fun _ _ => rfl⟩

theorem readLine_of_assignment {turns : Nat} {source assigned after rest : Text} {key : KeyPath}
    {value : Value} (unopened : ∀ later, skipBlanks source ≠ '[' :: later)
    (unended : readLineEnd (skipBlanks source) = none)
    (named : readKey (skipBlanks source) = some (key, '=' :: assigned))
    (reads : readValue turns depthLimit (skipBlanks assigned) = some (value, after))
    (ends : readLineEnd after = some rest) :
    readLine turns source = some (.assignment key value, rest) := by
  unfold readLine
  split
  · next same => exact absurd same (unopened _)
  · next same => exact absurd same (unopened _)
  · simp only [unended, named, reads, ends, Option.bind_eq_bind, Option.bind_some,
      Option.pure_def]

theorem write_eq_cons (text : Text) :
    ∃ quote later, StringForm.write text = quote :: later ∧ (quote = '"' ∨ quote = '\'') := by
  rw [StringForm.write, StringForm.writeIn]
  cases StringForm.choice text with
  | basic => exact ⟨_, _, rfl, Or.inl rfl⟩
  | literal => exact ⟨_, _, rfl, Or.inr rfl⟩
  | multilineBasic => exact ⟨_, _, rfl, Or.inl rfl⟩
  | multilineLiteral => exact ⟨_, _, rfl, Or.inr rfl⟩

theorem readValue_write (turns depth : Nat) (text rest : Text) :
    readValue turns (depth + 1) (skipBlanks (' ' :: (StringForm.write text ++ '\n' :: rest))) =
      some (.string text, '\n' :: rest) := by
  have reads : StringForm.read (StringForm.write text ++ '\n' :: rest) =
      some (text, '\n' :: rest) :=
    StringForm.read_write text (fun same => absurd (Option.some.inj same) (by decide))
      (fun same => absurd (Option.some.inj same) (by decide))
  obtain ⟨quote, later, begins, double | single⟩ := write_eq_cons text
  · subst double
    rw [begins] at reads ⊢
    have scalar : readValue turns (depth + 1) ('"' :: (later ++ '\n' :: rest)) =
        (StringForm.read ('"' :: later ++ '\n' :: rest)).map
          fun found => (.string found.1, found.2) := rfl
    exact scalar.trans (by rw [reads]; rfl)
  · subst single
    rw [begins] at reads ⊢
    have scalar : readValue turns (depth + 1) ('\'' :: (later ++ '\n' :: rest)) =
        (StringForm.read ('\'' :: later ++ '\n' :: rest)).map
          fun found => (.string found.1, found.2) := rfl
    exact scalar.trans (by rw [reads]; rfl)

theorem readKey_field (field : Field) (rest : Text) :
    readKey (field.key ++ ' ' :: '=' :: rest) = some ([field.key], '=' :: rest) := by
  cases field <;> rfl

theorem readLineEnd_field (field : Field) (rest : Text) :
    readLineEnd (field.key ++ rest) = none := by
  cases field <;> rfl

theorem skipBlanks_field (field : Field) (rest : Text) :
    skipBlanks (field.key ++ rest) = field.key ++ rest := by
  cases field <;> rfl

theorem field_ne_bracket (field : Field) (rest later : Text) :
    field.key ++ rest ≠ '[' :: later := by
  cases field <;> exact fun same => absurd (List.head_eq_of_cons_eq same) (by decide)

theorem readsAs_field (definition : Definition) (field : Field) :
    ReadsAs (definition.writeField field)
      (.assignment [field.key] (.string (definition.get field))) := by
  have shape : ∀ rest, definition.writeField field ++ rest = field.key ++ ' ' :: '=' ::
      (' ' :: (StringForm.write (definition.get field) ++ '\n' :: rest)) := fun rest => by
    simp only [Definition.writeField, List.append_assoc, List.cons_append, List.nil_append]
  refine ⟨by cases field <;> exact List.cons_ne_nil _ _, ?_, fun turns rest => ?_⟩
  · simp only [Definition.writeField, List.mem_append, not_or]
    exact ⟨⟨⟨by cases field <;> decide, by decide⟩, StringForm.carriage_not_mem_write _⟩,
      by decide⟩
  rw [shape]
  refine readLine_of_assignment ?_ ?_ ?_ (readValue_write turns _ _ rest) rfl
  · rw [skipBlanks_field]; exact field_ne_bracket field _
  · rw [skipBlanks_field]; exact readLineEnd_field field _
  · rw [skipBlanks_field]; exact readKey_field field _

/-! ### The lines of a written list -/

/-- The pieces of a written definition, with the lines that they are. -/
def piecesOf (definition : Definition) : List (Text × Line) :=
  (['[', '['] ++ Definition.listKey ++ [']', ']', '\n'], .element [Definition.listKey]) ::
    Field.all.map fun field =>
      (definition.writeField field, .assignment [field.key] (.string (definition.get field)))

/-- The pieces of a written list, with an empty line between two definitions. -/
def pieces : List Definition → List (Text × Line)
  | [] => []
  | [definition] => piecesOf definition
  | definition :: next :: rest =>
    piecesOf definition ++ (['\n'], .blank) :: pieces (next :: rest)

theorem readsAs_of_mem_piecesOf {definition : Definition} :
    ∀ piece ∈ piecesOf definition, ReadsAs piece.1 piece.2 := by
  intro piece member
  rcases List.mem_cons.1 member with header | assignments
  · rw [header]; exact readsAs_header
  · obtain ⟨field, -, rfl⟩ := List.mem_map.1 assignments
    exact readsAs_field definition field

theorem readsAs_of_mem_pieces {definitions : List Definition} :
    ∀ piece ∈ pieces definitions, ReadsAs piece.1 piece.2 := by
  induction definitions using pieces.induct with
  | case1 => exact fun piece member => absurd member List.not_mem_nil
  | case2 definition => exact readsAs_of_mem_piecesOf
  | case3 definition next rest inductionHypothesis =>
    intro piece member
    rcases List.mem_append.1 member with own | later
    · exact readsAs_of_mem_piecesOf piece own
    · rcases List.mem_cons.1 later with blank | later
      · rw [blank]; exact readsAs_blank
      · exact inductionHypothesis piece later

theorem flatten_piecesOf (definition : Definition) :
    ((piecesOf definition).map Prod.fst).flatten = definition.write := by
  rw [piecesOf, List.map_cons, List.map_map, List.flatten_cons, Definition.write,
    List.flatMap_def]
  rfl

theorem flatten_pieces (definitions : List Definition) :
    ((pieces definitions).map Prod.fst).flatten =
      ((definitions.map Definition.write).intersperse ['\n']).flatten := by
  induction definitions using pieces.induct with
  | case1 => rfl
  | case2 definition =>
    rw [pieces, flatten_piecesOf]
    exact (List.append_nil _).symm
  | case3 definition next rest inductionHypothesis =>
    rw [pieces, List.map_append, List.flatten_append, flatten_piecesOf, List.map_cons,
      List.flatten_cons, inductionHypothesis]
    rfl

/-! ### Putting the lines together -/

/-- The section that a written definition makes. -/
def sectionOf (definition : Definition) : Section :=
  { repeated := true
    key := [Definition.listKey]
    assignments := Field.all.map fun field => ([field.key], .string (definition.get field)) }

/-- The entries that a written definition gives to its table. -/
def entriesOf (definition : Definition) : Draft.Entries :=
  Field.all.map fun field => (field.key, .value (.string (definition.get field)))

/-- The table that a written definition stands for. -/
def tableOf (definition : Definition) : Value :=
  .table (Field.all.map fun field => (field.key, .string (definition.get field)))

theorem placeLines_piecesOf_append (definition : Definition) {lines : List Line}
    {sections : List Section} (placed : placeLines lines = ([], sections)) :
    placeLines ((piecesOf definition).map Prod.snd ++ lines) =
      ([], sectionOf definition :: sections) := by
  rw [placeLines] at placed ⊢
  rw [List.foldr_append, placed]
  rfl

theorem placeLines_pieces (definitions : List Definition) :
    placeLines ((pieces definitions).map Prod.snd) = ([], definitions.map sectionOf) := by
  induction definitions using pieces.induct with
  | case1 => rfl
  | case2 definition =>
    rw [pieces, ← List.append_nil ((piecesOf definition).map Prod.snd)]
    exact placeLines_piecesOf_append definition rfl
  | case3 definition next rest inductionHypothesis =>
    have blank : placeLines (.blank :: (pieces (next :: rest)).map Prod.snd) =
        ([], (next :: rest).map sectionOf) := inductionHypothesis
    rw [pieces, List.map_append, List.map_cons]
    exact placeLines_piecesOf_append definition blank

theorem addSection_first (definition : Definition) :
    addSection [] (sectionOf definition) =
      some [(Definition.listKey, .tables [entriesOf definition])] := rfl

theorem addSection_next (elements : List Draft.Entries) (definition : Definition) :
    addSection [(Definition.listKey, .tables elements)] (sectionOf definition) =
      some [(Definition.listKey, .tables (elements ++ [entriesOf definition]))] := rfl

theorem foldlM_addSection (elements : List Draft.Entries) (definitions : List Definition) :
    (definitions.map sectionOf).foldlM addSection [(Definition.listKey, .tables elements)] =
      some [(Definition.listKey, .tables (elements ++ definitions.map entriesOf))] := by
  induction definitions generalizing elements with
  | nil => rw [List.map_nil, List.map_nil, List.append_nil]; rfl
  | cons definition definitions inductionHypothesis =>
    rw [List.map_cons, List.foldlM_cons, addSection_next, Option.bind_eq_bind, Option.bind_some,
      inductionHypothesis, List.append_assoc, List.singleton_append, List.map_cons]

theorem elementValues_entriesOf (definitions : List Definition) :
    Draft.elementValues (definitions.map entriesOf) = definitions.map tableOf := by
  induction definitions with
  | nil => rfl
  | cons definition definitions inductionHypothesis =>
    rw [List.map_cons, Draft.elementValues, inductionHypothesis, List.map_cons]
    rfl

/-- The lines of a written list make one table for each definition, in order. -/
theorem assemble_pieces (definition : Definition) (definitions : List Definition) :
    assemble ((pieces (definition :: definitions)).map Prod.snd) =
      some [(Definition.listKey, .array ((definition :: definitions).map tableOf))] := by
  have sections : ((definition :: definitions).map sectionOf).foldlM addSection [] =
      some [(Definition.listKey, .tables ((definition :: definitions).map entriesOf))] := by
    rw [List.map_cons, List.foldlM_cons, addSection_first, Option.bind_eq_bind, Option.bind_some]
    exact foldlM_addSection [entriesOf definition] definitions
  have values : Draft.entryValues
      [(Definition.listKey, .tables ((definition :: definitions).map entriesOf))] =
      [(Definition.listKey, .array ((definition :: definitions).map tableOf))] := by
    rw [← elementValues_entriesOf]
    rfl
  rw [assemble, placeLines_pieces]
  show (((definition :: definitions).map sectionOf).foldlM addSection []).bind
    (fun entries => some (Draft.entryValues entries)) = _
  rw [sections, Option.bind_some, values]

/-! ### Whole documents -/

theorem writeList_cons (definition : Definition) (definitions : List Definition) :
    Definition.writeList (definition :: definitions) =
      ((pieces (definition :: definitions)).map Prod.fst).flatten := by
  rw [flatten_pieces, Definition.writeList, if_neg (List.cons_ne_nil _ _)]

theorem dropByteOrderMark_writeList (definitions : List Definition) :
    dropByteOrderMark (Definition.writeList definitions) = Definition.writeList definitions := by
  cases definitions with
  | nil => rfl
  | cons definition definitions =>
    cases definitions with
    | nil => rfl
    | cons next rest => rfl

/-- A written list is a document with one table for each definition. -/
theorem read_writeList (definitions : List Definition) :
    read (Definition.writeList definitions) =
      some [(Definition.listKey, .array (definitions.map tableOf))] := by
  cases definitions with
  | nil => rfl
  | cons definition definitions =>
    have each : ∀ piece ∈ pieces (definition :: definitions), ReadsAs piece.1 piece.2 :=
      readsAs_of_mem_pieces
    have unmarked := dropByteOrderMark_writeList (definition :: definitions)
    rw [read, unmarked, writeList_cons, unifyNewlines_of_not_mem (carriage_not_mem_flatten each)]
    simp only [Option.bind_eq_bind, readLines_flatten each (Nat.le_refl _), Option.bind_some,
      List.reverse_nil, List.nil_append, assemble_pieces]

end Toml

/-! ### From the document to the set -/

namespace Definition

theorem ofValue_tableOf (definition : Definition) :
    ofValue (Toml.tableOf definition) = .ok definition := rfl

theorem mapM_ofValue (definitions : List Definition) :
    (definitions.map Toml.tableOf).mapM ofValue = .ok definitions := by
  induction definitions with
  | nil => rfl
  | cons definition definitions inductionHypothesis =>
    rw [List.map_cons, List.mapM_cons, ofValue_tableOf, inductionHypothesis]
    rfl

/-- A written list of definitions reads back as itself, sound or not. -/
theorem listOfToml_writeList (definitions : List Definition) :
    listOfToml (writeList definitions) = .ok definitions := by
  have decodes : ofDocument [(listKey, .array (definitions.map Toml.tableOf))] =
      .ok definitions :=
    mapM_ofValue definitions
  rw [listOfToml, Toml.read_writeList]
  simp only [decodes]

end Definition

/-- A set that was made of definitions is written as a document that reads back as the same set,
with the same definitions in the same order. -/
theorem PatchSet.ofToml_toToml (definitions : List Definition) (set : PatchSet)
    (accepted : PatchSet.ofDefinitions definitions = .ok set) :
    set.definitions = definitions ∧ ∀ origin, PatchSet.ofToml set.toToml origin = .ok set := by
  refine ⟨definitions_of_ofDefinitions accepted, fun origin => ?_⟩
  rw [ofToml, toToml, Definition.listOfToml_writeList]
  simp only [ofDefinitions_definitions]

/-- Definitions whose texts need all forms of quoting. Quotes touch the delimiters, a block begins
with a newline, and one definition has an empty name and an empty target. -/
def Definition.awkward : List Definition :=
  [{ name := "it's \"it\"".toList
     target := "C:\\\"new\".h".toList
     marker := "#if \"''\\".toList
     sentinel := "'''\x7f\"\"\"".toList
     block := "\n// '''\x7f\"\"\"\r\n\"\"\"\"\"\n\"".toList },
    { name := [], target := [], marker := "#else".toList, sentinel := "ON\r".toList
      block := "ON\r'".toList }]

theorem PatchSet.ofToml_toToml_awkward :
    ∃ set, PatchSet.ofDefinitions Definition.awkward = .ok set ∧
      set.definitions = Definition.awkward ∧
      PatchSet.ofToml set.toToml "awkward.toml".toList = .ok set := by
  have sound : (PatchSet.ofDefinitions Definition.awkward).isOk = true := by decide
  cases accepted : PatchSet.ofDefinitions Definition.awkward with
  | error error => rw [accepted] at sound; cases sound
  | ok set =>
    obtain ⟨kept, reads⟩ := PatchSet.ofToml_toToml Definition.awkward set accepted
    exact ⟨set, rfl, kept, reads _⟩

end Inlay
