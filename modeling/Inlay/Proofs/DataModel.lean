/-
This file proves that a text is read as the definitions that its document lists, and in no other
way.

Either the document holds a list of definitions, and the set of these is what comes of the text, or
it does not, and the text is refused for that. Only in the first case a definition can be refused,
so a definition that does not decode outweighs any earlier one that is unsound or has a taken name.

The spelling of a definition does not matter beyond the values that it gives to the fields. A table
gives them under their keys and an array at their positions; the order of the keys, keys of no field
and items behind the fifth have no part in it. Nor does it matter how the array of all definitions
is spelled, as a value or by repeated headers.
-/
import Inlay.PatchSet.Load
import Inlay.Proofs.Decoding
import Inlay.Proofs.Layouts

namespace Inlay

namespace Definition

/-! ### The spelling of one definition -/

/-- The fields to which a value gives a value, with these: by the keys of a table or by the
positions in an array. -/
def given : Toml.Value → List (Field × Toml.Value)
  | .table entries =>
    entries.filterMap fun entry => (Field.ofKey? entry.1).map fun field => (field, entry.2)
  | .array items => Field.all.zip items
  | _ => []

/-- A value that gives the same values to the same fields as another, in whatever order. -/
def Restates (first second : Toml.Value) : Prop := (given first).Perm (given second)

theorem mem_given_table {entries : List (Text × Toml.Value)}
    (distinct : (entries.map Prod.fst).Nodup) {field : Field} {value : Toml.Value} :
    (field, value) ∈ given (.table entries) ↔ entries.lookup field.key = some value := by
  rw [lookup_eq_some_iff_mem distinct, given, List.mem_filterMap]
  constructor
  · rintro ⟨entry, member, isGiven⟩
    obtain ⟨own, isField, same⟩ := Option.map_eq_some_iff.1 isGiven
    cases same
    rw [← Field.ofKey?_eq_some_iff.1 isField]
    exact member
  · intro member
    exact ⟨_, member, by rw [Field.ofKey?_key]; rfl⟩

theorem mem_given_array {items : List Toml.Value} {field : Field} {value : Toml.Value} :
    (field, value) ∈ given (.array items) ↔ items[field.position]? = some value := by
  rw [given, List.mem_iff_getElem?]
  constructor
  · rintro ⟨position, found⟩
    obtain ⟨isField, isItem⟩ := List.getElem?_zip_eq_some.1 found
    rw [← Field.getElem?_all_eq_some_iff.1 isField]
    exact isItem
  · intro isItem
    exact ⟨field.position,
      List.getElem?_zip_eq_some.2 ⟨Field.getElem?_all_eq_some_iff.2 rfl, isItem⟩⟩

/-- A value is the definition whose texts it gives to all five fields. -/
theorem stands_iff_given {value : Toml.Value} {definition : Definition}
    (distinct : value.HasDistinctKeys) :
    Stands value definition ↔
      ∀ field : Field, (field, .string (definition.get field)) ∈ given value := by
  constructor
  · intro stands field
    cases stands with
    | table each => exact (mem_given_table distinct.nodup).2 (each field)
    | array _ rest => exact mem_given_array.2 (getElem?_position definition rest field)
  · intro each
    cases value with
    | table entries => exact .table fun field => (mem_given_table distinct.nodup).1 (each field)
    | array items =>
      obtain ⟨rest, rfl⟩ := exists_append_of_getElem? fun field => mem_given_array.1 (each field)
      exact .array definition rest
    | string text => exact absurd (each .name) List.not_mem_nil
    | integer number => exact absurd (each .name) List.not_mem_nil
    | float bits => exact absurd (each .name) List.not_mem_nil
    | boolean flag => exact absurd (each .name) List.not_mem_nil
    | moment => exact absurd (each .name) List.not_mem_nil

theorem Restates.stands_iff {first second : Toml.Value} (restates : Restates first second)
    (distinct : first.HasDistinctKeys) (distinctToo : second.HasDistinctKeys)
    {definition : Definition} : Stands first definition ↔ Stands second definition := by
  rw [stands_iff_given distinct, stands_iff_given distinctToo]
  exact forall_congr' fun field => restates.mem_iff

/-! ### The spelling of a document -/

/-- A document that holds the same definitions as another, one by one, whatever else it holds. -/
inductive RestatesAll (first second : List (Text × Toml.Value)) : Prop
  | absent (missing : first.lookup listKey = none) (missingToo : second.lookup listKey = none)
  | listed {items others : List Toml.Value} (found : first.lookup listKey = some (.array items))
      (foundToo : second.lookup listKey = some (.array others))
      (each : List.Forall₂ Restates items others)

theorem forall₂_stands_iff_of_restates {items others : List Toml.Value}
    (each : List.Forall₂ Restates items others)
    (distinct : ∀ item ∈ items, item.HasDistinctKeys)
    (distinctToo : ∀ other ∈ others, other.HasDistinctKeys) {definitions : List Definition} :
    List.Forall₂ Stands items definitions ↔ List.Forall₂ Stands others definitions := by
  induction each generalizing definitions with
  | nil => exact Iff.rfl
  | cons first _ inductionHypothesis =>
    obtain ⟨own, later⟩ := List.forall_mem_cons.1 distinct
    obtain ⟨ownToo, laterToo⟩ := List.forall_mem_cons.1 distinctToo
    rw [List.forall₂_cons_left_iff, List.forall₂_cons_left_iff]
    simp only [first.stands_iff own ownToo, inductionHypothesis later laterToo]

theorem RestatesAll.lists_iff {first second : List (Text × Toml.Value)}
    (restates : RestatesAll first second) (distinct : (Toml.Value.table first).HasDistinctKeys)
    (distinctToo : (Toml.Value.table second).HasDistinctKeys) {definitions : List Definition} :
    Lists first definitions ↔ Lists second definitions := by
  cases restates with
  | absent missing missingToo =>
    rw [lists_iff_of_absent missing, lists_iff_of_absent missingToo]
  | listed found foundToo each =>
    rw [lists_iff_of_found found, lists_iff_of_found foundToo]
    exact forall₂_stands_iff_of_restates each (distinct.lookup found).item
      (distinctToo.lookup foundToo).item

/-! ### The two layouts of the list -/

variable {lines : List Toml.Line} {entries : List (Text × Toml.Value)}

/-- A list that is written as a value holds the definitions that its items are. -/
theorem lists_iff_of_topAssignment (assembled : Toml.assemble lines = some entries)
    {items : List Toml.Value} (line : ([listKey], .array items) ∈ Toml.topAssignments lines)
    (definitions : List Definition) :
    Lists entries definitions ↔ List.Forall₂ Stands items definitions :=
  lists_iff_of_found (Toml.lookup_of_topAssignment assembled line)

/-- A list that is written by repeated headers holds one definition for each of them, with the texts
of the lines under it. -/
theorem lists_iff_of_sections (assembled : Toml.assemble lines = some entries)
    (present : Toml.sectionsOf listKey lines ≠ []) (definitions : List Definition) :
    Lists entries definitions ↔
      List.Forall₂ (fun part definition => ∀ field : Field,
          ([field.key], .string (definition.get field)) ∈ part.assignments)
        (Toml.sectionsOf listKey lines) definitions := by
  obtain ⟨tables, found, hold⟩ := Toml.lookup_of_sections assembled present
  rw [lists_iff_of_found found, List.forall₂_map_left_iff]
  generalize Toml.sectionsOf listKey lines = parts at hold
  clear found present
  induction hold generalizing definitions with
  | nil => rw [List.forall₂_nil_left_iff, List.forall₂_nil_left_iff]
  | @cons part table _ _ holds _ inductionHypothesis =>
    have own (definition : Definition) : Stands (.table table) definition ↔
        ∀ field : Field, ([field.key], .string (definition.get field)) ∈ part.assignments := by
      simp only [← holds]
      refine ⟨fun stands => ?_, .table⟩
      cases stands with
      | table each => exact each
    rw [List.forall₂_cons_left_iff, List.forall₂_cons_left_iff]
    simp only [own, inductionHypothesis]

end Definition

/-! ### Sets -/

namespace PatchSet

variable {source : Text} {entries : List (Text × Toml.Value)}

theorem ofToml_of_lists (read : Toml.read source = some entries) {definitions : List Definition}
    (lists : Definition.Lists entries definitions) (path : Path) :
    ofToml source path = (ofDefinitions definitions).mapError .rejected := by
  have decodes := (Definition.ofDocument_eq_ok_iff (Toml.hasDistinctKeys_read read)).2 lists
  have listed : Definition.listOfToml source = .ok definitions := by
    rw [Definition.listOfToml, read]
    simp only [decodes]
  rw [ofToml, listed]
  simp only
  cases ofDefinitions definitions <;> rfl

theorem ofToml_of_not_holdsList (read : Toml.read source = some entries)
    (unsuitable : ¬ Definition.HoldsList entries) (path : Path) :
    ∃ mismatch, ofToml source path = .error (.unparsable path (.unsuitable mismatch)) := by
  cases decoded : Definition.ofDocument entries with
  | ok definitions =>
    have lists := (Definition.ofDocument_eq_ok_iff (Toml.hasDistinctKeys_read read)).1 decoded
    exact absurd (Definition.holdsList_iff.2 ⟨definitions, lists⟩) unsuitable
  | error mismatch =>
    refine ⟨mismatch, ?_⟩
    have refused : Definition.listOfToml source = .error (.unsuitable mismatch) := by
      rw [Definition.listOfToml, read]
      simp only [decoded]
    rw [ofToml, refused]

/-- A definition is refused only if the whole document is one and lists definitions. -/
theorem ofToml_eq_rejected_iff (source : Text) (path : Path) (error : SetError) :
    ofToml source path = .error (.rejected error) ↔
      ∃ entries definitions, Toml.read source = some entries ∧
        Definition.Lists entries definitions ∧ ofDefinitions definitions = .error error := by
  constructor
  · intro rejected
    cases read : Toml.read source with
    | none =>
      rw [ofToml, Definition.listOfToml, read] at rejected
      cases rejected
    | some entries =>
      by_cases suitable : Definition.HoldsList entries
      · obtain ⟨definitions, lists⟩ := Definition.holdsList_iff.1 suitable
        rw [ofToml_of_lists read lists] at rejected
        refine ⟨entries, definitions, rfl, lists, ?_⟩
        cases made : ofDefinitions definitions with
        | ok set => rw [made] at rejected; cases rejected
        | error other => rw [made] at rejected; cases rejected; rfl
      · obtain ⟨mismatch, refused⟩ := ofToml_of_not_holdsList read suitable path
        cases refused.symm.trans rejected
  · rintro ⟨entries, definitions, read, lists, refused⟩
    rw [ofToml_of_lists read lists, refused]
    rfl

/-- A text whose document lists definitions stands for the set of these, or is refused as they are.
Which documents do, and which definitions they list, is settled by the data model, neither by what
else a document holds nor by how it spells the list and its definitions. -/
theorem ofToml_reads_definitions (source : Text) (path : Path) :
    (∀ error, ofToml source path = .error (.rejected error) ↔
      ∃ entries definitions, Toml.read source = some entries ∧
        Definition.Lists entries definitions ∧ ofDefinitions definitions = .error error) ∧
    ∀ entries, Toml.read source = some entries →
      (Definition.HoldsList entries ↔ ∃ definitions, Definition.Lists entries definitions) ∧
      (entries.lookup Definition.listKey = none → ofToml source path = .ok empty) ∧
      (∀ definitions, Definition.Lists entries definitions →
        ofToml source path = (ofDefinitions definitions).mapError .rejected) ∧
      (¬ Definition.HoldsList entries →
        ∃ mismatch, ofToml source path = .error (.unparsable path (.unsuitable mismatch))) ∧
      (∀ other others, Toml.read other = some others → Definition.RestatesAll entries others →
        Definition.HoldsList entries → ofToml other path = ofToml source path) ∧
      ∀ lines, Toml.lines? source = some lines →
        (∀ items, ([Definition.listKey], .array items) ∈ Toml.topAssignments lines →
          ∀ definitions, Definition.Lists entries definitions ↔
            List.Forall₂ Definition.Stands items definitions) ∧
        (Toml.sectionsOf Definition.listKey lines ≠ [] →
          ∀ definitions, Definition.Lists entries definitions ↔
            List.Forall₂ (fun part definition => ∀ field : Field,
                ([field.key], .string (definition.get field)) ∈ part.assignments)
              (Toml.sectionsOf Definition.listKey lines) definitions) := by
  refine ⟨ofToml_eq_rejected_iff source path, fun entries read => ⟨Definition.holdsList_iff,
    fun missing => ofToml_of_lists read (.absent missing) path,
    fun definitions lists => ofToml_of_lists read lists path,
    fun unsuitable => ofToml_of_not_holdsList read unsuitable path, ?_, ?_⟩⟩
  · intro other others readOther restates suitable
    obtain ⟨definitions, lists⟩ := Definition.holdsList_iff.1 suitable
    have listsOther := (restates.lists_iff (Toml.hasDistinctKeys_read read)
      (Toml.hasDistinctKeys_read readOther)).1 lists
    rw [ofToml_of_lists read lists, ofToml_of_lists readOther listsOther]
  · intro lines readLines
    have assembled := Toml.assemble_of_read read readLines
    exact ⟨fun items line => Definition.lists_iff_of_topAssignment assembled line,
      fun present => Definition.lists_iff_of_sections assembled present⟩

/-- The definition in the two documents below. -/
def headed : Definition :=
  { name := "on".toList, target := "a.h".toList, marker := "#else".toList
    sentinel := "ON".toList, block := "#elif ON".toList }

/-- A document with a definition under a repeated header, whose keys are out of order and not the
only ones. -/
def headedSource : Text :=
  ("[[patch]]\ntarget = 'a.h'\nname = 'on'\nmarker = '#else'\nsentinel = 'ON'\n" ++
    "block = '#elif ON'\nnote = 1\n[patch.more]\n").toList

/-- The items of the list in `headedSource`. -/
def headedItems : List Toml.Value :=
  [.table ([Field.target, .name, .marker, .sentinel, .block].map
      (fun field => (field.key, .string (headed.get field))) ++
    [("note".toList, .integer 1), ("more".toList, .table [])])]

/-- A document with the same definition as an array, one item too long. -/
def inlineSource : Text := "patch = [['on', 'a.h', '#else', 'ON', '#elif ON', 7]]".toList

/-- The items of the list in `inlineSource`. -/
def inlineItems : List Toml.Value :=
  [.array (Field.all.map (fun field => .string (headed.get field)) ++ [.integer 7])]

set_option maxRecDepth 20000 in
theorem lines_headedSource :
    Toml.lines? headedSource = some (.element [Definition.listKey] ::
      ([Field.target, .name, .marker, .sentinel, .block].map
        (fun field => .assignment [field.key] (.string (headed.get field))) ++
      [.assignment ["note".toList] (.integer 1),
        .table [Definition.listKey, "more".toList]])) := by
  rfl

theorem read_headedSource :
    Toml.read headedSource = some [(Definition.listKey, .array headedItems)] :=
  Toml.read_of_lines lines_headedSource rfl

theorem lines_inlineSource :
    Toml.lines? inlineSource =
      some [.assignment [Definition.listKey] (.array inlineItems)] := by
  rfl

theorem read_inlineSource :
    Toml.read inlineSource = some [(Definition.listKey, .array inlineItems)] :=
  Toml.read_of_lines lines_inlineSource rfl

theorem restatesAll_headed_inline :
    Definition.RestatesAll [(Definition.listKey, .array headedItems)]
      [(Definition.listKey, .array inlineItems)] :=
  .listed rfl rfl (.cons (List.Perm.swap _ _ _) .nil)

/-- Both documents list the one definition and stand for the set of it. An empty document stands for
the empty set, and one whose list is no array is refused. -/
theorem ofToml_reads_definitions_headed :
    (∃ set, ofToml headedSource fileName = .ok set ∧ set.definitions = [headed] ∧
      ofToml inlineSource fileName = .ok set) ∧
    Definition.Lists [(Definition.listKey, .array inlineItems)] [headed] ∧
    ofToml [] fileName = .ok empty ∧
    ∃ mismatch, ofToml "patch = 1".toList fileName =
      .error (.unparsable fileName (.unsuitable mismatch)) := by
  refine ⟨?_, ?_, ?_, ?_⟩
  · obtain ⟨suitable, -, sets, -, restated, layouts⟩ :=
      (ofToml_reads_definitions headedSource fileName).2 _ read_headedSource
    obtain ⟨-, bySections⟩ := layouts _ lines_headedSource
    have lists := (bySections (List.cons_ne_nil _ _) [headed]).2
      (.cons (fun field => by cases field <;> simp [Toml.placeLine]) .nil)
    have same := restated _ _ read_inlineSource restatesAll_headed_inline
      (suitable.2 ⟨_, lists⟩)
    have sound : (ofDefinitions [headed]).isOk = true := by decide
    cases accepted : ofDefinitions [headed] with
    | error error => rw [accepted] at sound; cases sound
    | ok set =>
      have reads : ofToml headedSource fileName = .ok set := by
        rw [sets _ lists, accepted]
        rfl
      exact ⟨set, reads, definitions_of_ofDefinitions accepted, same.trans reads⟩
  · obtain ⟨-, -, -, -, -, layouts⟩ :=
      (ofToml_reads_definitions inlineSource fileName).2 _ read_inlineSource
    obtain ⟨byValue, -⟩ := layouts _ lines_inlineSource
    exact (byValue inlineItems List.mem_cons_self [headed]).2
      (.cons (.array headed [.integer 7]) .nil)
  · exact ((ofToml_reads_definitions [] fileName).2 [] rfl).2.1 rfl
  · have lines : Toml.lines? "patch = 1".toList =
        some [.assignment [Definition.listKey] (.integer 1)] := by rfl
    have read : Toml.read "patch = 1".toList = some [(Definition.listKey, .integer 1)] :=
      Toml.read_of_lines lines rfl
    refine ((ofToml_reads_definitions _ fileName).2 _ read).2.2.2.1 ?_
    rintro (missing | ⟨items, found, -⟩)
    · cases missing
    · cases found

end PatchSet

end Inlay
