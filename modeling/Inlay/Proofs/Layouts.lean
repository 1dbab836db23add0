/-
This file says where the repeated tables and the complete values of a document come from.

An array can be written in two ways, as a value behind an equals sign or by one header in double
brackets for each of its tables. The first gives the value of its line, since no header touches a
complete value. The second gives one table for each of these headers, in order. Headers in between
may add tables to the last of them, but the texts that it has are those of the lines under its own
header.

The invariant of the second way goes through the sections one by one: as many tables as there were
headers, and the complete values of each of them are those of its section.
-/
import Inlay.Proofs.Growth
import Mathlib.Data.List.Forall2

namespace Inlay.Toml

/-! ### Lines and their values -/

/-- The lines of a document, before they are put together. -/
def lines? (source : Text) : Option (List Line) :=
  let source := unifyNewlines (dropByteOrderMark source)
  readLines source.length [] source

theorem read_eq_bind (source : Text) : read source = (lines? source).bind assemble := rfl

theorem read_of_lines {source : Text} {lines : List Line} {entries : List (Text × Value)}
    (readLines : lines? source = some lines) (assembled : assemble lines = some entries) :
    read source = some entries := by
  rw [read_eq_bind, readLines, Option.bind_some, assembled]

theorem assemble_of_read {source : Text} {lines : List Line} {entries : List (Text × Value)}
    (reads : read source = some entries) (readLines : lines? source = some lines) :
    assemble lines = some entries := by
  rw [read_eq_bind, readLines, Option.bind_some] at reads
  exact reads

/-- The assignments before the first header. -/
def topAssignments (lines : List Line) : List (KeyPath × Value) := (placeLines lines).1

/-- Whether a section has a header in double brackets with just this key. -/
def Section.Adds (key : Text) (part : Section) : Prop := part.repeated = true ∧ part.key = [key]

instance (key : Text) (part : Section) : Decidable (part.Adds key) :=
  inferInstanceAs (Decidable (part.repeated = true ∧ part.key = [key]))

/-- The sections with a header in double brackets and just this key. -/
def sectionsOf (key : Text) (lines : List Line) : List Section :=
  (placeLines lines).2.filter fun part => part.Adds key

variable {before after : Draft.Entries} {part : Section} {sections : List Section} {key : Text}

/-! ### Repeated tables -/

/-- A table whose complete values are those of the simple keys of a section. -/
def Holds (part : Section) (table : Draft.Entries) : Prop :=
  ∀ key value, table.lookup key = some (.value value) ↔ ([key], value) ∈ part.assignments

/-- A section of the key adds a table with its values. -/
theorem tablesUnder_of_adds (added : addSection before part = some after)
    (adds : part.Adds key) :
    ∃ table, Holds part table ∧
      Draft.tablesUnder after key = Draft.tablesUnder before key ++ [table] := by
  obtain ⟨path, last, whole, descends⟩ := addSection_cases added
  obtain ⟨rfl, rfl⟩ : path = [] ∧ last = key := by
    simpa using List.append_inj' (whole.symm.trans (adds.2.trans (List.nil_append _).symm)) rfl
  cases descends with
  | arrives changed =>
    rw [Section.change, if_pos adds.1] at changed
    obtain ⟨table, assigned, reads⟩ := Draft.lookup_openElement changed
    refine ⟨table, fun other value => ?_, Draft.tablesUnder_eq ?_⟩
    · rw [Draft.lookup_assignAll assigned]
      simp
    · rw [reads, if_pos rfl]

theorem tablesUnder_openTable {last : Text} {assignments : List (KeyPath × Value)}
    (opened : Draft.openTable last assignments before = some after) :
    Draft.tablesUnder after key = Draft.tablesUnder before key := by
  obtain ⟨below, reads⟩ := Draft.lookup_openTable opened
  by_cases same : key = last
  · subst same
    have absent : Draft.tablesUnder before key = [] := by
      rcases Draft.openTable_cases opened with ⟨free, -⟩ | ⟨implied, _, found, -⟩
      · rw [Draft.tablesUnder, free]
      · rw [Draft.tablesUnder, found]
    rw [absent, Draft.tablesUnder, reads, if_pos rfl]
  · exact Draft.tablesUnder_congr (by rw [reads, if_neg same])

theorem forall₂_sameValues_of_eq
    (same : Draft.tablesUnder after key = Draft.tablesUnder before key) :
    List.Forall₂ Draft.SameValues (Draft.tablesUnder before key) (Draft.tablesUnder after key) := by
  rw [same]
  exact List.forall₂_same.2 fun table _ => .refl table

/-- A path into the repeated tables under a key changes only the last of them. -/
theorem forall₂_sameValues_of_descends {change : Origin → Draft.Entries → Option Draft.Entries}
    {dotted : Bool} {head : Text} {path : KeyPath} {origin : Origin}
    (keeps : ∀ {origin before after}, change origin before = some after →
      Draft.SameValues before after)
    (descends : Draft.Descends dotted change (head :: path) origin before after) :
    List.Forall₂ Draft.SameValues (Draft.tablesUnder before key) (Draft.tablesUnder after key) := by
  by_cases same : key = head
  · subst same
    cases descends with
    | makes free _ =>
      rw [Draft.tablesUnder, free, Draft.tablesUnder, lookup_append_entry _ _ _ _ free, if_pos rfl]
      exact .nil
    | enters found _ =>
      rw [Draft.tablesUnder, found, Draft.tablesUnder, Draft.lookup_replace, if_pos rfl, found]
      exact .nil
    | @entersLast _ _ _ _ last after front found deeper =>
      have now := Draft.lookup_replace before key key (.tables (front ++ [after]))
      rw [if_pos rfl, found, Option.map_some] at now
      rw [Draft.tablesUnder_eq found, Draft.tablesUnder_eq now]
      exact List.rel_append (List.forall₂_same.2 fun table _ => .refl table)
        (.cons (deeper.sameValues keeps) .nil)
  · exact forall₂_sameValues_of_eq (Draft.tablesUnder_congr (descends.lookup_of_ne same))

/-- Any other section leaves the number of the tables and their complete values alone. -/
theorem tablesUnder_of_not_adds (added : addSection before part = some after)
    (other : ¬ part.Adds key) :
    List.Forall₂ Draft.SameValues (Draft.tablesUnder before key) (Draft.tablesUnder after key) := by
  obtain ⟨path, last, whole, descends⟩ := addSection_cases added
  cases path with
  | nil =>
    cases descends with
    | arrives changed =>
      unfold Section.change at changed
      split at changed
      · next repeated =>
        have apart : key ≠ last := fun same => other ⟨repeated, same ▸ whole⟩
        obtain ⟨below, -, reads⟩ := Draft.lookup_openElement changed
        exact forall₂_sameValues_of_eq (Draft.tablesUnder_congr (by rw [reads, if_neg apart]))
      · exact forall₂_sameValues_of_eq (tablesUnder_openTable changed)
  | cons head path => exact forall₂_sameValues_of_descends change_sameValues descends

theorem Holds.of_sameValues {table changed : Draft.Entries} (holds : Holds part table)
    (same : Draft.SameValues table changed) : Holds part changed :=
  fun key value => (same key value).trans (holds key value)

theorem forall₂_holds_of_sameValues {parts : List Section} {tables changed : List Draft.Entries}
    (hold : List.Forall₂ Holds parts tables) (same : List.Forall₂ Draft.SameValues tables changed) :
    List.Forall₂ Holds parts changed := by
  induction hold generalizing changed with
  | nil =>
    cases same
    exact .nil
  | cons first _ inductionHypothesis =>
    cases same with
    | cons sameFirst sameLater =>
      exact .cons (first.of_sameValues sameFirst) (inductionHypothesis sameLater)

/-- With the sections, the tables under a key grow by one for each section of that key. -/
theorem forall₂_holds_foldlM_addSection {parts : List Section}
    (added : sections.foldlM addSection before = some after)
    (hold : List.Forall₂ Holds parts (Draft.tablesUnder before key)) :
    List.Forall₂ Holds
      (parts ++ sections.filter fun part => part.Adds key)
      (Draft.tablesUnder after key) := by
  induction sections generalizing before parts with
  | nil =>
    cases added
    rw [List.filter_nil, List.append_nil]
    exact hold
  | cons part sections inductionHypothesis =>
    rw [List.foldlM_cons] at added
    obtain ⟨between, first, later⟩ := Option.bind_eq_some_iff.1 added
    by_cases adds : part.Adds key
    · obtain ⟨table, holds, grown⟩ := tablesUnder_of_adds first adds
      have more : List.Forall₂ Holds (parts ++ [part]) (Draft.tablesUnder between key) := by
        rw [grown]
        exact List.rel_append hold (.cons holds .nil)
      rw [List.filter_cons_of_pos (by simpa using adds), List.append_cons]
      exact inductionHypothesis later more
    · rw [List.filter_cons_of_neg (by simpa using adds)]
      exact inductionHypothesis later
        (forall₂_holds_of_sameValues hold (tablesUnder_of_not_adds first adds))

/-! ### No repeated tables before the first header -/

theorem lookup_ne_tables_assign {assignment : KeyPath × Value}
    (assigned : Draft.assign before assignment = some after) (key : Text)
    (absent : ∀ elements, before.lookup key ≠ some (.tables elements)) :
    ∀ elements, after.lookup key ≠ some (.tables elements) := by
  intro elements
  obtain ⟨own, -, free, rfl⟩ | ⟨head, path, own, -, descends⟩ := Draft.assign_cases assigned
  · rw [lookup_append_entry _ _ _ _ free]
    split
    · exact nofun
    · exact absent elements
  · by_cases same : key = head
    · subst same
      cases descends with
      | makes free _ => simp [lookup_append_entry _ _ _ _ free]
      | enters found _ => simp [Draft.lookup_replace, found]
      | entersLast found _ => exact absurd found (absent _)
    · rw [descends.lookup_of_ne same]
      exact absent elements

theorem tablesUnder_assignAll {assignments : List (KeyPath × Value)}
    (assigned : Draft.assignAll [] assignments = some after) (key : Text) :
    Draft.tablesUnder after key = [] := by
  have absent : ∀ elements, after.lookup key ≠ some (.tables elements) :=
    foldlM_keeps (fun _ _ _ _ assigned => lookup_ne_tables_assign assigned key) assigned
      fun elements => nofun
  rw [Draft.tablesUnder]
  split
  · next elements found => exact absurd found (absent elements)
  · rfl

/-! ### Whole documents -/

variable {lines : List Line} {entries : List (Text × Value)}

/-- An array behind an equals sign, before the first header, is what its key has in the document. -/
theorem lookup_of_topAssignment (assembled : assemble lines = some entries) {value : Value}
    (line : ([key], value) ∈ topAssignments lines) : entries.lookup key = some value := by
  obtain ⟨top, assigned, rest⟩ := Option.bind_eq_some_iff.1 assembled
  obtain ⟨whole, added, same⟩ := Option.bind_eq_some_iff.1 rest
  cases same
  have complete : whole.lookup key = some (.value value) :=
    (foldlM_addSection_sameValues added key value).2
      ((Draft.lookup_assignAll assigned key value).2 (Or.inr line))
  rw [Draft.lookup_entryValues, complete]
  rfl

/-- Headers in double brackets give an array of tables, one for each, with the texts of the simple
keys below it. -/
theorem lookup_of_sections (assembled : assemble lines = some entries)
    (present : sectionsOf key lines ≠ []) :
    ∃ tables : List (List (Text × Value)),
      entries.lookup key = some (.array (tables.map .table)) ∧
      List.Forall₂ (fun part table => ∀ field text,
          table.lookup field = some (.string text) ↔ ([field], .string text) ∈ part.assignments)
        (sectionsOf key lines) tables := by
  obtain ⟨top, assigned, rest⟩ := Option.bind_eq_some_iff.1 assembled
  obtain ⟨whole, added, same⟩ := Option.bind_eq_some_iff.1 rest
  cases same
  have hold : List.Forall₂ Holds (sectionsOf key lines) (Draft.tablesUnder whole key) := by
    have start : List.Forall₂ Holds [] (Draft.tablesUnder top key) := by
      rw [tablesUnder_assignAll assigned key]
      exact .nil
    exact forall₂_holds_foldlM_addSection added start
  have found := Draft.lookup_of_tablesUnder fun absent =>
    present (List.forall₂_nil_right_iff.1 (absent ▸ hold))
  refine ⟨(Draft.tablesUnder whole key).map Draft.entryValues, ?_, ?_⟩
  · rw [Draft.lookup_entryValues, found, Option.map_some, Draft.toValue,
      Draft.elementValues_eq_map, List.map_map]
    rfl
  · rw [List.forall₂_map_right_iff]
    refine hold.imp fun part table holds field text => ?_
    rw [← holds, Draft.lookup_entryValues]
    simp [Draft.toValue_eq_string_iff]

end Inlay.Toml
