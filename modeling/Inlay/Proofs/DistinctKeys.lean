/-
This file proves that no table of a document has a key twice.

The property is kept by every step that builds a table. An entry is added where its key is free, an
entry is replaced under its own key, and a table that moves to the end is first left out. So it goes
along paths into a draft, through lines and headers, and from complete drafts to their values. The
readers of values keep it at every depth, as they build tables in no other way.
-/
import Inlay.Proofs.Growth

namespace Inlay.Toml

/-! ### Values and drafts -/

/-- A value in which no table has a key twice. -/
inductive Value.HasDistinctKeys : Value → Prop
  | string (text : Text) : HasDistinctKeys (.string text)
  | integer (number : Int) : HasDistinctKeys (.integer number)
  | float (bits : UInt64) : HasDistinctKeys (.float bits)
  | boolean (flag : Bool) : HasDistinctKeys (.boolean flag)
  | moment : HasDistinctKeys .moment
  | array {items : List Value} (each : ∀ item ∈ items, HasDistinctKeys item) :
      HasDistinctKeys (.array items)
  | table {entries : List (Text × Value)} (nodup : (entries.map Prod.fst).Nodup)
      (each : ∀ entry ∈ entries, HasDistinctKeys entry.2) : HasDistinctKeys (.table entries)

theorem Value.HasDistinctKeys.item {items : List Value} (distinct : HasDistinctKeys (.array items)) :
    ∀ item ∈ items, HasDistinctKeys item := by
  cases distinct with
  | array each => exact each

theorem Value.HasDistinctKeys.nodup {entries : List (Text × Value)}
    (distinct : HasDistinctKeys (.table entries)) : (entries.map Prod.fst).Nodup := by
  cases distinct with
  | table nodup _ => exact nodup

theorem Value.HasDistinctKeys.lookup {entries : List (Text × Value)}
    (distinct : HasDistinctKeys (.table entries)) {key : Text} {value : Value}
    (found : entries.lookup key = some value) : HasDistinctKeys value := by
  cases distinct with
  | table _ each => exact each _ (mem_of_lookup_eq_some found)

namespace Draft

/-- A draft in which no table has a key twice. -/
inductive HasDistinctKeys : Draft → Prop
  | value {complete : Value} (distinct : complete.HasDistinctKeys) :
      HasDistinctKeys (.value complete)
  | table {origin : Origin} {entries : Entries} (nodup : (entries.map Prod.fst).Nodup)
      (each : ∀ entry ∈ entries, HasDistinctKeys entry.2) :
      HasDistinctKeys (.table origin entries)
  | tables {elements : List Entries}
      (nodup : ∀ entries ∈ elements, (entries.map Prod.fst).Nodup)
      (each : ∀ entries ∈ elements, ∀ entry ∈ entries, HasDistinctKeys entry.2) :
      HasDistinctKeys (.tables elements)

/-- Entries of a table under distinct keys, with distinct keys below. -/
structure Entries.Distinct (entries : Entries) : Prop where
  nodup : (entries.map Prod.fst).Nodup
  each : ∀ entry ∈ entries, entry.2.HasDistinctKeys

variable {entries before after : Entries} {key : Text} {draft : Draft}

theorem hasDistinctKeys_table {origin : Origin} :
    HasDistinctKeys (.table origin entries) ↔ entries.Distinct := by
  constructor
  · intro distinct
    cases distinct with
    | table nodup each => exact ⟨nodup, each⟩
  · exact fun distinct => .table distinct.nodup distinct.each

theorem hasDistinctKeys_tables {elements : List Entries} :
    HasDistinctKeys (.tables elements) ↔ ∀ entries ∈ elements, entries.Distinct := by
  constructor
  · intro distinct
    cases distinct with
    | tables nodup each => exact fun entries member => ⟨nodup entries member, each entries member⟩
  · exact fun distinct => .tables (fun entries member => (distinct entries member).nodup)
      fun entries member => (distinct entries member).each

theorem Entries.Distinct.lookup (distinct : entries.Distinct)
    (found : entries.lookup key = some draft) : draft.HasDistinctKeys :=
  distinct.each _ (mem_of_lookup_eq_some found)

theorem distinct_nil : Entries.Distinct [] :=
  ⟨List.nodup_nil, fun _ member => absurd member List.not_mem_nil⟩

/-! ### Changing one entry -/

theorem Entries.Distinct.append (distinct : entries.Distinct) (free : entries.lookup key = none)
    (added : draft.HasDistinctKeys) : Entries.Distinct (entries ++ [(key, draft)]) := by
  constructor
  · rw [List.map_append, List.map_singleton, List.nodup_append]
    refine ⟨distinct.nodup, List.pairwise_singleton _ _, ?_⟩
    rintro taken member last isLast rfl
    rw [List.mem_singleton.1 isLast] at member
    exact lookup_eq_none_iff_not_mem.1 free member
  · intro entry member
    rcases List.mem_append.1 member with old | new
    · exact distinct.each entry old
    · rw [List.mem_singleton.1 new]
      exact added

theorem map_fst_replace (entries : Entries) (key : Text) (draft : Draft) :
    (replace entries key draft).map Prod.fst = entries.map Prod.fst := by
  rw [replace, List.map_map]
  refine List.map_congr_left fun entry _ => ?_
  rw [Function.comp_apply]
  split
  · next same => exact same.symm
  · rfl

theorem Entries.Distinct.replace (distinct : entries.Distinct) (changed : draft.HasDistinctKeys) :
    Entries.Distinct (replace entries key draft) := by
  constructor
  · rw [map_fst_replace]
    exact distinct.nodup
  · intro entry member
    obtain ⟨old, isOld, rfl⟩ := List.mem_map.1 member
    split
    · exact changed
    · exact distinct.each old isOld

theorem Entries.Distinct.filter (distinct : entries.Distinct) (kept : Text × Draft → Bool) :
    Entries.Distinct (entries.filter kept) :=
  ⟨distinct.nodup.sublist (List.filter_sublist.map _),
    fun entry member => distinct.each entry ((List.mem_filter.1 member).1)⟩

/-- If a change keeps the keys of tables distinct, so does a path to the table that it changes. -/
theorem Descends.distinct {dotted : Bool} {change : Origin → Entries → Option Entries}
    (keeps : ∀ {origin before after}, change origin before = some after → before.Distinct →
      after.Distinct)
    {path : KeyPath} {origin : Origin} (descends : Descends dotted change path origin before after)
    (distinct : before.Distinct) : after.Distinct := by
  induction descends with
  | arrives changed => exact keeps changed distinct
  | makes free _ inductionHypothesis =>
    exact distinct.append free (hasDistinctKeys_table.2 (inductionHypothesis distinct_nil))
  | enters found _ inductionHypothesis =>
    have inner := hasDistinctKeys_table.1 (distinct.lookup found)
    exact distinct.replace (hasDistinctKeys_table.2 (inductionHypothesis inner))
  | @entersLast key path origin before last after front found _ inductionHypothesis =>
    have elements := hasDistinctKeys_tables.1 (distinct.lookup found)
    refine distinct.replace (hasDistinctKeys_tables.2 fun entries member => ?_)
    rcases List.mem_append.1 member with inFront | isLast
    · exact elements entries (List.mem_append_left _ inFront)
    · rw [List.mem_singleton.1 isLast]
      exact inductionHypothesis (elements last (List.mem_append_right _ List.mem_cons_self))

/-! ### Lines and headers -/

theorem distinct_assign {assignment : KeyPath × Value}
    (assigned : assign before assignment = some after)
    (complete : assignment.2.HasDistinctKeys) (distinct : before.Distinct) : after.Distinct := by
  obtain ⟨key, -, free, rfl⟩ | ⟨head, path, key, -, descends⟩ := assign_cases assigned
  · exact distinct.append free (.value complete)
  · refine descends.distinct (fun inserted distinct => ?_) distinct
    obtain ⟨free, rfl⟩ := insertValue_cases inserted
    exact distinct.append free (.value complete)

theorem distinct_assignAll {assignments : List (KeyPath × Value)}
    (assigned : assignAll before assignments = some after)
    (complete : ∀ assignment ∈ assignments, assignment.2.HasDistinctKeys)
    (distinct : before.Distinct) : after.Distinct :=
  foldlM_keeps (fun assignment member _ _ assigned => distinct_assign assigned
    (complete assignment member)) assigned distinct

theorem distinct_openTable {assignments : List (KeyPath × Value)}
    (opened : openTable key assignments before = some after)
    (complete : ∀ assignment ∈ assignments, assignment.2.HasDistinctKeys)
    (distinct : before.Distinct) : after.Distinct := by
  rcases openTable_cases opened with
    ⟨free, below, assigned, rfl⟩ | ⟨implied, below, found, assigned, rfl⟩
  · exact distinct.append free
      (hasDistinctKeys_table.2 (distinct_assignAll assigned complete distinct_nil))
  · have inner := hasDistinctKeys_table.1 (distinct.lookup found)
    refine (distinct.filter _).append ?_
      (hasDistinctKeys_table.2 (distinct_assignAll assigned complete inner))
    rw [lookup_filter_entry, if_pos rfl]

theorem distinct_openElement {assignments : List (KeyPath × Value)}
    (opened : openElement key assignments before = some after)
    (complete : ∀ assignment ∈ assignments, assignment.2.HasDistinctKeys)
    (distinct : before.Distinct) : after.Distinct := by
  obtain ⟨below, assigned, ⟨free, rfl⟩ | ⟨elements, found, rfl⟩⟩ := openElement_cases opened
  · refine distinct.append free (hasDistinctKeys_tables.2 fun entries member => ?_)
    rw [List.mem_singleton.1 member]
    exact distinct_assignAll assigned complete distinct_nil
  · refine distinct.replace (hasDistinctKeys_tables.2 fun entries member => ?_)
    rcases List.mem_append.1 member with old | new
    · exact hasDistinctKeys_tables.1 (distinct.lookup found) entries old
    · rw [List.mem_singleton.1 new]
      exact distinct_assignAll assigned complete distinct_nil

/-! ### Complete drafts -/

theorem map_fst_entryValues (entries : Entries) :
    (entryValues entries).map Prod.fst = entries.map Prod.fst := by
  rw [entryValues_eq_map, List.map_map]
  rfl

theorem hasDistinctKeys_entryValues (nodup : (entries.map Prod.fst).Nodup)
    (each : ∀ entry ∈ entries, entry.2.toValue.HasDistinctKeys) :
    (Value.table (entryValues entries)).HasDistinctKeys := by
  refine .table ((map_fst_entryValues entries).symm ▸ nodup) fun entry member => ?_
  rw [entryValues_eq_map] at member
  obtain ⟨old, isOld, rfl⟩ := List.mem_map.1 member
  exact each old isOld

theorem HasDistinctKeys.toValue (distinct : draft.HasDistinctKeys) :
    draft.toValue.HasDistinctKeys := by
  induction distinct with
  | value distinct => exact distinct
  | table nodup _ inductionHypothesis => exact hasDistinctKeys_entryValues nodup inductionHypothesis
  | tables nodup _ inductionHypothesis =>
    refine .array fun item member => ?_
    rw [elementValues_eq_map] at member
    obtain ⟨entries, isElement, rfl⟩ := List.mem_map.1 member
    exact hasDistinctKeys_entryValues (nodup entries isElement)
      (inductionHypothesis entries isElement)

theorem Entries.Distinct.entryValues (distinct : entries.Distinct) :
    (Value.table (entryValues entries)).HasDistinctKeys :=
  hasDistinctKeys_entryValues distinct.nodup fun entry member => (distinct.each entry member).toValue

end Draft

/-! ### Values that are read -/

/-- What a reader reads has distinct keys. -/
def ReadsDistinct (reader : Text → Option (Value × Text)) : Prop :=
  ∀ {source value rest}, reader source = some (value, rest) → value.HasDistinctKeys

theorem hasDistinctKeys_bareValue {word : Text} {value : Value} (reads : bareValue? word = some value) :
    value.HasDistinctKeys := by
  unfold bareValue? at reads
  split at reads
  · cases reads
    exact .boolean true
  · split at reads
    · cases reads
      exact .boolean false
    · split at reads
      · cases reads
        exact .moment
      · split at reads
        · next number _ =>
          cases reads
          exact .integer number
        · obtain ⟨bits, -, rfl⟩ := Option.map_eq_some_iff.1 reads
          exact .float bits

theorem readsDistinct_scalar : ReadsDistinct readScalar := by
  intro source value rest reads
  unfold readScalar at reads
  split at reads
  · obtain ⟨⟨text, after⟩, -, same⟩ := Option.map_eq_some_iff.1 reads
    cases same
    exact .string text
  · obtain ⟨⟨text, after⟩, -, same⟩ := Option.map_eq_some_iff.1 reads
    cases same
    exact .string text
  · obtain ⟨bare, isBare, same⟩ := Option.bind_eq_some_iff.1 reads
    cases same
    exact hasDistinctKeys_bareValue isBare

theorem hasDistinctKeys_readItems {readItem : Text → Option (Value × Text)}
    (each : ReadsDistinct readItem) {turns : Nat} {items : List Value} {source rest : Text}
    {value : Value} (before : ∀ item ∈ items, item.HasDistinctKeys)
    (reads : readItems readItem turns items source = some (value, rest)) :
    value.HasDistinctKeys := by
  induction turns generalizing items source with
  | zero => cases reads
  | succ turns inductionHypothesis =>
    rw [readItems] at reads
    obtain ⟨source, -, reads⟩ := Option.bind_eq_some_iff.1 reads
    split at reads
    · cases reads
      exact .array fun item member => before item (List.mem_reverse.1 member)
    · obtain ⟨⟨item, behind⟩, readsItem, reads⟩ := Option.bind_eq_some_iff.1 reads
      obtain ⟨behind, -, reads⟩ := Option.bind_eq_some_iff.1 reads
      have withItem : ∀ other ∈ item :: items, other.HasDistinctKeys :=
        List.forall_mem_cons.2 ⟨each readsItem, before⟩
      split at reads
      · exact inductionHypothesis withItem reads
      · cases reads
        exact .array fun other member => withItem other (List.mem_reverse.1 member)
      · cases reads

theorem hasDistinctKeys_readFields {readItem : Text → Option (Value × Text)}
    (each : ReadsDistinct readItem) {turns : Nat} {entries : Draft.Entries} {source rest : Text}
    {value : Value} (before : entries.Distinct)
    (reads : readFields readItem turns entries source = some (value, rest)) :
    value.HasDistinctKeys := by
  induction turns generalizing entries source with
  | zero => cases reads
  | succ turns inductionHypothesis =>
    rw [readFields] at reads
    obtain ⟨⟨key, behind⟩, -, reads⟩ := Option.bind_eq_some_iff.1 reads
    dsimp only at reads
    split at reads
    · obtain ⟨⟨item, behind⟩, readsItem, reads⟩ := Option.bind_eq_some_iff.1 reads
      obtain ⟨entries, assigned, reads⟩ := Option.bind_eq_some_iff.1 reads
      have withItem := Draft.distinct_assign assigned (each readsItem) before
      split at reads
      · exact inductionHypothesis withItem reads
      · cases reads
        exact withItem.entryValues
      · cases reads
    · cases reads

theorem readsDistinct_value (turns depth : Nat) : ReadsDistinct (readValue turns depth) := by
  induction depth with
  | zero => exact readsDistinct_scalar
  | succ depth inductionHypothesis =>
    intro source value rest reads
    unfold readValue at reads
    split at reads
    · exact hasDistinctKeys_readItems inductionHypothesis
        (fun _ member => absurd member List.not_mem_nil) reads
    · split at reads
      · cases reads
        exact Draft.distinct_nil.entryValues
      · exact hasDistinctKeys_readFields inductionHypothesis Draft.distinct_nil reads
    · exact readsDistinct_scalar reads

/-! ### Lines that are read -/

/-- A line whose value, if it has one, has distinct keys. -/
def Line.HasDistinctKeys (line : Line) : Prop :=
  ∀ key value, line = .assignment key value → value.HasDistinctKeys

theorem hasDistinctKeys_readLine {turns : Nat} {source rest : Text} {line : Line}
    (reads : readLine turns source = some (line, rest)) : line.HasDistinctKeys := by
  rintro key value rfl
  unfold readLine at reads
  split at reads
  · obtain ⟨⟨key, behind⟩, -, reads⟩ := Option.bind_eq_some_iff.1 reads
    dsimp only at reads
    split at reads
    · obtain ⟨behind, -, same⟩ := Option.bind_eq_some_iff.1 reads
      cases same
    · cases reads
  · obtain ⟨⟨key, behind⟩, -, reads⟩ := Option.bind_eq_some_iff.1 reads
    dsimp only at reads
    split at reads
    · obtain ⟨behind, -, same⟩ := Option.bind_eq_some_iff.1 reads
      cases same
    · cases reads
  · split at reads
    · cases reads
    · obtain ⟨⟨key, behind⟩, -, reads⟩ := Option.bind_eq_some_iff.1 reads
      dsimp only at reads
      split at reads
      · obtain ⟨⟨item, behind⟩, readsItem, reads⟩ := Option.bind_eq_some_iff.1 reads
        obtain ⟨behind, -, same⟩ := Option.bind_eq_some_iff.1 reads
        cases same
        exact readsDistinct_value _ _ readsItem
      · cases reads

theorem hasDistinctKeys_readLines {turns : Nat} {lines read : List Line} {source : Text}
    (before : ∀ line ∈ lines, line.HasDistinctKeys)
    (reads : readLines turns lines source = some read) : ∀ line ∈ read, line.HasDistinctKeys := by
  induction turns generalizing lines source with
  | zero =>
    cases source with
    | nil => cases reads; exact fun line member => before line (List.mem_reverse.1 member)
    | cons character source => cases reads
  | succ turns inductionHypothesis =>
    cases source with
    | nil => cases reads; exact fun line member => before line (List.mem_reverse.1 member)
    | cons character source =>
      obtain ⟨⟨line, rest⟩, readsLine, reads⟩ := Option.bind_eq_some_iff.1 reads
      exact inductionHypothesis
        (List.forall_mem_cons.2 ⟨hasDistinctKeys_readLine readsLine, before⟩) reads

/-! ### Documents -/

theorem hasDistinctKeys_placeLines {lines : List Line}
    (each : ∀ line ∈ lines, line.HasDistinctKeys) :
    (∀ assignment ∈ (placeLines lines).1, assignment.2.HasDistinctKeys) ∧
      ∀ part ∈ (placeLines lines).2, ∀ assignment ∈ part.assignments,
        assignment.2.HasDistinctKeys := by
  induction lines with
  | nil => exact ⟨fun _ member => absurd member List.not_mem_nil,
      fun _ member => absurd member List.not_mem_nil⟩
  | cons line lines inductionHypothesis =>
    obtain ⟨first, later⟩ := List.forall_mem_cons.1 each
    obtain ⟨root, sections⟩ := inductionHypothesis later
    have step : placeLines (line :: lines) = placeLine line (placeLines lines) := rfl
    rw [step]
    cases line with
    | blank => exact ⟨root, sections⟩
    | assignment key value =>
      exact ⟨List.forall_mem_cons.2 ⟨first key value rfl, root⟩, sections⟩
    | table key =>
      exact ⟨fun _ member => absurd member List.not_mem_nil,
        List.forall_mem_cons.2 ⟨root, sections⟩⟩
    | element key =>
      exact ⟨fun _ member => absurd member List.not_mem_nil,
        List.forall_mem_cons.2 ⟨root, sections⟩⟩

theorem distinct_addSection {before after : Draft.Entries} {part : Section}
    (added : addSection before part = some after)
    (complete : ∀ assignment ∈ part.assignments, assignment.2.HasDistinctKeys)
    (distinct : before.Distinct) : after.Distinct := by
  obtain ⟨path, last, -, descends⟩ := addSection_cases added
  refine descends.distinct (fun changed distinct => ?_) distinct
  unfold Section.change at changed
  split at changed
  · exact Draft.distinct_openElement changed complete distinct
  · exact Draft.distinct_openTable changed complete distinct

theorem distinct_foldlM_addSection {before after : Draft.Entries} {sections : List Section}
    (added : sections.foldlM addSection before = some after)
    (complete : ∀ part ∈ sections, ∀ assignment ∈ part.assignments, assignment.2.HasDistinctKeys)
    (distinct : before.Distinct) : after.Distinct :=
  foldlM_keeps (fun part member _ _ added => distinct_addSection added (complete part member))
    added distinct

/-- No table of a document has a key twice. -/
theorem hasDistinctKeys_read {source : Text} {entries : List (Text × Value)}
    (reads : read source = some entries) : (Value.table entries).HasDistinctKeys := by
  obtain ⟨lines, readsLines, reads⟩ := Option.bind_eq_some_iff.1 reads
  obtain ⟨root, sections⟩ := hasDistinctKeys_placeLines
    (hasDistinctKeys_readLines (fun _ member => absurd member List.not_mem_nil) readsLines)
  obtain ⟨top, assigned, reads⟩ := Option.bind_eq_some_iff.1 reads
  obtain ⟨whole, added, same⟩ := Option.bind_eq_some_iff.1 reads
  cases same
  exact (distinct_foldlM_addSection added sections
    (Draft.distinct_assignAll assigned root Draft.distinct_nil)).entryValues

end Inlay.Toml
