/-
This file proves which definitions a document decodes to.

`Stands` says what one value is as a definition, a table or an array, and `Lists` which definitions
a document holds. Reading a definition is the same five steps for both shapes, so one lemma settles
when they succeed. A table is also searched for fields with a wrong value, and nothing comes of that
search that the five steps would miss, because no key stands in a table twice.
-/
import Inlay.PatchSet.Decode
import Inlay.Proofs.Collection
import Inlay.Proofs.DistinctKeys
import Mathlib.Data.List.Forall2

namespace Inlay

namespace Field

/-- The position of a field in an array. -/
def position : Field → Nat
  | .name => 0
  | .target => 1
  | .marker => 2
  | .sentinel => 3
  | .block => 4

theorem ofKey?_key (field : Field) : ofKey? field.key = some field := by
  cases field <;> rfl

theorem ofKey?_eq_some_iff {key : Text} {field : Field} :
    ofKey? key = some field ↔ key = field.key := by
  constructor
  · intro found
    have same := List.find?_some found
    exact (of_decide_eq_true same).symm
  · rintro rfl
    exact ofKey?_key field

theorem getElem?_all_eq_some_iff {position : Nat} {field : Field} :
    all[position]? = some field ↔ position = field.position := by
  rcases position with _ | _ | _ | _ | _ | position <;> cases field <;>
    simp [all, Field.position]

end Field

namespace Definition

/-! ### One definition -/

/-- The five steps in which a definition is read. -/
def ofFields (textOf : Field → Except Mismatch Text) : Except Mismatch Definition := do
  let name ← textOf .name
  let target ← textOf .target
  let marker ← textOf .marker
  let sentinel ← textOf .sentinel
  let block ← textOf .block
  return { name, target, marker, sentinel, block }

theorem ofFields_eq_ok_iff {textOf : Field → Except Mismatch Text} {definition : Definition} :
    ofFields textOf = .ok definition ↔ ∀ field, textOf field = .ok (definition.get field) := by
  constructor
  · intro read field
    obtain ⟨name, named, read⟩ := exists_of_bind_ok read
    obtain ⟨target, targeted, read⟩ := exists_of_bind_ok read
    obtain ⟨marker, marked, read⟩ := exists_of_bind_ok read
    obtain ⟨sentinel, guarded, read⟩ := exists_of_bind_ok read
    obtain ⟨block, inserted, read⟩ := exists_of_bind_ok read
    cases read
    cases field
    exacts [named, targeted, marked, guarded, inserted]
  · intro each
    rw [ofFields, each .name, each .target, each .marker, each .sentinel, each .block]
    rfl

theorem fieldText_eq_ok_iff {field : Field} {value : Toml.Value} {text : Text} :
    fieldText field value = .ok text ↔ value = .string text := by
  cases value <;> simp [fieldText]

theorem entryText_eq_ok_iff {entries : List (Text × Toml.Value)} {field : Field} {text : Text} :
    entryText entries field = .ok text ↔ entries.lookup field.key = some (.string text) := by
  rw [entryText]
  cases entries.lookup field.key with
  | none => simp
  | some value => simp [fieldText_eq_ok_iff]

theorem itemText_eq_ok_iff {items : List Toml.Value} {position : Nat} {field : Field}
    {text : Text} :
    itemText items position field = .ok text ↔ items[position]? = some (.string text) := by
  rw [itemText]
  cases items[position]? with
  | none => simp
  | some value => simp [fieldText_eq_ok_iff]

/-- What a value is as a definition. A table has each text under the key of its field, whatever else
it has. An array starts with the five texts in order, whatever follows. -/
inductive Stands : Toml.Value → Definition → Prop
  | table {entries : List (Text × Toml.Value)} {definition : Definition}
      (each : ∀ field : Field,
        entries.lookup field.key = some (.string (definition.get field))) :
      Stands (.table entries) definition
  | array (definition : Definition) (rest : List Toml.Value) :
      Stands (.array (Field.all.map (fun field => .string (definition.get field)) ++ rest))
        definition

theorem forM_checkEntry {entries : List (Text × Toml.Value)} {definition : Definition}
    (distinct : (entries.map Prod.fst).Nodup)
    (each : ∀ field : Field, entries.lookup field.key = some (.string (definition.get field))) :
    ∀ rest, rest ⊆ entries → rest.forM checkEntry = .ok () := by
  intro rest within
  induction rest with
  | nil => rfl
  | cons entry rest inductionHypothesis =>
    obtain ⟨member, within⟩ := List.cons_subset.1 within
    have passes : checkEntry entry = .ok () := by
      rw [checkEntry]
      split
      · rfl
      · next field isField =>
        have found := (lookup_eq_some_iff_mem distinct).2 member
        rw [Field.ofKey?_eq_some_iff.1 isField, each field] at found
        rw [← Option.some.inj found]
        rfl
    show ((checkEntry entry).bind fun _ => rest.forM checkEntry) = .ok ()
    rw [passes]
    exact inductionHypothesis within

theorem ofTable_eq_ok_iff {entries : List (Text × Toml.Value)} {definition : Definition}
    (distinct : (entries.map Prod.fst).Nodup) :
    ofTable entries = .ok definition ↔ Stands (.table entries) definition := by
  have steps : ofTable entries = (entries.forM checkEntry).bind fun _ =>
      ofFields (entryText entries) := rfl
  rw [steps]
  constructor
  · intro read
    obtain ⟨_, -, read⟩ := exists_of_bind_ok read
    exact .table fun field => entryText_eq_ok_iff.1 (ofFields_eq_ok_iff.1 read field)
  · intro stands
    cases stands with
    | table each =>
      rw [forM_checkEntry distinct each entries (List.Subset.refl entries)]
      exact ofFields_eq_ok_iff.2 fun field => entryText_eq_ok_iff.2 (each field)

theorem getElem?_position (definition : Definition) (rest : List Toml.Value) (field : Field) :
    (Field.all.map (fun field => Toml.Value.string (definition.get field)) ++ rest)[field.position]?
      = some (.string (definition.get field)) := by
  cases field <;> rfl

/-- Five texts in their places are the start of an array. -/
theorem exists_append_of_getElem? {items : List Toml.Value} {definition : Definition}
    (each : ∀ field : Field, items[field.position]? = some (.string (definition.get field))) :
    ∃ rest, items = Field.all.map (fun field => .string (definition.get field)) ++ rest := by
  refine ⟨items.drop 5, List.ext_getElem? fun position => ?_⟩
  rcases position with _ | _ | _ | _ | _ | position
  · exact each .name
  · exact each .target
  · exact each .marker
  · exact each .sentinel
  · exact each .block
  · show items[position + 5]? = (items.drop 5)[position]?
    rw [List.getElem?_drop, Nat.add_comm]

theorem ofItems_eq_ok_iff {items : List Toml.Value} {definition : Definition} :
    ofItems items = .ok definition ↔ Stands (.array items) definition := by
  have steps : ofItems items = ofFields fun field => itemText items field.position field := rfl
  rw [steps, ofFields_eq_ok_iff]
  constructor
  · intro each
    obtain ⟨rest, rfl⟩ :=
      exists_append_of_getElem? fun field => itemText_eq_ok_iff.1 (each field)
    exact .array definition rest
  · intro stands
    cases stands with
    | array _ rest => exact fun field => itemText_eq_ok_iff.2 (getElem?_position definition rest field)

theorem ofValue_eq_ok_iff {value : Toml.Value} {definition : Definition}
    (distinct : value.HasDistinctKeys) :
    ofValue value = .ok definition ↔ Stands value definition := by
  cases value with
  | table entries => exact ofTable_eq_ok_iff distinct.nodup
  | array items => exact ofItems_eq_ok_iff
  | string text => exact ⟨nofun, nofun⟩
  | integer number => exact ⟨nofun, nofun⟩
  | float bits => exact ⟨nofun, nofun⟩
  | boolean flag => exact ⟨nofun, nofun⟩
  | moment => exact ⟨nofun, nofun⟩

/-- A value is some definition if it is a table with a text for each of the five fields, or an array
of at least five items of which the first five are texts. -/
def IsDefinition : Toml.Value → Prop
  | .table entries => ∀ field : Field, ∃ text, entries.lookup field.key = some (.string text)
  | .array items => 5 ≤ items.length ∧ ∀ item ∈ items.take 5, ∃ text, item = .string text
  | _ => False

theorem isDefinition_iff {value : Toml.Value} :
    IsDefinition value ↔ ∃ definition, Stands value definition := by
  constructor
  · intro shaped
    cases value with
    | table entries =>
      choose text found using shaped
      refine ⟨⟨text .name, text .target, text .marker, text .sentinel, text .block⟩,
        .table fun field => ?_⟩
      cases field <;> exact found _
    | array items =>
      obtain ⟨long, texts⟩ := shaped
      match items, long with
      | a :: b :: c :: d :: e :: rest, _ =>
        obtain ⟨name, rfl⟩ := texts a (by simp)
        obtain ⟨target, rfl⟩ := texts b (by simp)
        obtain ⟨marker, rfl⟩ := texts c (by simp)
        obtain ⟨sentinel, rfl⟩ := texts d (by simp)
        obtain ⟨block, rfl⟩ := texts e (by simp)
        exact ⟨_, .array ⟨name, target, marker, sentinel, block⟩ rest⟩
    | string text => exact shaped.elim
    | integer number => exact shaped.elim
    | float bits => exact shaped.elim
    | boolean flag => exact shaped.elim
    | moment => exact shaped.elim
  · rintro ⟨definition, stands⟩
    cases stands with
    | table each => exact fun field => ⟨_, each field⟩
    | array _ rest =>
      refine ⟨by simp [Field.all], fun item member => ?_⟩
      obtain ⟨field, -, rfl⟩ : ∃ field ∈ Field.all, Toml.Value.string (definition.get field) = item :=
        List.mem_map.1 member
      exact ⟨_, rfl⟩

/-! ### All definitions -/

/-- The definitions that a document holds: none without the key of the list, and otherwise those
that the items of an array under it are, in order. -/
inductive Lists (entries : List (Text × Toml.Value)) : List Definition → Prop
  | absent (missing : entries.lookup listKey = none) : Lists entries []
  | listed {items : List Toml.Value} {definitions : List Definition}
      (found : entries.lookup listKey = some (.array items))
      (each : List.Forall₂ Stands items definitions) : Lists entries definitions

theorem lists_iff_of_absent {entries : List (Text × Toml.Value)}
    (missing : entries.lookup listKey = none) {definitions : List Definition} :
    Lists entries definitions ↔ definitions = [] := by
  constructor
  · intro lists
    cases lists with
    | absent _ => rfl
    | listed found _ => cases missing.symm.trans found
  · rintro rfl
    exact .absent missing

theorem lists_iff_of_found {entries : List (Text × Toml.Value)} {items : List Toml.Value}
    (found : entries.lookup listKey = some (.array items)) {definitions : List Definition} :
    Lists entries definitions ↔ List.Forall₂ Stands items definitions := by
  refine ⟨fun lists => ?_, .listed found⟩
  cases lists with
  | absent missing => cases missing.symm.trans found
  | listed foundToo each =>
    cases foundToo.symm.trans found
    exact each

/-- A document holds a list of definitions if it has no key for it, or an array of values that are
definitions under it. -/
def HoldsList (entries : List (Text × Toml.Value)) : Prop :=
  entries.lookup listKey = none ∨ ∃ items, entries.lookup listKey = some (.array items) ∧
    ∀ item ∈ items, IsDefinition item

theorem exists_forall₂_stands_iff {items : List Toml.Value} :
    (∃ definitions, List.Forall₂ Stands items definitions) ↔ ∀ item ∈ items, IsDefinition item := by
  induction items with
  | nil => exact ⟨fun _ => nofun, fun _ => ⟨[], .nil⟩⟩
  | cons item items inductionHypothesis =>
    rw [List.forall_mem_cons, ← inductionHypothesis, isDefinition_iff]
    constructor
    · rintro ⟨_, _ | ⟨first, later⟩⟩
      exact ⟨⟨_, first⟩, _, later⟩
    · rintro ⟨⟨definition, first⟩, definitions, later⟩
      exact ⟨definition :: definitions, .cons first later⟩

theorem holdsList_iff {entries : List (Text × Toml.Value)} :
    HoldsList entries ↔ ∃ definitions, Lists entries definitions := by
  constructor
  · rintro (missing | ⟨items, found, each⟩)
    · exact ⟨[], .absent missing⟩
    · obtain ⟨definitions, each⟩ := exists_forall₂_stands_iff.2 each
      exact ⟨definitions, .listed found each⟩
  · rintro ⟨definitions, lists⟩
    cases lists with
    | absent missing => exact Or.inl missing
    | listed found each => exact Or.inr ⟨_, found, exists_forall₂_stands_iff.1 ⟨_, each⟩⟩

theorem mapM_ofValue_eq_ok_iff {items : List Toml.Value} {definitions : List Definition}
    (distinct : ∀ item ∈ items, item.HasDistinctKeys) :
    items.mapM ofValue = .ok definitions ↔ List.Forall₂ Stands items definitions := by
  induction items generalizing definitions with
  | nil =>
    rw [List.forall₂_nil_left_iff]
    exact ⟨fun read => (Except.ok.inj read).symm, fun none => none ▸ rfl⟩
  | cons item items inductionHypothesis =>
    obtain ⟨own, others⟩ := List.forall_mem_cons.1 distinct
    rw [List.mapM_cons, List.forall₂_cons_left_iff]
    constructor
    · intro read
      obtain ⟨definition, first, read⟩ := exists_of_bind_ok read
      obtain ⟨rest, later, same⟩ := exists_of_bind_ok read
      exact ⟨definition, rest, (ofValue_eq_ok_iff own).1 first,
        (inductionHypothesis others).1 later, (Except.ok.inj same).symm⟩
    · rintro ⟨definition, rest, first, later, rfl⟩
      rw [(ofValue_eq_ok_iff own).2 first, (inductionHypothesis others).2 later]
      rfl

theorem ofDocument_eq_ok_iff {entries : List (Text × Toml.Value)} {definitions : List Definition}
    (distinct : (Toml.Value.table entries).HasDistinctKeys) :
    ofDocument entries = .ok definitions ↔ Lists entries definitions := by
  unfold ofDocument
  split
  · next missing =>
    rw [lists_iff_of_absent missing]
    exact ⟨fun read => (Except.ok.inj read).symm, fun none => none ▸ rfl⟩
  · next items found =>
    rw [lists_iff_of_found found]
    exact mapM_ofValue_eq_ok_iff (distinct.lookup found).item
  · next value other found =>
    refine ⟨nofun, fun lists => ?_⟩
    cases lists with
    | absent missing => cases missing.symm.trans found
    | listed foundToo _ => exact absurd (Option.some.inj (found.symm.trans foundToo)) (other _)

end Definition

end Inlay
