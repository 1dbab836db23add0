/-
This file says what one line or one header of a document can do to a draft.

A path into a draft is followed key by key. `Descends` has one constructor for each kind of step, so
what a change does below is known without a look at how the path is followed. At the first key of a
path there is never a complete value, before or after, and the other keys stay as they are.

So a header leaves alone which keys of a table have complete values, and an assignment adds the one
that it writes, and no other, at the table's own level. That is all a reader of definitions has to
know about drafts, as it looks for complete values only.
-/
import Inlay.Lookup
import Inlay.Toml.Document

namespace Inlay.Toml

/-- What each of several steps keeps, all of them together keep. -/
theorem foldlM_keeps {State Item : Type} {step : State → Item → Option State}
    {Kept : State → Prop} {items : List Item} {first last : State}
    (keeps : ∀ item ∈ items, ∀ before after, step before item = some after → Kept before →
      Kept after)
    (ran : items.foldlM step first = some last) (kept : Kept first) : Kept last := by
  induction items generalizing first with
  | nil =>
    cases ran
    exact kept
  | cons item items inductionHypothesis =>
    obtain ⟨own, others⟩ := List.forall_mem_cons.1 keeps
    rw [List.foldlM_cons] at ran
    obtain ⟨between, stepped, ran⟩ := Option.bind_eq_some_iff.1 ran
    exact inductionHypothesis others ran (own first between stepped kept)

namespace Draft

/-! ### Reading a draft -/

theorem entryValues_eq_map (entries : Entries) :
    entryValues entries = entries.map fun entry => (entry.1, entry.2.toValue) := by
  induction entries with
  | nil => rfl
  | cons entry entries inductionHypothesis =>
    rw [entryValues, inductionHypothesis, List.map_cons]

theorem elementValues_eq_map (elements : List Entries) :
    elementValues elements = elements.map fun entries => .table (entryValues entries) := by
  induction elements with
  | nil => rfl
  | cons entries elements inductionHypothesis =>
    rw [elementValues, inductionHypothesis, List.map_cons]

theorem lookup_entryValues (entries : Entries) (key : Text) :
    (entryValues entries).lookup key = (entries.lookup key).map toValue := by
  induction entries with
  | nil => rfl
  | cons entry entries inductionHypothesis =>
    rw [entryValues, List.lookup_cons, List.lookup_cons, inductionHypothesis]
    split <;> rfl

/-- A text is always a complete value. -/
theorem toValue_eq_string_iff {draft : Draft} {text : Text} :
    draft.toValue = .string text ↔ draft = .value (.string text) := by
  cases draft with
  | value complete => simp [toValue]
  | table origin entries => simp [toValue]
  | tables elements => simp [toValue]

theorem lookup_replace (entries : Entries) (key other : Text) (draft : Draft) :
    (replace entries key draft).lookup other =
      if other = key then (entries.lookup key).map fun _ => draft else entries.lookup other := by
  rw [← lookup_map_entry]
  congr 1
  refine List.map_congr_left fun entry _ => ?_
  split
  · next same => rw [same]
  · rfl

/-- The repeated tables under a key. -/
def tablesUnder (entries : Entries) (key : Text) : List Entries :=
  match entries.lookup key with
  | some (.tables elements) => elements
  | _ => []

theorem tablesUnder_congr {before after : Entries} {key : Text}
    (same : after.lookup key = before.lookup key) :
    tablesUnder after key = tablesUnder before key := by
  rw [tablesUnder, same, tablesUnder]

theorem tablesUnder_eq {entries : Entries} {key : Text} {elements : List Entries}
    (found : entries.lookup key = some (.tables elements)) :
    tablesUnder entries key = elements := by
  rw [tablesUnder, found]

theorem lookup_of_tablesUnder {entries : Entries} {key : Text}
    (present : tablesUnder entries key ≠ []) :
    entries.lookup key = some (.tables (tablesUnder entries key)) := by
  have all : tablesUnder entries key = [] ∨
      entries.lookup key = some (.tables (tablesUnder entries key)) := by
    unfold tablesUnder
    split
    · next elements found => exact Or.inr found
    · exact Or.inl rfl
  exact all.resolve_left present

/-! ### Following a path -/

/-- How a path is followed to the table that is changed: there, through a table that is missing,
through a table that is there, or through the last of repeated tables. -/
inductive Descends (dotted : Bool) (change : Origin → Entries → Option Entries) :
    KeyPath → Origin → Entries → Entries → Prop
  | arrives {origin : Origin} {before after : Entries}
      (changed : change origin before = some after) :
      Descends dotted change [] origin before after
  | makes {key : Text} {path : KeyPath} {origin : Origin} {before below : Entries}
      (free : before.lookup key = none)
      (deeper : Descends dotted change path (if dotted then .dotted else .implied) [] below) :
      Descends dotted change (key :: path) origin before
        (before ++ [(key, .table (if dotted then .dotted else .implied) below)])
  | enters {key : Text} {path : KeyPath} {origin inner : Origin} {before below after : Entries}
      (found : before.lookup key = some (.table inner below))
      (deeper : Descends dotted change path inner below after) :
      Descends dotted change (key :: path) origin before (replace before key (.table inner after))
  | entersLast {key : Text} {path : KeyPath} {origin : Origin} {before last after : Entries}
      {front : List Entries} (found : before.lookup key = some (.tables (front ++ [last])))
      (deeper : Descends dotted change path .header last after) :
      Descends dotted change (key :: path) origin before
        (replace before key (.tables (front ++ [after])))

section

variable {dotted : Bool} {change : Origin → Entries → Option Entries} {key : Text} {path : KeyPath}
  {origin : Origin} {before after : Entries}

theorem descends_of_descend (descended : descend dotted change path origin before = some after) :
    Descends dotted change path origin before after := by
  induction path generalizing origin before after with
  | nil => exact .arrives descended
  | cons key path inductionHypothesis =>
    rw [descend] at descended
    split at descended
    · next free =>
      obtain ⟨below, deeper, rfl⟩ := Option.map_eq_some_iff.1 descended
      exact .makes free (inductionHypothesis deeper)
    · cases descended
    · next inner below found =>
      split at descended
      · cases descended
      · obtain ⟨after, deeper, rfl⟩ := Option.map_eq_some_iff.1 descended
        exact .enters found (inductionHypothesis deeper)
    · next elements found =>
      split at descended
      · cases descended
      · next last isLast =>
        obtain ⟨front, rfl⟩ := List.getLast?_eq_some_iff.1 isLast
        obtain ⟨after, deeper, rfl⟩ := Option.map_eq_some_iff.1 descended
        rw [List.dropLast_concat]
        exact .entersLast found (inductionHypothesis deeper)

/-- A path changes nothing beside its first key. -/
theorem Descends.lookup_of_ne (descends : Descends dotted change (key :: path) origin before after)
    {other : Text} (apart : other ≠ key) : after.lookup other = before.lookup other := by
  cases descends with
  | makes free _ => rw [lookup_append_entry _ _ _ _ free, if_neg apart]
  | enters _ _ => rw [lookup_replace, if_neg apart]
  | entersLast _ _ => rw [lookup_replace, if_neg apart]

/-- A path does not lead through a complete value, and does not make one of its first key. -/
theorem Descends.not_value (descends : Descends dotted change (key :: path) origin before after)
    (value : Value) :
    before.lookup key ≠ some (.value value) ∧ after.lookup key ≠ some (.value value) := by
  cases descends with
  | makes free _ => simp [lookup_append_entry _ _ _ _ free, free]
  | enters found _ => simp [lookup_replace, found]
  | entersLast found _ => simp [lookup_replace, found]

/-! ### Complete values -/

/-- The same keys have complete values in both tables, and the same ones. -/
def SameValues (before after : Entries) : Prop :=
  ∀ key value, after.lookup key = some (.value value) ↔ before.lookup key = some (.value value)

theorem SameValues.refl (entries : Entries) : SameValues entries entries := fun _ _ => Iff.rfl

theorem SameValues.trans {first second third : Entries} (earlier : SameValues first second)
    (later : SameValues second third) : SameValues first third :=
  fun key value => (later key value).trans (earlier key value)

theorem Descends.sameValues_cons
    (descends : Descends dotted change (key :: path) origin before after) :
    SameValues before after := by
  intro other value
  by_cases same : other = key
  · subst same
    obtain ⟨notBefore, notAfter⟩ := descends.not_value value
    exact ⟨fun found => absurd found notAfter, fun found => absurd found notBefore⟩
  · rw [descends.lookup_of_ne same]

/-- If a change leaves the complete values of its table alone, so does a path to that table. -/
theorem Descends.sameValues
    (keeps : ∀ {origin before after}, change origin before = some after → SameValues before after)
    (descends : Descends dotted change path origin before after) : SameValues before after := by
  cases path with
  | nil =>
    cases descends with
    | arrives changed => exact keeps changed
  | cons key path => exact descends.sameValues_cons

end

/-! ### Headers -/

variable {key : Text} {assignments : List (KeyPath × Value)} {before after : Entries}

/-- A header opens a table that is missing or was only implied. -/
theorem openTable_cases (opened : openTable key assignments before = some after) :
    (before.lookup key = none ∧ ∃ below, assignAll [] assignments = some below ∧
      after = before ++ [(key, .table .header below)]) ∨
    ∃ implied below, before.lookup key = some (.table .implied implied) ∧
      assignAll implied assignments = some below ∧
      after = (before.filter fun entry => entry.1 ≠ key) ++ [(key, .table .header below)] := by
  unfold openTable at opened
  split at opened
  · next free =>
    obtain ⟨below, assigned, rfl⟩ := Option.map_eq_some_iff.1 opened
    exact Or.inl ⟨free, below, assigned, rfl⟩
  · next implied found =>
    obtain ⟨below, assigned, rfl⟩ := Option.map_eq_some_iff.1 opened
    exact Or.inr ⟨implied, below, found, assigned, rfl⟩
  · cases opened

/-- A header in double brackets adds the table of its lines to those that are there. -/
theorem openElement_cases (opened : openElement key assignments before = some after) :
    ∃ below, assignAll [] assignments = some below ∧
      ((before.lookup key = none ∧ after = before ++ [(key, .tables [below])]) ∨
        ∃ elements, before.lookup key = some (.tables elements) ∧
          after = replace before key (.tables (elements ++ [below]))) := by
  unfold openElement at opened
  split at opened
  · next free =>
    obtain ⟨below, assigned, rfl⟩ := Option.map_eq_some_iff.1 opened
    exact ⟨below, assigned, Or.inl ⟨free, rfl⟩⟩
  · next elements found =>
    obtain ⟨below, assigned, rfl⟩ := Option.map_eq_some_iff.1 opened
    exact ⟨below, assigned, Or.inr ⟨elements, found, rfl⟩⟩
  · cases opened

theorem lookup_openTable (opened : openTable key assignments before = some after) :
    ∃ below, ∀ other, after.lookup other =
      if other = key then some (.table .header below) else before.lookup other := by
  rcases openTable_cases opened with ⟨free, below, -, rfl⟩ | ⟨implied, below, -, -, rfl⟩
  · exact ⟨below, fun other => lookup_append_entry _ _ _ _ free⟩
  · refine ⟨below, fun other => ?_⟩
    have free : (before.filter fun entry => entry.1 ≠ key).lookup key = none := by
      rw [lookup_filter_entry, if_pos rfl]
    rw [lookup_append_entry _ _ _ _ free, lookup_filter_entry]
    split <;> rfl

theorem openTable_sameValues (opened : openTable key assignments before = some after) :
    SameValues before after := by
  intro other value
  obtain ⟨below, reads⟩ := lookup_openTable opened
  rw [reads]
  split
  · next same =>
    subst same
    rcases openTable_cases opened with ⟨free, -⟩ | ⟨implied, _, found, -⟩
    · simp [free]
    · simp [found]
  · exact Iff.rfl

theorem lookup_openElement (opened : openElement key assignments before = some after) :
    ∃ below, assignAll [] assignments = some below ∧ ∀ other, after.lookup other =
      if other = key then some (.tables (tablesUnder before key ++ [below]))
      else before.lookup other := by
  obtain ⟨below, assigned, ⟨free, rfl⟩ | ⟨elements, found, rfl⟩⟩ := openElement_cases opened
  · refine ⟨below, assigned, fun other => ?_⟩
    rw [lookup_append_entry _ _ _ _ free, tablesUnder, free, List.nil_append]
  · refine ⟨below, assigned, fun other => ?_⟩
    rw [lookup_replace, tablesUnder_eq found, found, Option.map_some]

theorem openElement_sameValues (opened : openElement key assignments before = some after) :
    SameValues before after := by
  intro other value
  obtain ⟨below, -, reads⟩ := lookup_openElement opened
  rw [reads]
  split
  · next same =>
    subst same
    obtain ⟨_, -, ⟨free, -⟩ | ⟨elements, found, -⟩⟩ := openElement_cases opened
    · simp [free]
    · simp [found]
  · exact Iff.rfl

/-! ### Assignments -/

theorem insertValue_cases {simple : Bool} {origin : Origin} {value : Value}
    (inserted : insertValue simple key value origin before = some after) :
    before.lookup key = none ∧ after = before ++ [(key, .value value)] := by
  unfold insertValue at inserted
  split at inserted
  · cases inserted
  · split at inserted
    · cases inserted
    · next absent =>
      exact ⟨Option.not_isSome_iff_eq_none.1 absent, (Option.some.inj inserted).symm⟩

theorem assign_cases {assignment : KeyPath × Value}
    (assigned : assign before assignment = some after) :
    (∃ key, assignment.1 = [key] ∧ before.lookup key = none ∧
      after = before ++ [(key, .value assignment.2)]) ∨
    ∃ head path key, assignment.1 = head :: path ++ [key] ∧
      Descends true (insertValue false key assignment.2) (head :: path) .header before after := by
  unfold assign at assigned
  split at assigned
  · cases assigned
  · next key isLast =>
    obtain ⟨front, whole⟩ := List.getLast?_eq_some_iff.1 isLast
    have descends := descends_of_descend assigned
    rw [whole, List.dropLast_concat] at descends
    cases front with
    | nil =>
      cases descends with
      | arrives inserted =>
        exact Or.inl ⟨key, whole, insertValue_cases inserted⟩
    | cons head path => exact Or.inr ⟨head, path, key, whole, descends⟩

/-- An assignment completes the value under its own key if that is simple, and no other in this
table. -/
theorem lookup_assign {assignment : KeyPath × Value}
    (assigned : assign before assignment = some after) (other : Text) (value : Value) :
    after.lookup other = some (.value value) ↔
      before.lookup other = some (.value value) ∨ assignment = ([other], value) := by
  obtain ⟨key, own, free, rfl⟩ | ⟨head, path, key, own, descends⟩ := assign_cases assigned
  · rw [lookup_append_entry _ _ _ _ free, Prod.ext_iff, own]
    split
    · next same => subst same; simp [free]
    · next apart => simp [Ne.symm apart]
  · rw [descends.sameValues_cons other value, Prod.ext_iff, own]
    simp

theorem lookup_assignAll (assigned : assignAll before assignments = some after) (other : Text)
    (value : Value) :
    after.lookup other = some (.value value) ↔
      before.lookup other = some (.value value) ∨ ([other], value) ∈ assignments := by
  induction assignments generalizing before with
  | nil =>
    cases assigned
    simp
  | cons assignment assignments inductionHypothesis =>
    rw [assignAll, List.foldlM_cons] at assigned
    obtain ⟨between, first, later⟩ := Option.bind_eq_some_iff.1 assigned
    rw [inductionHypothesis later, lookup_assign first, List.mem_cons, or_assoc,
      eq_comm (a := assignment)]

end Draft

/-! ### Sections -/

section

variable {before after : Draft.Entries} {part : Section} {sections : List Section}

/-- What the header of a section does to the table that holds its last key. -/
def Section.change (part : Section) (last : Text) (_ : Origin) :
    Draft.Entries → Option Draft.Entries :=
  if part.repeated then Draft.openElement last part.assignments
  else Draft.openTable last part.assignments

theorem addSection_cases (added : addSection before part = some after) :
    ∃ path last, part.key = path ++ [last] ∧
      Draft.Descends false (part.change last) path .header before after := by
  unfold addSection at added
  split at added
  · cases added
  · next last isLast =>
    obtain ⟨path, whole⟩ := List.getLast?_eq_some_iff.1 isLast
    have descends := Draft.descends_of_descend added
    rw [whole, List.dropLast_concat] at descends
    exact ⟨path, last, whole, descends⟩

theorem change_sameValues {last : Text} {origin : Origin}
    (changed : part.change last origin before = some after) : Draft.SameValues before after := by
  unfold Section.change at changed
  split at changed
  · exact Draft.openElement_sameValues changed
  · exact Draft.openTable_sameValues changed

/-- A section leaves the complete values of the document's table alone. -/
theorem addSection_sameValues (added : addSection before part = some after) :
    Draft.SameValues before after := by
  obtain ⟨path, last, -, descends⟩ := addSection_cases added
  exact descends.sameValues change_sameValues

theorem foldlM_addSection_sameValues (added : sections.foldlM addSection before = some after) :
    Draft.SameValues before after :=
  foldlM_keeps (fun _ _ _ _ added same => same.trans (addSection_sameValues added)) added
    (.refl before)

end

end Inlay.Toml
