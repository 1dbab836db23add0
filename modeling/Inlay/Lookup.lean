/-
This file says what is read from a list of entries with keys after the list has changed.

A list is read by `List.lookup`, which takes the first entry with a key. Replacing the entry with a
key, leaving it out and adding one with a new key at the end change what is read at that key, and
nothing else. Where no two entries have the same key, an entry is in the list exactly if it is read
there.
-/
namespace Inlay

variable {Key Value : Type} [BEq Key] [LawfulBEq Key]

/-! ### Reading after a change -/

section

variable [DecidableEq Key]

theorem lookup_map_entry (entries : List (Key × Value)) (changed other : Key) (value : Value) :
    (entries.map fun entry => if entry.1 = changed then (entry.1, value) else entry).lookup other =
      if other = changed then (entries.lookup changed).map fun _ => value
      else entries.lookup other := by
  induction entries with
  | nil => split <;> rfl
  | cons entry entries inductionHypothesis =>
    obtain ⟨key, old⟩ := entry
    rw [List.map_cons]
    by_cases here : key = changed
    · subst here
      simp only [if_true, List.lookup_cons]
      by_cases same : other = key
      · subst same; simp
      · have differ : (other == key) = false := beq_eq_false_iff_ne.2 same
        simp [differ, same, inductionHypothesis]
    · rw [if_neg here]
      simp only [List.lookup_cons]
      by_cases same : other = key
      · subst same; simp [here]
      · have differ : (other == key) = false := beq_eq_false_iff_ne.2 same
        have apart : (changed == key) = false := beq_eq_false_iff_ne.2 (Ne.symm here)
        simp [differ, apart, inductionHypothesis]

theorem lookup_filter_entry (entries : List (Key × Value)) (dropped other : Key) :
    (entries.filter fun entry => entry.1 ≠ dropped).lookup other =
      if other = dropped then none else entries.lookup other := by
  induction entries with
  | nil => split <;> rfl
  | cons entry entries inductionHypothesis =>
    obtain ⟨key, old⟩ := entry
    by_cases here : key = dropped
    · subst here
      rw [List.filter_cons_of_neg (by simp), inductionHypothesis]
      by_cases same : other = key
      · simp [same]
      · have differ : (other == key) = false := beq_eq_false_iff_ne.2 same
        simp [same, List.lookup_cons, differ]
    · rw [List.filter_cons_of_pos (by simpa using here)]
      simp only [List.lookup_cons, inductionHypothesis]
      by_cases same : other = key
      · subst same; simp [here]
      · have differ : (other == key) = false := beq_eq_false_iff_ne.2 same
        simp [differ]

theorem lookup_append_entry (entries : List (Key × Value)) (added other : Key) (value : Value)
    (free : entries.lookup added = none) :
    (entries ++ [(added, value)]).lookup other =
      if other = added then some value else entries.lookup other := by
  rw [List.lookup_append]
  by_cases same : other = added
  · subst same
    rw [free, if_pos rfl]
    simp
  · have differ : (other == added) = false := beq_eq_false_iff_ne.2 same
    simp [List.lookup_cons, differ, same]

end

/-! ### Distinct keys -/

theorem lookup_eq_none_iff_not_mem {entries : List (Key × Value)} {key : Key} :
    entries.lookup key = none ↔ key ∉ entries.map Prod.fst := by
  rw [List.lookup_eq_none_iff]
  constructor
  · intro apart member
    obtain ⟨entry, isEntry, rfl⟩ := List.mem_map.1 member
    exact bne_iff_ne.1 (apart entry isEntry) rfl
  · intro missing entry isEntry
    exact bne_iff_ne.2 fun same => missing (same ▸ List.mem_map_of_mem isEntry)

theorem mem_of_lookup_eq_some {entries : List (Key × Value)} {key : Key} {value : Value}
    (found : entries.lookup key = some value) : (key, value) ∈ entries := by
  obtain ⟨before, after, rfl, -⟩ := List.lookup_eq_some_iff.1 found
  exact List.mem_append_right _ List.mem_cons_self

theorem lookup_eq_some_iff_mem {entries : List (Key × Value)}
    (distinct : (entries.map Prod.fst).Nodup) {key : Key} {value : Value} :
    entries.lookup key = some value ↔ (key, value) ∈ entries := by
  refine ⟨mem_of_lookup_eq_some, fun member => ?_⟩
  obtain ⟨before, after, rfl⟩ := List.append_of_mem member
  rw [List.map_append, List.nodup_append] at distinct
  have unseen : before.lookup key = none :=
    lookup_eq_none_iff_not_mem.2 fun earlier =>
      distinct.2.2 key earlier key List.mem_cons_self rfl
  rw [List.lookup_append, unseen]
  simp

end Inlay
