/-
This file says what opening a sidecar may do to a tree.

Opening a file for writing never changes one that is there. It creates a file only where the walk
found that a last name is missing, and a walk that reports a missing entry names a location without
one. So the tree afterwards is the tree before, or that tree with one empty file at a location that
was free. The location is the sidecar's own or, when the sidecar is a dangling link, the place that
the link leads to.
-/
import Inlay.Proofs.Walks

namespace Inlay

namespace FileSystem

/-! ### Opening for writing -/

theorem kind?_eq_none_iff {tree : FileSystem} {location : Location} :
    tree.kind? location = none ↔ tree.node? location = none :=
  Option.map_eq_none_iff

/-- The top is never free. -/
theorem ne_nil_of_free {tree : FileSystem} {location : Location}
    (free : tree.node? location = none) : location ≠ [] := by
  rintro rfl
  cases free

/-- A file that is opened for writing is there and stays as it is, or is made at a free location. -/
theorem openForWriting_cases {tree opened : FileSystem} {directory place : Location} {path : Path}
    (opens : tree.openForWriting directory path = .ok (opened, place)) :
    (opened = tree ∧ ∃ file, tree.node? place = some (.file file)) ∨
      (tree.node? place = none ∧ opened = tree.put place (.file newFile)) := by
  unfold openForWriting at opens
  split at opens
  · cases opens
  split at opens
  · split at opens
    · next file present =>
      split at opens
      · cases opens; exact Or.inl ⟨rfl, file, present⟩
      · cases opens
    · cases opens
  · next stuck failed =>
    split at opens
    · next creatable =>
      split at opens
      · cases opens
        exact Or.inr ⟨kind?_eq_none_iff.1 (walk_missing failed creatable.1), rfl⟩
      · cases opens
    · cases opens

/-- The tree has gained the sidecar of a file: the location that opening it leads to was free and
holds an empty file now, and everything else is as before. -/
def GainsSidecar (before after : FileSystem) (target : Location) : Prop :=
  ∃ place, before.openForWriting target.parent (sidecarName target.name) = .ok (after, place) ∧
    before.node? place = none ∧ after.node? place = some (.file newFile) ∧
    ∀ other, other ≠ place → after.node? other = before.node? other

section OpenedFor

variable {tree opened : FileSystem} {target : Location} {options : ApplyOptions}

theorem openedFor_of_unlocked (unlocked : options.lock = false) :
    tree.openedFor target options = .ok tree := by
  rw [openedFor, unlocked, if_neg Bool.false_ne_true]

/-- Without the lock nothing is opened. -/
theorem eq_of_openedFor (unlocked : options.lock = false)
    (opens : tree.openedFor target options = .ok opened) : opened = tree :=
  Except.ok.inj (opens.symm.trans (openedFor_of_unlocked unlocked))

theorem openedFor_of_locked (locked : options.lock = true) :
    tree.openedFor target options =
      (tree.openForWriting target.parent (sidecarName target.name)).map Prod.fst := by
  rw [openedFor, if_pos locked, openSidecar]

/-- With the lock the tree in which a file is read is the one where its sidecar was opened. -/
theorem openedFor_eq_ok_iff (locked : options.lock = true) :
    tree.openedFor target options = .ok opened ↔
      ∃ place, tree.openForWriting target.parent (sidecarName target.name) =
        .ok (opened, place) := by
  rw [openedFor_of_locked locked]
  constructor
  · intro opens
    cases result : tree.openForWriting target.parent (sidecarName target.name) with
    | error fault => rw [result] at opens; cases opens
    | ok pair => rw [result] at opens; cases opens; exact ⟨pair.2, rfl⟩
  · rintro ⟨place, opens⟩
    rw [opens]
    rfl

/-- The tree in which a file is read is the tree before, or has gained the sidecar. -/
theorem openedFor_cases (opens : tree.openedFor target options = .ok opened) :
    opened = tree ∨ (options.lock = true ∧ tree.GainsSidecar opened target) := by
  cases locked : options.lock with
  | false => exact Or.inl (eq_of_openedFor locked opens)
  | true =>
    obtain ⟨place, result⟩ := (openedFor_eq_ok_iff locked).1 opens
    rcases openForWriting_cases result with ⟨same, _⟩ | ⟨free, created⟩
    · exact Or.inl same
    · have reads := node?_put tree (ne_nil_of_free free) (.file newFile)
      rw [← created] at reads
      exact Or.inr ⟨rfl, place, result, free, by rw [reads, if_pos rfl],
        fun other apart => by rw [reads, if_neg apart]⟩

/-- Opening a sidecar leaves every entry that is there. -/
theorem node?_openedFor {location : Location} {node : Node}
    (opens : tree.openedFor target options = .ok opened)
    (present : tree.node? location = some node) : opened.node? location = some node := by
  rcases openedFor_cases opens with same | ⟨_, place, _, free, _, others⟩
  · rw [same]; exact present
  · rw [others location fun here => ?_]
    · exact present
    · rw [here, free] at present; cases present

end OpenedFor

end FileSystem

end Inlay
