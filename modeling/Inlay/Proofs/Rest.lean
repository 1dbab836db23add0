/-
This file says when applying a definition once more does nothing at all.

A definition is at rest in a tree if its path leads to a file that shows the sentinel and, with the
lock asked for, the sidecar of that file is there and may be opened. To apply it then leaves the
tree as it is, without even a new sidecar, and `check` finds it applied as well.

Every application that succeeds puts its definition at rest. The sidecar may be one that it has just
created: the walk that missed it ends there now. And whatever is applied later, to whichever file,
disturbs no definition that is at rest.
-/
import Inlay.Proofs.Persistence
import Inlay.Proofs.Resolution
import Inlay.Proofs.Visits

namespace Inlay

/-! ### Sidecars that are there -/

namespace FileSystem

variable {tree opened after : FileSystem} {directory target place : Location} {path : Path}
  {options : ApplyOptions}

/-- The path leads to a file that is there and that its owner may write. -/
def HasWritable (tree : FileSystem) (directory : Location) (path : Path) (place : Location) :
    Prop :=
  Text.byteLength (Path.joined directory.path path) < pathLimit ∧
    tree.resolveToCreate directory path = .ok place ∧
    ∃ file, tree.node? place = some (.file file) ∧ mayWrite file.mode = true

/-- The sidecar of the file is there, and its owner may write it. -/
def HasSidecar (tree : FileSystem) (target : Location) : Prop :=
  ∃ place, tree.HasWritable target.parent (sidecarName target.name) place

theorem openedFor_of_hasSidecar (ready : options.lock = true → tree.HasSidecar target) :
    tree.openedFor target options = .ok tree := by
  cases locked : options.lock with
  | false => exact openedFor_of_unlocked locked
  | true =>
    obtain ⟨place, short, found, file, present, writable⟩ := ready locked
    refine (openedFor_eq_ok_iff locked).2 ⟨place, ?_⟩
    rw [openForWriting, if_neg (Nat.not_le.2 short), found]
    simp only [present, writable, if_true]

theorem resolveToCreate_of_extends (grows : Extends tree.kind? after.kind?)
    (found : tree.resolveToCreate directory path = .ok place) :
    after.resolveToCreate directory path = .ok place := by
  rw [resolveToCreate] at found
  exact walk_of_extends grows id (found ▸ .found)

theorem extends_openedFor (opens : tree.openedFor target options = .ok opened) :
    Extends tree.kind? opened.kind? :=
  extends_of_nodes fun _ node present => ⟨node, node?_openedFor opens present, rfl⟩

/-- A path leads where it led, also once a sidecar was opened. -/
theorem fileLocation?_of_openedFor (opens : tree.openedFor target options = .ok opened)
    (leads : tree.fileLocation? directory path = some place) :
    opened.fileLocation? directory path = some place :=
  fileLocation?_of_extends (extends_openedFor opens) leads

/-- A file that was opened for writing is there and may be opened again, be it found or created. -/
theorem hasWritable_of_openForWriting
    (opens : tree.openForWriting directory path = .ok (opened, place)) :
    opened.HasWritable directory path place := by
  unfold openForWriting at opens
  split at opens
  · cases opens
  next fits =>
  have short : Text.byteLength (Path.joined directory.path path) < pathLimit :=
    Nat.lt_of_not_le fits
  split at opens
  · next found =>
    split at opens
    · next file present =>
      split at opens
      · next writable =>
        cases opens
        exact ⟨short, found, file, present, writable⟩
      · cases opens
    · cases opens
  · next stuck failed =>
    split at opens
    · next creatable =>
      split at opens
      · cases opens
        have free : tree.node? stuck.place = none :=
          kind?_eq_none_iff.1 (walk_missing failed creatable.1)
        have reads := node?_put tree (ne_nil_of_free free) (.file newFile)
        have created := reads stuck.place
        rw [if_pos rfl] at created
        have grows : Extends tree.kind? (tree.put stuck.place (.file newFile)).kind? :=
          extends_of_nodes fun other node present => by
            have apart : other ≠ stuck.place := fun here => by
              rw [here, free] at present
              cases present
            exact ⟨node, by rw [reads, if_neg apart, present], rfl⟩
        -- The walk that missed the file alone ends there, now that it is made.
        refine ⟨short, walk_of_extends grows id ?_, newFile, created, by decide⟩
        rw [resolveToCreate] at failed
        rw [failed]
        exact .created creatable.1 creatable.2 rfl (kind?_of_node? created)
      · cases opens
    · cases opens

/-- A sidecar that was opened is there, be it found or created. -/
theorem hasSidecar_of_openedFor (locked : options.lock = true)
    (opens : tree.openedFor target options = .ok opened) : opened.HasSidecar target := by
  obtain ⟨place, result⟩ := (openedFor_eq_ok_iff locked).1 opens
  exact ⟨place, hasWritable_of_openForWriting result⟩

end FileSystem

namespace Patch

variable {patch : Patch} {tree after : FileSystem} {directory target : Location} {path : Path}
  {options : ApplyOptions}

theorem Ending.hasSidecar {result : Except ApplyError Report}
    (ending : Ending patch tree directory path options after result)
    (ready : tree.HasSidecar target) : after.HasSidecar target := by
  obtain ⟨place, short, found, file, present, writable⟩ := ready
  have stillFound : after.resolveToCreate target.parent (sidecarName target.name) = .ok place :=
    FileSystem.resolveToCreate_of_extends ending.extends found
  rcases ending.kept_or_spliced present with kept | ⟨old, text, index, same, _, _, replaced⟩
  · exact ⟨place, short, stillFound, file, kept, writable⟩
  · cases same
    exact ⟨place, short, stillFound, _, replaced, writable⟩

/-- A success with the lock is one without it in the tree where the sidecar was opened. -/
theorem Ending.exists_unlocked {report : Report}
    (ending : Ending patch tree directory path options after (.ok report)) :
    ∃ opened, tree.openedFor report.target options = .ok opened ∧
      Ending patch opened directory path { options with lock := false } after (.ok report) := by
  have again {target : Location} {opened : FileSystem} {file : File}
      (reaches : Reaches tree directory path options target opened file) :
      Reaches opened directory path { options with lock := false } target opened file :=
    { leads := FileSystem.fileLocation?_of_openedFor reaches.opens reaches.leads
      opens := FileSystem.openedFor_of_unlocked rfl
      present := reaches.keeps reaches.present }
  cases ending with
  | alreadyApplied reaches reads planned =>
    exact ⟨_, reaches.opens, .alreadyApplied (again reaches) reads planned⟩
  | applied reaches reads planned written replaced =>
    exact ⟨_, reaches.opens, .applied (again reaches) reads planned written replaced⟩

end Patch

/-! ### Definitions at rest -/

namespace Command

open Patch (Ending)

section Rests

variable {directory : Location} {root : Path} {lock : Bool} {target : Option Path}
  {member : Member} {selected : List Member} {tree after : FileSystem}
  {entries : List (Entry Report)} {disk : FileSystem.Disk}

/-- Nothing is left to do for the definition. -/
def Rests (directory : Location) (root : Path) (lock : Bool) (target : Option Path)
    (tree : FileSystem) (member : Member) : Prop :=
  ∃ place, tree.fileLocation? directory (targetPath root target member) = some place ∧
    tree.Carries place member.patch.sentinel ∧ (lock = true → tree.HasSidecar place)

theorem rests_of_ending {report : Report}
    (ending : Ending member.patch tree directory (targetPath root target member)
      { toDisk := disk, lock } after (.ok report)) :
    Rests directory root lock target after member := by
  obtain ⟨opened, opens, unlocked⟩ := ending.exists_unlocked
  exact ⟨report.target, FileSystem.fileLocation?_of_extends ending.extends ending.leads_of_ok,
    ending.carries_of_ok,
    fun locked => unlocked.hasSidecar (FileSystem.hasSidecar_of_openedFor locked opens)⟩

theorem Rests.ending {patch : Patch} {path : Path} {options : ApplyOptions}
    {result : Except ApplyError Report} (rests : Rests directory root lock target tree member)
    (ending : Ending patch tree directory path options after result) :
    Rests directory root lock target after member := by
  obtain ⟨place, leads, carried, ready⟩ := rests
  exact ⟨place, FileSystem.fileLocation?_of_extends ending.extends leads, ending.carries carried,
    fun locked => ending.hasSidecar (ready locked)⟩

theorem Rests.apply (rests : Rests directory root lock target tree member)
    (disk : FileSystem.Disk) :
    ∃ report line,
      member.patch.apply tree directory (targetPath root target member) { toDisk := disk, lock } =
        (tree, .ok report) ∧ report.outcome = .alreadyApplied line := by
  obtain ⟨place, leads, ⟨file, text, present, reads, shown⟩, ready⟩ := rests
  obtain ⟨index, planned⟩ := Insertion.plan?_of_line shown
  have inspected := Patch.inspect_of_planned present reads planned
  rw [Patch.apply_of_opened leads (FileSystem.openedFor_of_hasSidecar ready),
    Patch.applyAt_of_alreadyApplied inspected]
  exact ⟨_, index + 1, rfl, rfl⟩

theorem Rests.plan (rests : Rests directory root lock target tree member) :
    ∃ index, member.patch.plan tree directory (targetPath root target member) =
      .ok (.alreadyApplied index) := by
  obtain ⟨place, leads, carried, _⟩ := rests
  exact (Patch.isSettled_of_carries carried).plan _ _ leads

/-! ### Whole runs -/

/-- A run over definitions at rest leaves the tree as it is and finds all of them applied, however
the disk is: nothing is written. -/
theorem applyEach_of_rests (disks : List FileSystem.Disk)
    (allRest : ∀ member ∈ selected, Rests directory root lock target tree member) :
    (applyEach directory root lock target disks selected tree).1 = tree ∧
      ∀ entry ∈ (applyEach directory root lock target disks selected tree).2,
        ∃ report line, entry.result = .ok report ∧ report.outcome = .alreadyApplied line := by
  induction selected generalizing disks with
  | nil => exact ⟨rfl, fun entry member => absurd member List.not_mem_nil⟩
  | cons member rest inductionHypothesis =>
    obtain ⟨first, others⟩ := List.forall_mem_cons.1 allRest
    obtain ⟨report, line, applies, outcome⟩ := first.apply (disks.headD {})
    obtain ⟨same, settled⟩ := inductionHypothesis disks.tail others
    simp only [applyEach, applies]
    exact ⟨same, List.forall_mem_cons.2 ⟨⟨report, line, rfl, outcome⟩, settled⟩⟩

theorem checkEach_of_rests
    (allRest : ∀ member ∈ selected, Rests directory root lock target tree member) :
    ∀ entry ∈ checkEach tree directory root target selected,
      ∃ index, entry.result = .ok (.alreadyApplied index) := by
  rw [checkEach]
  exact List.forall_mem_map.2 fun member chosen => (allRest member chosen).plan

/-- A run without a failure puts all its definitions at rest. -/
theorem Trail.rests (trail : Trail directory root lock target selected tree after entries)
    (unfailed : ∀ entry ∈ entries, ∃ report, entry.result = .ok report) :
    ∀ member ∈ selected, Rests directory root lock target after member := by
  induction trail with
  | nil => exact fun member chosen => absurd chosen List.not_mem_nil
  | cons ending later inductionHypothesis =>
    obtain ⟨⟨report, told⟩, others⟩ := List.forall_mem_cons.1 unfailed
    cases told
    exact List.forall_mem_cons.2 ⟨later.keeps (fun ending rests => Rests.ending rests ending)
      (rests_of_ending ending), inductionHypothesis others⟩

end Rests

end Command

end Inlay
