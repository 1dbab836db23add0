/-
This file proves that the lock shows in nothing but the sidecar.

A path that leads to no file is told of before a sidecar is thought of, and a sidecar that cannot be
opened ends the application with nothing done. What remains is an application in the tree with the
sidecar opened. If the sidecar was there, that tree is the tree itself, also when the sidecar is a
link to the very file that is patched. If it was missing, the tree has one more file, at a place
that was free. The file to be patched is at another place and reads the same, and what an
application does and tells is decided by that file, by the disk, and by whether the directory takes
new names, which one more file in it does not change. So the two ends differ by the new file.
-/
import Inlay.Proofs.Independence
import Inlay.Proofs.Rest

namespace Inlay

namespace FileSystem

variable {tree opened : FileSystem} {directory place : Location} {path : Path}

/-- The path that leads to a file to be created, or to one that is there, leads to it also when it
is only to be found. -/
theorem resolve_of_resolveToCreate (found : tree.resolveToCreate directory path = .ok place) :
    tree.resolve directory path = .ok place := by
  have attains : Attains tree.kind? place (tree.resolveToCreate directory path) := found ▸ .found
  exact walk_of_extends (fun _ _ seen => seen) Aim.noConfusion attains

theorem resolve_of_openForWriting
    (opens : tree.openForWriting directory path = .ok (opened, place)) :
    opened.resolve directory path = .ok place :=
  resolve_of_resolveToCreate (hasWritable_of_openForWriting opens).2.1

theorem openedFor_of_notOpened {target : Location} {options : ApplyOptions} {fault : Fault}
    (locked : options.lock = true)
    (fails : tree.openForWriting target.parent (sidecarName target.name) = .error fault) :
    tree.openedFor target options = .error fault := by
  rw [openedFor_of_locked locked, fails]
  rfl

/-- One more file does not add to where new names are taken. -/
theorem acceptsNames_put_of_free (new : File) (free : tree.node? place = none) :
    (tree.put place (.file new)).acceptsNames = tree.acceptsNames := by
  funext other
  rw [acceptsNames, acceptsNames, node?_put tree (ne_nil_of_free free)]
  by_cases here : other = place
  · rw [if_pos here, here, free]
  · rw [if_neg here]

/-- A tree with one more file differs there alone, also once the same file was put into both. -/
theorem node?_withFile_put (new : File) {change : Option (Location × File)}
    (free : tree.node? place = none)
    (apart : ∀ target file, change = some (target, file) → target ≠ [] ∧ target ≠ place) :
    ((tree.put place (.file new)).withFile change).node? place = some (.file new) ∧
      (tree.withFile change).node? place = none ∧
      ∀ other, other ≠ place →
        ((tree.put place (.file new)).withFile change).node? other =
          (tree.withFile change).node? other := by
  have reads := node?_put tree (ne_nil_of_free free) (.file new)
  cases change with
  | none => exact ⟨(reads place).trans (if_pos rfl), free, fun other away =>
      (reads other).trans (if_neg away)⟩
  | some changed =>
    obtain ⟨target, file⟩ := changed
    obtain ⟨below, away⟩ := apart target file rfl
    simp only [withFile, node?_put _ below, reads, if_neg (Ne.symm away), if_true]
    refine ⟨trivial, free, fun other elsewhere => ?_⟩
    rw [if_neg elsewhere]

end FileSystem

namespace Patch

variable {patch : Patch} {tree opened : FileSystem} {directory target place : Location}
  {path : Path} {disk : FileSystem.Disk}

/-- The lock shows in nothing but the sidecar of the file, which is at this place behind all links:
the same is told, and everywhere else the same is left. -/
structure ShowsInSidecar (tree : FileSystem) (target place : Location)
    (unlocked locked : FileSystem × Except ApplyError Report) : Prop where
  told : locked.2 = unlocked.2
  /-- The path of the sidecar leads to the place. -/
  leads : locked.1.resolve target.parent (sidecarName target.name) = .ok place
  others : ∀ other, other ≠ place → locked.1.node? other = unlocked.1.node? other
  /-- A sidecar that was missing is new and empty. -/
  created : tree.node? place = none →
    locked.1.node? place = some (.file { bytes := .empty, mode := 0o644, family := none }) ∧
      unlocked.1.node? place = none
  /-- With a sidecar that was there nothing is different, and it keeps what it holds unless it is
  the file that is patched. -/
  found : ∀ node, tree.node? place = some node →
    locked.1 = unlocked.1 ∧ (place ≠ target → locked.1.node? place = some node)

theorem fileLocation?_of_openForWriting (leads : tree.fileLocation? directory path = some target)
    (opens : tree.openForWriting target.parent (sidecarName target.name) = .ok (opened, place)) :
    opened.fileLocation? directory path = some target := by
  have locked : tree.openedFor target { lock := true } = .ok opened :=
    (FileSystem.openedFor_eq_ok_iff rfl).2 ⟨place, opens⟩
  exact FileSystem.fileLocation?_of_openedFor locked leads

/-- With the lock the patch is applied as without it, in the tree where the sidecar was opened. -/
theorem apply_locked_eq (leads : tree.fileLocation? directory path = some target)
    (opens : tree.openForWriting target.parent (sidecarName target.name) = .ok (opened, place)) :
    patch.apply tree directory path { toDisk := disk, lock := true } =
      patch.apply opened directory path { toDisk := disk } := by
  rw [apply_of_opened leads ((FileSystem.openedFor_eq_ok_iff rfl).2 ⟨place, opens⟩),
    apply_of_opened (fileLocation?_of_openForWriting leads opens)
      (FileSystem.openedFor_of_unlocked rfl)]

/-- Without the lock nothing but the file behind the path is another. -/
theorem node?_apply_of_apart {node : FileSystem.Node}
    (leads : tree.fileLocation? directory path = some target) (apart : place ≠ target)
    (present : tree.node? place = some node) :
    (patch.apply tree directory path { toDisk := disk }).1.node? place = some node := by
  have ending := patch.apply_ending tree directory path { toDisk := disk }
  rw [ending.node?_elsewhere rfl fun here => apart (Option.some.inj (here.symm.trans leads)),
    present]

/-- In a tree with one more file the patch puts the same file at the same place, which is another
than that of the new one. -/
theorem exists_change_of_put (patch : Patch) (disk : FileSystem.Disk) {new : File}
    (free : tree.node? place = none)
    (leads : tree.fileLocation? directory path = some target)
    (stillLeads : (tree.put place (.file new)).fileLocation? directory path = some target) :
    ∃ change result,
      (∀ other file, change = some (other, file) → other ≠ [] ∧ other ≠ place) ∧
      patch.apply tree directory path { toDisk := disk } = (tree.withFile change, result) ∧
      patch.apply (tree.put place (.file new)) directory path { toDisk := disk } =
        ((tree.put place (.file new)).withFile change, result) := by
  obtain ⟨file, present⟩ := FileSystem.fileLocation?_isFile leads
  have apart : target ≠ place := fun here => by rw [here, free] at present; cases present
  have sameFile : (tree.put place (.file new)).node? target = tree.node? target := by
    rw [FileSystem.node?_put tree (FileSystem.ne_nil_of_free free), if_neg apart]
  obtain ⟨change, result, atTarget, applies⟩ := patch.applyAt_local present disk
  refine ⟨change, result, fun other file changed => ?_, ?_, ?_⟩
  · rw [atTarget other file changed]
    exact ⟨FileSystem.ne_nil_of_file present, apart⟩
  · rw [apply_of_opened leads (FileSystem.openedFor_of_unlocked rfl)]
    exact applies tree rfl rfl
  · rw [apply_of_opened stillLeads (FileSystem.openedFor_of_unlocked rfl)]
    exact applies _ sameFile (FileSystem.acceptsNames_put_of_free new free)

theorem showsInSidecar_of_opens (leads : tree.fileLocation? directory path = some target)
    (opens : tree.openForWriting target.parent (sidecarName target.name) = .ok (opened, place)) :
    ShowsInSidecar tree target place (patch.apply tree directory path { toDisk := disk })
      (patch.apply tree directory path { toDisk := disk, lock := true }) := by
  have ending := patch.apply_ending opened directory path { toDisk := disk }
  have stillLeads := FileSystem.resolve_of_extends ending.extends
    (FileSystem.resolve_of_openForWriting opens)
  rw [apply_locked_eq leads opens]
  rcases FileSystem.openForWriting_cases opens with ⟨rfl, file, there⟩ | ⟨free, rfl⟩
  · exact {
      told := rfl
      leads := stillLeads
      others := fun _ _ => rfl
      created := fun missing => by cases there.symm.trans missing
      found := fun node present => ⟨rfl, fun apart => node?_apply_of_apart leads apart present⟩ }
  · obtain ⟨change, result, apart, unlocked, locked⟩ :=
      patch.exists_change_of_put disk free leads (fileLocation?_of_openForWriting leads opens)
    rw [locked] at stillLeads
    rw [locked, unlocked]
    obtain ⟨made, missing, others⟩ :=
      FileSystem.node?_withFile_put FileSystem.newFile free apart
    exact {
      told := rfl
      leads := stillLeads
      others := others
      created := fun _ => ⟨made, missing⟩
      found := fun node there => by cases free.symm.trans there }

/-- With the lock an application tells of a path that leads to no file as without it, and creates
nothing. A sidecar that cannot be opened is told of, and nothing is done. With one that was opened
the same is told and left as without the lock, but for the sidecar itself. -/
theorem apply_lock_transparent (patch : Patch) (tree : FileSystem) (directory : Location)
    (path : Path) (disk : FileSystem.Disk) :
    (tree.fileLocation? directory path = none → ∀ lock,
      patch.apply tree directory path { toDisk := disk, lock } =
        (tree, .error (.targetMissing path))) ∧
    ∀ target, tree.fileLocation? directory path = some target →
      (∀ fault,
        tree.openForWriting target.parent (sidecarName target.name) = .error fault →
        patch.apply tree directory path { toDisk := disk, lock := true } =
          (tree, .error (.inaccessible target.sidecar fault))) ∧
      ∀ opened place,
        tree.openForWriting target.parent (sidecarName target.name) = .ok (opened, place) →
        ShowsInSidecar tree target place (patch.apply tree directory path { toDisk := disk })
          (patch.apply tree directory path { toDisk := disk, lock := true }) :=
  ⟨fun lost _ => apply_of_lost lost, fun _ leads =>
    ⟨fun _ fails => apply_of_refused leads (FileSystem.openedFor_of_notOpened rfl fails),
      fun _ _ opens => showsInSidecar_of_opens leads opens⟩⟩

end Patch

/-! ### A sidecar that is the file itself -/

namespace FileSystem

/-- A tree with the file of `linked`, where its sidecar is a link to it. -/
def selfLinked : FileSystem :=
  { nodes := [
      (["src".toList], .directory newDirectoryMode),
      (linkedPlace, .file linkedFile),
      (linkedPlace.sidecar, .link "real.h".toList none),
      (["link.h".toList], .link "src/real.h".toList none)] }

theorem openForWriting_linked :
    linked.openForWriting linkedPlace.parent (sidecarName linkedPlace.name) =
      .ok (linkedWithSidecar, linkedPlace.sidecar) := rfl

theorem openForWriting_selfLinked :
    selfLinked.openForWriting linkedPlace.parent (sidecarName linkedPlace.name) =
      .ok (selfLinked, linkedPlace) := by
  decide +kernel

end FileSystem

open FileSystem (linked linkedPlace selfLinked) in
/-- Where the sidecar is missing it is the only thing new, and where it is the file itself nothing
shows of the lock. -/
theorem Patch.apply_lock_transparent_linked :
    Patch.ShowsInSidecar linked linkedPlace linkedPlace.sidecar
      (Patch.elseOn.apply linked [] "link.h".toList {})
      (Patch.elseOn.apply linked [] "link.h".toList { lock := true }) ∧
    Patch.elseOn.apply selfLinked [] "link.h".toList { lock := true } =
      Patch.elseOn.apply selfLinked [] "link.h".toList {} := by
  obtain ⟨_, transparent⟩ := Patch.elseOn.apply_lock_transparent linked [] "link.h".toList {}
  obtain ⟨_, selfTransparent⟩ :=
    Patch.elseOn.apply_lock_transparent selfLinked [] "link.h".toList {}
  have leads : selfLinked.fileLocation? [] "link.h".toList = some linkedPlace := by decide
  have shows := (selfTransparent linkedPlace leads).2 _ _ FileSystem.openForWriting_selfLinked
  obtain ⟨sameTree, _⟩ := shows.found (.file FileSystem.linkedFile) rfl
  exact ⟨(transparent linkedPlace FileSystem.fileLocation?_linked).2 _ _
      FileSystem.openForWriting_linked, Prod.ext sameTree shows.told⟩

end Inlay
