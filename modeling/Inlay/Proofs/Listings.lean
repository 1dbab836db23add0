/-
This file proves that `list` marks the targets that `check` and `apply` miss, but for paths that the
system treats differently on the two routes.

The commands look for a target in two ways. `list` hands its path over whole and asks whether that
leads to a regular file. The others trace the path to a real place first, and then look at the path
of the place. Where both find a file it is the same.

They part where the system refuses one of them. A path that is too long to be handed over whole can
still be traced, name by name, and so can one that only goes back from a directory that may not be
entered; then `list` marks a target that the others find. And where the path of a place on the way
is too long, or a directory above it may not be entered, the others miss a target that `list` does
not mark. It takes no deep directory to get there: where a path has one slash it may have thousands.
-/
import Inlay.Command.Finish
import Inlay.Proofs.Aliases
import Inlay.Proofs.Prediction
import Inlay.Proofs.Routes

namespace Inlay

namespace FileSystem

variable {tree : FileSystem} {directory place : Location} {path : Path}

/-! ### Two ways to look for a file -/

theorem isFile_iff_locate : tree.isFile directory path = true ↔
    ∃ place, tree.locate directory path = .ok place ∧ tree.kind? place = some .file := by
  unfold isFile
  cases tree.locate directory path <;> simp

/-- A file that is found by tracing is found on its own path by handing that over, from any
directory. -/
theorem isFile_path (hosts : tree.Hosts directory)
    (leads : tree.fileLocation? directory path = some place) (other : Location) :
    tree.isFile other place.path = true := by
  obtain ⟨traced, looks⟩ := fileLocation?_eq_some_iff.1 leads
  exact isFile_iff_locate.2 ⟨place, locate_path (hosts.spelled_of_trace traced)
    (hosts.noNul_of_looks looks) looks (fun _ => Kind.noConfusion) other, looks.seen⟩

section Ways

variable (houses : Houses tree.kind? directory)

include houses

/-- A path that is not traced to a file does not lead to one when it is handed over, unless the
trace is hindered. -/
theorem isFile_eq_false_or_hinders (lost : tree.fileLocation? directory path = none) :
    tree.isFile directory path = false ∨
      ∃ fault, tree.trace directory path = .error fault ∧ Hinders fault := by
  cases seen : tree.isFile directory path with
  | false => exact Or.inl rfl
  | true =>
    obtain ⟨place, located, file⟩ := isFile_iff_locate.1 seen
    refine Or.inr ((fileLocation?_of_locate houses located file).resolve_left fun leads => ?_)
    cases lost.symm.trans leads

/-- A path that leads to no file when it is handed over is not traced to one, unless it is too long
or a closed directory is in the way. -/
theorem lost_or_barred (unseen : tree.isFile directory path = false) :
    tree.fileLocation? directory path = none ∨ pathLimit ≤ Text.byteLength path ∨
      tree.locate directory path = .error .permissionDenied := by
  cases leads : tree.fileLocation? directory path with
  | none => exact Or.inl rfl
  | some place =>
    obtain ⟨traced, looks⟩ := fileLocation?_eq_some_iff.1 leads
    refine Or.inr ((locate_of_trace houses traced).resolve_left fun located => ?_)
    rw [isFile_iff_locate.2 ⟨place, located, looks.seen⟩] at unseen
    cases unseen

/-- Where both ways find a file it is the same. -/
theorem locate_of_isFile (leads : tree.fileLocation? directory path = some place)
    (seen : tree.isFile directory path = true) : tree.locate directory path = .ok place := by
  obtain ⟨other, located, file⟩ := isFile_iff_locate.1 seen
  rcases fileLocation?_of_locate houses located file with also | ⟨fault, refused, _⟩
  · rwa [Option.some.inj (leads.symm.trans also)]
  · cases (fileLocation?_eq_some_iff.1 leads).1.symm.trans refused

end Ways

end FileSystem

/-! ### Slashes -/

namespace Path

/-- The path that has so many slashes more where it goes on. -/
def withSlashes (more : Nat) (front back : Path) : Path :=
  front ++ '/' :: (List.replicate more '/' ++ back)

variable {front back : Path} {more : Nat}

theorem withSlashes_succ : withSlashes (more + 1) front back =
    front ++ '/' :: '/' :: (List.replicate more '/' ++ back) := rfl

/-- One slash after another asks for nothing. -/
theorem steps_doubled (front back : Path) :
    steps (front ++ '/' :: '/' :: back) = steps (front ++ '/' :: back) := by
  have pieces : (front ++ '/' :: '/' :: back).splitOn '/' =
      front.splitOn '/' ++ [] :: back.splitOn '/' := by
    rw [List.splitOn_append_cons_self]
    exact congrArg _ (List.splitOn_append_cons_self [] back)
  have last : (front ++ '/' :: '/' :: back).getLast? = (front ++ '/' :: back).getLast? := by
    rw [List.getLast?_append_cons, List.getLast?_append_cons]
    rfl
  rw [steps, steps, last, pieces, List.splitOn_append_cons_self, List.filterMap_append,
    List.filterMap_append, List.filterMap_cons_none rfl]

theorem origin_doubled (directory : Location) (front back : Path) :
    FileSystem.origin directory (front ++ '/' :: '/' :: back) =
      FileSystem.origin directory (front ++ '/' :: back) := by
  cases front <;> rfl

theorem lt_byteLength_withSlashes : more < Text.byteLength (withSlashes more front back) := by
  refine Nat.lt_of_lt_of_le ?_ (Text.length_le_byteLength _)
  rw [withSlashes, List.length_append, List.length_cons, List.length_append,
    List.length_replicate]
  omega

end Path

namespace FileSystem

theorem trace_doubled (tree : FileSystem) (directory : Location) (front back : Path) :
    tree.trace directory (front ++ '/' :: '/' :: back) =
      tree.trace directory (front ++ '/' :: back) := by
  have noNul : '\x00' ∈ front ++ '/' :: '/' :: back ↔ '\x00' ∈ front ++ '/' :: back := by
    simp
  rw [trace, trace, Path.steps_doubled, Path.origin_doubled]
  simp [noNul]

/-- More slashes lead to the same place. -/
theorem trace_withSlashes (tree : FileSystem) (directory : Location) (more : Nat)
    (front back : Path) : tree.trace directory (Path.withSlashes more front back) =
      tree.trace directory (front ++ '/' :: back) := by
  induction more with
  | zero => rfl
  | succ more inductionHypothesis =>
    rw [Path.withSlashes_succ, trace_doubled]
    exact inductionHypothesis

theorem fileLocation?_withSlashes (tree : FileSystem) (directory : Location) (more : Nat)
    (front back : Path) : tree.fileLocation? directory (Path.withSlashes more front back) =
      tree.fileLocation? directory (front ++ '/' :: back) := by
  rw [fileLocation?, fileLocation?, trace_withSlashes]

/-- With slashes enough a path leads nowhere when it is handed over whole. -/
theorem isFile_withSlashes {tree : FileSystem} {directory : Location} {front back : Path}
    {more : Nat} (many : pathLimit ≤ more) :
    tree.isFile directory (Path.withSlashes more front back) = false := by
  have long : pathLimit ≤ Text.byteLength (Path.withSlashes more front back) :=
    Nat.le_of_lt (Nat.lt_of_le_of_lt many Path.lt_byteLength_withSlashes)
  rw [← Bool.not_eq_true, isFile_iff_locate]
  rintro ⟨place, located, _⟩
  exact absurd (locate_eq_ok_iff.1 located).2.2.1 (Nat.not_lt.2 long)

end FileSystem

namespace Patch

variable {patch : Patch} {tree : FileSystem} {directory : Location} {path other : Path}
  {options : ApplyOptions}

/-! ### Targets that are missed -/

theorem Ending.lost_of_targetMissing {after : FileSystem}
    (ending : Ending patch tree directory path options after (.error (.targetMissing other))) :
    other = path ∧ tree.fileLocation? directory path = none := by
  cases ending with
  | targetMissing lost => exact ⟨rfl, lost⟩

theorem apply_eq_targetMissing_iff :
    (patch.apply tree directory path options).2 = .error (.targetMissing other) ↔
      other = path ∧ tree.fileLocation? directory path = none := by
  constructor
  · intro missed
    have ending := patch.apply_ending tree directory path options
    rw [missed] at ending
    exact ending.lost_of_targetMissing
  · rintro ⟨rfl, lost⟩
    rw [apply_of_lost lost]

/-- Planning misses a target for the same reason as an application, whatever its options. -/
theorem plan_eq_targetMissing_iff :
    patch.plan tree directory path = .error (.targetMissing other) ↔
      other = path ∧ tree.fileLocation? directory path = none := by
  have follows := (patch.apply_ending tree directory path {}).announced.followsPlan
  have failed := follows.failed (.targetMissing other)
  rw [apply_eq_targetMissing_iff] at failed
  rw [failed]
  simp

end Patch

namespace Command

/-! ### What is told of a target -/

/-- The paragraph of a definition says that its target is missing. -/
def Listing.IsMarked (listing : Listing) : Prop :=
  (listLines listing)[2]? =
    some ("  Target:   " ++ String.ofList listing.target ++ " (missing)")

theorem Listing.isMarked_iff {listing : Listing} :
    listing.IsMarked ↔ listing.isPresent = false := by
  have line : (listLines listing)[2]? = some ("  Target:   " ++ String.ofList listing.target ++
      if listing.isPresent then "" else " (missing)") := rfl
  rw [IsMarked, line, Option.some.injEq, String.append_right_inj]
  cases listing.isPresent <;> decide

/-- Of the one definition that was visited a run tells that no regular file is at this path. -/
inductive Misses (path : Path) : Except RunError Summary → Prop
  | applied {name : Text} :
      Misses path (.ok (.applied [{ name, result := .error (.targetMissing path) }]))
  | checked {name : Text} :
      Misses path (.ok (.checked [{ name, result := .error (.targetMissing path) }]))

theorem misses_applied_iff {path : Path} {name : Text} {result : Except ApplyError Report} :
    Misses path (.ok (.applied [{ name, result }])) ↔ result = .error (.targetMissing path) :=
  ⟨fun misses => by cases misses; rfl, fun missed => missed ▸ .applied⟩

theorem misses_checked_iff {path : Path} {name : Text} {result : Except ApplyError Plan} :
    Misses path (.ok (.checked [{ name, result }])) ↔ result = .error (.targetMissing path) :=
  ⟨fun misses => by cases misses; rfl, fun missed => missed ▸ .checked⟩

/-! ### Runs over one definition -/

section Alone

variable (tree : FileSystem) (directory : Location) (root : Path) (set : PatchSet)
  (member : Member) (lock : Bool) (disks : List FileSystem.Disk)

/-- What `check` tells of one definition. -/
def checkAlone : Except RunError Summary :=
  (perform tree directory root set (.check [member.definition.name] none)).2

/-- What `apply` tells of one definition. -/
def applyAlone : Except RunError Summary :=
  (perform tree directory root set (.apply [member.definition.name] lock none) disks).2

variable {tree directory root set member lock disks} {path : Path}

theorem selectFor_alone (known : member ∈ set.members) :
    selectFor set [member.definition.name] none = .ok [member] :=
  selectFor_named (List.cons_ne_nil member []) (List.forall_mem_singleton.2 known)

theorem checkAlone_eq (known : member ∈ set.members) :
    checkAlone tree directory root set member =
      .ok (.checked [{
        name := member.definition.name
        result := member.patch.plan tree directory (member.definition.resolvedTarget root) }]) := by
  rw [checkAlone, perform_check_of_selected _ _ _ _ (selectFor_alone known)]
  rfl

theorem applyAlone_eq (known : member ∈ set.members) :
    applyAlone tree directory root set member lock disks =
      .ok (.applied [{
        name := member.definition.name
        result := (member.patch.apply tree directory (member.definition.resolvedTarget root)
          { toDisk := disks.headD {}, lock }).2 }]) := by
  rw [applyAlone, perform_apply_of_selected _ _ _ _ _ (selectFor_alone known)]
  rfl

theorem misses_checkAlone_iff (known : member ∈ set.members) :
    Misses path (checkAlone tree directory root set member) ↔
      path = member.definition.resolvedTarget root ∧
        tree.fileLocation? directory (member.definition.resolvedTarget root) = none := by
  rw [checkAlone_eq known, misses_checked_iff, Patch.plan_eq_targetMissing_iff]

theorem misses_applyAlone_iff (known : member ∈ set.members) :
    Misses path (applyAlone tree directory root set member lock disks) ↔
      path = member.definition.resolvedTarget root ∧
        tree.fileLocation? directory (member.definition.resolvedTarget root) = none := by
  rw [applyAlone_eq known, misses_applied_iff, Patch.apply_eq_targetMissing_iff]

theorem misses_applyAlone_iff_checkAlone (known : member ∈ set.members) :
    Misses path (applyAlone tree directory root set member lock disks) ↔
      Misses path (checkAlone tree directory root set member) := by
  rw [misses_applyAlone_iff known, misses_checkAlone_iff known]

theorem not_misses_of_leads {place : Location} (known : member ∈ set.members)
    (leads : tree.fileLocation? directory (member.definition.resolvedTarget root) = some place) :
    ¬ Misses path (checkAlone tree directory root set member) := by
  rw [misses_checkAlone_iff known, leads]
  exact fun missed => nomatch missed.2

end Alone

/-! ### The mark -/

/-- What `list` tells of the target of a definition, held against the runs over that definition
alone. -/
structure TellsTarget (tree : FileSystem) (directory : Location) (root : Path) (set : PatchSet)
    (member : Member) (listing : Listing) : Prop where
  definition_eq : listing.definition = member.definition
  target_eq : listing.target = member.definition.resolvedTarget root
  /-- The mark is for a path that leads to no regular file when it is handed over whole. -/
  marked_iff : listing.IsMarked ↔ tree.isFile directory listing.target = false
  /-- `check` misses a path that is not traced to a regular file, and tells the path as listed. -/
  missed_iff : ∀ path, Misses path (checkAlone tree directory root set member) ↔
    path = listing.target ∧ tree.fileLocation? directory listing.target = none
  /-- With the lock or without it, and on every disk, `apply` misses what `check` misses. -/
  applied_iff : ∀ lock disks path,
    Misses path (applyAlone tree directory root set member lock disks) ↔
      Misses path (checkAlone tree directory root set member)
  /-- A target that is missed is marked, unless the trace is hindered. -/
  marked_of_missed : Misses listing.target (checkAlone tree directory root set member) →
    listing.IsMarked ∨
      ∃ fault, tree.trace directory listing.target = .error fault ∧ FileSystem.Hinders fault
  /-- A target that is marked is missed, unless its path is too long to be handed over or goes on
  in a directory that may not be entered. -/
  missed_of_marked : listing.IsMarked →
    Misses listing.target (checkAlone tree directory root set member) ∨
      FileSystem.pathLimit ≤ Text.byteLength listing.target ∨
      tree.locate directory listing.target = .error .permissionDenied
  /-- A target that is neither missed nor marked is one file on both ways. -/
  found_eq : ∀ place, tree.fileLocation? directory listing.target = some place →
    ¬ listing.IsMarked → tree.locate directory listing.target = .ok place
  /-- The path of the file that was found would not be marked, in no directory. -/
  found_path : tree.Hosts directory →
    ∀ place, tree.fileLocation? directory listing.target = some place →
      ∀ other, tree.isFile other place.path = true

/-- `list` tells of every definition, in order, and changes nothing. It marks the targets that
`check` misses, and `apply` misses exactly the same, but where one of the two ways to look for a
file is barred: that of `list` for the length of the target or by a closed directory on the way,
that of the others for the length of a real path or by a closed directory above. -/
theorem list_marks_missing (tree : FileSystem) (directory : Location) (root : Path)
    (set : PatchSet) (houses : FileSystem.Houses tree.kind? directory) :
    ∃ listings, perform tree directory root set .list = (tree, .ok (.listed listings)) ∧
      List.Forall₂ (TellsTarget tree directory root set) set.members listings := by
  refine ⟨listEach tree directory root set.members, rfl, ?_⟩
  rw [listEach, List.forall₂_map_right_iff, List.forall₂_same]
  intro member known
  exact {
    definition_eq := rfl
    target_eq := rfl
    marked_iff := Listing.isMarked_iff
    missed_iff := fun path => misses_checkAlone_iff known
    applied_iff := fun lock disks path => misses_applyAlone_iff_checkAlone known
    marked_of_missed := fun misses => by
      rw [Listing.isMarked_iff]
      exact FileSystem.isFile_eq_false_or_hinders houses ((misses_checkAlone_iff known).1 misses).2
    missed_of_marked := fun marked => by
      rw [misses_checkAlone_iff known]
      exact (FileSystem.lost_or_barred houses (Listing.isMarked_iff.1 marked)).imp_left
        (And.intro rfl)
    found_eq := fun place leads unmarked => by
      rw [Listing.isMarked_iff, Bool.not_eq_false] at unmarked
      exact FileSystem.locate_of_isFile houses leads unmarked
    found_path := fun hosts place leads => FileSystem.isFile_path hosts leads }

open FileSystem (linked linkedPlace) in
/-- With a root that goes back from a file a target is marked. With one that goes back from a
directory it is found behind its link, and by the path of the real place too. -/
theorem list_marks_missing_linked :
    (∃ first second rest,
      perform linked [] "copy.h/..".toList .elseBranches .list =
        (linked, .ok (.listed (first :: second :: rest))) ∧ second.IsMarked) ∧
    ∃ first second rest,
      perform linked [] "src/..".toList .elseBranches .list =
        (linked, .ok (.listed (first :: second :: rest))) ∧ ¬ second.IsMarked ∧
      linked.locate [] second.target = .ok linkedPlace ∧
      linked.isFile [] linkedPlace.path = true := by
  have houses : FileSystem.Houses linked.kind? [] := FileSystem.houses_top rfl
  have known : Member.elseOn ∈ PatchSet.elseBranches.members :=
    List.mem_cons_of_mem _ List.mem_cons_self
  constructor
  · obtain ⟨listings, listed, tells⟩ :=
      list_marks_missing linked [] "copy.h/..".toList .elseBranches houses
    cases tells with
    | cons _ others =>
      cases others with
      | cons told _ =>
        refine ⟨_, _, _, listed, told.marked_iff.2 ?_⟩
        rw [told.target_eq]
        decide +kernel
  · obtain ⟨listings, listed, tells⟩ :=
      list_marks_missing linked [] "src/..".toList .elseBranches houses
    have leads : linked.fileLocation? [] (Member.elseOn.definition.resolvedTarget "src/..".toList) =
        some linkedPlace := by decide +kernel
    have hosts : linked.Hosts [] :=
      ⟨FileSystem.named_of_nodes (by decide), FileSystem.spelled_top⟩
    cases tells with
    | cons _ others =>
      cases others with
      | cons told _ =>
        rw [← told.target_eq] at leads
        have unmarked : ¬ (_ : Listing).IsMarked := fun marked => by
          have unseen := told.marked_iff.1 marked
          rw [told.target_eq] at unseen
          revert unseen
          decide +kernel
        exact ⟨_, _, _, listed, unmarked, told.found_eq _ leads unmarked,
          told.found_path hosts _ leads []⟩

end Command

/-- `elseOn` with a target of thousands of slashes. -/
def Member.elseOnSlashed : Member := .ofSound
  { Member.elseOn.definition with
    target := Path.withSlashes FileSystem.pathLimit ".".toList "link.h".toList } (by decide)

def PatchSet.slashed : PatchSet where
  members := [Member.elseOnSlashed]
  distinct := List.pairwise_singleton _ _

namespace Command

open FileSystem (linked) in
/-- A target whose path goes on with thousands of slashes is marked, and found by the others. -/
theorem list_marks_slashedTarget :
    ∃ listing,
      perform linked [] ['.'] .slashed .list = (linked, .ok (.listed [listing])) ∧
      listing.IsMarked ∧
      checkAlone linked [] ['.'] .slashed .elseOnSlashed =
        .ok (.checked [{ name := "else-on".toList, result := .ok (.insert 1) }]) ∧
      (∀ path, ¬ Misses path (checkAlone linked [] ['.'] .slashed .elseOnSlashed)) ∧
      ∀ lock disks path,
        ¬ Misses path (applyAlone linked [] ['.'] .slashed .elseOnSlashed lock disks) := by
  have known : Member.elseOnSlashed ∈ PatchSet.slashed.members := List.mem_cons_self
  have target : Member.elseOnSlashed.definition.resolvedTarget ['.'] =
    Path.withSlashes FileSystem.pathLimit "./.".toList "link.h".toList := rfl
  have leads : linked.fileLocation? [] (Member.elseOnSlashed.definition.resolvedTarget ['.']) =
      some FileSystem.linkedPlace := by
    rw [target, FileSystem.fileLocation?_withSlashes]
    decide
  have planned : Member.elseOnSlashed.patch.plan linked []
      (Member.elseOnSlashed.definition.resolvedTarget ['.']) = .ok (.insert 1) :=
    Patch.plan_eq_ok_iff.2 ⟨_, _, _, leads, rfl,
      File.read_eq_ok_iff.2 ⟨by decide, Text.decode?_encode _⟩, by decide⟩
  have found (path : Path) :
      ¬ Misses path (checkAlone linked [] ['.'] .slashed .elseOnSlashed) :=
    not_misses_of_leads known leads
  refine ⟨_, rfl, Listing.isMarked_iff.2 ?marked, ?checked, found,
    fun lock disks path misses => ?_⟩
  case marked =>
    dsimp only
    rw [target]
    exact FileSystem.isFile_withSlashes (Nat.le_refl _)
  case checked =>
    rw [checkAlone_eq known, planned]
    rfl
  exact found path ((misses_applyAlone_iff_checkAlone known).1 misses)

end Command

end Inlay
