/-
This file proves that planning announces all that applying will tell.

Planning and applying look at the same things in the same order: the path, the text behind it, the
place for the block. What is left to applying is to write, and what may be in the way of that can be
said beforehand too: nothing but what refuses the new file, of its size, in that directory. So
without the lock what is told follows from the plan. A failure to plan is told as it is: it names
the path as given if no file was reached, and otherwise the real file. A plan, whose lines count
from zero, is told with lines that count from one, or it is told why the real file could not be
replaced.

Planning hands no tree back. Applying hands back the tree that it was given, but for a block that it
has put in, and what it has put in planning then finds.
-/
import Inlay.Proofs.Effect
import Inlay.Proofs.Resolution

namespace Inlay.Patch

variable {patch : Patch} {tree after : FileSystem} {directory target : Location} {path : Path}
  {disk : FileSystem.Disk} {told : Except ApplyError Report} {index : Nat} {bytes : ByteArray}

/-! ### What planning finds -/

/-- Planning succeeds exactly for a file that can be read as a text with a plan. -/
theorem plan_eq_ok_iff {plan : Plan} : patch.plan tree directory path = .ok plan ↔
    ∃ target file text, tree.fileLocation? directory path = some target ∧
      tree.node? target = some (.file file) ∧ file.read = .ok text ∧
      patch.plan? text = some plan := by
  constructor
  · intro succeeds
    cases leads : tree.fileLocation? directory path with
    | none => rw [Patch.plan, leads] at succeeds; cases succeeds
    | some target =>
    obtain ⟨file, present⟩ := FileSystem.fileLocation?_isFile leads
    rw [plan_of_leads leads] at succeeds
    cases reads : file.read with
    | error fault => rw [inspect_of_unreadable present reads] at succeeds; cases succeeds
    | ok text =>
    cases planned : patch.plan? text with
    | none => rw [inspect_of_placeless present reads planned] at succeeds; cases succeeds
    | some found =>
      rw [inspect_of_planned present reads planned] at succeeds
      obtain rfl : found = plan := Except.ok.inj succeeds
      exact ⟨target, file, text, rfl, present, reads, planned⟩
  · rintro ⟨target, file, text, leads, present, reads, planned⟩
    rw [plan_of_leads leads, inspect_of_planned present reads planned]
    rfl

/-- Why planning fails: the path leads to no file, the file behind it cannot be read as a text, or
the text has neither sentinel nor marker. -/
inductive Unplanned (patch : Patch) (tree : FileSystem) (directory : Location) (path : Path) :
    ApplyError → Prop
  | targetMissing (lost : tree.fileLocation? directory path = none) :
      Unplanned patch tree directory path (.targetMissing path)
  | unreadable {target : Location} {file : File} {fault : Fault}
      (leads : tree.fileLocation? directory path = some target)
      (present : tree.node? target = some (.file file)) (refused : file.read = .error fault) :
      Unplanned patch tree directory path (.inaccessible target fault)
  | markerMissing {target : Location} {file : File} {text : Text}
      (leads : tree.fileLocation? directory path = some target)
      (present : tree.node? target = some (.file file)) (reads : file.read = .ok text)
      (placeless : patch.plan? text = none) :
      Unplanned patch tree directory path (.markerMissing target patch.marker)

/-- With the block before the line, the file behind the path has these bytes. -/
def Drafts (patch : Patch) (tree : FileSystem) (directory : Location) (path : Path) (index : Nat)
    (target : Location) (bytes : ByteArray) : Prop :=
  ∃ file text, tree.fileLocation? directory path = some target ∧
    tree.node? target = some (.file file) ∧ file.read = .ok text ∧
    bytes = Text.encode (patch.splice text index)

theorem Drafts.unique {other : Location} {otherBytes : ByteArray}
    (drafts : Drafts patch tree directory path index target bytes)
    (alsoDrafts : Drafts patch tree directory path index other otherBytes) :
    target = other ∧ bytes = otherBytes := by
  obtain ⟨file, text, leads, present, reads, rfl⟩ := drafts
  obtain ⟨otherFile, otherText, otherLeads, otherPresent, otherReads, rfl⟩ := alsoDrafts
  obtain rfl : target = other := Option.some.inj (leads.symm.trans otherLeads)
  obtain rfl := FileSystem.text_unique present reads otherPresent otherReads
  exact ⟨rfl, rfl⟩

/-! ### What is told after a plan -/

/-- What is told without the lock, given what planning has come to and how the disk is. -/
inductive Announced (patch : Patch) (tree : FileSystem) (directory : Location) (path : Path)
    (disk : FileSystem.Disk) : Except ApplyError Plan → Except ApplyError Report → Prop
  | unplanned {error : ApplyError} (fails : Unplanned patch tree directory path error) :
      Announced patch tree directory path disk (.error error) (.error error)
  | found {index : Nat} {report : Report} (outcome : report.outcome = .alreadyApplied (index + 1)) :
      Announced patch tree directory path disk (.ok (.alreadyApplied index)) (.ok report)
  | putIn {index : Nat} {target : Location} {bytes : ByteArray} {report : Report}
      (drafts : Drafts patch tree directory path index target bytes)
      (written : tree.replaceFault? target.parent bytes.size disk = none)
      (outcome : report.outcome = .applied (index + 1)) :
      Announced patch tree directory path disk (.ok (.insert index)) (.ok report)
  | unwritten {index : Nat} {target : Location} {bytes : ByteArray} {fault : Fault}
      (drafts : Drafts patch tree directory path index target bytes)
      (fails : tree.replaceFault? target.parent bytes.size disk = some fault) :
      Announced patch tree directory path disk (.ok (.insert index))
        (.error (.inaccessible target fault))

theorem Ending.announced (ending : Ending patch tree directory path { toDisk := disk } after told) :
    Announced patch tree directory path disk (patch.plan tree directory path) told := by
  have asBefore {target : Location} {opened : FileSystem}
      (opens : tree.openedFor target { toDisk := disk } = .ok opened) : opened = tree :=
    FileSystem.eq_of_openedFor rfl opens
  cases ending with
  | targetMissing lost =>
    rw [plan, lost]
    exact .unplanned (.targetMissing lost)
  | sidecarRefused leads refused =>
    rw [FileSystem.openedFor_of_unlocked rfl] at refused
    cases refused
  | unreadable reaches refused =>
    rw [plan_of_leads reaches.leads, inspect_of_unreadable reaches.present refused]
    exact .unplanned (.unreadable reaches.leads reaches.present refused)
  | markerMissing reaches reads placeless =>
    rw [plan_of_leads reaches.leads, inspect_of_placeless reaches.present reads placeless]
    exact .unplanned (.markerMissing reaches.leads reaches.present reads placeless)
  | unwritten reaches reads planned fails =>
    rw [plan_of_leads reaches.leads, inspect_of_planned reaches.present reads planned]
    rw [asBefore reaches.opens] at fails
    exact .unwritten ⟨_, _, reaches.leads, reaches.present, reads, rfl⟩ fails
  | alreadyApplied reaches reads planned =>
    rw [plan_of_leads reaches.leads, inspect_of_planned reaches.present reads planned]
    exact .found rfl
  | applied reaches reads planned written replaced =>
    rw [plan_of_leads reaches.leads, inspect_of_planned reaches.present reads planned]
    rw [asBefore reaches.opens] at written
    exact .putIn ⟨_, _, reaches.leads, reaches.present, reads, rfl⟩ written rfl

/-- Why the planned text cannot be written without the lock, if a text is planned to be written and
cannot. -/
def writeFault? (patch : Patch) (tree : FileSystem) (directory : Location) (path : Path)
    (disk : FileSystem.Disk) : Option Fault :=
  match tree.fileLocation? directory path with
  | none => none
  | some target =>
    match patch.inspect tree target with
    | .ok { text, plan := .insert index, .. } =>
      tree.replaceFault? target.parent (Text.encode (patch.splice text index)).size disk
    | _ => none

theorem Drafts.writeFault?_eq (drafts : Drafts patch tree directory path index target bytes)
    (planned : patch.plan tree directory path = .ok (.insert index)) :
    patch.writeFault? tree directory path disk =
      tree.replaceFault? target.parent bytes.size disk := by
  obtain ⟨file, text, leads, present, reads, rfl⟩ := drafts
  obtain ⟨place, other, otherText, otherLeads, otherPresent, otherReads, found⟩ :=
    plan_eq_ok_iff.1 planned
  obtain rfl : target = place := Option.some.inj (leads.symm.trans otherLeads)
  obtain rfl := FileSystem.text_unique present reads otherPresent otherReads
  simp only [writeFault?, leads, inspect_of_planned present reads found]

/-- Each thing that can be told is told exactly after a certain plan, with this disk. -/
structure FollowsPlan (patch : Patch) (tree : FileSystem) (directory : Location) (path : Path)
    (disk : FileSystem.Disk) (planned : Except ApplyError Plan)
    (told : Except ApplyError Report) : Prop where
  /-- Planning fails for what it finds, with the path as given or with the real file. -/
  unplanned : ∀ error, planned = .error error → Unplanned patch tree directory path error
  alreadyApplied : ∀ index,
    (∃ report, told = .ok report ∧ report.outcome = .alreadyApplied (index + 1)) ↔
      planned = .ok (.alreadyApplied index)
  /-- The block is put in if it is planned and nothing is in the way of the new file. -/
  applied : ∀ index,
    (∃ report, told = .ok report ∧ report.outcome = .applied (index + 1)) ↔
      planned = .ok (.insert index) ∧ ∃ target bytes,
        Drafts patch tree directory path index target bytes ∧
          FileSystem.TakesFile tree target.parent bytes.size disk
  /-- A failure is one of planning, or the real file could not be replaced by the planned text. -/
  failed : ∀ error, told = .error error ↔
    planned = .error error ∨
      ∃ index target bytes fault, planned = .ok (.insert index) ∧
        Drafts patch tree directory path index target bytes ∧
        tree.replaceFault? target.parent bytes.size disk = some fault ∧
        error = .inaccessible target fault

theorem Announced.followsPlan {planned : Except ApplyError Plan}
    (announced : Announced patch tree directory path disk planned told) :
    FollowsPlan patch tree directory path disk planned told := by
  cases announced with
  | unplanned fails =>
    exact {
      unplanned := fun error same => by cases same; exact fails
      alreadyApplied := fun _ => by simp
      applied := fun _ => by simp
      failed := fun _ => by simp }
  | found outcome =>
    exact {
      unplanned := nofun
      alreadyApplied := fun _ => by simp [outcome]
      applied := fun _ => by simp [outcome]
      failed := fun _ => by simp }
  | @putIn index target bytes report drafts written outcome =>
    refine ⟨nofun, fun _ => by simp [outcome], fun other => ?applied, fun error => ?failed⟩
    case applied =>
      constructor
      · rintro ⟨_, here, same⟩
        cases here
        cases outcome.symm.trans same
        exact ⟨rfl, target, bytes, drafts, FileSystem.replaceFault?_eq_none_iff.1 written⟩
      · rintro ⟨same, _⟩
        cases same
        exact ⟨report, rfl, outcome⟩
    case failed =>
      refine ⟨nofun, fun refused => ?_⟩
      -- The text that was written is the one that is said to be refused.
      obtain ⟨other, place, otherBytes, fault, same, alsoDrafts, fails, _⟩ :=
        refused.resolve_left nofun
      cases same
      obtain ⟨rfl, rfl⟩ := drafts.unique alsoDrafts
      cases written.symm.trans fails
  | @unwritten index target bytes fault drafts fails =>
    refine ⟨nofun, fun _ => by simp, fun other => ?applied, fun error => ?failed⟩
    case applied =>
      constructor
      · rintro ⟨_, here, _⟩
        cases here
      · rintro ⟨same, place, otherBytes, alsoDrafts, takes⟩
        cases same
        obtain ⟨rfl, rfl⟩ := drafts.unique alsoDrafts
        cases (FileSystem.replaceFault?_eq_none_iff.2 takes).symm.trans fails
    case failed =>
      constructor
      · intro same
        cases same
        exact Or.inr ⟨index, target, bytes, fault, rfl, drafts, fails, rfl⟩
      · intro refused
        obtain ⟨other, place, otherBytes, otherFault, same, alsoDrafts, alsoFails, rfl⟩ :=
          refused.resolve_left nofun
        cases same
        obtain ⟨rfl, rfl⟩ := drafts.unique alsoDrafts
        obtain rfl : fault = otherFault := Option.some.inj (fails.symm.trans alsoFails)
        rfl

/-! ### The tree that is left -/

/-- Without the lock only a block that was put in changes the tree. -/
theorem Ending.eq_or_isApplied
    (ending : Ending patch tree directory path { toDisk := disk } after told) :
    after = tree ∨ ∃ report, told = .ok report ∧ report.outcome.isApplied = true := by
  rcases ending.opened_or_isApplied with (same | ⟨target, _, opens⟩) | applied
  · exact Or.inl same
  · exact Or.inl (FileSystem.eq_of_openedFor rfl opens)
  · exact Or.inr applied

/-- A block that was put in is found by planning, at one of its own lines. -/
theorem Ending.plan_of_applied {options : ApplyOptions} {report : Report} {line : Nat}
    (ending : Ending patch tree directory path options after (.ok report))
    (outcome : report.outcome = .applied line) :
    ∃ index offset, line = index + 1 ∧ offset < patch.block.length ∧
      patch.plan after directory path = .ok (.alreadyApplied (index + offset)) := by
  have stillLeads := FileSystem.fileLocation?_of_extends ending.extends ending.leads_of_ok
  cases ending with
  | alreadyApplied reaches reads planned => cases outcome
  | @applied target opened _ file text index reaches reads planned written replaced =>
    cases outcome
    obtain ⟨⟨marked, found, _⟩, _⟩ := (Insertion.plan?_eq_insert_iff.1 planned).2
    obtain ⟨offset, first⟩ := patch.exists_isLeast_positions_block (Text.terminatorOf marked)
    have inside := Text.lt_length_of_isLeast_positions first
    rw [List.length_map] at inside
    refine ⟨index, offset, rfl, inside, plan_eq_ok_iff.2 ?_⟩
    exact ⟨target, _, _, stillLeads, (replaced target).trans (if_pos rfl),
      File.read_encode reads _ none, patch.plan?_splice planned found first⟩

/-- Without the lock applying tells what planning announces: the same failure; the sentinel on the
line that was planned; or the block before that line, unless something is in the way of the new
file. Only if the block is put in is the tree another, and then planning finds it where it was
put. -/
theorem apply_follows_plan (patch : Patch) (tree : FileSystem) (directory : Location)
    (path : Path) (disk : FileSystem.Disk) :
    FollowsPlan patch tree directory path disk (patch.plan tree directory path)
      (patch.apply tree directory path { toDisk := disk }).2 ∧
    ((patch.apply tree directory path { toDisk := disk }).1 = tree ∨
      ∃ report, (patch.apply tree directory path { toDisk := disk }).2 = .ok report ∧
        report.outcome.isApplied = true) ∧
    ∀ after report line,
      patch.apply tree directory path { toDisk := disk } = (after, .ok report) →
      report.outcome = .applied line →
      ∃ index offset, line = index + 1 ∧ offset < patch.block.length ∧
        patch.plan after directory path = .ok (.alreadyApplied (index + offset)) := by
  have ending := patch.apply_ending tree directory path { toDisk := disk }
  refine ⟨ending.announced.followsPlan, ending.eq_or_isApplied,
    fun after report line succeeds outcome => ?_⟩
  rw [succeeds] at ending
  exact ending.plan_of_applied outcome

open FileSystem (linked linkedFile linkedPlace) in
/-- Behind a link the block goes where planning says, and with ten bytes allowed nothing goes. -/
theorem apply_follows_plan_linked :
    (∃ after report offset,
      Patch.elseOn.apply linked [] "link.h".toList {} = (after, .ok report) ∧
      report.outcome = .applied 2 ∧ offset < 2 ∧
      Patch.elseOn.plan after [] "link.h".toList = .ok (.alreadyApplied (1 + offset))) ∧
    Patch.elseOn.apply linked [] "link.h".toList { sizeLimit := some 10 } =
      (linked, .error (.inaccessible linkedPlace
        (.concerning (FileSystem.temporaryPath linkedPlace.parent) .tooLarge))) := by
  have reads : linkedFile.read = .ok elseTwice :=
    File.read_eq_ok_iff.2 ⟨by decide, Text.decode?_encode _⟩
  have planned : Patch.elseOn.plan linked [] "link.h".toList = .ok (.insert 1) :=
    plan_eq_ok_iff.2 ⟨linkedPlace, linkedFile, elseTwice, FileSystem.fileLocation?_linked, rfl,
      reads, by decide⟩
  have drafts : Drafts Patch.elseOn linked [] "link.h".toList 1 linkedPlace
      (Text.encode (Patch.elseOn.splice elseTwice 1)) :=
    ⟨linkedFile, elseTwice, FileSystem.fileLocation?_linked, rfl, reads, rfl⟩
  constructor
  · obtain ⟨follows, _, finds⟩ := Patch.elseOn.apply_follows_plan linked [] "link.h".toList {}
    obtain ⟨report, told, outcome⟩ := (follows.applied 1).2 ⟨planned, _, _, drafts,
      FileSystem.replaceFault?_eq_none_iff.1 (by decide)⟩
    have succeeds : Patch.elseOn.apply linked [] "link.h".toList {} =
        ((Patch.elseOn.apply linked [] "link.h".toList {}).1, .ok report) := Prod.ext rfl told
    obtain ⟨index, offset, same, inside, found⟩ := finds _ report 2 succeeds outcome
    obtain rfl : 1 = index := Nat.succ.inj same
    exact ⟨_, report, offset, succeeds, outcome, inside, found⟩
  · obtain ⟨follows, keeps, _⟩ :=
      Patch.elseOn.apply_follows_plan linked [] "link.h".toList { sizeLimit := some 10 }
    have large : linked.replaceFault? linkedPlace.parent
        (Text.encode (Patch.elseOn.splice elseTwice 1)).size { sizeLimit := some 10 } =
          some (.concerning (FileSystem.temporaryPath linkedPlace.parent) .tooLarge) := by decide
    have told := (follows.failed _).2 (Or.inr ⟨1, linkedPlace, _, _, planned, drafts, large, rfl⟩)
    rcases keeps with same | ⟨report, succeeds, _⟩
    · exact Prod.ext same told
    · cases told.symm.trans succeeds

/-! ### A directory that takes no new names -/

/-- A file in a directory to which nothing can be added. -/
def sealedFile : File := { bytes := Text.encode elseTwice, mode := 0o644, family := none }

/-- A tree with that file. -/
def sealedTree : FileSystem :=
  { nodes := [
      (["d".toList], .directory 0o555),
      (["d".toList, "t.h".toList], .file sealedFile)] }

/-- Where the directory takes no new names a plan to insert and a text of any size are not enough:
the block is not put in. -/
theorem not_applied_of_sealed :
    ¬ ((∃ report, (Patch.elseOn.apply sealedTree [] "d/t.h".toList {}).2 = .ok report ∧
        report.outcome = .applied 2) ↔
      Patch.elseOn.plan sealedTree [] "d/t.h".toList = .ok (.insert 1) ∧ ∃ target bytes,
        Drafts Patch.elseOn sealedTree [] "d/t.h".toList 1 target bytes ∧
          FileSystem.fits bytes.size none = true) ∧
    Patch.elseOn.apply sealedTree [] "d/t.h".toList {} =
      (sealedTree, .error (.inaccessible ["d".toList, "t.h".toList]
        (.concerning "/d/.hdrpatchXXXXXX".toList .permissionDenied))) := by
  have leads : sealedTree.fileLocation? [] "d/t.h".toList =
      some ["d".toList, "t.h".toList] := by decide
  have reads : sealedFile.read = .ok elseTwice :=
    File.read_eq_ok_iff.2 ⟨by decide, Text.decode?_encode _⟩
  have planned : Patch.elseOn.plan? elseTwice = some (.insert 1) := by decide
  have refused : sealedTree.replaceFault? ["d".toList]
      (Text.encode (Patch.elseOn.splice elseTwice 1)).size {} =
        some (.concerning "/d/.hdrpatchXXXXXX".toList .permissionDenied) := by decide
  have opens : sealedTree.openedFor ["d".toList, "t.h".toList] {} = .ok sealedTree := rfl
  have applied := (apply_of_opened leads opens).trans
    (applyAt_of_unwritten (inspect_of_planned rfl reads planned) refused)
  refine ⟨fun claimed => ?_, applied⟩
  obtain ⟨report, told, _⟩ := claimed.2
    ⟨plan_eq_ok_iff.2 ⟨_, _, _, leads, rfl, reads, planned⟩, _, _,
      ⟨_, _, leads, rfl, reads, rfl⟩, rfl⟩
  cases (congrArg Prod.snd applied).symm.trans told

end Inlay.Patch
