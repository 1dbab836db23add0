/-
This file says what one application leaves of a tree.

An application that fails leaves every entry as it was: what it writes it writes into a temporary
file, which it takes away again. One that succeeds changes the real file alone, and nothing of that
file but the bytes and the sharing with its other names. In either case the lock may have left an
empty sidecar, and nothing else can be new.

The endings of an application say all of this between them. What is added here is how the new bytes
look line by line, and the form of a digest.
-/
import Inlay.Proofs.Ending
import Inlay.Proofs.Idempotence

namespace Inlay

open Text (lines positions terminatorOf)

/-! ### Failures -/

namespace Patch

/-- An application that puts no block in leaves the tree, or the one in which the file was read. -/
theorem Ending.opened_or_isApplied {patch : Patch} {tree after : FileSystem} {directory : Location}
    {path : Path} {options : ApplyOptions} {result : Except ApplyError Report}
    (ending : Ending patch tree directory path options after result) :
    (after = tree ∨ ∃ target, tree.fileLocation? directory path = some target ∧
      tree.openedFor target options = .ok after) ∨
    ∃ report, result = .ok report ∧ report.outcome.isApplied = true := by
  cases ending with
  | targetMissing lost => exact Or.inl (Or.inl rfl)
  | sidecarRefused leads refused => exact Or.inl (Or.inl rfl)
  | unreadable reaches refused => exact Or.inl (Or.inr ⟨_, reaches.leads, reaches.opens⟩)
  | markerMissing reaches reads placeless =>
    exact Or.inl (Or.inr ⟨_, reaches.leads, reaches.opens⟩)
  | unwritten reaches reads planned fails =>
    exact Or.inl (Or.inr ⟨_, reaches.leads, reaches.opens⟩)
  | alreadyApplied reaches reads planned =>
    exact Or.inl (Or.inr ⟨_, reaches.leads, reaches.opens⟩)
  | applied reaches reads planned written replaced => exact Or.inr ⟨_, rfl, rfl⟩

theorem Ending.opened_of_error {patch : Patch} {tree after : FileSystem} {directory : Location}
    {path : Path} {options : ApplyOptions} {error : ApplyError}
    (ending : Ending patch tree directory path options after (.error error)) :
    after = tree ∨ ∃ target, tree.fileLocation? directory path = some target ∧
      tree.openedFor target options = .ok after :=
  ending.opened_or_isApplied.resolve_right nofun

/-- A path that leads to no file leaves nothing behind, also with the lock asked for. -/
theorem Ending.eq_of_targetMissing {patch : Patch} {tree after : FileSystem}
    {directory : Location} {path missing : Path} {options : ApplyOptions}
    (ending : Ending patch tree directory path options after (.error (.targetMissing missing))) :
    after = tree := by
  cases ending with
  | targetMissing lost => rfl

theorem apply_error_cases {patch : Patch} {tree : FileSystem} {directory : Location} {path : Path}
    {options : ApplyOptions} {error : ApplyError}
    (failed : (patch.apply tree directory path options).2 = .error error) :
    (patch.apply tree directory path options).1 = tree ∨
      options.lock = true ∧ ∃ target, tree.fileLocation? directory path = some target ∧
        tree.GainsSidecar (patch.apply tree directory path options).1 target := by
  have ending := patch.apply_ending tree directory path options
  rw [failed] at ending
  rcases ending.opened_of_error with same | ⟨target, leads, opens⟩
  · exact Or.inl same
  · rcases FileSystem.openedFor_cases opens with same | ⟨locked, gains⟩
    · exact Or.inl same
    · exact Or.inr ⟨locked, target, leads, gains⟩

theorem apply_error_of_applyUnlocked {patch : Patch} {tree : FileSystem} {directory : Location}
    {path : Path} {sizeLimit : Option Nat} {refusal : Option (FileSystem.Stage × Fault)}
    {error : ApplyError}
    (failed : (patch.applyUnlocked tree directory path sizeLimit refusal).2 = .error error) :
    (patch.apply tree directory path { sizeLimit, refusal }).2 = .error error := by
  rw [applyUnlocked] at failed
  simp only at failed
  cases told : (patch.apply tree directory path { sizeLimit, refusal }).2 with
  | ok report => rw [told] at failed; cases failed
  | error reason => rw [told] at failed; cases failed; rfl

/-- A failed application changes no entry and leaves no temporary file, whatever it is that fails
and at whichever stage of the replacement. Only with the lock asked for and the sidecar opened may
there be one more file, the empty sidecar, and none at all when the path leads to no file. -/
theorem apply_error_atomic (patch : Patch) (tree : FileSystem) (directory : Location)
    (path : Path) :
    (∀ options error, (patch.apply tree directory path options).2 = .error error →
      (patch.apply tree directory path options).1 = tree ∨
        options.lock = true ∧ ∃ target, tree.fileLocation? directory path = some target ∧
          tree.GainsSidecar (patch.apply tree directory path options).1 target) ∧
    (∀ options missing,
      (patch.apply tree directory path options).2 = .error (.targetMissing missing) →
        (patch.apply tree directory path options).1 = tree) ∧
    (∀ sizeLimit refusal error,
      (patch.applyUnlocked tree directory path sizeLimit refusal).2 = .error error →
        (patch.applyUnlocked tree directory path sizeLimit refusal).1 = tree) := by
  refine ⟨fun options error failed => apply_error_cases failed, fun options missing failed => ?_,
    fun sizeLimit refusal error failed => ?_⟩
  · have ending := patch.apply_ending tree directory path options
    rw [failed] at ending
    exact ending.eq_of_targetMissing
  · rcases apply_error_cases (apply_error_of_applyUnlocked failed) with same | ⟨locked, _⟩
    · exact same
    · cases locked

end Patch

/-! ### A file behind a link -/

namespace FileSystem

/-- The text of `elseTwice` in a file that has a second name and lies behind a link. -/
def linkedFile : File := { bytes := Text.encode elseTwice, mode := 0o640, family := some 0 }

/-- The real place of the file. -/
def linkedPlace : Location := ["src".toList, "real.h".toList]

/-- A tree with that file. -/
def linked : FileSystem :=
  { nodes := [
      (["src".toList], .directory newDirectoryMode),
      (linkedPlace, .file linkedFile),
      (["copy.h".toList], .file linkedFile),
      (["link.h".toList], .link "./src/../src/real.h".toList none)] }

/-- The tree after the sidecar of the file was opened. -/
def linkedWithSidecar : FileSystem := linked.put linkedPlace.sidecar (.file newFile)

theorem fileLocation?_linked :
    linked.fileLocation? [] "link.h".toList = some linkedPlace := by decide

theorem openedFor_linked (disk : Disk) :
    linked.openedFor linkedPlace { toDisk := disk, lock := true } = .ok linkedWithSidecar := rfl

theorem inspect_linked :
    Patch.elseOn.inspect linkedWithSidecar linkedPlace =
      .ok { file := linkedFile, text := elseTwice, plan := .insert 1 } :=
  Patch.inspect_of_planned rfl
    (File.read_eq_ok_iff.2 ⟨by decide, Text.decode?_encode elseTwice⟩) (by decide)

end FileSystem

open FileSystem (linked linkedFile linkedPlace linkedWithSidecar)

/-- A disk that fails before the new file is in place leaves the sidecar behind, and nothing without
the lock. -/
theorem Patch.apply_error_atomic_linked :
    (Patch.elseOn.apply linked [] "link.h".toList
      { lock := true, refusal := some (.sync, .diskFailed) }).2 =
        .error (.inaccessible linkedPlace .diskFailed) ∧
    linked.GainsSidecar (Patch.elseOn.apply linked [] "link.h".toList
      { lock := true, refusal := some (.sync, .diskFailed) }).1 linkedPlace ∧
    (Patch.elseOn.apply linked [] "none.h".toList { lock := true }).1 = linked := by
  obtain ⟨anyhow, _, _⟩ := Patch.elseOn.apply_error_atomic linked [] "link.h".toList
  have fails : linkedWithSidecar.replaceFault? linkedPlace.parent
      (Text.encode (elseOn.splice elseTwice 1)).size { refusal := some (.sync, .diskFailed) } =
        some .diskFailed := by decide
  have failed := (apply_of_opened FileSystem.fileLocation?_linked
    (FileSystem.openedFor_linked _)).trans (applyAt_of_unwritten FileSystem.inspect_linked fails)
  have told := congrArg Prod.snd failed
  refine ⟨told, ?_, ?_⟩
  · rcases anyhow _ _ told with same | ⟨_, target, leads, gains⟩
    · rw [failed] at same
      exact absurd same (by decide)
    · obtain rfl : linkedPlace = target :=
        Option.some.inj (FileSystem.fileLocation?_linked.symm.trans leads)
      exact gains
  · have lost : linked.fileLocation? [] "none.h".toList = none := by decide
    exact (Patch.elseOn.apply_error_atomic linked [] "none.h".toList).2.1 { lock := true } _
      (congrArg Prod.snd (Patch.apply_of_lost lost))

/-! ### The form of a digest -/

namespace Digest

/-- A digest as it is told: 64 hexadecimal digits in lower case. -/
def IsHex (digest : String) : Prop :=
  digest.toList.length = 64 ∧ ∀ character ∈ digest.toList, character ∈ "0123456789abcdef".toList

theorem length_hexByte (byte : UInt8) : (hexByte byte).length = 2 := rfl

theorem digitChar_mem {digit : Nat} (small : digit < 16) :
    Nat.digitChar digit ∈ "0123456789abcdef".toList := by
  decide +revert

theorem mem_of_mem_hexByte {byte : UInt8} {character : Char}
    (member : character ∈ hexByte byte) : character ∈ "0123456789abcdef".toList := by
  have small : byte.toNat < 16 * 16 := byte.toNat_lt
  rcases List.mem_cons.1 member with high | low
  · rw [high]
    exact digitChar_mem (Nat.div_lt_of_lt_mul small)
  · rw [List.mem_singleton.1 low]
    exact digitChar_mem (Nat.mod_lt _ (by decide))

theorem isHex_hex (bytes : ByteArray) : IsHex (hex bytes) := by
  rw [hex]
  constructor
  · simp only [String.toList_ofList, List.length_flatMap, length_hexByte, List.map_const',
      List.sum_replicate_nat, wordBytes, List.length_cons, List.length_nil, Vector.length_toList]
  · intro character member
    rw [String.toList_ofList] at member
    obtain ⟨byte, _, inByte⟩ := List.mem_flatMap.1 member
    exact mem_of_mem_hexByte inByte

end Digest

/-! ### Successes -/

namespace Patch

/-- The bytes are those of the text with the block, and an empty line after it, before the first
line with the marker, where no line of the text has the sentinel. -/
structure PutsIn (patch : Patch) (text : Text) (index : Nat) (bytes : ByteArray) : Prop where
  unmarked : ∀ line ∈ lines text, ¬ patch.sentinel <:+: line
  first : IsLeast (positions patch.marker (lines text)) index
  bytes_eq : ∃ marked, (lines text)[index]? = some marked ∧
    bytes = Text.encode ((lines text).take index ++
      (patch.block.map (· ++ (terminatorOf marked).text) ++ [(terminatorOf marked).text]) ++
        (lines text).drop index).flatten

theorem putsIn_of_planned {patch : Patch} {text : Text} {index : Nat}
    (planned : patch.plan? text = some (.insert index)) :
    patch.PutsIn text index (Text.encode (patch.splice text index)) := by
  obtain ⟨unmarked, first⟩ := Insertion.plan?_eq_insert_iff.1 planned
  obtain ⟨marked, found, _⟩ := first.1
  refine ⟨unmarked, first, marked, found, ?_⟩
  rw [Insertion.splice_of_found found, Insertion.insertedLines]

/-- What a successful application has done, given the tree in which it has read the file, the file
and its text. -/
structure Success (tree after : FileSystem) (patch : Patch) (directory : Location) (path : Path)
    (options : ApplyOptions) (report : Report) (opened : FileSystem) (old : File) (text : Text) :
    Prop where
  /-- The report names the real file behind the path. -/
  leads : tree.fileLocation? directory path = some report.target
  /-- Only the lock may have added something, the empty sidecar. -/
  opens : opened = tree ∨ options.lock = true ∧ tree.GainsSidecar opened report.target
  present : tree.node? report.target = some (.file old)
  reads : Text.decode? old.bytes = some text
  /-- Links on the way, other names of the file and all other entries are as before. -/
  kept : ∀ other node, other ≠ report.target → tree.node? other = some node →
    after.node? other = some node
  /-- Nothing is new, no temporary file either. -/
  others : ∀ other, other ≠ report.target → after.node? other = opened.node? other
  before_eq : report.before = Digest.hex old.bytes
  before_isHex : Digest.IsHex report.before
  after_isHex : Digest.IsHex report.after
  applied : ∀ line, report.outcome = .applied line → ∃ index bytes,
    line = index + 1 ∧ patch.PutsIn text index bytes ∧
      after.node? report.target = some (.file { bytes, mode := old.mode, family := none }) ∧
      report.after = Digest.hex bytes
  alreadyApplied : ∀ line, report.outcome = .alreadyApplied line → ∃ index,
    line = index + 1 ∧ IsLeast (positions patch.sentinel (lines text)) index ∧ after = opened ∧
      after.node? report.target = some (.file old) ∧ report.after = report.before

/-- A successful application puts the block before the first line with the marker, or finds the
sentinel, and does nothing else. The real file keeps its name and mode, and the report tells the
digests of what was read and of what is there now. -/
theorem apply_ok_exact (patch : Patch) (tree after : FileSystem) (directory : Location)
    (path : Path) (options : ApplyOptions) (report : Report)
    (succeeds : patch.apply tree directory path options = (after, .ok report)) :
    ∃ opened old text, Success tree after patch directory path options report opened old text := by
  have ending := patch.apply_ending tree directory path options
  rw [succeeds] at ending
  cases ending with
  | @alreadyApplied target _ file text index reaches reads planned =>
    exact ⟨after, file, text, {
      leads := reaches.leads
      opens := FileSystem.openedFor_cases reaches.opens
      present := reaches.present
      reads := File.decode?_of_read reads
      kept := fun other node _ there => reaches.keeps there
      others := fun _ _ => rfl
      before_eq := rfl
      before_isHex := Digest.isHex_hex _
      after_isHex := Digest.isHex_hex _
      applied := fun line outcome => by cases outcome
      alreadyApplied := fun line outcome => by
        cases outcome
        exact ⟨index, rfl, Insertion.plan?_eq_alreadyApplied_iff.1 planned, rfl,
          reaches.keeps reaches.present, rfl⟩ }⟩
  | @applied target opened _ file text index reaches reads planned written replaced =>
    have others : ∀ other, other ≠ target → after.node? other = opened.node? other :=
      fun other apart => by rw [replaced, if_neg apart]
    exact ⟨opened, file, text, {
      leads := reaches.leads
      opens := FileSystem.openedFor_cases reaches.opens
      present := reaches.present
      reads := File.decode?_of_read reads
      kept := fun other node apart there => (others other apart).trans (reaches.keeps there)
      others := others
      before_eq := rfl
      before_isHex := Digest.isHex_hex _
      after_isHex := Digest.isHex_hex _
      applied := fun line outcome => by
        cases outcome
        exact ⟨index, _, rfl, putsIn_of_planned planned, by rw [replaced, if_pos rfl], rfl⟩
      alreadyApplied := fun line outcome => by cases outcome }⟩

/-- Behind a link the real file is replaced, and its other name keeps the old text. -/
theorem apply_ok_exact_linked :
    ∃ after report,
      Patch.elseOn.apply linked [] "link.h".toList { lock := true } = (after, .ok report) ∧
      report.target = linkedPlace ∧ report.outcome = .applied 2 ∧
      after.node? ["copy.h".toList] = some (.file linkedFile) ∧
      after.node? ["link.h".toList] = some (.link "./src/../src/real.h".toList none) ∧
      ∃ bytes, after.node? linkedPlace = some (.file { bytes, mode := 0o640, family := none }) ∧
        report.after = Digest.hex bytes := by
  have succeeds := (apply_of_opened FileSystem.fileLocation?_linked
    (FileSystem.openedFor_linked {})).trans
      (applyAt_of_written FileSystem.inspect_linked rfl (by decide))
  obtain ⟨opened, old, text, success⟩ :=
    Patch.elseOn.apply_ok_exact linked _ [] "link.h".toList { lock := true } _ succeeds
  obtain ⟨index, bytes, _, _, replaced, digest⟩ := success.applied 2 rfl
  obtain rfl : linkedFile = old := FileSystem.file_unique rfl success.present
  exact ⟨_, _, succeeds, rfl, rfl, success.kept _ _ (by decide) rfl,
    success.kept _ _ (by decide) rfl, bytes, replaced, digest⟩

end Patch

end Inlay
