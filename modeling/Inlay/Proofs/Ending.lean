/-
This file lists the ways in which applying a patch can end.

There are seven, told apart by what is found on the way: the path may lead to no file, the sidecar
may be refused, the file may not be readable as text, the text may have no place for the block, the
new file may be refused; or else the patch is there already, or it is put in. Each ending names the
tree that is left and what is told, with all that was found before it.

Seen from one place there are but three: the entry is as before, or it is the file and has got the
block, or it is the sidecar and is new. What is to be proved of a single application is proved by
looking at the seven if it is about what was told, and at the three if it is about an entry.
-/
import Inlay.Proofs.Sidecar
import Inlay.Proofs.Traces

namespace Inlay

namespace FileSystem

/-! ### The file behind a path -/

theorem fileLocation?_eq_some_iff {tree : FileSystem} {directory target : Location} {path : Path} :
    tree.fileLocation? directory path = some target ↔
      tree.trace directory path = .ok target ∧ Looks tree.kind? target .file := by
  rw [← look_eq_ok_iff]
  unfold fileLocation?
  constructor
  · intro leads
    split at leads
    · cases leads
    · next place traced =>
      split at leads
      · next file => cases leads; exact ⟨traced, file⟩
      · cases leads
  · rintro ⟨traced, file⟩
    rw [traced]
    simp only [file]

theorem exists_file_of_kind? {tree : FileSystem} {location : Location}
    (seen : tree.kind? location = some .file) :
    ∃ file, tree.node? location = some (.file file) := by
  obtain ⟨node, present, kind⟩ := Option.map_eq_some_iff.1 seen
  cases node with
  | directory mode =>
    rw [Node.kind] at kind
    split at kind
    · cases kind
    · cases kind
  | file file => exact ⟨file, present⟩
  | link path family => cases kind

theorem fileLocation?_isFile {tree : FileSystem} {directory target : Location} {path : Path}
    (leads : tree.fileLocation? directory path = some target) :
    ∃ file, tree.node? target = some (.file file) :=
  exists_file_of_kind? (fileLocation?_eq_some_iff.1 leads).2.seen

theorem fileAt_of_file {tree : FileSystem} {location : Location} {file : File}
    (present : tree.node? location = some (.file file)) : tree.fileAt location = .ok file := by
  rw [fileAt, present]

theorem file_unique {tree : FileSystem} {location : Location} {first second : File}
    (firstThere : tree.node? location = some (.file first))
    (secondThere : tree.node? location = some (.file second)) : first = second :=
  Node.file.inj (Option.some.inj (firstThere.symm.trans secondThere))

theorem ne_nil_of_file {tree : FileSystem} {location : Location} {file : File}
    (present : tree.node? location = some (.file file)) : location ≠ [] := by
  rintro rfl
  cases present

theorem kind?_of_node? {tree : FileSystem} {location : Location} {node : Node}
    (present : tree.node? location = some node) : tree.kind? location = some node.kind := by
  rw [kind?, present, Option.map_some]

/-- A tree in which a file takes the place of another has the same kinds. -/
theorem kind?_eq_of_replaced {tree after : FileSystem} {target : Location} {file new : File}
    (present : tree.node? target = some (.file file))
    (replaced : ∀ other, after.node? other =
      if other = target then some (.file new) else tree.node? other) :
    after.kind? = tree.kind? := by
  funext other
  rw [kind?, kind?, replaced]
  split
  · next here => rw [here, present]; rfl
  · rfl

end FileSystem

namespace File

/-! ### The text of a file -/

variable {file : File} {text : Text}

theorem read_eq_ok_iff : file.read = .ok text ↔
    FileSystem.mayRead file.mode = true ∧ Text.decode? file.bytes = some text := by
  unfold read
  split
  · next readable =>
    split
    · next found =>
      exact ⟨fun reads => ⟨readable, found.trans (congrArg some (Except.ok.inj reads))⟩,
        fun reads => congrArg _ (Option.some.inj (found.symm.trans reads.2))⟩
    · next undecoded => exact ⟨nofun, fun reads => by cases undecoded.symm.trans reads.2⟩
  · next closed => exact ⟨nofun, fun reads => absurd reads.1 closed⟩

theorem decode?_of_read (reads : file.read = .ok text) : Text.decode? file.bytes = some text :=
  (read_eq_ok_iff.1 reads).2

/-- A file with the mode of one that can be read is as readable. -/
theorem read_encode (reads : file.read = .ok text) (new : Text) (family : Option Nat) :
    ({ bytes := Text.encode new, mode := file.mode, family } : File).read = .ok new :=
  read_eq_ok_iff.2 ⟨(read_eq_ok_iff.1 reads).1, Text.decode?_encode new⟩

theorem read_unique {other : Text} (reads : file.read = .ok text)
    (readsOther : file.read = .ok other) : text = other :=
  Except.ok.inj (reads.symm.trans readsOther)

end File

/-- What is read at a location is one text. -/
theorem FileSystem.text_unique {tree : FileSystem} {location : Location} {first second : File}
    {text other : Text} (firstThere : tree.node? location = some (.file first))
    (reads : first.read = .ok text) (secondThere : tree.node? location = some (.file second))
    (readsOther : second.read = .ok other) : text = other := by
  obtain rfl := file_unique firstThere secondThere
  exact File.read_unique reads readsOther

namespace Patch

/-! ### Reading and planning -/

section Reading

variable {patch : Patch} {tree : FileSystem} {target : Location} {file : File} {text : Text}
  {fault : Fault} {disk : FileSystem.Disk}

theorem inspect_of_unreadable (present : tree.node? target = some (.file file))
    (refused : file.read = .error fault) :
    patch.inspect tree target = .error (.inaccessible target fault) := by
  rw [inspect, FileSystem.fileAt_of_file present]
  simp only [refused]

theorem inspect_of_placeless (present : tree.node? target = some (.file file))
    (reads : file.read = .ok text) (placeless : patch.plan? text = none) :
    patch.inspect tree target = .error (.markerMissing target patch.marker) := by
  rw [inspect, FileSystem.fileAt_of_file present]
  simp only [reads, placeless]

theorem inspect_of_planned {plan : Plan} (present : tree.node? target = some (.file file))
    (reads : file.read = .ok text) (planned : patch.plan? text = some plan) :
    patch.inspect tree target = .ok { file, text, plan } := by
  rw [inspect, FileSystem.fileAt_of_file present]
  simp only [reads, planned]

theorem file_of_inspect {inspection : Inspection} (present : tree.node? target = some (.file file))
    (inspected : patch.inspect tree target = .ok inspection) : file = inspection.file := by
  rw [inspect, FileSystem.fileAt_of_file present] at inspected
  simp only at inspected
  split at inspected
  · cases inspected
  · split at inspected
    · cases inspected
    · cases inspected; rfl

/-! ### Applying at a location -/

theorem applyAt_of_error {error : ApplyError} (failed : patch.inspect tree target = .error error) :
    patch.applyAt tree target disk = (tree, .error error) := by
  rw [applyAt, failed]

theorem applyAt_of_alreadyApplied {index : Nat}
    (inspected : patch.inspect tree target = .ok { file, text, plan := .alreadyApplied index }) :
    patch.applyAt tree target disk =
      (tree, .ok {
        target
        outcome := .alreadyApplied (index + 1)
        before := Digest.hex file.bytes
        after := Digest.hex file.bytes }) := by
  rw [applyAt, inspected]

theorem applyAt_of_unwritten {index : Nat}
    (inspected : patch.inspect tree target = .ok { file, text, plan := .insert index })
    (fails : tree.replaceFault? target.parent (Text.encode (patch.splice text index)).size disk =
      some fault) :
    patch.applyAt tree target disk = (tree, .error (.inaccessible target fault)) := by
  rw [applyAt, inspected]
  simp only [FileSystem.replaceFile_of_fault tree file.mode fails]

theorem applyAt_of_written {index : Nat}
    (inspected : patch.inspect tree target = .ok { file, text, plan := .insert index })
    (present : tree.node? target = some (.file file))
    (written : tree.replaceFault? target.parent (Text.encode (patch.splice text index)).size disk =
      none) :
    patch.applyAt tree target disk =
      (tree.put target (.file {
          bytes := Text.encode (patch.splice text index)
          mode := file.mode
          family := none }),
        .ok {
          target
          outcome := .applied (index + 1)
          before := Digest.hex file.bytes
          after := Digest.hex (Text.encode (patch.splice text index)) }) := by
  have replaced := FileSystem.replaceFile_eq_put tree file.mode
    (FileSystem.ne_nil_of_file present) (by rw [present]; rfl) written
  rw [applyAt, inspected]
  simp only [replaced]

end Reading

/-! ### From the path to the file -/

section Path

variable {patch : Patch} {tree : FileSystem} {directory target : Location} {path : Path}
  {options : ApplyOptions}

theorem plan_of_leads (leads : tree.fileLocation? directory path = some target) :
    patch.plan tree directory path = (patch.inspect tree target).map Inspection.plan := by
  rw [plan, leads]

theorem apply_of_lost (lost : tree.fileLocation? directory path = none) :
    patch.apply tree directory path options = (tree, .error (.targetMissing path)) := by
  rw [apply, lost]

theorem apply_of_refused {fault : Fault} (leads : tree.fileLocation? directory path = some target)
    (refused : tree.openedFor target options = .error fault) :
    patch.apply tree directory path options =
      (tree, .error (.inaccessible target.sidecar fault)) := by
  rw [apply, leads]
  simp only [refused]

theorem apply_of_opened {opened : FileSystem}
    (leads : tree.fileLocation? directory path = some target)
    (opens : tree.openedFor target options = .ok opened) :
    patch.apply tree directory path options = patch.applyAt opened target options.toDisk := by
  rw [apply, leads]
  simp only [opens]

end Path

/-! ### The seven endings -/

/-- What an application has found when it reads the file: the real file behind the path, and the
tree in which it is read. -/
structure Reaches (tree : FileSystem) (directory : Location) (path : Path)
    (options : ApplyOptions) (target : Location) (opened : FileSystem) (file : File) : Prop where
  leads : tree.fileLocation? directory path = some target
  opens : tree.openedFor target options = .ok opened
  present : tree.node? target = some (.file file)

theorem Reaches.keeps {tree opened : FileSystem} {directory target location : Location}
    {path : Path} {options : ApplyOptions} {file : File} {node : FileSystem.Node}
    (reaches : Reaches tree directory path options target opened file)
    (there : tree.node? location = some node) : opened.node? location = some node :=
  FileSystem.node?_openedFor reaches.opens there

/-- How applying a patch may end: the tree that is left, and what is told. -/
inductive Ending (patch : Patch) (tree : FileSystem) (directory : Location) (path : Path)
    (options : ApplyOptions) : FileSystem → Except ApplyError Report → Prop
  | targetMissing (lost : tree.fileLocation? directory path = none) :
      Ending patch tree directory path options tree (.error (.targetMissing path))
  | sidecarRefused {target : Location} {fault : Fault}
      (leads : tree.fileLocation? directory path = some target)
      (refused : tree.openedFor target options = .error fault) :
      Ending patch tree directory path options tree
        (.error (.inaccessible target.sidecar fault))
  | unreadable {target : Location} {opened : FileSystem} {file : File} {fault : Fault}
      (reaches : Reaches tree directory path options target opened file)
      (refused : file.read = .error fault) :
      Ending patch tree directory path options opened (.error (.inaccessible target fault))
  | markerMissing {target : Location} {opened : FileSystem} {file : File} {text : Text}
      (reaches : Reaches tree directory path options target opened file)
      (reads : file.read = .ok text) (placeless : patch.plan? text = none) :
      Ending patch tree directory path options opened
        (.error (.markerMissing target patch.marker))
  | unwritten {target : Location} {opened : FileSystem} {file : File} {text : Text} {index : Nat}
      {fault : Fault} (reaches : Reaches tree directory path options target opened file)
      (reads : file.read = .ok text)
      (planned : patch.plan? text = some (.insert index))
      (fails : opened.replaceFault? target.parent (Text.encode (patch.splice text index)).size
        options.toDisk = some fault) :
      Ending patch tree directory path options opened (.error (.inaccessible target fault))
  | alreadyApplied {target : Location} {opened : FileSystem} {file : File} {text : Text}
      {index : Nat} (reaches : Reaches tree directory path options target opened file)
      (reads : file.read = .ok text)
      (planned : patch.plan? text = some (.alreadyApplied index)) :
      Ending patch tree directory path options opened
        (.ok {
          target
          outcome := .alreadyApplied (index + 1)
          before := Digest.hex file.bytes
          after := Digest.hex file.bytes })
  | applied {target : Location} {opened after : FileSystem} {file : File} {text : Text}
      {index : Nat} (reaches : Reaches tree directory path options target opened file)
      (reads : file.read = .ok text)
      (planned : patch.plan? text = some (.insert index))
      (written : opened.replaceFault? target.parent (Text.encode (patch.splice text index)).size
        options.toDisk = none)
      (replaced : ∀ other, after.node? other =
        if other = target then
          some (.file {
            bytes := Text.encode (patch.splice text index)
            mode := file.mode
            family := none })
        else opened.node? other) :
      Ending patch tree directory path options after
        (.ok {
          target
          outcome := .applied (index + 1)
          before := Digest.hex file.bytes
          after := Digest.hex (Text.encode (patch.splice text index)) })

/-- Every application ends in one of the seven ways. -/
theorem apply_ending (patch : Patch) (tree : FileSystem) (directory : Location) (path : Path)
    (options : ApplyOptions) :
    Ending patch tree directory path options (patch.apply tree directory path options).1
      (patch.apply tree directory path options).2 := by
  cases leads : tree.fileLocation? directory path with
  | none =>
    rw [apply_of_lost leads]
    exact .targetMissing leads
  | some target =>
  cases opens : tree.openedFor target options with
  | error fault =>
    rw [apply_of_refused leads opens]
    exact .sidecarRefused leads opens
  | ok opened =>
  rw [apply_of_opened leads opens]
  obtain ⟨file, present⟩ := FileSystem.fileLocation?_isFile leads
  have reaches : Reaches tree directory path options target opened file := ⟨leads, opens, present⟩
  have stillThere : opened.node? target = some (.file file) := reaches.keeps present
  cases reads : file.read with
  | error fault =>
    rw [applyAt_of_error (inspect_of_unreadable stillThere reads)]
    exact .unreadable reaches reads
  | ok text =>
    cases planned : patch.plan? text with
    | none =>
      rw [applyAt_of_error (inspect_of_placeless stillThere reads planned)]
      exact .markerMissing reaches reads planned
    | some plan =>
      have inspected := inspect_of_planned stillThere reads planned
      cases plan with
      | alreadyApplied index =>
        rw [applyAt_of_alreadyApplied inspected]
        exact .alreadyApplied reaches reads planned
      | insert index =>
        cases written : opened.replaceFault? target.parent
            (Text.encode (patch.splice text index)).size options.toDisk with
        | some fault =>
          rw [applyAt_of_unwritten inspected written]
          exact .unwritten reaches reads planned written
        | none =>
          rw [applyAt_of_written inspected stillThere written]
          exact .applied reaches reads planned written
            (FileSystem.node?_put opened (FileSystem.ne_nil_of_file present) _)

/-! ### Consequences -/

theorem Ending.leads_of_ok {patch : Patch} {tree after : FileSystem} {directory : Location}
    {path : Path} {options : ApplyOptions} {report : Report}
    (ending : Ending patch tree directory path options after (.ok report)) :
    tree.fileLocation? directory path = some report.target := by
  cases ending with
  | alreadyApplied reaches reads planned => exact reaches.leads
  | applied reaches reads planned written replaced => exact reaches.leads

/-! ### One place -/

/-- The patch, if it is told to have been put into the file at the place. -/
def injection? (patch : Patch) (place : Location) : Except ApplyError Report → Option Patch
  | .ok report => if report.target = place ∧ report.outcome.isApplied then some patch else none
  | .error _ => none

section Places

variable {patch : Patch} {tree opened after : FileSystem} {directory target place : Location}
  {path : Path} {options : ApplyOptions} {result : Except ApplyError Report} {file : File}
  {node : FileSystem.Node}

theorem exists_report_of_injection? {told : Patch}
    (injected : patch.injection? place result = some told) :
    ∃ report, result = .ok report ∧ report.outcome.isApplied = true := by
  cases result with
  | error error => cases injected
  | ok report =>
    rw [injection?] at injected
    split at injected
    · next here => exact ⟨report, rfl, here.2⟩
    · cases injected

/-- What an application makes of the entry at a place, and whether it tells so. -/
inductive Changes (patch : Patch) (tree : FileSystem) (directory : Location) (path : Path)
    (options : ApplyOptions) (after : FileSystem) (result : Except ApplyError Report)
    (place : Location) : Prop
  | untouched (same : after.node? place = tree.node? place)
      (untold : patch.injection? place result = none)
  | injected {file : File} {text : Text} {index : Nat}
      (leads : tree.fileLocation? directory path = some place)
      (present : tree.node? place = some (.file file)) (reads : file.read = .ok text)
      (planned : patch.plan? text = some (.insert index))
      (replaced : after.node? place = some (.file {
        bytes := Text.encode (patch.splice text index)
        mode := file.mode
        family := none }))
      (told : patch.injection? place result = some patch)
  | created {target : Location} {opened : FileSystem} (locked : options.lock = true)
      (leads : tree.fileLocation? directory path = some target)
      (opens : tree.openForWriting target.parent (sidecarName target.name) = .ok (opened, place))
      (kinds : after.kind? = opened.kind?) (free : tree.node? place = none)
      (made : after.node? place = some (.file FileSystem.newFile))
      (untold : patch.injection? place result = none)

/-- Where the block is not put in, only the sidecar may have been created. -/
theorem changes_of_reaches (reaches : Reaches tree directory path options target opened file)
    (kinds : after.kind? = opened.kind?) (same : after.node? place = opened.node? place)
    (untold : patch.injection? place result = none) :
    Changes patch tree directory path options after result place := by
  rcases FileSystem.openedFor_cases reaches.opens with rfl |
    ⟨locked, sidecar, opens, free, made, others⟩
  · exact .untouched same untold
  · by_cases here : place = sidecar
    · subst here
      exact .created locked reaches.leads opens kinds free (same.trans made) untold
    · exact .untouched (same.trans (others place here)) untold

/-- At each place an application does one of three things. -/
theorem Ending.changes (ending : Ending patch tree directory path options after result)
    (place : Location) : Changes patch tree directory path options after result place := by
  cases ending with
  | targetMissing lost => exact .untouched rfl rfl
  | sidecarRefused leads refused => exact .untouched rfl rfl
  | unreadable reaches refused => exact changes_of_reaches reaches rfl rfl rfl
  | markerMissing reaches reads placeless => exact changes_of_reaches reaches rfl rfl rfl
  | unwritten reaches reads planned fails => exact changes_of_reaches reaches rfl rfl rfl
  | alreadyApplied reaches reads planned =>
    exact changes_of_reaches reaches rfl rfl (if_neg fun told => Bool.false_ne_true told.2)
  | @applied target opened after file text index reaches reads planned written replaced =>
    by_cases here : place = target
    · subst here
      exact .injected reaches.leads reaches.present reads planned
        ((replaced place).trans (if_pos rfl)) (if_pos ⟨rfl, rfl⟩)
    · exact changes_of_reaches reaches
        (FileSystem.kind?_eq_of_replaced (reaches.keeps reaches.present) replaced)
        ((replaced place).trans (if_neg here)) (if_neg fun told => here told.1.symm)

/-- An entry that is there is kept, or it is a file and is replaced by a spliced one. -/
theorem Ending.kept_or_spliced (ending : Ending patch tree directory path options after result)
    (present : tree.node? place = some node) :
    after.node? place = some node ∨ ∃ file text index, node = .file file ∧
      file.read = .ok text ∧ patch.plan? text = some (.insert index) ∧
      after.node? place = some (.file {
        bytes := Text.encode (patch.splice text index)
        mode := file.mode
        family := none }) := by
  cases ending.changes place with
  | untouched same untold => exact Or.inl (same.trans present)
  | @injected file text index leads there reads planned replaced told =>
    have isFile : node = .file file := Option.some.inj (present.symm.trans there)
    exact Or.inr ⟨file, text, index, isFile, reads, planned, replaced⟩
  | created locked leads opens kinds free =>
    rw [free] at present
    cases present

end Places

end Patch

end Inlay
