/-
This file says all that a run of the tool may change.

Of the commands only `apply` changes anything. For one application there are three possibilities at
each place: the entry is as before, it is the file of the path with a block put in, or it is the
sidecar, empty and new. Runs compose these place by place. Blocks add up, whichever definitions they
are from, and a new sidecar stays empty, because an empty text shows no marker.

So no entry is lost and none changes its type, its mode or where it links to. Every line of a file
is still there, in the old order, and what else is there are the blocks that reports tell of, each
with its empty line. A file that has changed is one that some definition led to before the run
began: later walks may pass what the run has created, but none of them goes on from a file.
-/
import Inlay.Command.Finish
import Inlay.Proofs.Convergence
import Inlay.Proofs.Loading

namespace Inlay

open Text (lines)

/-! ### Lines that are gained -/

/-- The second text has all lines of the first, in order, and besides them what the patches put in:
for each its block and an empty line, with line ends of one kind. -/
structure LinesGained (old new : Text) (patches : List Patch) : Prop where
  kept : (lines old).Sublist (lines new)
  added : ∃ terminators : List Terminator, terminators.length = patches.length ∧
    (lines new).Perm (lines old ++ (List.zipWith (fun patch terminator =>
      patch.block.map (· ++ terminator.text) ++ [terminator.text]) patches terminators).flatten)

namespace LinesGained

variable {old middle new : Text} {front back : List Patch}

theorem refl (text : Text) : LinesGained text text [] where
  kept := List.Sublist.refl _
  added := ⟨[], rfl, by simp⟩

theorem trans (first : LinesGained old middle front) (second : LinesGained middle new back) :
    LinesGained old new (front ++ back) where
  kept := first.kept.trans second.kept
  added := by
    obtain ⟨frontEnds, frontLength, frontLines⟩ := first.added
    obtain ⟨backEnds, backLength, backLines⟩ := second.added
    refine ⟨frontEnds ++ backEnds, ?_, ?_⟩
    · rw [List.length_append, List.length_append, frontLength, backLength]
    · rw [List.zipWith_append frontLength.symm, List.flatten_append, ← List.append_assoc]
      exact backLines.trans (frontLines.append_right _)

/-- A planned insertion gains the lines of its patch. -/
theorem of_planned {patch : Patch} {text : Text} {index : Nat}
    (planned : patch.plan? text = some (.insert index)) :
    LinesGained text (patch.splice text index) [patch] := by
  obtain ⟨⟨line, found, _⟩, _⟩ := (Insertion.plan?_eq_insert_iff.1 planned).2
  have single := patch.isSound.block_single
  refine ⟨Insertion.lines_sublist_lines_splice single found, [Text.terminatorOf line], rfl, ?_⟩
  rw [List.zipWith_cons_cons, List.zipWith_nil_left, List.flatten_singleton,
    Insertion.lines_splice single found, ← Insertion.insertedLines, List.append_assoc]
  have moved : (patch.insertedLines (Text.terminatorOf line) ++ (lines text).drop index).Perm
      ((lines text).drop index ++ patch.insertedLines (Text.terminatorOf line)) :=
    List.perm_append_comm
  have whole := moved.append_left ((lines text).take index)
  rwa [← List.append_assoc _ (List.drop _ _), List.take_append_drop] at whole

end LinesGained

/-! ### What becomes of one place -/

/-- The type of an entry, its mode, and where it links to. -/
inductive FileSystem.Outline
  | directory (mode : Nat)
  | file (mode : Nat)
  | link (target : Text)
  deriving DecidableEq

/-- The outline of an entry: all of it but the bytes of a file and its hard links. -/
def FileSystem.Node.outline : FileSystem.Node → FileSystem.Outline
  | .directory mode => .directory mode
  | .file stored => .file stored.mode
  | .link target _ => .link target

open FileSystem (Node newFile)

/-- What becomes of the entry at a place when these patches are put into its file. -/
inductive Fate : Option Node → Option Node → List Patch → Prop
  | kept {entry : Option Node} : Fate entry entry []
  | created : Fate none (some (.file newFile)) []
  | gained {file : File} {text newText : Text} {patches : List Patch}
      (reads : Text.decode? file.bytes = some text) (nonempty : text ≠ [])
      (gains : LinesGained text newText patches) :
      Fate (some (.file file))
        (some (.file { bytes := Text.encode newText, mode := file.mode, family := none })) patches

theorem Fate.trans {before middle after : Option Node} {front back : List Patch}
    (first : Fate before middle front) (second : Fate middle after back) :
    Fate before after (front ++ back) := by
  cases first with
  | kept => exact second
  | created =>
    cases second with
    | kept => exact .created
    | gained reads nonempty gains =>
      -- Nothing is put into the empty file.
      exact absurd (Option.some.inj (reads.symm.trans (Text.decode?_encode []))) nonempty
  | gained reads nonempty gains =>
    cases second with
    | kept => exact (List.append_nil front).symm ▸ .gained reads nonempty gains
    | gained readsNew _ gainsMore =>
      rw [Text.decode?_encode] at readsNew
      obtain rfl := Option.some.inj readsNew
      exact .gained reads nonempty (gains.trans gainsMore)

section Fates

variable {node : Node} {file : File} {text : Text} {after : Option Node} {patches : List Patch}

theorem Fate.outline_eq (fate : Fate (some node) after patches) :
    ∃ later, after = some later ∧ later.outline = node.outline := by
  cases fate with
  | kept => exact ⟨node, rfl, rfl⟩
  | gained reads nonempty gains => exact ⟨_, rfl, rfl⟩

theorem Fate.of_changed (fate : Fate (some node) after patches) (changed : after ≠ some node) :
    ∃ file text bytes, node = .file file ∧ Text.decode? file.bytes = some text ∧
      after = some (.file { bytes, mode := file.mode, family := none }) := by
  cases fate with
  | kept => exact absurd rfl changed
  | gained reads nonempty gains => exact ⟨_, _, _, rfl, reads, rfl⟩

theorem Fate.of_created (fate : Fate none after patches) (there : after ≠ none) :
    after = some (.file newFile) := by
  cases fate with
  | kept => exact absurd rfl there
  | created => rfl

theorem Fate.linesGained (fate : Fate (some (.file file)) after patches)
    (reads : Text.decode? file.bytes = some text) :
    ∃ later newText, after = some (.file later) ∧ Text.decode? later.bytes = some newText ∧
      LinesGained text newText patches := by
  cases fate with
  | kept => exact ⟨file, text, rfl, reads, .refl text⟩
  | gained readsSame nonempty gains =>
    obtain rfl := Option.some.inj (reads.symm.trans readsSame)
    exact ⟨_, _, rfl, Text.decode?_encode _, gains⟩

end Fates

namespace Command

open Patch (Ending)

/-- The patches that a run tells to have put into the file at a place, in order. -/
def injections (place : Location) (selected : List Member) (entries : List (Entry Report)) :
    List Patch :=
  (selected.zip entries).filterMap fun visit => visit.1.patch.injection? place visit.2.result

section Trails

variable {patch : Patch} {directory : Location} {root path : Path} {lock : Bool}
  {target : Option Path} {options : ApplyOptions} {member : Member} {selected : List Member}
  {tree after : FileSystem} {result : Except ApplyError Report} {entries : List (Entry Report)}
  {place : Location}

theorem injections_cons (place : Location) (member : Member) (rest : List Member)
    (entry : Entry Report) (entries : List (Entry Report)) :
    injections place (member :: rest) (entry :: entries) =
      (member.patch.injection? place entry.result).toList ++ injections place rest entries := by
  rw [injections, List.zip_cons_cons, List.filterMap_cons]
  cases member.patch.injection? place entry.result with
  | none => rfl
  | some patch => rfl

theorem fate_of_ending (ending : Ending patch tree directory path options after result)
    (place : Location) :
    Fate (tree.node? place) (after.node? place) (patch.injection? place result).toList := by
  cases ending.changes place with
  | untouched same untold =>
    rw [same, untold]
    exact .kept
  | injected leads present reads planned replaced told =>
    rw [present, replaced, told]
    refine .gained (File.decode?_of_read reads) (fun empty => ?_) (.of_planned planned)
    rw [empty] at planned
    cases planned
  | created locked leads opens kinds free made untold =>
    rw [free, made, untold]
    exact .created

theorem Trail.fate (trail : Trail directory root lock target selected tree after entries)
    (place : Location) :
    Fate (tree.node? place) (after.node? place) (injections place selected entries) := by
  induction trail with
  | nil => exact .kept
  | cons ending later inductionHypothesis =>
    rw [injections_cons]
    exact (fate_of_ending ending place).trans inductionHypothesis

/-! ### Who has changed it -/

/-- The place is where the sidecar of the file leads that the definition leads to. -/
def NamesSidecar (directory : Location) (root : Path) (target : Option Path) (tree : FileSystem)
    (member : Member) (place : Location) : Prop :=
  ∃ file, tree.fileLocation? directory (targetPath root target member) = some file ∧
    tree.resolveToCreate file.parent (sidecarName file.name) = .ok place

theorem NamesSidecar.ending (names : NamesSidecar directory root target tree member place)
    (ending : Ending patch tree directory path options after result) :
    NamesSidecar directory root target after member place := by
  obtain ⟨file, leads, named⟩ := names
  exact ⟨file, FileSystem.fileLocation?_of_extends ending.extends leads,
    FileSystem.resolveToCreate_of_extends ending.extends named⟩

/-- An entry that a run has created is a sidecar of one of its targets. -/
theorem Trail.exists_sidecar
    (trail : Trail directory root lock target selected tree after entries)
    (free : tree.node? place = none) (there : after.node? place ≠ none) :
    lock = true ∧ ∃ member ∈ selected, NamesSidecar directory root target after member place := by
  induction trail with
  | nil => exact absurd free there
  | @cons member rest tree next after disk result entries ending later inductionHypothesis =>
    cases ending.changes place with
    | untouched same untold =>
      obtain ⟨locked, other, chosen, names⟩ := inductionHypothesis (same.trans free) there
      exact ⟨locked, other, List.mem_cons_of_mem member chosen, names⟩
    | injected leads present =>
      rw [free] at present
      cases present
    | created locked leads opens kinds =>
      have named := (FileSystem.hasWritable_of_openForWriting opens).2.1
      rw [FileSystem.resolveToCreate, ← kinds] at named
      have names : NamesSidecar directory root target next member place :=
        ⟨_, FileSystem.fileLocation?_of_extends ending.extends leads, named⟩
      exact ⟨locked, member, List.mem_cons_self,
        later.keeps (fun ending names => NamesSidecar.ending names ending) names⟩

/-- An entry that a run has changed is a file that one of its definitions led to from the start. -/
theorem Trail.exists_leads {node : Node}
    (trail : Trail directory root lock target selected tree after entries)
    (present : tree.node? place = some node) (changed : after.node? place ≠ some node) :
    ∃ member ∈ selected,
      tree.fileLocation? directory (targetPath root target member) = some place := by
  induction trail with
  | nil => exact absurd present changed
  | @cons member rest tree next after disk result entries ending later inductionHypothesis =>
    cases ending.changes place with
    | untouched same untold =>
      obtain ⟨other, chosen, leads⟩ := inductionHypothesis (same.trans present) changed
      refine ⟨other, List.mem_cons_of_mem member chosen,
        FileSystem.fileLocation?_of_gainsFiles ending.gainsFiles ?_ leads⟩
      rw [present]
      exact Option.some_ne_none node
    | injected leads => exact ⟨member, List.mem_cons_self, leads⟩
    | created locked leads opens kinds free =>
      rw [free] at present
      cases present

/-! ### Whole runs -/

/-- What a run of `apply` may have done to a tree, given what it has told. -/
structure Footprint (directory : Location) (root : Path) (lock : Bool) (target : Option Path)
    (selected : List Member) (entries : List (Entry Report)) (before after : FileSystem) :
    Prop where
  /-- No entry is removed, and none changes its type, its mode or where it links to. -/
  outline_eq : ∀ place node, before.node? place = some node →
    ∃ later, after.node? place = some later ∧ later.outline = node.outline
  /-- What changes are the bytes of a file that a definition leads to, no hard link from then on. -/
  changed : ∀ place node, before.node? place = some node → after.node? place ≠ some node →
    (∃ member ∈ selected,
      before.fileLocation? directory (targetPath root target member) = some place) ∧
    ∃ file text bytes, node = .file file ∧ Text.decode? file.bytes = some text ∧
      after.node? place = some (.file { bytes, mode := file.mode, family := none })
  /-- Only the lock creates something, which is an empty sidecar. -/
  created : ∀ place, before.node? place = none → after.node? place ≠ none →
    after.node? place = some (.file newFile) ∧ lock = true ∧
      ∃ member ∈ selected, NamesSidecar directory root target after member place
  /-- No line of a text is lost, altered or moved past another, and the new ones are the blocks that
  the reports tell of. -/
  linesGained : ∀ place file text, before.node? place = some (.file file) →
    Text.decode? file.bytes = some text →
    ∃ later newText, after.node? place = some (.file later) ∧
      Text.decode? later.bytes = some newText ∧
      LinesGained text newText (injections place selected entries)

theorem Trail.footprint (trail : Trail directory root lock target selected tree after entries) :
    Footprint directory root lock target selected entries tree after where
  outline_eq place node present := by
    have fate := trail.fate place
    rw [present] at fate
    exact fate.outline_eq
  changed place node present different := by
    have fate := trail.fate place
    rw [present] at fate
    exact ⟨trail.exists_leads present different, fate.of_changed different⟩
  created place free there := by
    have fate := trail.fate place
    rw [free] at fate
    exact ⟨fate.of_created there, trail.exists_sidecar free there⟩
  linesGained place file text present reads := by
    have fate := trail.fate place
    rw [present] at fate
    exact fate.linesGained reads

end Trails

section Orders

variable (tree : FileSystem) (directory : Location) (disks : List FileSystem.Disk)
  {invocation : Invocation} {names : List Text} {lock : Bool} {target : Option Path}

theorem run_of_not_apply
    (idle : ∀ names lock target, invocation.action ≠ .apply names lock target) :
    (run tree directory invocation disks).1 = tree := by
  unfold run
  split
  · rfl
  · unfold perform
    split
    · next action => exact absurd action (idle _ _ _)
    · split
      · rfl
      · rfl
    · rfl

/-- A run of `apply` is refused, or visits what the names select. -/
theorem run_of_apply (action : invocation.action = .apply names lock target) :
    (∃ error, run tree directory invocation disks = (tree, .error error)) ∨
      ∃ set selected,
        loadSet tree directory invocation.root invocation.config = .ok set ∧
        selectFor set names target = .ok selected ∧
        run tree directory invocation disks =
          ((applyEach directory invocation.root lock target disks selected tree).1,
            .ok (.applied
              (applyEach directory invocation.root lock target disks selected tree).2)) := by
  unfold run
  cases loaded : loadSet tree directory invocation.root invocation.config with
  | error error => exact Or.inl ⟨error, rfl⟩
  | ok set =>
    simp only [action]
    cases passes : selectFor set names target with
    | error error => exact Or.inl ⟨error, by rw [perform, passes]⟩
    | ok selected =>
      exact Or.inr ⟨set, selected, rfl, passes, perform_apply_of_selected _ _ _ _ _ passes⟩

end Orders

/-- What a process with a complete order may touch, whatever the disk refuses to it. `check` and
`list` leave the tree as it is, and so does an `apply` that is refused. Any other `apply` leaves no
more than its footprint, and opening a sidecar changes nothing that is there. -/
theorem execute_footprint (tree : FileSystem) (directory : Location) (environment : Environment)
    (arguments : List Text) (disks : List FileSystem.Disk) (invocation : Invocation)
    (parsed : Invocation.read environment arguments = .ok invocation) :
    ∃ after told, run tree directory invocation disks = (after, told) ∧
      execute tree directory environment arguments disks = (after, finishOf told) ∧
      (∀ names target, invocation.action = .check names target → after = tree) ∧
      (invocation.action = .list → after = tree) ∧
      (∀ names lock target, invocation.action = .apply names lock target →
        (after = tree ∧ ∃ error, told = .error error) ∨
        ∃ set selected entries,
          loadSet tree directory invocation.root invocation.config = .ok set ∧
          selectFor set names target = .ok selected ∧ told = .ok (.applied entries) ∧
          entries.map Entry.name = (selected.map fun member => member.definition.name) ∧
          Footprint directory invocation.root lock target selected entries tree after) ∧
      ∀ target options opened, tree.openedFor target options = .ok opened →
        ∀ place node, tree.node? place = some node → opened.node? place = some node := by
  refine ⟨(run tree directory invocation disks).1, (run tree directory invocation disks).2, rfl,
    execute_of_read parsed, fun names target action => ?_, fun action => ?_, fun names lock target action => ?_,
    fun target options opened opens place node present =>
      FileSystem.node?_openedFor opens present⟩
  · exact run_of_not_apply tree directory disks fun _ _ _ other => by
      rw [action] at other
      cases other
  · exact run_of_not_apply tree directory disks fun _ _ _ other => by
      rw [action] at other
      cases other
  · rcases run_of_apply tree directory disks action with ⟨error, refused⟩ |
      ⟨set, selected, loaded, passes, ran⟩
    · rw [refused]
      exact Or.inl ⟨rfl, error, rfl⟩
    · have trail := applyEach_trail directory invocation.root lock target disks selected tree
      rw [ran]
      exact Or.inr ⟨set, selected, _, loaded, passes, rfl, trail.names, trail.footprint⟩

/-- A place for the block of the built-in definition. -/
def vendoredText : Text := "#if 0\r\n#elif defined(_MSC_VER)\r\n#endif".toList

def vendoredFile : File := { bytes := Text.encode vendoredText, mode := 0o444, family := none }

/-- A tree with that text in a file that nobody may write. -/
def vendored : FileSystem := FileSystem.linked.put ["tls.h".toList] (.file vendoredFile)

/-- The entries of a run over the built-in set in that tree, with the lock. -/
def vendoredEntries : List (Entry Report) :=
  (applyEach [] ['.'] true (some "tls.h".toList) [] PatchSet.builtin.members vendored).2

theorem injections_vendored :
    injections ["tls.h".toList] PatchSet.builtin.members vendoredEntries =
      [PatchSet.intelThreadLocalPatch] := by
  decide +kernel

theorem loadSet_vendored : loadSet vendored [] ['.'] none = .ok .builtin :=
  (loadSet_determines ..).returns _ (.builtin (by decide +kernel))

theorem run_vendored :
    (run vendored [] {
      root := ['.']
      config := none
      action := .apply [] true (some "tls.h".toList) }).2 = .ok (.applied vendoredEntries) := by
  rw [run, loadSet_vendored]
  simp only
  rw [perform_apply_of_selected vendored [] ['.'] true [] rfl]
  rfl

/-- A check leaves the tree as it is. With the lock the block goes into the file, which keeps its
mode, and all else that is new is an empty file. -/
theorem execute_footprint_vendored :
    (∃ finish, execute vendored [] {} ["check".toList, "--target=tls.h".toList] =
      (vendored, finish)) ∧
    ∃ after finish,
      execute vendored [] {} ["apply".toList, "--lock".toList, "--target=tls.h".toList] =
        (after, finish) ∧
      (∃ later newText, after.node? ["tls.h".toList] = some (.file later) ∧
        later.mode = 0o444 ∧ Text.decode? later.bytes = some newText ∧
        LinesGained vendoredText newText [PatchSet.intelThreadLocalPatch]) ∧
      after.node? ["copy.h".toList] = vendored.node? ["copy.h".toList] ∧
      ∀ place, vendored.node? place = none → after.node? place ≠ none →
        after.node? place = some (.file newFile) := by
  constructor
  · obtain ⟨after, told, _, executes, checks, _⟩ := execute_footprint vendored [] {}
      ["check".toList, "--target=tls.h".toList] []
      { root := ['.'], config := none, action := .check [] (some "tls.h".toList) } (by rfl)
    obtain rfl := checks _ _ rfl
    exact ⟨_, executes⟩
  · obtain ⟨after, told, ran, executes, _, _, applies, _⟩ := execute_footprint vendored [] {}
      ["apply".toList, "--lock".toList, "--target=tls.h".toList] []
      { root := ['.'], config := none, action := .apply [] true (some "tls.h".toList) } (by rfl)
    obtain rfl : .ok (.applied vendoredEntries) = told :=
      run_vendored.symm.trans (congrArg Prod.snd ran)
    rcases applies _ _ _ rfl with ⟨_, error, failed⟩ |
      ⟨set, selected, entries, loaded, passes, told, _, footprint⟩
    · cases failed
    obtain rfl := Except.ok.inj (loadSet_vendored.symm.trans loaded)
    obtain rfl : PatchSet.builtin.members = selected := Except.ok.inj passes
    obtain rfl : vendoredEntries = entries := Summary.applied.inj (Except.ok.inj told)
    have leads : vendored.fileLocation? [] "tls.h".toList = some ["tls.h".toList] := by
      decide +kernel
    obtain ⟨later, newText, there, reads, gains⟩ := footprint.linesGained ["tls.h".toList]
      vendoredFile vendoredText (by decide +kernel) (Text.decode?_encode _)
    obtain ⟨same, present, outline⟩ := footprint.outline_eq ["tls.h".toList] (.file vendoredFile)
      (by decide +kernel)
    obtain rfl : .file later = same := Option.some.inj (there.symm.trans present)
    refine ⟨after, _, executes, ⟨later, newText, there, FileSystem.Outline.file.inj outline, reads,
      injections_vendored ▸ gains⟩, ?_, fun place free created =>
        (footprint.created place free created).1⟩
    by_contra different
    obtain ⟨⟨member, _, reached⟩, _⟩ := footprint.changed ["copy.h".toList] _ rfl different
    cases leads.symm.trans reached

/-- Where no byte can be written the file stays as it is, and the process exits with four. -/
example :
    (execute vendored [] {} ["apply".toList, "--target=tls.h".toList]
      [{ sizeLimit := some 0 }]).1 = vendored ∧
    (execute vendored [] {} ["apply".toList, "--target=tls.h".toList]
      [{ sizeLimit := some 0 }]).2.code = 4 := by
  decide +kernel

end Command

end Inlay
