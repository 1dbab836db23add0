/-
This file replaces a file by a new one.

The new bytes go into a temporary file in the same directory, under a name that no entry has. Only
a complete temporary file is moved over the name of the old one, which is a single step. There are
five stages to this and each of them may be refused: by the directory, by the size limit, or by the
disk for reasons of its own. Whichever it is, the temporary file is removed again.

Seen from outside there are two ways to end, therefore. A replacement that is refused leaves the
tree as it was, and one that is not puts the new file in the place of the old one.
-/
import Inlay.FileSystem.Access

namespace Inlay.FileSystem

/-! ### The temporary file -/

/-- What the name of every temporary file begins with. -/
def temporaryStem : Name := ['.', 'h', 'd', 'r', 'p', 'a', 't', 'c', 'h']

/-- The length of the longest name in the tree. -/
def longestName (tree : FileSystem) : Nat :=
  tree.nodes.foldr (fun entry longest => max entry.1.name.length longest) 0

/-- A location in the directory that no entry has: its name is longer than all others. -/
def temporaryIn (tree : FileSystem) (directory : Location) : Location :=
  directory ++ [temporaryStem ++ List.replicate (6 + tree.longestName) 'X']

/-- How a message writes the path of a temporary file in the directory. -/
def temporaryPath (directory : Location) : Path :=
  Path.joined directory.path (temporaryStem ++ List.replicate 6 'X')

theorem length_name_le (nodes : List (Location × Node)) (entry : Location × Node)
    (member : entry ∈ nodes) :
    entry.1.name.length ≤
      nodes.foldr (fun entry longest => max entry.1.name.length longest) 0 := by
  induction nodes with
  | nil => cases member
  | cons first nodes inductionHypothesis =>
    rw [List.foldr_cons]
    rcases List.mem_cons.1 member with same | later
    · rw [same]; exact Nat.le_max_left _ _
    · exact Nat.le_trans (inductionHypothesis later) (Nat.le_max_right _ _)

/-- The temporary file takes no entry's place. -/
theorem lookup_temporaryIn (tree : FileSystem) (directory : Location) :
    tree.nodes.lookup (tree.temporaryIn directory) = none := by
  refine List.lookup_eq_none_iff.2 fun entry member => ?_
  have short : entry.1.name.length ≤ tree.longestName := length_name_le tree.nodes entry member
  have long : (tree.temporaryIn directory).name.length = 15 + tree.longestName := by
    simp [temporaryIn, Location.name, temporaryStem]
    omega
  have apart : tree.temporaryIn directory ≠ entry.1 := by
    intro same
    rw [same] at long
    omega
  simpa using apart

/-! ### Stages -/

/-- What is done to replace a file. -/
inductive Stage
  /-- Create the temporary file, which only its owner may use. -/
  | create
  | fill
  /-- Wait until the bytes are on the disk. -/
  | sync
  | setMode
  /-- Move the temporary file over the old one. -/
  | move
  deriving DecidableEq, Repr

/-- The stages in their order. -/
def Stage.all : List Stage := [.create, .fill, .sync, .setMode, .move]

/-- How the disk takes one replacement. -/
structure Disk where
  /-- The size that no written file may exceed. -/
  sizeLimit : Option Nat := none
  /-- A stage that the disk refuses, and why. -/
  refusal : Option (Stage × Fault) := none
  deriving DecidableEq, Repr

/-- Whether a file of this size may be written. -/
def fits (size : Nat) (limit : Option Nat) : Bool :=
  match limit with
  | none => true
  | some bound => size ≤ bound

/-- The mode of a temporary file until it gets that of the old file. -/
def temporaryMode : Nat := 0o600

/-- Moves the entry at one location over another. -/
def moveOver (tree : FileSystem) (source target : Location) : FileSystem :=
  match tree.node? source with
  | some node => (tree.put target node).erase source
  | none => tree

/-- What is against a stage by itself, for a new file of this size in the directory. -/
def Stage.obstacle? (tree : FileSystem) (directory : Location) (size : Nat)
    (limit : Option Nat) : Stage → Option Fault
  | .create =>
    if pathLimit ≤ Text.byteLength (temporaryPath directory) then some .nameTooLong
    else if tree.acceptsNames directory then none
    else some .permissionDenied
  | .fill => if fits size limit then none else some .tooLarge
  | _ => none

/-- How a fault at a stage is told. As long as the temporary file is written its path is named. -/
def Stage.tell (directory : Location) (fault : Fault) : Stage → Fault
  | .create | .fill => .concerning (temporaryPath directory) fault
  | _ => fault

/-- What is told of a stage that is refused, if it is. -/
def Stage.fault? (tree : FileSystem) (directory : Location) (size : Nat) (disk : Disk)
    (stage : Stage) : Option Fault :=
  let refused := disk.refusal.bind fun refusal =>
    if refusal.1 = stage then some refusal.2 else none
  ((stage.obstacle? tree directory size disk.sizeLimit).or refused).map (stage.tell directory)

/-- What a stage makes of a tree, for a new file with these bytes and this mode. -/
def Stage.perform (temporary target : Location) (bytes : ByteArray) (mode : Nat)
    (tree : FileSystem) : Stage → FileSystem
  | .create =>
    tree.put temporary (.file { bytes := .empty, mode := temporaryMode, family := none })
  | .fill => tree.put temporary (.file { bytes, mode := temporaryMode, family := none })
  | .sync => tree
  | .setMode => tree.put temporary (.file { bytes, mode, family := none })
  | .move => tree.moveOver temporary target

/-! ### Replacing -/

/-- Goes through stages from a tree. At the first that is refused the temporary file is removed. -/
def goThrough (fault? : Stage → Option Fault) (perform : FileSystem → Stage → FileSystem)
    (temporary : Location) : List Stage → FileSystem → FileSystem × Except Fault Unit
  | [], tree => (tree, .ok ())
  | stage :: rest, tree =>
    match fault? stage with
    | some fault => (tree.erase temporary, .error fault)
    | none => goThrough fault? perform temporary rest (perform tree stage)

/-- What is told of a replacement that is refused, if it is. -/
def replaceFault? (tree : FileSystem) (directory : Location) (size : Nat) (disk : Disk) :
    Option Fault :=
  Stage.all.findSome? (Stage.fault? tree directory size disk)

/-- Replaces the file at a location by a new file with these bytes and this mode. -/
def replaceFile (tree : FileSystem) (target : Location) (bytes : ByteArray) (mode : Nat)
    (disk : Disk) : FileSystem × Except Fault Unit :=
  let temporary := tree.temporaryIn target.parent
  goThrough (Stage.fault? tree target.parent bytes.size disk)
    (Stage.perform temporary target bytes mode) temporary Stage.all tree

/-! ### What a refusal leaves -/

/-- The tree has at most the temporary file more than the one before it. -/
def Drafting (before : FileSystem) (temporary : Location) (tree : FileSystem) : Prop :=
  tree = before ∨ ∃ draft, tree = before.put temporary (.file draft)

section Stages

variable {before tree : FileSystem} {temporary target : Location} {bytes : ByteArray} {mode : Nat}
  {fault? : Stage → Option Fault} {stage : Stage} {fault : Fault}

theorem Drafting.put (drafting : Drafting before temporary tree) (file : File) :
    Drafting before temporary (tree.put temporary (.file file)) := by
  rcases drafting with rfl | ⟨draft, rfl⟩
  · exact Or.inr ⟨file, rfl⟩
  · exact Or.inr ⟨file, put_put before temporary _ _⟩

/-- No stage but the last touches anything but the temporary file. -/
theorem Drafting.perform (drafting : Drafting before temporary tree) (inner : stage ≠ .move) :
    Drafting before temporary (stage.perform temporary target bytes mode tree) := by
  cases stage with
  | create => exact drafting.put _
  | fill => exact drafting.put _
  | sync => exact drafting
  | setMode => exact drafting.put _
  | move => exact absurd rfl inner

theorem Drafting.erase (drafting : Drafting before temporary tree)
    (free : before.nodes.lookup temporary = none) : tree.erase temporary = before := by
  rcases drafting with rfl | ⟨draft, rfl⟩
  · exact erase_of_free _ free
  · exact erase_put before _ free

/-- The first stage that is refused undoes what the stages in front of it have done. -/
theorem goThrough_of_fault {front rest : List Stage}
    (free : before.nodes.lookup temporary = none) (drafting : Drafting before temporary tree)
    (passes : ∀ other ∈ front, fault? other = none) (inner : ∀ other ∈ front, other ≠ .move)
    (refused : fault? stage = some fault) :
    goThrough fault? (Stage.perform temporary target bytes mode) temporary
      (front ++ stage :: rest) tree = (before, .error fault) := by
  induction front generalizing tree with
  | nil =>
    rw [List.nil_append, goThrough, refused]
    exact congrArg (Prod.mk · _) (drafting.erase free)
  | cons first front inductionHypothesis =>
    obtain ⟨firstPasses, othersPass⟩ := List.forall_mem_cons.1 passes
    obtain ⟨firstInner, othersInner⟩ := List.forall_mem_cons.1 inner
    rw [List.cons_append, goThrough, firstPasses]
    exact inductionHypothesis (drafting.perform firstInner) othersPass othersInner

/-- Nothing comes after the last stage. -/
theorem Stage.ne_move_of_all {front rest : List Stage}
    (order : Stage.all = front ++ stage :: rest) : ∀ other ∈ front, other ≠ .move := by
  have inner : ∀ other ∈ Stage.all.dropLast, other ≠ .move := by decide
  rw [order, List.dropLast_append_of_ne_nil (List.cons_ne_nil stage rest)] at inner
  exact fun other member => inner other (List.mem_append_left _ member)

end Stages

section Replacing

variable (tree : FileSystem) {target : Location} {bytes : ByteArray} (mode : Nat) {disk : Disk}

/-- A replacement that is refused changes nothing. -/
theorem replaceFile_of_fault {fault : Fault}
    (refused : tree.replaceFault? target.parent bytes.size disk = some fault) :
    tree.replaceFile target bytes mode disk = (tree, .error fault) := by
  obtain ⟨front, stage, rest, order, refusedHere, passes⟩ := List.findSome?_eq_some_iff.1 refused
  rw [replaceFile, order]
  exact goThrough_of_fault (lookup_temporaryIn tree _) (Or.inl rfl) passes
    (Stage.ne_move_of_all order) refusedHere

/-- A replacement that is not refused puts the new file in the place of the old one. The temporary
file has come and gone. -/
theorem replaceFile_eq_put (below : target ≠ []) (taken : (tree.node? target).isSome = true)
    (unrefused : tree.replaceFault? target.parent bytes.size disk = none) :
    tree.replaceFile target bytes mode disk =
      (tree.put target (.file { bytes, mode, family := none }), .ok ()) := by
  rw [node?, if_neg below] at taken
  have free : tree.nodes.lookup (tree.temporaryIn target.parent) = none :=
    lookup_temporaryIn tree _
  have temporaryBelow : tree.temporaryIn target.parent ≠ [] := by
    simp [temporaryIn]
  have apart : tree.temporaryIn target.parent ≠ target := fun same => by
    rw [← same, free] at taken
    cases taken
  have passes := List.findSome?_eq_none_iff.1 unrefused
  have goes (stage : Stage) :
      Stage.fault? tree target.parent bytes.size disk stage = none :=
    passes stage (by cases stage <;> decide)
  simp only [replaceFile, Stage.all, goThrough, goes, Stage.perform, put_put]
  rw [moveOver, node?_put _ temporaryBelow, if_pos rfl]
  simp only
  rw [put_comm tree apart _ _ taken, erase_put]
  rw [lookup_put, if_neg apart]
  exact free

end Replacing

/-! ### When there is no refusal -/

/-- Nothing is in the way of a new file of this size in the directory: its temporary path is short
enough, the directory takes new names, the file is not too large, and the disk refuses nothing. -/
structure TakesFile (tree : FileSystem) (directory : Location) (size : Nat) (disk : Disk) :
    Prop where
  short : Text.byteLength (temporaryPath directory) < pathLimit
  accepted : tree.acceptsNames directory = true
  small : fits size disk.sizeLimit = true
  willing : disk.refusal = none

section Refusals

variable {tree : FileSystem} {directory : Location} {size : Nat} {disk : Disk}

/-- A stage passes if neither what it needs nor the disk is against it. -/
theorem Stage.fault?_eq_none_iff {stage : Stage} :
    Stage.fault? tree directory size disk stage = none ↔
      stage.obstacle? tree directory size disk.sizeLimit = none ∧
        ∀ fault, disk.refusal ≠ some (stage, fault) := by
  simp only [Stage.fault?, Option.map_eq_none_iff, Option.or_eq_none_iff, Option.bind_eq_none_iff]
  refine and_congr_right fun _ =>
    ⟨fun willing fault refused => ?_, fun willing refusal refused => ?_⟩
  · have here := willing _ refused
    rw [if_pos rfl] at here
    cases here
  · exact if_neg fun here => willing refusal.2 (by rw [refused, ← here])

theorem Stage.obstacle?_create_eq_none_iff {limit : Option Nat} :
    Stage.create.obstacle? tree directory size limit = none ↔
      Text.byteLength (temporaryPath directory) < pathLimit ∧
        tree.acceptsNames directory = true := by
  rw [Stage.obstacle?]
  split
  · next long => exact ⟨nofun, fun passes => absurd passes.1 (Nat.not_lt.2 long)⟩
  · next short =>
    split
    · next accepted => exact ⟨fun _ => ⟨Nat.lt_of_not_le short, accepted⟩, fun _ => rfl⟩
    · next refused => exact ⟨nofun, fun passes => absurd passes.2 refused⟩

theorem Stage.obstacle?_fill_eq_none_iff {limit : Option Nat} :
    Stage.fill.obstacle? tree directory size limit = none ↔ fits size limit = true := by
  rw [Stage.obstacle?]
  split
  · next small => exact ⟨fun _ => small, fun _ => rfl⟩
  · next large => exact ⟨nofun, fun small => absurd small large⟩

/-- A replacement is not refused exactly if nothing is in its way. -/
theorem replaceFault?_eq_none_iff :
    tree.replaceFault? directory size disk = none ↔ TakesFile tree directory size disk := by
  rw [replaceFault?, List.findSome?_eq_none_iff]
  constructor
  · intro passes
    have goes (stage : Stage) := Stage.fault?_eq_none_iff.1
      (passes stage (by cases stage <;> decide))
    obtain ⟨short, accepted⟩ := Stage.obstacle?_create_eq_none_iff.1 (goes .create).1
    exact {
      short := short
      accepted := accepted
      small := Stage.obstacle?_fill_eq_none_iff.1 (goes .fill).1
      willing := Option.eq_none_iff_forall_ne_some.2 fun refusal =>
        (goes refusal.1).2 refusal.2 }
  · intro takes stage _
    refine Stage.fault?_eq_none_iff.2 ⟨?_, fun fault => by rw [takes.willing]; nofun⟩
    cases stage with
    | create => exact Stage.obstacle?_create_eq_none_iff.2 ⟨takes.short, takes.accepted⟩
    | fill => exact Stage.obstacle?_fill_eq_none_iff.2 takes.small
    | sync => rfl
    | setMode => rfl
    | move => rfl

end Refusals

end Inlay.FileSystem
