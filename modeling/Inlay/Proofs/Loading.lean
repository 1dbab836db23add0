/-
This file says which set of definitions a run loads, and why it may load none.

A file yields a set if it can be read as text, the text stands for definitions, and these make a
set. The first of the three that does not hold is the reason for yielding none. A run reads the file
that it is told to. If it is told of none it reads that of the project, and only where the project
has no such file does it fall back to the built-in set: never for a file that yields no set.
-/
import Inlay.Command.Run
import Inlay.Proofs.Collection

namespace Inlay

namespace PatchSet

/-! ### One file -/

/-- The file at the path stands for definitions that make the set. -/
inductive Yields (tree : FileSystem) (directory : Location) (path : Path) : PatchSet → Prop
  | intro {source : Text} {definitions : List Definition} {set : PatchSet}
      (reads : tree.readText directory path = .ok source)
      (decodes : Definition.listOfToml source = .ok definitions)
      (accepted : ofDefinitions definitions = .ok set) : Yields tree directory path set

/-- Why the file at the path yields no set. -/
inductive YieldsNone (tree : FileSystem) (directory : Location) (path : Path) : LoadError → Prop
  | unreadable {fault : Fault} (unread : tree.readText directory path = .error fault) :
      YieldsNone tree directory path (.unreadable path fault)
  | unparsable {source : Text} {problem : TomlProblem}
      (reads : tree.readText directory path = .ok source)
      (malformed : Definition.listOfToml source = .error problem) :
      YieldsNone tree directory path (.unparsable path problem)
  | rejected {source : Text} {definitions : List Definition} {error : SetError}
      (reads : tree.readText directory path = .ok source)
      (decodes : Definition.listOfToml source = .ok definitions)
      (rejects : Rejects definitions error) : YieldsNone tree directory path (.rejected error)

theorem load_determines (tree : FileSystem) (directory : Location) (path : Path) :
    Determines (load tree directory path) (Yields tree directory path)
      (YieldsNone tree directory path) where
  returns set yields := by
    obtain ⟨reads, decodes, accepted⟩ := yields
    simp only [load, reads, ofToml, decodes, accepted]
  fails error fails := by
    cases fails with
    | unreadable unread => simp only [load, unread]
    | unparsable reads malformed => simp only [load, reads, ofToml, malformed]
    | rejected reads decodes rejects =>
      simp only [load, reads, ofToml, decodes, (ofDefinitions_determines _).fails _ rejects]
  covers := by
    cases reads : tree.readText directory path with
    | error fault => exact Or.inr ⟨_, .unreadable reads⟩
    | ok source =>
    cases decodes : Definition.listOfToml source with
    | error problem => exact Or.inr ⟨_, .unparsable reads decodes⟩
    | ok definitions =>
    rcases (ofDefinitions_determines definitions).covers with ⟨set, accepted⟩ | ⟨error, rejects⟩
    · exact Or.inl ⟨set, .intro reads decodes accepted⟩
    · exact Or.inr ⟨_, .rejected reads decodes rejects⟩

/-- Where the definitions of a project with this root are kept. -/
def projectPath (root : Path) : Path := Path.joined root fileName

end PatchSet

namespace Command

open PatchSet (Yields YieldsNone projectPath)

/-! ### The file of a run -/

/-- The set that a run with this root uses, if it is told of this file or of none. -/
inductive Loads (tree : FileSystem) (directory : Location) (root : Path) :
    Option Path → PatchSet → Prop
  | file {path : Path} {set : PatchSet} (yields : Yields tree directory path set) :
      Loads tree directory root (some path) set
  | project {set : PatchSet} (present : tree.isFile directory (projectPath root) = true)
      (yields : Yields tree directory (projectPath root) set) :
      Loads tree directory root none set
  | builtin (absent : tree.isFile directory (projectPath root) = false) :
      Loads tree directory root none .builtin

/-- Why a run with this root has no set to use. -/
inductive LoadsNone (tree : FileSystem) (directory : Location) (root : Path) :
    Option Path → RunError → Prop
  | file {path : Path} {error : LoadError} (fails : YieldsNone tree directory path error) :
      LoadsNone tree directory root (some path) (.fileNotLoaded path error)
  | project {error : LoadError} (present : tree.isFile directory (projectPath root) = true)
      (fails : YieldsNone tree directory (projectPath root) error) :
      LoadsNone tree directory root none (.projectNotLoaded root error)

theorem discover_of_present {tree : FileSystem} {directory : Location} {root : Path}
    (present : tree.isFile directory (projectPath root) = true) :
    PatchSet.discover tree directory root = PatchSet.load tree directory (projectPath root) :=
  if_pos present

theorem discover_of_absent {tree : FileSystem} {directory : Location} {root : Path}
    (absent : tree.isFile directory (projectPath root) = false) :
    PatchSet.discover tree directory root = .ok .builtin :=
  if_neg (Bool.eq_false_iff.1 absent)

theorem loadSet_determines (tree : FileSystem) (directory : Location) (root : Path)
    (config : Option Path) :
    Determines (loadSet tree directory root config) (Loads tree directory root config)
      (LoadsNone tree directory root config) where
  returns set loads := by
    cases loads with
    | file yields =>
      simp only [loadSet, (PatchSet.load_determines ..).returns _ yields, Except.mapError]
    | project present yields =>
      simp only [loadSet, discover_of_present present,
        (PatchSet.load_determines ..).returns _ yields, Except.mapError]
    | builtin absent => simp only [loadSet, discover_of_absent absent, Except.mapError]
  fails error fails := by
    cases fails with
    | file fails =>
      simp only [loadSet, (PatchSet.load_determines ..).fails _ fails, Except.mapError]
    | project present fails =>
      simp only [loadSet, discover_of_present present,
        (PatchSet.load_determines ..).fails _ fails, Except.mapError]
  covers := by
    cases config with
    | some path =>
      rcases (PatchSet.load_determines tree directory path).covers with ⟨set, yields⟩ |
        ⟨error, fails⟩
      · exact Or.inl ⟨set, .file yields⟩
      · exact Or.inr ⟨_, .file fails⟩
    | none =>
      cases present : tree.isFile directory (projectPath root) with
      | false => exact Or.inl ⟨_, .builtin present⟩
      | true =>
        rcases (PatchSet.load_determines tree directory (projectPath root)).covers with
          ⟨set, yields⟩ | ⟨error, fails⟩
        · exact Or.inl ⟨set, .project present yields⟩
        · exact Or.inr ⟨_, .project present fails⟩

end Command

end Inlay
