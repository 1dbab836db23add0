/-
This file models a tree of directories, files and symbolic links.

Every entry below the top directory has a location, the list of names that leads to it without
links, and the tree is the list of its entries by location. `node?` reads the entry at a location;
`put` and `erase` change exactly one. So an operation that ends in `put` leaves every other entry as
it was, as `node?_put` says.

All is seen as the owner of the entries sees it, who has to keep to the modes: a directory may be
entered, listed and given new names, a file read and written, each only with the bit for it. A file
carries its bytes and its mode at each of its names. Names that are hard links of one file, or of
one symbolic link, share a family number, and whoever writes a file in place writes all names of its
family. Putting a new file at a name leaves the rest of the family alone, which is what replacing a
file by another means.
-/
import Inlay.Lookup
import Inlay.Text.Basic

namespace Inlay

/-- The name of an entry in its directory. -/
abbrev Name := Text

/-- The names that lead from the top directory to an entry. -/
abbrev Location := List Name

namespace Location

/-- The directory that holds the entry; the top directory holds itself. -/
def parent (location : Location) : Location := location.dropLast

/-- The name of the entry in its directory, empty for the top directory. -/
def name (location : Location) : Name := location.getLast?.getD []

/-- The absolute path of a location. -/
def path (location : Location) : Text :=
  if location = [] then ['/'] else location.flatMap fun name => '/' :: name

end Location

/-- A file as one of its names shows it. -/
structure File where
  bytes : ByteArray
  /-- Permission bits, the set-user-id group included. -/
  mode : Nat
  /-- The number shared by all names of the file, if it has more than one. -/
  family : Option Nat

/-- Two files are equal when their bytes, modes and families are. -/
instance : DecidableEq File := fun first second =>
  decidable_of_iff
    (first.bytes.data = second.bytes.data ∧ first.mode = second.mode ∧
      first.family = second.family)
    (by
      obtain ⟨⟨firstData⟩, firstMode, firstFamily⟩ := first
      obtain ⟨⟨secondData⟩, secondMode, secondFamily⟩ := second
      simp)

namespace FileSystem

/-- An entry of a directory. -/
inductive Node
  | directory (mode : Nat)
  | file (file : File)
  /-- A symbolic link. Its family is that of a file. -/
  | link (target : Text) (family : Option Nat)
  deriving DecidableEq

/-- What a walk along a path sees of an entry. -/
inductive Kind
  | directory
  /-- A directory that may not be entered. -/
  | closedDirectory
  | file
  | link (target : Text)
  deriving DecidableEq

/-- The mode of a directory that is made. -/
def newDirectoryMode : Nat := 0o755

/-- Whether a mode lets the owner enter a directory. -/
def mayEnter (mode : Nat) : Bool := mode.testBit 6

/-- Whether a mode lets the owner write a file, or add and remove names in a directory. -/
def mayWrite (mode : Nat) : Bool := mode.testBit 7

/-- Whether a mode lets the owner read a file or list a directory. -/
def mayRead (mode : Nat) : Bool := mode.testBit 8

/-- The kind of an entry. -/
def Node.kind : Node → Kind
  | .directory mode => if mayEnter mode then .directory else .closedDirectory
  | .file _ => .file
  | .link target _ => .link target

/-- The number shared by all names of an entry, if it has more than one. -/
def Node.family? : Node → Option Nat
  | .directory _ => none
  | .file stored => stored.family
  | .link _ family => family

/-- The entry as one of a family. -/
def Node.withFamily (family : Option Nat) : Node → Node
  | .directory mode => .directory mode
  | .file stored => .file { stored with family }
  | .link target _ => .link target family

end FileSystem

/-- The entries of a tree by location. The top directory is always there and has no entry. -/
structure FileSystem where
  nodes : List (Location × FileSystem.Node)
  deriving DecidableEq

namespace FileSystem

/-- The tree with nothing but the top directory. -/
def empty : FileSystem := { nodes := [] }

/-- The entry at a location. -/
def node? (tree : FileSystem) (location : Location) : Option Node :=
  if location = [] then some (.directory newDirectoryMode)
  else tree.nodes.lookup location

/-- What a walk sees at a location. -/
def kind? (tree : FileSystem) (location : Location) : Option Kind :=
  (tree.node? location).map Node.kind

/-- Whether there is a directory at a location in which names may be added and removed. -/
def acceptsNames (tree : FileSystem) (location : Location) : Bool :=
  match tree.node? location with
  | some (.directory mode) => mayWrite mode
  | _ => false

/-- The tree with this entry at the location, in place of the one that was there. -/
def put (tree : FileSystem) (location : Location) (node : Node) : FileSystem :=
  if (tree.nodes.lookup location).isSome then
    { nodes := tree.nodes.map fun entry =>
        if entry.1 = location then (entry.1, node) else entry }
  else { nodes := tree.nodes ++ [(location, node)] }

/-- The tree without the entry at the location. -/
def erase (tree : FileSystem) (location : Location) : FileSystem :=
  { nodes := tree.nodes.filter fun entry => entry.1 ≠ location }

/-! ### Reading after a change -/

theorem lookup_put (tree : FileSystem) (location other : Location) (node : Node) :
    (tree.put location node).nodes.lookup other =
      if other = location then some node else tree.nodes.lookup other := by
  unfold put
  split
  · next present =>
    obtain ⟨old, found⟩ := Option.isSome_iff_exists.1 present
    rw [lookup_map_entry, found]
    rfl
  · next absent =>
    exact lookup_append_entry _ _ _ _ (Option.not_isSome_iff_eq_none.1 absent)

/-- A put changes what is read at its location, and nothing else. -/
theorem node?_put (tree : FileSystem) {location : Location} (below : location ≠ []) (node : Node)
    (other : Location) :
    (tree.put location node).node? other =
      if other = location then some node else tree.node? other := by
  by_cases top : other = []
  · subst top
    simp [node?, Ne.symm below]
  · simp only [node?, if_neg top]
    exact lookup_put tree location other node

theorem filter_eq_self_of_lookup (nodes : List (Location × Node)) (location : Location)
    (free : nodes.lookup location = none) :
    (nodes.filter fun entry => entry.1 ≠ location) = nodes := by
  refine List.filter_eq_self.2 fun entry member => ?_
  have apart : (location == entry.1) = false := by
    simpa using List.lookup_eq_none_iff.1 free entry member
  exact decide_eq_true (Ne.symm (beq_eq_false_iff_ne.1 apart))

/-- At a free location there is nothing to erase. -/
theorem erase_of_free (tree : FileSystem) {location : Location}
    (free : tree.nodes.lookup location = none) : tree.erase location = tree := by
  rw [erase, filter_eq_self_of_lookup _ _ free]

/-- Putting an entry at a free location and erasing it again changes nothing at all. -/
theorem erase_put (tree : FileSystem) {location : Location} (node : Node)
    (free : tree.nodes.lookup location = none) :
    (tree.put location node).erase location = tree := by
  unfold put erase
  rw [free]
  simp only [Option.isSome_none, Bool.false_eq_true, if_false]
  rw [List.filter_append, filter_eq_self_of_lookup _ _ free]
  simp

/-- Of two puts at one location the second counts. -/
theorem put_put (tree : FileSystem) (location : Location) (first second : Node) :
    (tree.put location first).put location second = tree.put location second := by
  have taken : ((tree.put location first).nodes.lookup location).isSome = true := by
    rw [lookup_put, if_pos rfl]
    rfl
  rw [put.eq_def (tree.put location first), if_pos taken]
  unfold put
  split
  · rw [List.map_map]
    refine congrArg FileSystem.mk (List.map_congr_left fun entry _ => ?_)
    by_cases here : entry.1 = location <;> simp [here]
  · next absent =>
    have others : ∀ entry ∈ tree.nodes, entry.1 ≠ location := fun entry member same => by
      have unread := List.lookup_eq_none_iff.1 (Option.not_isSome_iff_eq_none.1 absent) entry member
      exact bne_iff_ne.1 unread same.symm
    rw [List.map_append, List.map_congr_left fun entry member => if_neg (others entry member)]
    simp

/-! ### Changes at two locations -/

theorem map_entry_comm (nodes : List (Location × Node)) {first second : Location}
    (apart : first ≠ second) (node other : Node) :
    ((nodes.map fun entry => if entry.1 = first then (entry.1, node) else entry).map
        fun entry => if entry.1 = second then (entry.1, other) else entry) =
      (nodes.map fun entry => if entry.1 = second then (entry.1, other) else entry).map
        fun entry => if entry.1 = first then (entry.1, node) else entry := by
  rw [List.map_map, List.map_map]
  refine List.map_congr_left fun entry _ => ?_
  by_cases atFirst : entry.1 = first
  · simp [atFirst, apart]
  · by_cases atSecond : entry.1 = second
    · simp [atSecond, Ne.symm apart]
    · simp [atFirst, atSecond]

/-- The order of two puts does not matter if they are at different locations and one of these is
taken. -/
theorem put_comm (tree : FileSystem) {first second : Location} (apart : first ≠ second)
    (node other : Node) (taken : (tree.nodes.lookup second).isSome = true) :
    (tree.put first node).put second other = (tree.put second other).put first node := by
  have stillTaken : ((tree.put first node).nodes.lookup second).isSome = true := by
    rw [lookup_put, if_neg (Ne.symm apart)]
    exact taken
  have asBefore : (tree.put second other).nodes.lookup first = tree.nodes.lookup first := by
    rw [lookup_put, if_neg apart]
  rw [put.eq_def (tree.put first node), put.eq_def (tree.put second other), if_pos stillTaken,
    asBefore]
  unfold put
  rw [if_pos taken]
  split
  · exact congrArg FileSystem.mk (map_entry_comm tree.nodes apart node other)
  · simp [apart]

end FileSystem

end Inlay
