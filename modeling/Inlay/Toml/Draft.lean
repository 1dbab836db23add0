/-
This file builds the tables of a document piece by piece.

TOML lets one table be written in several places, but not in any places. A draft remembers how each
table came to be there: by a header of its own, implied by a longer header, or by dotted keys. A
header may open a table that was only implied, and no other; dotted keys may add to tables that
dotted keys made, and to nothing that a header opened; a value is complete as soon as it is written.
Everything else is refused. Keys stay in the order in which they first came, but a table that was
implied and gets its header later moves to the end.
-/
import Inlay.Toml.Value

namespace Inlay.Toml

/-- A key that may lead through several tables. -/
abbrev KeyPath := List Text

/-- How a table came into a document. -/
inductive Origin
  | header
  /-- By a header that goes through it. -/
  | implied
  /-- By dotted keys that go through it. -/
  | dotted
  deriving DecidableEq, Repr

/-- A part of a document that may still grow. -/
inductive Draft
  /-- A complete value. -/
  | value (value : Value)
  | table (origin : Origin) (entries : List (Text × Draft))
  /-- The tables of repeated double-bracket headers; the last of them may still grow. -/
  | tables (elements : List (List (Text × Draft)))

namespace Draft

/-- The entries of a table that may still grow. -/
abbrev Entries := List (Text × Draft)

/-! ### The value of a draft -/

mutual

/-- What a draft stands for when the document is complete. -/
def toValue : Draft → Value
  | .value complete => complete
  | .table _ entries => .table (entryValues entries)
  | .tables elements => .array (elementValues elements)

/-- The entries of a table with their values. -/
def entryValues : List (Text × Draft) → List (Text × Value)
  | [] => []
  | (key, draft) :: rest => (key, draft.toValue) :: entryValues rest

/-- Repeated tables as values. -/
def elementValues : List (List (Text × Draft)) → List Value
  | [] => []
  | entries :: rest => .table (entryValues entries) :: elementValues rest

end

/-! ### Growing -/

/-- The entries with another draft under a key that is there. -/
def replace (entries : Entries) (key : Text) (draft : Draft) : Entries :=
  entries.map fun entry => if entry.1 = key then (key, draft) else entry

/-- Changes the table that a path leads to from a table. Missing tables on the way are made; dotted
keys do not pass a table that has a header. A path through repeated tables goes into the last. -/
def descend (dotted : Bool) (change : Origin → Entries → Option Entries) :
    KeyPath → Origin → Entries → Option Entries
  | [], origin, entries => change origin entries
  | key :: path, _, entries =>
    match entries.lookup key with
    | none =>
      let origin := if dotted then Origin.dotted else .implied
      (descend dotted change path origin []).map fun below =>
        entries ++ [(key, .table origin below)]
    | some (.value _) => none
    | some (.table origin below) =>
      if dotted ∧ origin = .header then none
      else
        (descend dotted change path origin below).map fun below =>
          replace entries key (.table origin below)
    | some (.tables elements) =>
      match elements.getLast? with
      | none => none
      | some last =>
        (descend dotted change path .header last).map fun last =>
          replace entries key (.tables (elements.dropLast ++ [last]))

/-- Puts a value under a new key of a table: a dotted key into a table that dotted keys made, a
simple one into any other. -/
def insertValue (simple : Bool) (key : Text) (value : Value) (origin : Origin) (entries : Entries) :
    Option Entries :=
  if decide (origin = .dotted) = simple then none
  else if (entries.lookup key).isSome then none
  else some (entries ++ [(key, .value value)])

/-- Writes one line `key = value` into the table under a header. -/
def assign (entries : Entries) (assignment : KeyPath × Value) : Option Entries :=
  match assignment.1.getLast? with
  | none => none
  | some key =>
    let path := assignment.1.dropLast
    descend true (insertValue path.isEmpty key assignment.2) path .header entries

/-- Writes several lines `key = value` into the table under a header. -/
def assignAll (entries : Entries) (assignments : List (KeyPath × Value)) : Option Entries :=
  assignments.foldlM assign entries

/-- Opens the table under a key by its header and writes its lines. -/
def openTable (key : Text) (assignments : List (KeyPath × Value)) (entries : Entries) :
    Option Entries :=
  match entries.lookup key with
  | none =>
    (assignAll [] assignments).map fun below => entries ++ [(key, .table .header below)]
  | some (.table .implied below) =>
    (assignAll below assignments).map fun below =>
      (entries.filter fun entry => entry.1 ≠ key) ++ [(key, .table .header below)]
  | some _ => none

/-- Adds a table to the repeated tables under a key and writes its lines. -/
def openElement (key : Text) (assignments : List (KeyPath × Value)) (entries : Entries) :
    Option Entries :=
  match entries.lookup key with
  | none =>
    (assignAll [] assignments).map fun below => entries ++ [(key, .tables [below])]
  | some (.tables elements) =>
    (assignAll [] assignments).map fun below =>
      replace entries key (.tables (elements ++ [below]))
  | some _ => none

end Draft

end Inlay.Toml
