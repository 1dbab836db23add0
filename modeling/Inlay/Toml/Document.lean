/-
This file reads a whole document.

A document is read in two steps. First each line is read for itself, where a value may take several
lines of the text: an assignment, a header, or nothing. Then the lines are put together, the
assignments before the first header into the table of the document and those after each header into
the table that it opens. Whatever breaks a rule on the way leaves no document at all, so a document
that is read has been checked to its end.
-/
import Inlay.Toml.ValueReader

namespace Inlay.Toml

/-! ### Lines -/

/-- What a line says. -/
inductive Line
  | blank
  | assignment (key : KeyPath) (value : Value)
  /-- A header in single brackets. -/
  | table (key : KeyPath)
  /-- A header in double brackets. -/
  | element (key : KeyPath)
  deriving Repr

/-- What follows the end of a line, after blanks and perhaps a comment. -/
def readLineEnd (source : Text) : Option Text :=
  let source := skipBlanks source
  let source :=
    match source with
    | '#' :: rest => rest.dropWhile mayStand
    | _ => source
  match source with
  | [] => some []
  | '\n' :: rest => some rest
  | _ => none

/-- Reads a line, with so many turns for each array and inline table. -/
def readLine (turns : Nat) (source : Text) : Option (Line × Text) :=
  match skipBlanks source with
  | '[' :: '[' :: rest => do
    let (key, rest) ← readKey rest
    match rest with
    | ']' :: ']' :: rest => return (.element key, ← readLineEnd rest)
    | _ => none
  | '[' :: rest => do
    let (key, rest) ← readKey rest
    match rest with
    | ']' :: rest => return (.table key, ← readLineEnd rest)
    | _ => none
  | source =>
    match readLineEnd source with
    | some rest => some (.blank, rest)
    | none => do
      let (key, rest) ← readKey source
      match rest with
      | '=' :: rest =>
        let (value, rest) ← readValue turns depthLimit (skipBlanks rest)
        return (.assignment key value, ← readLineEnd rest)
      | _ => none

/-- Reads lines after others, which come in reverse. A line takes a character away at least, so
there are never fewer turns than characters. -/
def readLines : Nat → List Line → Text → Option (List Line)
  | _, lines, [] => some lines.reverse
  | 0, _, _ => none
  | turns + 1, lines, source => do
    let (line, rest) ← readLine (turns + 1) source
    readLines turns (line :: lines) rest

/-! ### Sections -/

/-- The assignments under a header. -/
structure Section where
  /-- Whether the header opens one more of repeated tables. -/
  repeated : Bool
  key : KeyPath
  assignments : List (KeyPath × Value)
  deriving Repr

/-- One more line in front of lines that are already put under their headers. -/
def placeLine (line : Line) (placed : List (KeyPath × Value) × List Section) :
    List (KeyPath × Value) × List Section :=
  match line with
  | .blank => placed
  | .assignment key value => ((key, value) :: placed.1, placed.2)
  | .table key => ([], { repeated := false, key, assignments := placed.1 } :: placed.2)
  | .element key => ([], { repeated := true, key, assignments := placed.1 } :: placed.2)

/-- The assignments before the first header, and the sections. -/
def placeLines (lines : List Line) : List (KeyPath × Value) × List Section :=
  lines.foldr placeLine ([], [])

/-- Puts a section into the table of the document. -/
def addSection (entries : Draft.Entries) (part : Section) : Option Draft.Entries :=
  match part.key.getLast? with
  | none => none
  | some key =>
    let change (_ : Origin) : Draft.Entries → Option Draft.Entries :=
      if part.repeated then Draft.openElement key part.assignments
      else Draft.openTable key part.assignments
    Draft.descend false change part.key.dropLast .header entries

/-- The table that the lines of a document make. -/
def assemble (lines : List Line) : Option (List (Text × Value)) := do
  let (assignments, sections) := placeLines lines
  let entries ← Draft.assignAll [] assignments
  let entries ← sections.foldlM addSection entries
  return Draft.entryValues entries

/-! ### Documents -/

/-- One more character in front of a text with unified line ends, which comes with the character
that the source has first. A carriage return right before a newline is left out. -/
def unifyCharacter (character : Char) (unified : Option Char × Text) : Option Char × Text :=
  if character = '\r' ∧ unified.1 = some '\n' then (some character, unified.2)
  else (some character, character :: unified.2)

/-- The text with newlines alone at its line ends. A carriage return elsewhere stays, and no rule
of the format allows it. -/
def unifyNewlines (source : Text) : Text := (source.foldr unifyCharacter (none, [])).2

/-- The text without a byte order mark in front. -/
def dropByteOrderMark : Text → Text
  | '\ufeff' :: rest => rest
  | source => source

/-- The entries of the table that a document stands for. -/
def read (source : Text) : Option (List (Text × Value)) := do
  let source := unifyNewlines (dropByteOrderMark source)
  let lines ← readLines source.length [] source
  assemble lines

end Inlay.Toml
