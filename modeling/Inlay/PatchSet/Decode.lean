/-
This file reads definitions out of a TOML table.

The definitions are an array under the key `patch`; without that key there are none. A definition is
a table with a text for each of its five fields, or an array that starts with the five texts in
order. Whatever else a table or an array holds is passed over. The first problem in the order of the
document is reported, and within one table a wrong value before a missing field.
-/
import Inlay.Binary64
import Inlay.PatchSet.Basic
import Inlay.Text.Quoted
import Inlay.Toml.Document

namespace Inlay

/-- The fields of a definition, in order. -/
inductive Field
  | name
  | target
  | marker
  | sentinel
  | block
  deriving DecidableEq, Repr

namespace Field

/-- All fields in order. -/
def all : List Field := [.name, .target, .marker, .sentinel, .block]

/-- The key of a field. -/
def key : Field → Text
  | .name => ['n', 'a', 'm', 'e']
  | .target => ['t', 'a', 'r', 'g', 'e', 't']
  | .marker => ['m', 'a', 'r', 'k', 'e', 'r']
  | .sentinel => ['s', 'e', 'n', 't', 'i', 'n', 'e', 'l']
  | .block => ['b', 'l', 'o', 'c', 'k']

/-- The field with this key. -/
def ofKey? (key : Text) : Option Field := all.find? fun field => field.key = key

end Field

/-- The text that a definition has in a field. -/
def Definition.get (definition : Definition) : Field → Text
  | .name => definition.name
  | .target => definition.target
  | .marker => definition.marker
  | .sentinel => definition.sentinel
  | .block => definition.block

/-- What a reader expects in some place of a document. -/
inductive Expected
  | definitions
  | definition
  | field (field : Field)
  deriving DecidableEq, Repr

/-- How a document differs from what a reader of definitions expects. -/
inductive Mismatch
  | wrongType (found : Toml.Value) (expected : Expected)
  /-- An array that stands for a definition has only so many items. -/
  | tooShort (length : Nat)
  | missingField (field : Field)
  deriving Repr

/-! ### How a mismatch is told -/

/-- How a value is told. -/
def Toml.Value.describe : Toml.Value → String
  | .string text => "string " ++ String.ofList (Text.quoted text)
  | .integer number => "integer `" ++ toString number ++ "`"
  | .float bits => "floating point `" ++ floatText bits ++ "`"
  | .boolean flag => "boolean `" ++ (if flag then "true" else "false") ++ "`"
  | .moment => "map"
  | .array _ => "sequence"
  | .table _ => "map"
where
  floatText (bits : UInt64) : String := String.ofList (Binary64.text bits)

/-- How an expectation is told. -/
def Expected.describe : Expected → String
  | .definitions => "a sequence"
  | .definition => "struct PatchDefinition"
  | .field .target => "path string"
  | .field _ => "a string"

/-- The message for a mismatch. -/
def Mismatch.message : Mismatch → String
  | .wrongType found expected =>
    "invalid type: " ++ found.describe ++ ", expected " ++ expected.describe
  | .tooShort length =>
    "invalid length " ++ toString length ++
      ", expected struct PatchDefinition with 5 elements"
  | .missingField field => "missing field `" ++ String.ofList field.key ++ "`"

/-! ### Reading -/

namespace Definition

/-- The text of a field, from the value given for it. -/
def fieldText (field : Field) : Toml.Value → Except Mismatch Text
  | .string text => .ok text
  | found => .error (.wrongType found (.field field))

/-- Refuses an entry of a table that gives a field anything but a text. -/
def checkEntry (entry : Text × Toml.Value) : Except Mismatch Unit :=
  match Field.ofKey? entry.1 with
  | none => .ok ()
  | some field => (fieldText field entry.2).map fun _ => ()

/-- The text that the entries of a table give to a field. -/
def entryText (entries : List (Text × Toml.Value)) (field : Field) : Except Mismatch Text :=
  match entries.lookup field.key with
  | none => .error (.missingField field)
  | some value => fieldText field value

/-- The definition that a table stands for. -/
def ofTable (entries : List (Text × Toml.Value)) : Except Mismatch Definition := do
  entries.forM checkEntry
  let name ← entryText entries .name
  let target ← entryText entries .target
  let marker ← entryText entries .marker
  let sentinel ← entryText entries .sentinel
  let block ← entryText entries .block
  return { name, target, marker, sentinel, block }

/-- The text that the items of an array give to a field, by its position. -/
def itemText (items : List Toml.Value) (position : Nat) (field : Field) : Except Mismatch Text :=
  match items[position]? with
  | none => .error (.tooShort items.length)
  | some value => fieldText field value

/-- The definition that an array stands for. -/
def ofItems (items : List Toml.Value) : Except Mismatch Definition := do
  let name ← itemText items 0 .name
  let target ← itemText items 1 .target
  let marker ← itemText items 2 .marker
  let sentinel ← itemText items 3 .sentinel
  let block ← itemText items 4 .block
  return { name, target, marker, sentinel, block }

/-- The definition that a value stands for. A date or a time is taken for a table without any of the
fields. -/
def ofValue : Toml.Value → Except Mismatch Definition
  | .table entries => ofTable entries
  | .array items => ofItems items
  | .moment => .error (.missingField .name)
  | found => .error (.wrongType found .definition)

/-- The key of the definitions in a document. -/
def listKey : Text := ['p', 'a', 't', 'c', 'h']

/-- The definitions that the table of a document holds. -/
def ofDocument (entries : List (Text × Toml.Value)) : Except Mismatch (List Definition) :=
  match entries.lookup listKey with
  | none => .ok []
  | some (.array items) => items.mapM ofValue
  | some found => .error (.wrongType found .definitions)

end Definition

/-- What keeps a text from standing for definitions. -/
inductive TomlProblem
  /-- It is no TOML document. -/
  | malformed
  /-- It is a document of another shape. -/
  | unsuitable (mismatch : Mismatch)
  deriving Repr

/-- The message for a text that does not stand for definitions. -/
def TomlProblem.message : TomlProblem → String
  | .malformed => "TOML parse error"
  | .unsuitable mismatch => "TOML parse error: " ++ mismatch.message

/-- The definitions that a text stands for. -/
def Definition.listOfToml (source : Text) : Except TomlProblem (List Definition) :=
  match Toml.read source with
  | none => .error .malformed
  | some entries =>
    match ofDocument entries with
    | .ok definitions => .ok definitions
    | .error mismatch => .error (.unsuitable mismatch)

end Inlay
