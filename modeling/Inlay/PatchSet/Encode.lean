/-
This file writes a set as a TOML document.

Each definition becomes one of the repeated tables under the key `patch`, with its five fields in
order, and an empty line stands between two of them. The empty set is written as an empty array.
-/
import Inlay.PatchSet.Decode
import Inlay.Toml.StringForm.Writer

namespace Inlay

/-- One line that gives a field its text. -/
def Definition.writeField (definition : Definition) (field : Field) : Text :=
  field.key ++ [' ', '=', ' '] ++ Toml.StringForm.write (definition.get field) ++ ['\n']

/-- A definition as a table. -/
def Definition.write (definition : Definition) : Text :=
  ['[', '['] ++ Definition.listKey ++ [']', ']', '\n'] ++ Field.all.flatMap definition.writeField

/-- A list of definitions as a document. -/
def Definition.writeList (definitions : List Definition) : Text :=
  if definitions = [] then Definition.listKey ++ [' ', '=', ' ', '[', ']', '\n']
  else ((definitions.map Definition.write).intersperse ['\n']).flatten

/-- A set as a document. -/
def PatchSet.toToml (set : PatchSet) : Text := Definition.writeList set.definitions

end Inlay
