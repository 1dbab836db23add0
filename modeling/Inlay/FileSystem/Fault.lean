/-
This file names what can go wrong when entries of a tree are opened, read or changed, and words it.

A fault is a cause. Its message is the wording of the operating system with the number of the error;
only the two faults that arise before or after the system is asked have no number. The wording may
also name the file that was being made or written.
-/
import Inlay.Text.Quoted

namespace Inlay

/-- Why an entry could not be opened, read or changed. -/
inductive Fault
  | missing
  /-- A mode does not allow what was asked for. -/
  | permissionDenied
  /-- A directory cannot have a second name. -/
  | notPermitted
  /-- The place of a new entry is taken. -/
  | alreadyThere
  | notDirectory
  | isDirectory
  /-- A directory cannot be moved below itself. -/
  | belowItself
  /-- A file would grow past the size limit. -/
  | tooLarge
  | diskFull
  /-- The disk itself has failed. -/
  | diskFailed
  | diskReadOnly
  | nameTooLong
  | notEmpty
  | tooManyLinks
  /-- The path holds a NUL character. -/
  | nulInPath
  /-- The bytes of the file are not UTF-8. -/
  | notUnicode
  /-- The fault has come up for the file at this path. -/
  | concerning (path : Text) (fault : Fault)
  deriving DecidableEq, Repr

/-- The message for a fault. -/
def Fault.message : Fault → String
  | .missing => "No such file or directory (os error 2)"
  | .notPermitted => "Operation not permitted (os error 1)"
  | .permissionDenied => "Permission denied (os error 13)"
  | .alreadyThere => "File exists (os error 17)"
  | .notDirectory => "Not a directory (os error 20)"
  | .isDirectory => "Is a directory (os error 21)"
  | .belowItself => "Invalid argument (os error 22)"
  | .tooLarge => "File too large (os error 27)"
  | .diskFull => "No space left on device (os error 28)"
  | .diskFailed => "Input/output error (os error 5)"
  | .diskReadOnly => "Read-only file system (os error 30)"
  | .nameTooLong => "File name too long (os error 36)"
  | .notEmpty => "Directory not empty (os error 39)"
  | .tooManyLinks => "Too many levels of symbolic links (os error 40)"
  | .nulInPath => "file name contained an unexpected NUL byte"
  | .notUnicode => "stream did not contain valid UTF-8"
  | .concerning path fault =>
    fault.message ++ " at path " ++ String.ofList (Text.quoted path)

end Inlay
