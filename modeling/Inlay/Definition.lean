/-
This file describes a patch by name: what to insert and which file to insert it into.

A definition is what a project writes down, so it may be unsound; `Definition.patch` checks it. Its
target is a path below the root of the project unless it is absolute.
-/
import Inlay.FileSystem.Walk
import Inlay.Patch.Basic

namespace Inlay

/-- A named insertion into a named file. -/
structure Definition where
  name : Text
  /-- Below the root of the project unless absolute. -/
  target : Path
  marker : Text
  sentinel : Text
  /-- The lines to insert, as one text. -/
  block : Text
  deriving DecidableEq, Repr

namespace Definition

/-- The path of the file to patch, for a project with this root. -/
def resolvedTarget (definition : Definition) (root : Path) : Path :=
  Path.joined root definition.target

/-- The patch that the definition describes, or the first defect. -/
def patch (definition : Definition) : Except Defect Patch :=
  Patch.ofBlockText definition.marker definition.sentinel definition.block

/-- Gives Abseil's thread-local storage header a case for the Intel compiler. -/
def intelThreadLocal : Definition :=
  { name := "intel-llvm-tls".toList
    target :=
      "subprojects/abseil-cpp-20240722.0/absl/base/internal/per_thread_tls.h".toList
    marker := "#elif defined(_MSC_VER)".toList
    sentinel := "__INTEL_LLVM_COMPILER".toList
    block :=
      ("#elif defined(__INTEL_LLVM_COMPILER)\n" ++
        "#define ABSL_PER_THREAD_TLS_KEYWORD __thread\n" ++
        "#define ABSL_PER_THREAD_TLS 1\n").toList }

end Definition

end Inlay
