/-
This file collects definitions into a set that can be run.

A set keeps the order in which its definitions were given. No two of them have the same name, and
each comes with its patch, so a run over a set never meets an unsound definition. `ofDefinitions`
builds a set one definition after the other and stops at the first that cannot be added: one whose
name is taken, or else one with a defect.
-/
import Inlay.Definition

namespace Inlay

/-- A definition together with its patch. -/
structure Member where
  definition : Definition
  patch : Patch
  sound : definition.patch = .ok patch
  deriving DecidableEq, Repr

/-- Definitions in order, each with its patch, under distinct names. -/
structure PatchSet where
  members : List Member
  distinct : (members.map fun member => member.definition.name).Nodup
  deriving DecidableEq, Repr

/-- Why a definition cannot be added to a set. -/
inductive SetError
  | duplicateName (name : Text)
  | invalid (name : Text) (defect : Defect)
  deriving DecidableEq, Repr

/-- The message for a definition that cannot be added. -/
def SetError.message : SetError → String
  | .duplicateName name => "duplicate patch name: " ++ String.ofList name
  | .invalid name defect => "patch " ++ String.ofList name ++ ": " ++ defect.message

namespace PatchSet

/-- The set without definitions. -/
def empty : PatchSet := { members := [], distinct := List.nodup_nil }

/-- The names in a set. -/
def names (set : PatchSet) : List Text := set.members.map fun member => member.definition.name

/-- The definitions in a set. -/
def definitions (set : PatchSet) : List Definition := set.members.map Member.definition

theorem nodup_append_name {members : List Member} {member : Member}
    (distinct : (members.map fun member => member.definition.name).Nodup)
    (free : member.definition.name ∉ members.map fun member => member.definition.name) :
    ((members ++ [member]).map fun member => member.definition.name).Nodup := by
  rw [List.map_append, List.nodup_append]
  refine ⟨distinct, List.pairwise_singleton _ _, fun name taken other last => ?_⟩
  rw [List.map_singleton, List.mem_singleton] at last
  exact fun same => free (last ▸ same ▸ taken)

/-- The set with one more definition at its end. -/
def add (set : PatchSet) (definition : Definition) : Except SetError PatchSet :=
  if taken : definition.name ∈ set.names then .error (.duplicateName definition.name)
  else
    match sound : definition.patch with
    | .error defect => .error (.invalid definition.name defect)
    | .ok patch =>
      .ok {
        members := set.members ++ [{ definition, patch, sound }]
        distinct := nodup_append_name set.distinct taken }

/-- The set of these definitions, or why the first that cannot be added cannot. -/
def ofDefinitions (definitions : List Definition) : Except SetError PatchSet :=
  definitions.foldlM add empty

/-- The definition with this name. -/
def get? (set : PatchSet) (name : Text) : Option Member :=
  set.members.find? fun member => member.definition.name = name

/-- The position of the definition with this name. -/
def position? (set : PatchSet) (name : Text) : Option Nat :=
  set.members.findIdx? fun member => member.definition.name = name

/-- The patch that `Definition.intelThreadLocal` describes. -/
def intelThreadLocalPatch : Patch :=
  { toInsertion :=
      { marker := "#elif defined(_MSC_VER)".toList
        sentinel := "__INTEL_LLVM_COMPILER".toList
        block :=
          ["#elif defined(__INTEL_LLVM_COMPILER)".toList,
            "#define ABSL_PER_THREAD_TLS_KEYWORD __thread".toList,
            "#define ABSL_PER_THREAD_TLS 1".toList] }
    sound := by decide }

theorem patch_intelThreadLocal :
    Definition.intelThreadLocal.patch = .ok intelThreadLocalPatch := by
  have same :
      Insertion.ofBlockText Definition.intelThreadLocal.marker
          Definition.intelThreadLocal.sentinel Definition.intelThreadLocal.block =
        intelThreadLocalPatch.toInsertion := by
    decide
  rw [Definition.patch, Patch.ofBlockText, same, Patch.ofInsertion_toInsertion]

/-- The set of a project that brings no definitions of its own. -/
def builtin : PatchSet :=
  { members :=
      [{ definition := .intelThreadLocal
         patch := intelThreadLocalPatch
         sound := patch_intelThreadLocal }]
    distinct := List.pairwise_singleton _ _ }

end PatchSet

end Inlay
