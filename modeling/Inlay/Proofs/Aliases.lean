/-
This file proves that all paths to a file are as good as its own, and that no application moves
them.

The real location of a file spells a path, one name after the other from the top. A trace along it
takes no detour: each name is one that a path can spell, because the trace that has found the file
has read it from a path or from a link, and each entry above is a directory that was entered. Nor is
there a link at its end, which the trace would have followed. So the path leads to the file again,
from wherever it is followed, and to apply a patch there is to apply it through any other path.

The working directory must be spelled by a path too, since a relative path starts there, and no
entry may have the NUL character in its name, for no path with that is followed.

What an application changes is seen by no trace. It keeps the kinds of all entries, so every path
leads where it led. Only with the lock may a path that led nowhere lead somewhere, to the sidecar.
-/
import Inlay.Proofs.Effect
import Inlay.Proofs.Places
import Inlay.Proofs.Resolution

namespace Inlay

/-! ### The path of a file -/

namespace FileSystem

variable {tree : FileSystem} {directory other place target : Location} {path : Path}

/-- What the system promises of a tree and a working directory: no entry has the NUL character in a
name, and the names that lead to the directory can be spelled by a path. -/
structure Hosts (tree : FileSystem) (directory : Location) : Prop where
  named : ∀ location, tree.node? location ≠ none → ∀ name ∈ location, '\x00' ∉ name
  spelled : Spelled directory

/-- Only the entries that a tree lists have names. -/
theorem named_of_nodes (listed : ∀ entry ∈ tree.nodes, ∀ name ∈ entry.1, '\x00' ∉ name)
    (location : Location) (there : tree.node? location ≠ none) :
    ∀ name ∈ location, '\x00' ∉ name := by
  unfold node? at there
  split at there
  · next top => exact fun name member => absurd (top ▸ member) List.not_mem_nil
  · obtain ⟨entry, member, same⟩ : ∃ entry ∈ tree.nodes, entry.1 = location := by
      by_contra none
      refine there (List.lookup_eq_none_iff.2 fun entry member => ?_)
      exact bne_iff_ne.2 fun same => none ⟨entry, member, same.symm⟩
    exact same ▸ listed entry member

theorem Hosts.spelled_of_trace (hosts : tree.Hosts directory)
    (traced : tree.trace directory path = .ok place) : Spelled place := by
  obtain ⟨_, _, found⟩ := trace_eq_ok_iff.1 traced
  exact spelled_of_traceFrom (hosts.spelled.origin path) (Path.allNames_steps path) found

theorem Hosts.noNul_of_looks {kind : Kind} (hosts : tree.Hosts directory)
    (looks : Looks tree.kind? place kind) : ∀ name ∈ place, '\x00' ∉ name :=
  hosts.named place fun free => by cases looks.seen.symm.trans (kind?_eq_none_iff.2 free)

/-- The path of a file that some path leads to leads to it from everywhere. -/
theorem fileLocation?_path (hosts : tree.Hosts directory)
    (leads : tree.fileLocation? directory path = some target) :
    tree.fileLocation? other target.path = some target := by
  obtain ⟨traced, file⟩ := fileLocation?_eq_some_iff.1 leads
  refine fileLocation?_eq_some_iff.2 ⟨?_, file⟩
  exact trace_path (hosts.spelled_of_trace traced) (hosts.noNul_of_looks file) file
    (fun _ => Kind.noConfusion) other

end FileSystem

/-! ### Applying through another path -/

/-- The path of the real file leads to it, and to apply a patch there is to apply it through any
other path. Without the lock no application changes where any path leads or why it leads nowhere,
and with it every path that led somewhere leads there still. -/
theorem Patch.apply_through_alias (patch : Patch) (tree : FileSystem) (directory : Location)
    (path : Path) (options : ApplyOptions) :
    (∀ target, tree.Hosts directory → tree.fileLocation? directory path = some target →
      ∀ other, tree.fileLocation? other target.path = some target ∧
        patch.apply tree other target.path options = patch.apply tree directory path options) ∧
    (options.lock = false → ∀ start query,
      (patch.apply tree directory path options).1.trace start query = tree.trace start query) ∧
    ∀ start query place, tree.trace start query = .ok place →
      (patch.apply tree directory path options).1.trace start query = .ok place := by
  have ending := patch.apply_ending tree directory path options
  refine ⟨fun target hosts leads other => ?_, fun unlocked start query => ?_,
    fun start query place traced => ?_⟩
  · have alsoLeads : tree.fileLocation? other target.path = some target :=
      FileSystem.fileLocation?_path hosts leads
    exact ⟨alsoLeads, by rw [apply, apply, alsoLeads, leads]⟩
  · exact FileSystem.trace_congr (ending.kind?_eq unlocked) start query
  · exact FileSystem.trace_of_extends ending.extends traced

open FileSystem (linked linkedPlace) in
/-- A file is patched through a link as by its own path, and a path past an entry that is missing
leads nowhere afterwards too. -/
theorem Patch.apply_through_alias_linked :
    Patch.elseOn.apply linked [] linkedPlace.path { lock := true } =
        Patch.elseOn.apply linked ["src".toList] "../link.h".toList { lock := true } ∧
      (Patch.elseOn.apply linked ["src".toList] "../link.h".toList {}).1.trace []
        "none/../copy.h".toList = .error .missing := by
  have hosts : linked.Hosts ["src".toList] :=
    ⟨FileSystem.named_of_nodes (by decide), FileSystem.spelled_top.under ⟨by decide, by decide⟩⟩
  have leads : linked.fileLocation? ["src".toList] "../link.h".toList = some linkedPlace := by
    decide +kernel
  obtain ⟨asItself, _, _⟩ := Patch.elseOn.apply_through_alias linked ["src".toList]
    "../link.h".toList { lock := true }
  obtain ⟨_, unmoved, _⟩ := Patch.elseOn.apply_through_alias linked ["src".toList]
    "../link.h".toList {}
  refine ⟨(asItself linkedPlace hosts leads []).2, ?_⟩
  rw [unmoved rfl]
  decide +kernel

end Inlay
