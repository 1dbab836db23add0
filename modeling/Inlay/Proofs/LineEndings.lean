/-
This file proves that patching a text and changing its line endings may be done in either order.

Putting a carriage return before every newline changes the end of each finished line and nothing
else. So the lines of the changed text are the old ones, each with its end changed, and a needle
without a carriage return or a newline is found in the same of them. An inserted line ends as the
line behind it does, and that line has its end changed too, so the block comes out as if it had been
put in first and changed with the rest.

The law stops at a last line without a newline. There is no end to change in it, and a block before
it ends in newlines alone in both texts.
-/
import Inlay.PatchSet.Basic
import Inlay.Proofs.Idempotence

namespace Inlay

open Text (lines terminatorOf)

namespace Text

/-! ### Changing line endings -/

/-- The text with a carriage return before every newline. -/
def withCarriageReturns (text : Text) : Text :=
  text.flatMap fun character => if character = '\n' then ['\r', '\n'] else [character]

variable {text line needle : Text} {pieces : List Text}

theorem withCarriageReturns_append (front rest : Text) :
    withCarriageReturns (front ++ rest) =
      withCarriageReturns front ++ withCarriageReturns rest :=
  List.flatMap_append

theorem withCarriageReturns_flatten (pieces : List Text) :
    withCarriageReturns pieces.flatten = (pieces.map withCarriageReturns).flatten := by
  rw [List.flatten_eq_flatMap, withCarriageReturns, List.flatMap_assoc]
  rfl

theorem withCarriageReturns_of_single (single : '\n' ∉ line) : withCarriageReturns line = line := by
  induction line with
  | nil => rfl
  | cons character line inductionHypothesis =>
    have other : character ≠ '\n' := fun same => single (same ▸ List.mem_cons_self)
    rw [withCarriageReturns, List.flatMap_cons, if_neg other, ← withCarriageReturns,
      inductionHypothesis fun member => single (List.mem_cons_of_mem _ member)]
    rfl

theorem withCarriageReturns_append_newline (body : Text) :
    withCarriageReturns (body ++ ['\n']) = withCarriageReturns body ++ ['\r', '\n'] :=
  withCarriageReturns_append body ['\n']

/-! ### The lines of the changed text -/

theorem IsFinished.withCarriageReturns (finished : IsFinished line) :
    IsFinished (withCarriageReturns line) := by
  obtain ⟨body, single, rfl⟩ := finished
  rw [withCarriageReturns_append_newline, withCarriageReturns_of_single single]
  exact isFinished_append_terminator single .crlf

theorem IsCut.withCarriageReturns (cut : IsCut pieces) :
    IsCut (pieces.map withCarriageReturns) := by
  induction cut with
  | nil => exact .nil
  | unfinished nonempty single =>
    rw [List.map_cons, withCarriageReturns_of_single single]
    exact .unfinished nonempty single
  | cons finished cut inductionHypothesis =>
    exact .cons finished.withCarriageReturns inductionHypothesis

/-- The changed text is cut where the old one is. -/
theorem lines_withCarriageReturns (text : Text) :
    lines (withCarriageReturns text) = (lines text).map withCarriageReturns := by
  rw [← (isCut_lines text).withCarriageReturns.lines_flatten, ← withCarriageReturns_flatten,
    flatten_lines]

/-- A needle that has neither character of a line ending is in the changed line if in the old. -/
theorem isInfix_withCarriageReturns_iff (single : '\n' ∉ needle) (plain : '\r' ∉ needle)
    (member : line ∈ lines text) : needle <:+: withCarriageReturns line ↔ needle <:+: line := by
  rcases (isCut_lines text).finished_or_single member with ⟨body, bodySingle, rfl⟩ | lineSingle
  · have apart : ∀ character ∈ needle, character ∉ ['\r', '\n'] := by
      intro character inNeedle inEnding
      rcases List.mem_cons.1 inEnding with rfl | last
      · exact plain inNeedle
      · exact single (by rwa [List.mem_singleton.1 last] at inNeedle)
    rw [withCarriageReturns_append_newline, withCarriageReturns_of_single bodySingle,
      isInfix_append_iff_of_disjoint apart, isInfix_append_newline_iff single]
  · rw [withCarriageReturns_of_single lineSingle]

theorem positions_withCarriageReturns (single : '\n' ∉ needle) (plain : '\r' ∉ needle)
    (text : Text) :
    positions needle (lines (withCarriageReturns text)) = positions needle (lines text) := by
  rw [lines_withCarriageReturns]
  ext position
  constructor
  · rintro ⟨changed, place, contains⟩
    rw [List.getElem?_map, Option.map_eq_some_iff] at place
    obtain ⟨line, place, rfl⟩ := place
    exact ⟨line, place,
      (isInfix_withCarriageReturns_iff single plain (List.mem_of_getElem? place)).1 contains⟩
  · rintro ⟨line, place, contains⟩
    refine ⟨withCarriageReturns line, by rw [List.getElem?_map, place, Option.map_some], ?_⟩
    exact (isInfix_withCarriageReturns_iff single plain (List.mem_of_getElem? place)).2 contains

theorem findLine?_withCarriageReturns (single : '\n' ∉ needle) (plain : '\r' ∉ needle)
    (text : Text) : findLine? needle (withCarriageReturns text) = findLine? needle text := by
  refine Option.ext fun index => ?_
  rw [findLine?, findLine?, findIdx?_occurs_eq_some_iff, findIdx?_occurs_eq_some_iff,
    positions_withCarriageReturns single plain]

/-! ### One line of a text -/

theorem getElem?_lines_withCarriageReturns {index : Nat}
    (found : (lines text)[index]? = some line) :
    (lines (withCarriageReturns text))[index]? = some (withCarriageReturns line) := by
  rw [lines_withCarriageReturns, List.getElem?_map, found, Option.map_some]

theorem terminatorOf_of_plain (plain : '\r' ∉ text) (member : line ∈ lines text) :
    terminatorOf line = .lf := by
  refine if_neg fun ends => plain ?_
  rw [← flatten_lines text]
  exact List.mem_flatten.2
    ⟨line, member, (List.isSuffixOf_iff_suffix.1 ends).subset List.mem_cons_self⟩

theorem terminatorOf_withCarriageReturns (ends : ['\n'] <:+ line) :
    terminatorOf (withCarriageReturns line) = .crlf := by
  obtain ⟨body, rfl⟩ := ends
  rw [withCarriageReturns_append_newline]
  exact if_pos (List.isSuffixOf_iff_suffix.2 (List.suffix_append _ _))

end Text

open Text (withCarriageReturns)

/-! ### The patched text -/

namespace Insertion

variable {insertion : Insertion} {text line : Text} {index : Nat}

theorem map_withCarriageReturns_insertedLines (single : ∀ line ∈ insertion.block, '\n' ∉ line) :
    (insertion.insertedLines .lf).map withCarriageReturns = insertion.insertedLines .crlf := by
  rw [insertedLines, insertedLines, List.map_append, List.map_map, List.map_singleton]
  refine congrArg (· ++ [Terminator.crlf.text]) (List.map_congr_left fun line member => ?_)
  exact (Text.withCarriageReturns_append_newline line).trans
    (congrArg (· ++ ['\r', '\n']) (Text.withCarriageReturns_of_single (single line member)))

section Found

variable (single : ∀ line ∈ insertion.block, '\n' ∉ line) (plain : '\r' ∉ text)
  (found : (lines text)[index]? = some line)

include single plain found

/-- Before a line that ends in a newline the block may go in before or after the change. -/
theorem splice_withCarriageReturns (ends : ['\n'] <:+ line) :
    insertion.splice (withCarriageReturns text) index =
      withCarriageReturns (insertion.splice text index) := by
  rw [splice_of_found found, splice_of_found (Text.getElem?_lines_withCarriageReturns found),
    Text.lines_withCarriageReturns, Text.withCarriageReturns_flatten, List.map_append,
    List.map_append, List.map_take, List.map_drop,
    Text.terminatorOf_of_plain plain (List.mem_of_getElem? found),
    Text.terminatorOf_withCarriageReturns ends, map_withCarriageReturns_insertedLines single]

/-- Before a last line without a newline a block that goes in after the change has no carriage
returns, and one that goes in before it gets them. -/
theorem splice_withCarriageReturns_ne (lineSingle : '\n' ∉ line) :
    insertion.splice (withCarriageReturns text) index ≠
      withCarriageReturns (insertion.splice text index) := by
  intro same
  have foundChanged : (lines (withCarriageReturns text))[index]? = some line := by
    rw [Text.getElem?_lines_withCarriageReturns found,
      Text.withCarriageReturns_of_single lineSingle]
  have ending : terminatorOf line = .lf :=
    Text.terminatorOf_of_plain plain (List.mem_of_getElem? found)
  have within : insertion.block.length < insertion.insertedLineCount := Nat.lt_succ_self _
  have separator := getElem?_lines_splice single found within
  have separatorChanged := getElem?_lines_splice single foundChanged within
  rw [ending, getElem?_insertedLines_length] at separator separatorChanged
  rw [same, Text.lines_withCarriageReturns, List.getElem?_map, separator] at separatorChanged
  exact absurd separatorChanged (by decide)

theorem splice_withCarriageReturns_iff :
    insertion.splice (withCarriageReturns text) index =
        withCarriageReturns (insertion.splice text index) ↔ ['\n'] <:+ line := by
  refine ⟨fun same => ?_, splice_withCarriageReturns single plain found⟩
  rcases (Text.isCut_lines text).finished_or_single (List.mem_of_getElem? found) with
    ⟨body, _, rfl⟩ | lineSingle
  · exact List.suffix_append body ['\n']
  · exact absurd same (splice_withCarriageReturns_ne single plain found lineSingle)

end Found

end Insertion

namespace Patch

/-- Without carriage returns in the needles and the text, the changed text has the plan of the old
one, and a block gives the changed form of the old result exactly if the line that it goes before
ends in a newline. So a text is patched to the changed form of what it is patched to unchanged,
unless the marker is on a last line that lacks its newline. -/
theorem splice_crlf_comm (patch : Patch) (text : Text) (markerPlain : '\r' ∉ patch.marker)
    (sentinelPlain : '\r' ∉ patch.sentinel) (textPlain : '\r' ∉ text) :
    patch.plan? (withCarriageReturns text) = patch.plan? text ∧
    (∀ index line, (lines text)[index]? = some line →
      (patch.splice (withCarriageReturns text) index =
        withCarriageReturns (patch.splice text index) ↔ ['\n'] <:+ line)) ∧
    (patch.cycled (withCarriageReturns text) = withCarriageReturns (patch.cycled text) ↔
      ∀ index line, patch.plan? text = some (.insert index) →
        (lines text)[index]? = some line → ['\n'] <:+ line) := by
  have samePlan : patch.plan? (withCarriageReturns text) = patch.plan? text := by
    rw [Insertion.plan?, Insertion.plan?,
      Text.findLine?_withCarriageReturns patch.isSound.sentinel_single sentinelPlain,
      Text.findLine?_withCarriageReturns patch.isSound.marker_single markerPlain]
  have splices (index : Nat) (line : Text) (found : (lines text)[index]? = some line) :=
    Insertion.splice_withCarriageReturns_iff patch.isSound.block_single textPlain found
  refine ⟨samePlan, splices, ?_⟩
  by_cases due : ∃ index, patch.plan? text = some (.insert index)
  · obtain ⟨index, planned⟩ := due
    obtain ⟨⟨line, found, _⟩, _⟩ := (Insertion.plan?_eq_insert_iff.1 planned).2
    rw [Insertion.cycled_of_insert planned, Insertion.cycled_of_insert (samePlan.trans planned),
      splices index line found]
    constructor
    · intro ends other otherLine otherPlanned otherFound
      cases planned.symm.trans otherPlanned
      cases found.symm.trans otherFound
      exact ends
    · exact fun finished => finished index line planned found
  · have idle := not_exists.1 due
    rw [Insertion.cycled_of_not_insert idle,
      Insertion.cycled_of_not_insert fun index => samePlan ▸ idle index]
    exact iff_of_true rfl fun index _ planned => absurd planned (idle index)

end Patch

/-- A header with the marker of the built-in patch, and a last line without a newline. -/
def tlsHeader : Text := "#if HAVE_TLS\n  #elif defined(_MSC_VER)\n#endif".toList

/-- The built-in patch ends all that it adds to a header as the header ends its lines. Only before
the last line, to which nothing is due, would the two texts be patched differently. -/
theorem Patch.splice_crlf_comm_tlsHeader :
    PatchSet.intelThreadLocalPatch.plan? (withCarriageReturns tlsHeader) = some (.insert 1) ∧
      PatchSet.intelThreadLocalPatch.splice (withCarriageReturns tlsHeader) 1 =
        withCarriageReturns (PatchSet.intelThreadLocalPatch.splice tlsHeader 1) ∧
      PatchSet.intelThreadLocalPatch.splice (withCarriageReturns tlsHeader) 2 ≠
        withCarriageReturns (PatchSet.intelThreadLocalPatch.splice tlsHeader 2) ∧
      PatchSet.intelThreadLocalPatch.cycled (withCarriageReturns tlsHeader) =
        withCarriageReturns (PatchSet.intelThreadLocalPatch.cycled tlsHeader) := by
  have planned : PatchSet.intelThreadLocalPatch.plan? tlsHeader = some (.insert 1) := by
    decide +kernel
  have found : (lines tlsHeader)[1]? = some "  #elif defined(_MSC_VER)\n".toList := by decide
  have foundLast : (lines tlsHeader)[2]? = some "#endif".toList := by decide
  have ends : ['\n'] <:+ "  #elif defined(_MSC_VER)\n".toList := by decide
  obtain ⟨same, splices, cycles⟩ := PatchSet.intelThreadLocalPatch.splice_crlf_comm tlsHeader
    (by decide) (by decide) (by decide)
  refine ⟨same.trans planned, (splices 1 _ found).2 ends,
    fun alike => absurd ((splices 2 _ foundLast).1 alike) (by decide),
    cycles.2 fun index line due place => ?_⟩
  cases planned.symm.trans due
  cases found.symm.trans place
  exact ends

end Inlay
