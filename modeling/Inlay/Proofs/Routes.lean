/-
This file compares the two routes to a file: the walk along a path and the trace behind it.

They ask different things, and each fails where the other need not. A trace looks at every place by
its whole path, so it fails if that is too long, or if a directory far above may not be entered. A
walk stops before it goes back from a directory that may not be entered, which a trace does not look
at. But these are all the ways in which they part, as long as the working directory and all above it
are directories. Where a walk ends a trace ends, or is hindered; and where a trace ends a walk ends,
or stands before a closed directory.

For the first direction the invariant is that whatever is above the place reached is a directory.
So no look can find a file on the way there, or nothing. For the second the invariant is in addition
that the place itself is a directory or a file that the trace does not go on from, since it is the
walk now that must not be stopped.
-/
import Inlay.Proofs.Places
import Inlay.Proofs.Resolution

namespace Inlay.FileSystem

/-! ### Below directories -/

/-- The entry is a directory, whether it may be entered or not. -/
def IsDirectory (kinds : Location → Option Kind) (place : Location) : Prop :=
  kinds place = some .directory ∨ kinds place = some .closedDirectory

/-- Everything above the location is a directory. -/
def Rooted (kinds : Location → Option Kind) (place : Location) : Prop :=
  ∀ front, front <+: place → front ≠ place → IsDirectory kinds front

/-- The location is that of a directory below directories. -/
structure Houses (kinds : Location → Option Kind) (place : Location) : Prop where
  rooted : Rooted kinds place
  inside : IsDirectory kinds place

section Below

variable {kinds : Location → Option Kind} {here place : Location} {kind : Kind} {name : Name}

theorem houses_top (top : kinds [] = some .directory) : Houses kinds [] :=
  ⟨fun _ above apart => absurd (List.prefix_nil.1 above) apart, Or.inl top⟩

theorem Houses.under (houses : Houses kinds here) (name : Name) :
    Rooted kinds (here ++ [name]) := by
  intro front above apart
  rcases List.prefix_concat_iff.1 above with same | above
  · exact absurd same apart
  · by_cases last : front = here
    · exact last ▸ houses.inside
    · exact houses.rooted front above last

theorem Houses.parent (houses : Houses kinds here) : Houses kinds here.parent := by
  have above : here.parent <+: here := List.dropLast_prefix here
  by_cases top : here.parent = here
  · rwa [top]
  · exact ⟨fun front front_above apart =>
      houses.rooted front (front_above.trans above) fun same => apart <|
        front_above.eq_of_length_le (same ▸ above.length_le), houses.rooted _ above top⟩

theorem Houses.origin (houses : Houses kinds here) (top : kinds [] = some .directory)
    (path : Path) : Houses kinds (origin here path) := by
  unfold FileSystem.origin
  split
  · exact houses_top top
  · exact houses

/-- What hinders a look for an entry that is there. -/
def Hinders (fault : Fault) : Prop := fault = .nameTooLong ∨ fault = .permissionDenied

theorem lookAlong_or_hinders {names : Location} (seen : kinds (here ++ names) = some kind)
    (above : ∀ front, front <+: names → front ≠ names → IsDirectory kinds (here ++ front)) :
    lookAlong kinds here names = .ok kind ∨
      ∃ fault, lookAlong kinds here names = .error fault ∧ Hinders fault := by
  induction names generalizing here with
  | nil =>
    rw [List.append_nil] at seen
    exact Or.inl (by rw [lookAlong, seen])
  | cons name rest inductionHypothesis =>
    have inside := above [] (List.nil_prefix) (List.cons_ne_nil name rest).symm
    rw [List.append_nil] at inside
    rcases inside with opened | closed
    · by_cases long : nameLimit < Text.byteLength name
      · exact Or.inr ⟨_, by rw [lookAlong, opened]; simp only [if_pos long], Or.inl rfl⟩
      · rw [lookAlong, opened]
        simp only [if_neg long]
        rw [List.append_cons] at seen
        refine inductionHypothesis seen fun front front_above apart => ?_
        rw [← List.append_cons]
        exact above (name :: front) ((List.prefix_cons_inj name).2 front_above)
          fun same => apart (List.cons.inj same).2
    · exact Or.inr ⟨_, by rw [lookAlong, closed], Or.inr rfl⟩

/-- An entry below directories is seen, or the look for it is hindered. -/
theorem look_or_hinders (rooted : Rooted kinds place) (seen : kinds place = some kind) :
    look kinds place = .ok kind ∨ ∃ fault, look kinds place = .error fault ∧ Hinders fault := by
  unfold look
  split
  · exact Or.inr ⟨_, rfl, Or.inl rfl⟩
  · exact lookAlong_or_hinders seen rooted

end Below

/-! ### From a walk to a trace -/

/-- The place of an entry below directories that is a directory itself or can be looked at. -/
structure Footing (kinds : Location → Option Kind) (place : Location) : Prop where
  rooted : Rooted kinds place
  entry : IsDirectory kinds place ∨ ∃ kind, Looks kinds place kind

theorem Houses.footing {kinds : Location → Option Kind} {here : Location}
    (houses : Houses kinds here) : Footing kinds here :=
  ⟨houses.rooted, Or.inl houses.inside⟩

/-- The trace has ended at the place, which has a footing, or it is hindered. -/
def EndsOrHindered (kinds : Location → Option Kind) (place : Location)
    (result : Except Fault Location) : Prop :=
  (result = .ok place ∧ Footing kinds place) ∨ ∃ fault, result = .error fault ∧ Hinders fault

section WalkToTrace

variable {kinds : Location → Option Kind} {here place : Location} {kind : Kind} {name : Name}
  {rest steps : List Step} {walked : Location → Path → List Step → Except Stuck Location}
  {traced : Location → Path → List Step → Except Fault Location}

/-- From a file a walk gets nowhere. -/
theorem eq_nil_of_walkWith_file {aim : Aim} (file : kinds here = some .file)
    (found : walkWith aim kinds walked here steps = .ok place) : steps = [] := by
  cases steps with
  | nil => rfl
  | cons step rest =>
    unfold walkWith at found
    rw [file] at found
    cases found

theorem onwardFault?_ok {fault : Fault}
    (stops : onwardFault? place (.ok kind) rest = some fault) :
    fault = .nameTooLong ∨ kind = .file ∧ backOrEnd rest = true := by
  unfold onwardFault? at stops
  split at stops
  · cases stops
    exact Or.inl rfl
  · cases kind with
    | file =>
      simp only [Option.ite_none_right_eq_some] at stops
      exact Or.inr ⟨rfl, stops.1⟩
    | directory => cases stops
    | closedDirectory => cases stops
    | link target => cases stops

/-- A trace that is hindered in looking for a name is hindered. -/
theorem traceWith_of_look_error {fault : Fault} (hinders : Hinders fault)
    (refused : look kinds (here ++ [name]) = .error fault) :
    ∃ told, traceWith kinds traced here (.into name :: rest) = .error told ∧ Hinders told := by
  obtain ⟨told, stops, same⟩ := onwardFault?_error (here ++ [name]) fault rest
  have moves : Moves kinds here (.into name) rest (.refused told) :=
    .refused (fun target linked => by rw [refused] at linked; cases linked) (refused ▸ stops)
  refine ⟨told, moves.traceWith_eq traced, ?_⟩
  rcases same with rfl | rfl
  · exact hinders
  · exact Or.inl rfl

/-- A trace goes where a walk goes, step by step, unless it is hindered. -/
theorem traceWith_of_walkWith
    (handedOver : ∀ link target rest, Houses kinds link.parent →
      walked link target rest = .ok place →
        EndsOrHindered kinds place (traced link target rest))
    (footing : Footing kinds here) (found : walkWith .find kinds walked here steps = .ok place) :
    EndsOrHindered kinds place (traceWith kinds traced here steps) := by
  induction steps generalizing here with
  | nil => cases found; exact Or.inl ⟨rfl, footing⟩
  | cons step rest inductionHypothesis =>
    obtain ⟨turn, takes⟩ := exists_takes .find kinds here step rest
    rw [takes.walkWith_eq] at found
    cases takes with
    | stay inside => exact inductionHypothesis footing found
    | finalSlash directory => exact inductionHypothesis footing found
    | up inside =>
      exact inductionHypothesis (Houses.mk footing.rooted (Or.inl inside)).parent.footing found
    | @into name _ kind looksUp present notLink =>
      have rooted := (Houses.mk footing.rooted (Or.inl looksUp.inside)).under name
      rcases look_or_hinders rooted present with seen | ⟨fault, refused, hinders⟩
      · have looks := look_eq_ok_iff.1 seen
        cases stops : onwardFault? (here ++ [name]) (.ok kind) rest with
        | none =>
          rw [(Moves.into looks notLink stops).traceWith_eq]
          exact inductionHypothesis ⟨rooted, Or.inr ⟨kind, looks⟩⟩ found
        | some fault =>
          have moves : Moves kinds here (.into name) rest (.refused fault) :=
            .refused (fun target linked => notLink target (Except.ok.inj (seen.symm.trans linked)))
              (seen ▸ stops)
          rw [moves.traceWith_eq]
          rcases onwardFault?_ok stops with rfl | ⟨rfl, back⟩
          · exact Or.inr ⟨_, rfl, Or.inl rfl⟩
          · -- The walk would not have gone on from a file.
            rw [eq_nil_of_walkWith_file present found] at back
            cases back
      · exact Or.inr (traceWith_of_look_error hinders refused)
    | @link name _ target looksUp linked =>
      have houses : Houses kinds here := ⟨footing.rooted, Or.inl looksUp.inside⟩
      rcases look_or_hinders (houses.under name) linked with seen | ⟨fault, refused, hinders⟩
      · have moves : Moves kinds here (.into name) rest (.link (here ++ [name]) target) :=
          .link (look_eq_ok_iff.1 seen)
        rw [moves.traceWith_eq]
        exact handedOver _ _ _ (by rwa [moves.parent_link]) found
      · exact Or.inr (traceWith_of_look_error hinders refused)
    | missing => cases found
    | slashAfterName => cases found
    | nameTooLong => cases found
    | closed => cases found
    | notDirectory => cases found

theorem traceFrom_of_walk (top : kinds [] = some .directory) {links : Nat}
    (footing : Footing kinds here) (found : walk .find kinds links here steps = .ok place) :
    EndsOrHindered kinds place (traceFrom kinds links here steps) := by
  induction links generalizing here steps with
  | zero => exact traceWith_of_walkWith (fun _ _ _ _ refused => by cases refused) footing found
  | succ links inductionHypothesis =>
    exact traceWith_of_walkWith (fun _ target _ houses later =>
      inductionHypothesis (houses.origin top target).footing later) footing found

end WalkToTrace

/-! ### From a trace to a walk -/

/-- The walk has ended at the place, or it stands before a closed directory. -/
def EndsOrClosed (place : Location) (result : Except Stuck Location) : Prop :=
  result = .ok place ∨ ∃ stuck, result = .error stuck ∧ stuck.obstacle = .closed

section TraceToWalk

variable {kinds : Location → Option Kind} {here place : Location} {steps : List Step}
  {walked : Location → Path → List Step → Except Stuck Location}
  {traced : Location → Path → List Step → Except Fault Location}

/-- A walk goes where a trace goes, step by step, unless it stands before a closed directory. -/
theorem walkWith_of_traceWith
    (handedOver : ∀ link target rest, Houses kinds link.parent →
      traced link target rest = .ok place → EndsOrClosed place (walked link target rest))
    (rooted : Rooted kinds here)
    (entry : IsDirectory kinds here ∨ kinds here = some .file ∧ backOrEnd steps = false)
    (found : traceWith kinds traced here steps = .ok place) :
    EndsOrClosed place (walkWith .find kinds walked here steps) := by
  induction steps generalizing here with
  | nil => cases found; exact Or.inl rfl
  | cons step rest inductionHypothesis =>
    have inside : IsDirectory kinds here := entry.resolve_right fun ⟨file, forth⟩ => by
      cases eq_nil_of_traceWith_file file forth found
    have houses : Houses kinds here := ⟨rooted, inside⟩
    obtain ⟨move, moves⟩ := exists_moves kinds here step rest
    rw [moves.traceWith_eq] at found
    rcases inside with opened | closed
    · cases moves with
      | stay =>
        rw [(Takes.stay opened).walkWith_eq]
        exact inductionHypothesis rooted (Or.inl (Or.inl opened)) found
      | finalSlash =>
        rw [(Takes.finalSlash (Or.inl opened)).walkWith_eq]
        exact inductionHypothesis rooted (Or.inl (Or.inl opened)) found
      | up =>
        rw [(Takes.up opened).walkWith_eq]
        exact inductionHypothesis houses.parent.rooted (Or.inl houses.parent.inside) found
      | @into name _ kind looks notLink passes =>
        have looksUp : LooksUp .find kinds here name rest :=
          ⟨opened, fun refused => Aim.noConfusion refused.1, (looks.reached.above rfl).2⟩
        rw [(Takes.into looksUp looks.seen notLink).walkWith_eq]
        refine inductionHypothesis (houses.under name) ?_ found
        cases kind with
        | directory => exact Or.inl (Or.inl looks.seen)
        | closedDirectory => exact Or.inl (Or.inr looks.seen)
        | file => exact Or.inr ⟨looks.seen, backOrEnd_of_file passes⟩
        | link target => exact absurd rfl (notLink target)
      | @link name _ target looks =>
        have looksUp : LooksUp .find kinds here name rest :=
          ⟨opened, fun refused => Aim.noConfusion refused.1, (looks.reached.above rfl).2⟩
        rw [(Takes.link looksUp looks.seen).walkWith_eq]
        exact handedOver _ _ _ (by rwa [Location.parent, List.dropLast_concat]) found
      | refused => cases found
    · by_cases last : step = .finalSlash
      · subst last
        cases moves with
        | finalSlash =>
          rw [(Takes.finalSlash (Or.inr closed)).walkWith_eq]
          exact inductionHypothesis rooted (Or.inl (Or.inr closed)) found
      · rw [(Takes.closed closed last).walkWith_eq]
        exact Or.inr ⟨_, rfl, rfl⟩

theorem walk_of_traceFrom (top : kinds [] = some .directory) {links : Nat}
    (houses : Houses kinds here) (found : traceFrom kinds links here steps = .ok place) :
    EndsOrClosed place (walk .find kinds links here steps) := by
  induction links generalizing here steps with
  | zero =>
    exact walkWith_of_traceWith (fun _ _ _ _ refused => by cases refused) houses.rooted
      (Or.inl houses.inside) found
  | succ links inductionHypothesis =>
    exact walkWith_of_traceWith (fun _ target _ parentHouses later =>
      inductionHypothesis (parentHouses.origin top target) later) houses.rooted
      (Or.inl houses.inside) found

end TraceToWalk

/-! ### Paths -/

section Paths

variable {tree : FileSystem} {directory place : Location} {path : Path}

theorem locate_eq_ok_iff : tree.locate directory path = .ok place ↔
    path ≠ [] ∧ '\x00' ∉ path ∧ Text.byteLength path < pathLimit ∧
      tree.resolve directory path = .ok place := by
  unfold locate
  constructor
  · intro located
    split at located
    · cases located
    next nonempty =>
    split at located
    · cases located
    next noNul =>
    split at located
    · cases located
    next short =>
    split at located
    · next found => cases located; exact ⟨nonempty, noNul, Nat.lt_of_not_le short, found⟩
    · cases located
  · rintro ⟨nonempty, noNul, short, found⟩
    rw [if_neg nonempty, if_neg noNul, if_neg (Nat.not_le.2 short), found]

/-- A file that the path leads to when it is walked is the one that it is traced to, unless the
trace is hindered. -/
theorem fileLocation?_of_locate (houses : Houses tree.kind? directory)
    (located : tree.locate directory path = .ok place) (file : tree.kind? place = some .file) :
    tree.fileLocation? directory path = some place ∨
      ∃ fault, tree.trace directory path = .error fault ∧ Hinders fault := by
  obtain ⟨nonempty, noNul, _, found⟩ := locate_eq_ok_iff.1 located
  have traces : tree.trace directory path =
      traceFrom tree.kind? linkLimit (origin directory path) path.steps := by
    rw [trace, if_neg nonempty, if_neg noNul]
  have ends := traceFrom_of_walk rfl (houses.origin rfl path).footing found
  rw [← traces] at ends
  rcases ends with ⟨traced, footing⟩ | hindered
  · rcases footing.entry with directory | ⟨kind, looks⟩
    · rcases directory with opened | closed
      · cases file.symm.trans opened
      · cases file.symm.trans closed
    · obtain rfl : kind = .file := Option.some.inj (looks.seen.symm.trans file)
      exact Or.inl (fileLocation?_eq_some_iff.2 ⟨traced, looks⟩)
  · exact Or.inr hindered

/-- A place that the path is traced to is where it leads when it is walked, unless the path is too
long to be handed over or the walk stands before a closed directory. -/
theorem locate_of_trace (houses : Houses tree.kind? directory)
    (traced : tree.trace directory path = .ok place) :
    tree.locate directory path = .ok place ∨ pathLimit ≤ Text.byteLength path ∨
      tree.locate directory path = .error .permissionDenied := by
  obtain ⟨nonempty, noNul, found⟩ := trace_eq_ok_iff.1 traced
  by_cases long : pathLimit ≤ Text.byteLength path
  · exact Or.inr (Or.inl long)
  · rcases walk_of_traceFrom rfl (houses.origin rfl path) found with ends | ⟨stuck, ends, closed⟩
    · exact Or.inl (locate_eq_ok_iff.2 ⟨nonempty, noNul, Nat.lt_of_not_le long, ends⟩)
    · refine Or.inr (Or.inr ?_)
      rw [locate, if_neg nonempty, if_neg noNul, if_neg long, resolve, ends]
      simp only [Stuck.fault, closed]

end Paths

end Inlay.FileSystem
