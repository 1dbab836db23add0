/-
This file says which places their own path leads to.

A location spells a path, one name after the other from the top, if each of its names is one that a
path can spell. Traces that start from such a location end at one, as they read every name from a
path or from a link. And where the system sees an entry that is no link, nothing on the way there is
a link either. So its path takes neither a walk nor a trace on a detour: both end where they should.
-/
import Inlay.Proofs.Traces
import Inlay.Proofs.Walks
import Mathlib.Data.List.Basic
import Mathlib.Data.List.Induction

namespace Inlay

/-! ### Names in paths -/

namespace Path

/-- The name is a single step of a path. -/
structure IsName (name : Name) : Prop where
  noSlash : '/' ∉ name
  step : step? name = some (.into name)

theorem step?_eq_into {piece name : Text} (step : step? piece = some (.into name)) :
    piece = name := by
  unfold step? at step
  split at step
  · cases step
  split at step
  · cases step
  split at step
  · cases step
  cases step
  rfl

theorem IsName.ne_nil {name : Name} (isName : IsName name) : name ≠ [] := by
  rintro rfl
  cases isName.step

theorem slash_not_mem_of_mem_splitOn {path piece : Text} (member : piece ∈ path.splitOn '/') :
    '/' ∉ piece := by
  induction path generalizing piece with
  | nil =>
    rw [List.splitOn_nil, List.mem_singleton] at member
    rw [member]
    exact List.not_mem_nil
  | cons character path inductionHypothesis =>
    rw [List.splitOn_cons_eq_if_modifyHead] at member
    split at member
    · rcases List.mem_cons.1 member with rfl | later
      · exact List.not_mem_nil
      · exact inductionHypothesis later
    · next other =>
      cases pieces : path.splitOn '/' with
      | nil => exact absurd pieces (List.splitOn_ne_nil _ _)
      | cons first rest =>
        rw [pieces, List.modifyHead_cons] at member
        rw [pieces] at inductionHypothesis
        rcases List.mem_cons.1 member with rfl | later
        · refine fun slash => ?_
          rcases List.mem_cons.1 slash with same | inFirst
          · exact other (beq_iff_eq.2 same.symm)
          · exact inductionHypothesis List.mem_cons_self inFirst
        · exact inductionHypothesis (List.mem_cons_of_mem _ later)

/-- The names among the steps are names that a path can spell. -/
def AllNames (steps : List Step) : Prop := ∀ name, Step.into name ∈ steps → IsName name

theorem allNames_steps (path : Path) : AllNames path.steps := by
  intro name member
  rcases List.mem_append.1 member with inside | final
  · obtain ⟨piece, pieceMember, step⟩ := List.mem_filterMap.1 inside
    obtain rfl := step?_eq_into step
    exact ⟨slash_not_mem_of_mem_splitOn pieceMember, step⟩
  · split at final
    · cases List.mem_singleton.1 final
    · cases final

theorem AllNames.append {front back : List Step} (frontNames : AllNames front)
    (backNames : AllNames back) : AllNames (front ++ back) :=
  fun name member => (List.mem_append.1 member).elim (frontNames name) (backNames name)

end Path

namespace FileSystem

/-! ### Locations that a path can spell -/

/-- Each name of the location is one that a path can spell. -/
def Spelled (place : Location) : Prop := ∀ name ∈ place, Path.IsName name

section Spelling

variable {kinds : Location → Option Kind} {here place : Location} {name : Name} {step : Step}
  {rest steps : List Step}

theorem spelled_top : Spelled [] := fun _ member => absurd member List.not_mem_nil

theorem Spelled.front (spelled : Spelled (here ++ [name])) : Spelled here :=
  fun _ member => spelled _ (List.mem_append_left _ member)

theorem Spelled.last (spelled : Spelled (here ++ [name])) : Path.IsName name :=
  spelled name (List.mem_append_right _ List.mem_cons_self)

theorem Spelled.under (spelled : Spelled here) (isName : Path.IsName name) :
    Spelled (here ++ [name]) := fun other member =>
  (List.mem_append.1 member).elim (spelled other) fun last => List.mem_singleton.1 last ▸ isName

theorem Spelled.parent (spelled : Spelled place) : Spelled place.parent :=
  fun name member => spelled name (List.dropLast_subset _ member)

theorem Spelled.origin (spelled : Spelled place) (path : Path) : Spelled (origin place path) := by
  unfold FileSystem.origin
  split
  · exact spelled_top
  · exact spelled

theorem Spelled.next {next : Location} (spelled : Spelled here)
    (names : Path.AllNames (step :: rest)) (moves : Moves kinds here step rest (.onward next)) :
    Spelled next := by
  cases moves with
  | stay => exact spelled
  | finalSlash => exact spelled
  | up => exact spelled.parent
  | into => exact spelled.under (names _ List.mem_cons_self)

theorem Moves.parent_link {link : Location} {target : Path}
    (moves : Moves kinds here step rest (.link link target)) : link.parent = here := by
  cases moves with
  | link => rw [Location.parent, List.dropLast_concat]

theorem spelled_of_traceWith {follow : Location → Path → List Step → Except Fault Location}
    (handedOver : ∀ link target rest, Spelled link.parent → Path.AllNames rest →
      follow link target rest = .ok place → Spelled place)
    (spelled : Spelled here) (names : Path.AllNames steps)
    (found : traceWith kinds follow here steps = .ok place) : Spelled place := by
  induction steps generalizing here with
  | nil => cases found; exact spelled
  | cons step rest inductionHypothesis =>
    have restNames : Path.AllNames rest :=
      fun name member => names name (List.mem_cons_of_mem _ member)
    obtain ⟨move, moves⟩ := exists_moves kinds here step rest
    rw [moves.traceWith_eq] at found
    cases move with
    | onward next => exact inductionHypothesis (spelled.next names moves) restNames found
    | link link target => exact handedOver _ _ _ (moves.parent_link ▸ spelled) restNames found
    | refused fault => cases found

/-- Where a trace ends is spelled, if its start is. -/
theorem spelled_of_traceFrom {links : Nat} (spelled : Spelled here) (names : Path.AllNames steps)
    (found : traceFrom kinds links here steps = .ok place) : Spelled place := by
  induction links generalizing here steps with
  | zero =>
    exact spelled_of_traceWith (fun _ _ _ _ _ refused => by cases refused) spelled names found
  | succ links inductionHypothesis =>
    refine spelled_of_traceWith (fun link target rest parentSpelled restNames later => ?_) spelled
      names found
    exact inductionHypothesis (parentSpelled.origin target)
      ((Path.allNames_steps target).append restNames) later

end Spelling

/-! ### Walks and traces along names -/

section Names

variable {kinds : Location → Option Kind} {here place : Location} {kind : Kind} {name : Name}
  {rest : List Step}

/-- A walk along the names of a location ends there, if that is no link. -/
theorem walkWith_names {follow : Location → Path → List Step → Except Stuck Location}
    (reached : Reached kinds place) (seen : kinds place = some kind)
    (notLink : ∀ target, kind ≠ .link target) (rest : List Step) :
    walkWith .find kinds follow [] (place.map .into ++ rest) =
      walkWith .find kinds follow place rest := by
  induction reached generalizing kind rest with
  | top => rfl
  | @under here name above entered short inductionHypothesis =>
    have takes : Takes .find kinds here (.into name) rest (.onward (here ++ [name])) :=
      .into ⟨entered, fun refused => Aim.noConfusion refused.1, short⟩ seen notLink
    rw [List.map_append, List.append_assoc, inductionHypothesis entered fun _ => Kind.noConfusion]
    exact takes.walkWith_eq follow

theorem walk_names {links : Nat} (looks : Looks kinds place kind)
    (notLink : ∀ target, kind ≠ .link target) :
    walk .find kinds links [] (place.map .into) = .ok place := by
  have ends {follow : Location → Path → List Step → Except Stuck Location} :
      walkWith .find kinds follow [] (place.map .into) = .ok place := by
    have along : walkWith .find kinds follow [] (place.map .into ++ []) = .ok place :=
      walkWith_names looks.reached looks.seen notLink []
    rwa [List.append_nil] at along
  cases links with
  | zero => exact ends
  | succ links => exact ends

theorem byteLength_path_le (here : Location) (name : Name) :
    Text.byteLength here.path ≤ Text.byteLength (Location.path (here ++ [name])) := by
  unfold Location.path
  rw [if_neg (List.append_ne_nil_of_right_ne_nil _ (List.cons_ne_nil _ _))]
  split
  · next top =>
    subst top
    rw [List.nil_append, List.flatMap_singleton, Text.byteLength_cons, Text.byteLength_cons]
    exact Nat.add_le_add_left (Nat.zero_le _) _
  · rw [List.flatMap_append, Text.byteLength_append]
    exact Nat.le_add_right _ _

/-- What is above a place that is seen is seen as well. -/
theorem Looks.above (looks : Looks kinds (here ++ [name]) kind) : Looks kinds here .directory :=
  ⟨Nat.lt_of_le_of_lt (byteLength_path_le here name) looks.short, looks.reached.front,
    (looks.reached.above rfl).1⟩

/-- A trace along the names of a location ends there, if that is no link. -/
theorem traceWith_names {follow : Location → Path → List Step → Except Fault Location}
    (looks : Looks kinds place kind) (notLink : ∀ target, kind ≠ .link target)
    (passes : onwardFault? place (.ok kind) rest = none) :
    traceWith kinds follow [] (place.map .into ++ rest) = traceWith kinds follow place rest := by
  obtain ⟨_, reached, _⟩ := id looks
  induction reached generalizing kind rest with
  | top => rfl
  | @under here name above entered short inductionHypothesis =>
    have aboveSeen := looks.above
    rw [List.map_append, List.append_assoc,
      inductionHypothesis aboveSeen (fun _ => Kind.noConfusion) rfl aboveSeen.short aboveSeen.seen]
    exact (Moves.into looks notLink passes).traceWith_eq follow

theorem traceFrom_names {links : Nat} (looks : Looks kinds place kind)
    (notLink : ∀ target, kind ≠ .link target) :
    traceFrom kinds links [] (place.map .into) = .ok place := by
  have passes : onwardFault? place (.ok kind) [] = none := by cases kind <;> rfl
  have ends {follow : Location → Path → List Step → Except Fault Location} :
      traceWith kinds follow [] (place.map .into) = .ok place := by
    have along : traceWith kinds follow [] (place.map .into ++ []) = .ok place :=
      traceWith_names looks notLink passes
    rwa [List.append_nil] at along
  cases links with
  | zero => exact ends
  | succ links => exact ends

end Names

/-! ### The path of a location -/

section Paths

variable {tree : FileSystem} {place : Location} {kind : Kind}

theorem splitOn_names (spelled : Spelled place) :
    (place.flatMap fun name => '/' :: name).splitOn '/' = [] :: place := by
  induction place using List.reverseRecOn with
  | nil => rfl
  | append_singleton here name inductionHypothesis =>
    rw [List.flatMap_append, List.flatMap_singleton, List.splitOn_append_cons_self,
      inductionHypothesis spelled.front, List.splitOn_eq_singleton spelled.last.noSlash,
      List.cons_append]

theorem getLast?_names (spelled : Spelled place) :
    (place.flatMap fun name => '/' :: name).getLast? ≠ some '/' := by
  rcases List.eq_nil_or_concat place with rfl | ⟨here, name, rfl⟩
  · nofun
  · rw [List.concat_eq_append] at spelled ⊢
    rw [List.flatMap_append, List.flatMap_singleton, List.getLast?_append_cons,
      List.getLast?_cons_of_ne_nil spelled.last.ne_nil]
    exact fun slash => spelled.last.noSlash (List.mem_of_getLast? slash)

/-- The steps of the path of a location are its names. -/
theorem steps_path (spelled : Spelled place) (below : place ≠ []) :
    Path.steps place.path = place.map .into := by
  have single : ∀ name ∈ place, Path.step? name = some (.into name) :=
    fun name member => (spelled name member).step
  rw [Path.steps, Location.path, if_neg below, splitOn_names spelled,
    if_neg (getLast?_names spelled), List.append_nil, List.filterMap_cons_none rfl,
    List.filterMap_congr single]
  exact congrFun List.filterMap_eq_map _

theorem not_mem_path {character : Char} (other : character ≠ '/')
    (absent : ∀ name ∈ place, character ∉ name) : character ∉ place.path := by
  unfold Location.path
  split
  · exact List.not_mem_cons_of_ne_of_not_mem other List.not_mem_nil
  · intro member
    obtain ⟨name, inPlace, inName⟩ := List.mem_flatMap.1 member
    rcases List.mem_cons.1 inName with same | later
    · exact other same
    · exact absent name inPlace later

theorem path_eq_cons (place : Location) : ∃ rest, place.path = '/' :: rest := by
  unfold Location.path
  split
  · exact ⟨[], rfl⟩
  · next below =>
    cases place with
    | nil => exact absurd rfl below
    | cons name rest => exact ⟨_, rfl⟩

theorem path_ne_nil (place : Location) : place.path ≠ [] := by
  obtain ⟨rest, absolute⟩ := path_eq_cons place
  rw [absolute]
  exact List.cons_ne_nil _ _

theorem origin_path (directory place : Location) : origin directory place.path = [] := by
  obtain ⟨rest, absolute⟩ := path_eq_cons place
  rw [origin, absolute]
  rfl

variable (spelled : Spelled place) (noNul : ∀ name ∈ place, '\x00' ∉ name)
  (looks : Looks tree.kind? place kind) (notLink : ∀ target, kind ≠ .link target)
  (directory : Location)

include spelled noNul looks notLink

/-- What is seen at a place is what the path of the place leads the system to. -/
theorem locate_path : tree.locate directory place.path = .ok place := by
  have walked : tree.resolve directory place.path = .ok place := by
    rw [resolve, origin_path]
    by_cases below : place = []
    · subst below
      rfl
    · rw [steps_path spelled below]
      exact walk_names looks notLink
  rw [locate, if_neg (path_ne_nil place), if_neg (not_mem_path (by decide) noNul),
    if_neg (Nat.not_le.2 looks.short), walked]

/-- The path of a place that is seen is traced to the place. -/
theorem trace_path : tree.trace directory place.path = .ok place := by
  rw [trace, if_neg (path_ne_nil place), if_neg (not_mem_path (by decide) noNul), origin_path]
  by_cases below : place = []
  · subst below
    rfl
  · rw [steps_path spelled below]
    exact traceFrom_names looks notLink

end Paths

end FileSystem

end Inlay
