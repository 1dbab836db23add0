/-
This file says what a single step of a walk comes to.

A step leads onward, or to a link, or the walk is stuck there. Which of these it is depends on the
entry where the walk stands and, for a name, on the entry of that name. Every statement about walks
is an induction on the steps whose cases are these three turns, and what it needs to know of a turn
is a lemma about `Takes`.
-/
import Inlay.Apply

namespace Inlay

namespace FileSystem

/-- What a step of a walk comes to. -/
inductive Turn
  | onward (next : Location)
  | link (place : Location) (target : Path)
  | stuck (stuck : Stuck)

/-- A name may be looked up in the directory where the walk stands. -/
structure LooksUp (aim : Aim) (kinds : Location → Option Kind) (here : Location) (name : Name)
    (rest : List Step) : Prop where
  inside : kinds here = some .directory
  allowed : ¬ (aim = .create ∧ rest = [.finalSlash])
  short : Text.byteLength name ≤ nameLimit

/-- With these steps behind it, the step comes to this turn. -/
inductive Takes (aim : Aim) (kinds : Location → Option Kind) (here : Location) :
    Step → List Step → Turn → Prop
  | stay {rest : List Step} (inside : kinds here = some .directory) :
      Takes aim kinds here .stay rest (.onward here)
  | up {rest : List Step} (inside : kinds here = some .directory) :
      Takes aim kinds here .up rest (.onward here.parent)
  | finalSlash {rest : List Step}
      (directory : kinds here = some .directory ∨ kinds here = some .closedDirectory) :
      Takes aim kinds here .finalSlash rest (.onward here)
  | into {name : Name} {rest : List Step} {kind : Kind}
      (looksUp : LooksUp aim kinds here name rest) (present : kinds (here ++ [name]) = some kind)
      (notLink : ∀ target, kind ≠ .link target) :
      Takes aim kinds here (.into name) rest (.onward (here ++ [name]))
  | link {name : Name} {rest : List Step} {target : Path}
      (looksUp : LooksUp aim kinds here name rest)
      (linked : kinds (here ++ [name]) = some (.link target)) :
      Takes aim kinds here (.into name) rest (.link (here ++ [name]) target)
  | missing {name : Name} {rest : List Step} (looksUp : LooksUp aim kinds here name rest)
      (free : kinds (here ++ [name]) = none) :
      Takes aim kinds here (.into name) rest (.stuck ⟨.missing, here ++ [name], rest⟩)
  | slashAfterName {name : Name} {rest : List Step} (inside : kinds here = some .directory)
      (refused : aim = .create ∧ rest = [.finalSlash]) :
      Takes aim kinds here (.into name) rest (.stuck ⟨.slashAfterName, here ++ [name], rest⟩)
  | nameTooLong {name : Name} {rest : List Step} (inside : kinds here = some .directory)
      (allowed : ¬ (aim = .create ∧ rest = [.finalSlash]))
      (long : nameLimit < Text.byteLength name) :
      Takes aim kinds here (.into name) rest (.stuck ⟨.nameTooLong, here ++ [name], rest⟩)
  | closed {step : Step} {rest : List Step} (closed : kinds here = some .closedDirectory)
      (enters : step ≠ .finalSlash) :
      Takes aim kinds here step rest (.stuck ⟨.closed, here, step :: rest⟩)
  | notDirectory {step : Step} {rest : List Step} (noDirectory : kinds here ≠ some .directory)
      (notClosed : kinds here ≠ some .closedDirectory) :
      Takes aim kinds here step rest (.stuck ⟨.notDirectory, here, step :: rest⟩)

section Turns

variable {aim : Aim} {kinds : Location → Option Kind} {here : Location} {step : Step}
  {rest : List Step} {turn : Turn}

/-- Every step comes to a turn. -/
theorem exists_takes (aim : Aim) (kinds : Location → Option Kind) (here : Location) (step : Step)
    (rest : List Step) : ∃ turn, Takes aim kinds here step rest turn := by
  by_cases inside : kinds here = some .directory
  · cases step with
    | stay => exact ⟨_, .stay inside⟩
    | finalSlash => exact ⟨_, .finalSlash (Or.inl inside)⟩
    | up => exact ⟨_, .up inside⟩
    | into name =>
      by_cases refused : aim = .create ∧ rest = [.finalSlash]
      · exact ⟨_, .slashAfterName inside refused⟩
      by_cases long : nameLimit < Text.byteLength name
      · exact ⟨_, .nameTooLong inside refused long⟩
      have looksUp : LooksUp aim kinds here name rest := ⟨inside, refused, Nat.le_of_not_lt long⟩
      cases seen : kinds (here ++ [name]) with
      | none => exact ⟨_, .missing looksUp seen⟩
      | some kind =>
        cases kind with
        | link target => exact ⟨_, .link looksUp seen⟩
        | directory => exact ⟨_, .into looksUp seen fun _ => Kind.noConfusion⟩
        | closedDirectory => exact ⟨_, .into looksUp seen fun _ => Kind.noConfusion⟩
        | file => exact ⟨_, .into looksUp seen fun _ => Kind.noConfusion⟩
  · by_cases closed : kinds here = some .closedDirectory
    · by_cases last : step = .finalSlash
      · subst last
        exact ⟨_, .finalSlash (Or.inr closed)⟩
      · exact ⟨_, .closed closed last⟩
    · exact ⟨_, .notDirectory inside closed⟩

/-- How a walk goes on after a turn. -/
def Turn.proceed (onward : Location → Except Stuck Location)
    (follow : Location → Path → Except Stuck Location) : Turn → Except Stuck Location
  | .onward next => onward next
  | .link place target => follow place target
  | .stuck reason => .error reason

/-- A walk takes the turn that its first step comes to. -/
theorem Takes.walkWith_eq (takes : Takes aim kinds here step rest turn)
    (follow : Location → Path → List Step → Except Stuck Location) :
    walkWith aim kinds follow here (step :: rest) =
      turn.proceed (fun next => walkWith aim kinds follow next rest)
        fun place target => follow place target rest := by
  cases takes with
  | stay inside => rw [walkWith, inside]; rfl
  | up inside => rw [walkWith, inside]; rfl
  | finalSlash directory =>
    rcases directory with inside | closed
    · rw [walkWith, inside]; rfl
    · rw [walkWith, closed]; rfl
  | @into _ _ kind looksUp present notLink =>
    rw [walkWith, looksUp.inside]
    simp only [if_neg looksUp.allowed, if_neg (Nat.not_lt.2 looksUp.short), present]
    cases kind with
    | link target => exact absurd rfl (notLink target)
    | directory => rfl
    | closedDirectory => rfl
    | file => rfl
  | link looksUp linked =>
    rw [walkWith, looksUp.inside]
    simp only [if_neg looksUp.allowed, if_neg (Nat.not_lt.2 looksUp.short), linked]
    rfl
  | missing looksUp free =>
    rw [walkWith, looksUp.inside]
    simp only [if_neg looksUp.allowed, if_neg (Nat.not_lt.2 looksUp.short), free]
    rfl
  | slashAfterName inside refused =>
    rw [walkWith, inside]
    simp only [if_pos refused]
    rfl
  | nameTooLong inside allowed long =>
    rw [walkWith, inside]
    simp only [if_neg allowed, if_pos long]
    rfl
  | closed closed enters =>
    unfold walkWith
    rw [closed]
    simp only [if_neg enters]
    rfl
  | notDirectory noDirectory notClosed =>
    unfold walkWith
    split
    · next inside => exact absurd inside noDirectory
    · next closed => exact absurd closed notClosed
    · rfl

/-- A step that misses an entry is a name that was looked up, and there is none. -/
theorem Takes.exists_of_missing {stuck : Stuck}
    (takes : Takes aim kinds here step rest (.stuck stuck)) (missing : stuck.obstacle = .missing) :
    ∃ name, step = .into name ∧ LooksUp aim kinds here name rest ∧
      stuck = ⟨.missing, here ++ [name], rest⟩ ∧ kinds stuck.place = none := by
  cases takes with
  | missing looksUp free => exact ⟨_, rfl, looksUp, rfl, free⟩
  | slashAfterName => cases missing
  | nameTooLong => cases missing
  | closed => cases missing
  | notDirectory => cases missing

end Turns

/-! ### Walks that miss an entry -/

section Walks

variable {aim : Aim} {kinds : Location → Option Kind} {here : Location} {steps : List Step}
  {stuck : Stuck}

/-- A walk that misses an entry names a place without one, if those that it hands over to do. -/
theorem walkWith_missing {follow : Location → Path → List Step → Except Stuck Location}
    (handedOver : ∀ link target rest stuck, follow link target rest = .error stuck →
      stuck.obstacle = .missing → kinds stuck.place = none)
    (failed : walkWith aim kinds follow here steps = .error stuck)
    (missing : stuck.obstacle = .missing) : kinds stuck.place = none := by
  induction steps generalizing here with
  | nil => cases failed
  | cons step rest inductionHypothesis =>
    obtain ⟨turn, takes⟩ := exists_takes aim kinds here step rest
    rw [takes.walkWith_eq] at failed
    cases turn with
    | onward next => exact inductionHypothesis failed
    | link place target => exact handedOver _ _ _ _ failed missing
    | stuck reason =>
      cases failed
      obtain ⟨_, _, _, _, free⟩ := takes.exists_of_missing missing
      exact free

theorem walk_missing {links : Nat} (failed : walk aim kinds links here steps = .error stuck)
    (missing : stuck.obstacle = .missing) : kinds stuck.place = none := by
  induction links generalizing here steps stuck with
  | zero =>
    refine walkWith_missing (fun link target rest other refused lost => ?_) failed missing
    cases refused; cases lost
  | succ links inductionHypothesis =>
    exact walkWith_missing (fun link target rest other refused lost =>
      inductionHypothesis refused lost) failed missing

end Walks

end FileSystem

end Inlay
