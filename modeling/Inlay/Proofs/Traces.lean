/-
This file says what the system sees at a place, and what a single step of a trace comes to.

To see a place by its path the system must get there: the path must be short enough, and so must
each name in it, and every directory above must be open. That is `Looks`, and all that is said of a
trace goes back to it, as no other step of a trace asks anything. The steps are told apart as those
of a walk are, by an inductive relation with one constructor for each thing that may come of a step.

The one thing that needs an argument is that no trace goes on from a file. It would have to go back
or to end there, which it was asked about when it came to the file, or to look for a name below.
-/
import Inlay.FileSystem.Trace

namespace Inlay.FileSystem

/-! ### Looking at a place -/

/-- Every entry above the location is a directory that may be entered, and no name is too long. -/
inductive Reached (kinds : Location → Option Kind) : Location → Prop
  | top : Reached kinds []
  | under {here : Location} {name : Name} (above : Reached kinds here)
      (entered : kinds here = some .directory) (short : Text.byteLength name ≤ nameLimit) :
      Reached kinds (here ++ [name])

/-- The system sees an entry of this kind when it is handed the path of the location. -/
structure Looks (kinds : Location → Option Kind) (place : Location) (kind : Kind) : Prop where
  short : Text.byteLength place.path < pathLimit
  reached : Reached kinds place
  seen : kinds place = some kind

section Looking

variable {kinds : Location → Option Kind} {here place : Location} {kind : Kind} {name : Name}

theorem Reached.above (reached : Reached kinds place) {front rest : Location}
    (split : place = front ++ name :: rest) :
    kinds front = some .directory ∧ Text.byteLength name ≤ nameLimit := by
  induction reached generalizing rest with
  | top => exact absurd split.symm (by simp)
  | @under here last above entered short inductionHypothesis =>
    rcases List.eq_nil_or_concat rest with rfl | ⟨rest, final, rfl⟩
    · obtain ⟨rfl, same⟩ := List.append_inj' split rfl
      cases same
      exact ⟨entered, short⟩
    · rw [List.concat_eq_append, ← List.cons_append, ← List.append_assoc] at split
      exact inductionHypothesis (List.append_inj' split rfl).1

theorem Reached.front (reached : Reached kinds (here ++ [name])) : Reached kinds here := by
  generalize whole : here ++ [name] = place at reached
  cases reached with
  | top => exact absurd whole (by simp)
  | under above entered short => exact (List.append_inj' whole rfl).1 ▸ above

/-- What there is at the end of some names is seen if all directories on the way are entered. -/
theorem lookAlong_eq_ok_iff {names : Location} (reached : Reached kinds here) :
    lookAlong kinds here names = .ok kind ↔
      Reached kinds (here ++ names) ∧ kinds (here ++ names) = some kind := by
  induction names generalizing here with
  | nil =>
    rw [lookAlong, List.append_nil]
    cases kinds here <;> simp [reached]
  | cons name rest inductionHypothesis =>
    have entered (whole : Reached kinds (here ++ name :: rest)) := whole.above rfl
    rw [lookAlong]
    split
    · next inside =>
      split
      · next long => exact ⟨nofun, fun found => absurd (entered found.1).2 (Nat.not_le.2 long)⟩
      · next short =>
        rw [inductionHypothesis (reached.under inside (Nat.le_of_not_lt short)),
          List.append_assoc, List.singleton_append]
    · next closed =>
      exact ⟨nofun, fun found => by cases closed.symm.trans (entered found.1).1⟩
    · next notDirectory _ seen =>
      exact ⟨nofun, fun found =>
        absurd (Option.some.inj (seen.symm.trans (entered found.1).1)) notDirectory⟩
    · next missing =>
      exact ⟨nofun, fun found => by cases missing.symm.trans (entered found.1).1⟩

theorem look_eq_ok_iff : look kinds place = .ok kind ↔ Looks kinds place kind := by
  unfold look
  split
  · next long => exact ⟨nofun, fun looks => absurd looks.short (Nat.not_lt.2 long)⟩
  · next short =>
    rw [lookAlong_eq_ok_iff .top, List.nil_append]
    exact ⟨fun found => ⟨Nat.lt_of_not_le short, found.1, found.2⟩,
      fun looks => ⟨looks.reached, looks.seen⟩⟩

end Looking

/-! ### Single steps -/

/-- What a step of a trace comes to. -/
inductive Move
  | onward (next : Location)
  | link (place : Location) (target : Path)
  | refused (fault : Fault)

/-- With these steps behind it, the step comes to this move. -/
inductive Moves (kinds : Location → Option Kind) (here : Location) :
    Step → List Step → Move → Prop
  | stay {rest : List Step} : Moves kinds here .stay rest (.onward here)
  | finalSlash {rest : List Step} : Moves kinds here .finalSlash rest (.onward here)
  | up {rest : List Step} : Moves kinds here .up rest (.onward here.parent)
  | into {name : Name} {rest : List Step} {kind : Kind} (looks : Looks kinds (here ++ [name]) kind)
      (notLink : ∀ target, kind ≠ .link target)
      (passes : onwardFault? (here ++ [name]) (.ok kind) rest = none) :
      Moves kinds here (.into name) rest (.onward (here ++ [name]))
  | link {name : Name} {rest : List Step} {target : Path}
      (looks : Looks kinds (here ++ [name]) (.link target)) :
      Moves kinds here (.into name) rest (.link (here ++ [name]) target)
  | refused {name : Name} {rest : List Step} {fault : Fault}
      (notLink : ∀ target, look kinds (here ++ [name]) ≠ .ok (.link target))
      (stops : onwardFault? (here ++ [name]) (look kinds (here ++ [name])) rest = some fault) :
      Moves kinds here (.into name) rest (.refused fault)

/-- How a trace goes on after a move. -/
def Move.proceed (onward : Location → Except Fault Location)
    (follow : Location → Path → Except Fault Location) : Move → Except Fault Location
  | .onward next => onward next
  | .link place target => follow place target
  | .refused fault => .error fault

section Moving

variable {kinds : Location → Option Kind} {here place : Location} {step : Step}
  {rest steps : List Step} {move : Move}

/-- Where nothing is seen the trace ends, though the length of the path may be blamed for it. -/
theorem onwardFault?_error (place : Location) (fault : Fault) (rest : List Step) :
    ∃ told, onwardFault? place (.error fault) rest = some told ∧
      (told = fault ∨ told = .nameTooLong) := by
  unfold onwardFault?
  split
  · exact ⟨_, rfl, Or.inr rfl⟩
  · exact ⟨_, rfl, Or.inl rfl⟩

/-- Nobody goes on from a file with steps that need a directory. -/
theorem backOrEnd_of_file (passes : onwardFault? place (.ok .file) rest = none) :
    backOrEnd rest = false := by
  unfold onwardFault? at passes
  split at passes
  · cases passes
  · simpa using passes

/-- Every step comes to a move. -/
theorem exists_moves (kinds : Location → Option Kind) (here : Location) (step : Step)
    (rest : List Step) : ∃ move, Moves kinds here step rest move := by
  cases step with
  | stay => exact ⟨_, .stay⟩
  | finalSlash => exact ⟨_, .finalSlash⟩
  | up => exact ⟨_, .up⟩
  | into name =>
    by_cases linked : ∃ target, look kinds (here ++ [name]) = .ok (.link target)
    · obtain ⟨target, linked⟩ := linked
      exact ⟨_, .link (look_eq_ok_iff.1 linked)⟩
    · have notLink : ∀ target, look kinds (here ++ [name]) ≠ .ok (.link target) :=
        fun target same => linked ⟨target, same⟩
      cases stops : onwardFault? (here ++ [name]) (look kinds (here ++ [name])) rest with
      | some fault => exact ⟨_, .refused notLink stops⟩
      | none =>
        cases seen : look kinds (here ++ [name]) with
        | error fault =>
          obtain ⟨told, refused, _⟩ := onwardFault?_error (here ++ [name]) fault rest
          rw [seen, refused] at stops
          cases stops
        | ok kind =>
          exact ⟨_, .into (look_eq_ok_iff.1 seen) (fun target same => notLink target (same ▸ seen))
            (seen ▸ stops)⟩

/-- A trace makes the move that its first step comes to. -/
theorem Moves.traceWith_eq (moves : Moves kinds here step rest move)
    (follow : Location → Path → List Step → Except Fault Location) :
    traceWith kinds follow here (step :: rest) =
      move.proceed (fun next => traceWith kinds follow next rest)
        fun place target => follow place target rest := by
  cases moves with
  | stay => rfl
  | finalSlash => rfl
  | up => rfl
  | @into name _ kind looks notLink passes =>
    rw [traceWith]
    simp only [look_eq_ok_iff.2 looks]
    cases kind with
    | link target => exact absurd rfl (notLink target)
    | directory => simp only [passes]; rfl
    | closedDirectory => simp only [passes]; rfl
    | file => simp only [passes]; rfl
  | link looks =>
    rw [traceWith]
    simp only [look_eq_ok_iff.2 looks]
    rfl
  | refused notLink stops =>
    rw [traceWith]
    split
    · next target linked => exact absurd linked (notLink target)
    · simp only [stops]
      rfl

/-- A trace that is at a file, and that was asked nothing more when it came there, has ended. -/
theorem eq_nil_of_traceWith_file {follow : Location → Path → List Step → Except Fault Location}
    (file : kinds here = some .file) (forth : backOrEnd steps = false)
    (found : traceWith kinds follow here steps = .ok place) : steps = [] := by
  induction steps with
  | nil => rfl
  | cons step rest inductionHypothesis =>
    cases step with
    | up => cases forth
    | stay =>
      obtain ⟨some, later⟩ := Bool.or_eq_false_iff.1 forth
      rw [inductionHypothesis later found] at some
      cases some
    | finalSlash =>
      obtain ⟨some, later⟩ := Bool.or_eq_false_iff.1 forth
      rw [inductionHypothesis later found] at some
      cases some
    | into name =>
      -- A name below a file is not reached.
      have unreached (whole : Reached kinds (here ++ [name])) : False := by
        cases file.symm.trans (whole.above rfl).1
      obtain ⟨move, moves⟩ := exists_moves kinds here (.into name) rest
      rw [moves.traceWith_eq] at found
      cases moves with
      | into looks => exact (unreached looks.reached).elim
      | link looks => exact (unreached looks.reached).elim
      | refused => cases found

end Moving

end Inlay.FileSystem
