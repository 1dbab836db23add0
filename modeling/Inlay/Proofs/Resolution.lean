/-
This file says where paths lead after an application.

Walks and traces look at the kinds of entries alone, and successful ones never pass a place without
an entry. So it is enough to know how an application changes kinds. It changes none of an entry that
is there, since a file is replaced by a file: whatever a path has led to it still leads to. Without
the lock nothing is new either, and then a path that led nowhere still leads nowhere.

With the lock a sidecar may be new. The walk that was stuck for lack of it alone now ends there, so
a sidecar that was opened once is there to be opened again. But no trace goes on from a file, so a
path that leads to an old entry has led there all along.
-/
import Inlay.Proofs.Ending

namespace Inlay

namespace FileSystem

/-! ### Walks in growing trees -/

/-- All entries that the first has, the second has with the same kind. -/
def Extends (first second : Location → Option Kind) : Prop :=
  ∀ location kind, first location = some kind → second location = some kind

/-- The second has what the first has, and new files at most. -/
def GainsFiles (first second : Location → Option Kind) : Prop :=
  ∀ location, second location = first location ∨
    first location = none ∧ second location = some .file

/-- A walk has ended at the place, or it has missed nothing but the file that is at this place among
other kinds. -/
inductive Attains (larger : Location → Option Kind) (place : Location) :
    Except Stuck Location → Prop
  | found : Attains larger place (.ok place)
  | created {stuck : Stuck} (missing : stuck.obstacle = .missing) (last : stuck.rest = [])
      (here : stuck.place = place) (file : larger place = some .file) :
      Attains larger place (.error stuck)

section Walks

variable {aim easier : Aim} {kinds larger : Location → Option Kind} {here place : Location}
  {step : Step} {rest steps : List Step} {turn : Turn}

theorem LooksUp.of_extends {name : Name} (grows : Extends kinds larger)
    (eased : easier = .create → aim = .create) (looksUp : LooksUp aim kinds here name rest) :
    LooksUp easier larger here name rest where
  inside := grows _ _ looksUp.inside
  allowed refused := looksUp.allowed ⟨eased refused.1, refused.2⟩
  short := looksUp.short

/-- A step that leads somewhere leads there in every larger tree. -/
theorem Takes.of_extends (grows : Extends kinds larger) (eased : easier = .create → aim = .create)
    (takes : Takes aim kinds here step rest turn) (leads : ∀ stuck, turn ≠ .stuck stuck) :
    Takes easier larger here step rest turn := by
  cases takes with
  | stay inside => exact .stay (grows _ _ inside)
  | up inside => exact .up (grows _ _ inside)
  | finalSlash directory => exact .finalSlash (directory.imp (grows _ _) (grows _ _))
  | into looksUp present notLink =>
    exact .into (looksUp.of_extends grows eased) (grows _ _ present) notLink
  | link looksUp linked => exact .link (looksUp.of_extends grows eased) (grows _ _ linked)
  | missing => exact absurd rfl (leads _)
  | slashAfterName => exact absurd rfl (leads _)
  | nameTooLong => exact absurd rfl (leads _)
  | closed => exact absurd rfl (leads _)
  | notDirectory => exact absurd rfl (leads _)

theorem walkWith_of_extends {follow followLarger : Location → Path → List Step →
      Except Stuck Location} (grows : Extends kinds larger)
    (eased : easier = .create → aim = .create)
    (handedOver : ∀ link target rest, Attains larger place (follow link target rest) →
      followLarger link target rest = .ok place)
    (attains : Attains larger place (walkWith aim kinds follow here steps)) :
    walkWith easier larger followLarger here steps = .ok place := by
  induction steps generalizing here with
  | nil => cases attains; rfl
  | cons step rest inductionHypothesis =>
    obtain ⟨turn, takes⟩ := exists_takes aim kinds here step rest
    rw [takes.walkWith_eq] at attains
    cases turn with
    | onward next =>
      rw [(takes.of_extends grows eased fun _ => Turn.noConfusion).walkWith_eq]
      exact inductionHypothesis attains
    | link link target =>
      rw [(takes.of_extends grows eased fun _ => Turn.noConfusion).walkWith_eq]
      exact handedOver _ _ _ attains
    | stuck reason =>
      cases attains with
      | created missing last here file =>
        -- The place is the next one, and nothing is left to do there.
        obtain ⟨name, rfl, looksUp, rfl, _⟩ := takes.exists_of_missing missing
        subst last here
        rw [(Takes.into (looksUp.of_extends grows eased) file fun _ =>
          Kind.noConfusion).walkWith_eq]
        rfl

/-- Where a walk has ended it ends in every larger tree, also if it was to create a file and now is
to find one. It also ends at a file that it has missed. -/
theorem walk_of_extends (grows : Extends kinds larger) (eased : easier = .create → aim = .create)
    {links : Nat} (attains : Attains larger place (walk aim kinds links here steps)) :
    walk easier larger links here steps = .ok place := by
  induction links generalizing here steps with
  | zero =>
    refine walkWith_of_extends grows eased (fun _ _ _ refused => ?_) attains
    cases refused with
    | created missing => cases missing
  | succ links inductionHypothesis =>
    exact walkWith_of_extends grows eased (fun _ _ _ later => inductionHypothesis later) attains

end Walks

/-! ### Traces in growing trees -/

section Traces

variable {kinds larger : Location → Option Kind} {here place : Location} {kind : Kind}
  {step : Step} {rest steps : List Step} {move : Move}

theorem Reached.of_extends (grows : Extends kinds larger) (reached : Reached kinds place) :
    Reached larger place := by
  induction reached with
  | top => exact .top
  | under above entered short inductionHypothesis =>
    exact inductionHypothesis.under (grows _ _ entered) short

theorem Looks.of_extends (grows : Extends kinds larger) (looks : Looks kinds place kind) :
    Looks larger place kind :=
  ⟨looks.short, looks.reached.of_extends grows, grows _ _ looks.seen⟩

/-- A step of a trace that leads somewhere leads there in every larger tree. -/
theorem Moves.of_extends (grows : Extends kinds larger) (moves : Moves kinds here step rest move)
    (leads : ∀ fault, move ≠ .refused fault) : Moves larger here step rest move := by
  cases moves with
  | stay => exact .stay
  | finalSlash => exact .finalSlash
  | up => exact .up
  | into looks notLink passes => exact .into (looks.of_extends grows) notLink passes
  | link looks => exact .link (looks.of_extends grows)
  | refused => exact absurd rfl (leads _)

theorem traceWith_of_extends {follow followLarger : Location → Path → List Step →
      Except Fault Location} (grows : Extends kinds larger)
    (handedOver : ∀ link target rest, follow link target rest = .ok place →
      followLarger link target rest = .ok place)
    (found : traceWith kinds follow here steps = .ok place) :
    traceWith larger followLarger here steps = .ok place := by
  induction steps generalizing here with
  | nil => exact found
  | cons step rest inductionHypothesis =>
    obtain ⟨move, moves⟩ := exists_moves kinds here step rest
    rw [moves.traceWith_eq] at found
    cases move with
    | onward next =>
      rw [(moves.of_extends grows fun _ => Move.noConfusion).traceWith_eq]
      exact inductionHypothesis found
    | link link target =>
      rw [(moves.of_extends grows fun _ => Move.noConfusion).traceWith_eq]
      exact handedOver _ _ _ found
    | refused fault => cases found

/-- Where a trace has ended it ends in every larger tree. -/
theorem traceFrom_of_extends (grows : Extends kinds larger) {links : Nat}
    (found : traceFrom kinds links here steps = .ok place) :
    traceFrom larger links here steps = .ok place := by
  induction links generalizing here steps with
  | zero => exact traceWith_of_extends grows (fun _ _ _ refused => by cases refused) found
  | succ links inductionHypothesis =>
    exact traceWith_of_extends grows (fun _ _ _ later => inductionHypothesis later) found

/-- Whatever else there is at a place than a file has been there before. -/
theorem GainsFiles.old (gains : GainsFiles kinds larger) (seen : larger place = some kind)
    (other : kind ≠ .file) : kinds place = some kind := by
  rcases gains place with same | ⟨_, file⟩
  · rwa [← same]
  · exact absurd (Option.some.inj (seen.symm.trans file)) other

theorem Reached.of_gainsFiles (gains : GainsFiles kinds larger) (reached : Reached larger place) :
    Reached kinds place := by
  induction reached with
  | top => exact .top
  | under above entered short inductionHypothesis =>
    exact inductionHypothesis.under (gains.old entered Kind.noConfusion) short

theorem Looks.of_gainsFiles (gains : GainsFiles kinds larger) (old : kinds place ≠ none)
    (looks : Looks larger place kind) : Looks kinds place kind := by
  refine ⟨looks.short, looks.reached.of_gainsFiles gains, ?_⟩
  rcases gains place with same | ⟨free, _⟩
  · rw [← same, looks.seen]
  · exact absurd free old

theorem traceWith_of_gainsFiles {follow followLarger : Location → Path → List Step →
      Except Fault Location} (gains : GainsFiles kinds larger) (old : kinds place ≠ none)
    (handedOver : ∀ link target rest, followLarger link target rest = .ok place →
      follow link target rest = .ok place)
    (found : traceWith larger followLarger here steps = .ok place) :
    traceWith kinds follow here steps = .ok place := by
  induction steps generalizing here with
  | nil => exact found
  | cons step rest inductionHypothesis =>
    obtain ⟨move, moves⟩ := exists_moves larger here step rest
    rw [moves.traceWith_eq] at found
    cases moves with
    | stay => exact inductionHypothesis found
    | finalSlash => exact inductionHypothesis found
    | up => exact inductionHypothesis found
    | @into name _ kind looks notLink passes =>
      have oldNext : kinds (here ++ [name]) ≠ none := by
        rcases gains (here ++ [name]) with same | ⟨free, file⟩
        · rw [← same, looks.seen]
          exact Option.some_ne_none kind
        · -- Past a new file the trace cannot go, and it has not ended there either.
          obtain rfl : kind = .file := Option.some.inj (looks.seen.symm.trans file)
          obtain rfl := eq_nil_of_traceWith_file file (backOrEnd_of_file passes) found
          obtain rfl : here ++ [name] = place := Except.ok.inj found
          exact absurd free old
      rw [(Moves.into (looks.of_gainsFiles gains oldNext) notLink passes).traceWith_eq]
      exact inductionHypothesis found
    | link looks =>
      have oldNext := gains.old looks.seen Kind.noConfusion
      rw [(Moves.link (looks.of_gainsFiles gains (by rw [oldNext]; nofun))).traceWith_eq]
      exact handedOver _ _ _ found
    | refused => cases found

/-- A trace that ends at an old place has passed no new file. -/
theorem traceFrom_of_gainsFiles (gains : GainsFiles kinds larger) (old : kinds place ≠ none)
    {links : Nat} (found : traceFrom larger links here steps = .ok place) :
    traceFrom kinds links here steps = .ok place := by
  induction links generalizing here steps with
  | zero =>
    exact traceWith_of_gainsFiles gains old (fun _ _ _ refused => by cases refused) found
  | succ links inductionHypothesis =>
    exact traceWith_of_gainsFiles gains old (fun _ _ _ later => inductionHypothesis later) found

end Traces

/-! ### Paths in growing trees -/

section Paths

variable {tree after : FileSystem} {directory target : Location} {path : Path}

/-- A tree that has all entries of another, with the same kinds, is larger. -/
theorem extends_of_nodes (keeps : ∀ location node, tree.node? location = some node →
    ∃ later, after.node? location = some later ∧ later.kind = node.kind) :
    Extends tree.kind? after.kind? := by
  intro location kind seen
  obtain ⟨node, present, rfl⟩ := Option.map_eq_some_iff.1 seen
  obtain ⟨later, there, same⟩ := keeps location node present
  rw [kind?_of_node? there, same]

theorem resolve_of_extends (grows : Extends tree.kind? after.kind?)
    (found : tree.resolve directory path = .ok target) :
    after.resolve directory path = .ok target := by
  rw [resolve] at found
  exact walk_of_extends grows id (found ▸ .found)

theorem trace_eq_ok_iff : tree.trace directory path = .ok target ↔
    path ≠ [] ∧ '\x00' ∉ path ∧
      traceFrom tree.kind? linkLimit (origin directory path) path.steps = .ok target := by
  unfold trace
  constructor
  · intro traced
    split at traced
    · cases traced
    next nonempty =>
    split at traced
    · cases traced
    · next noNul => exact ⟨nonempty, noNul, traced⟩
  · rintro ⟨nonempty, noNul, found⟩
    rw [if_neg nonempty, if_neg noNul, found]

/-- A path that leads to a place leads to it in every larger tree. -/
theorem trace_of_extends (grows : Extends tree.kind? after.kind?)
    (traced : tree.trace directory path = .ok target) :
    after.trace directory path = .ok target := by
  rw [trace_eq_ok_iff] at traced ⊢
  obtain ⟨nonempty, noNul, found⟩ := traced
  exact ⟨nonempty, noNul, traceFrom_of_extends grows found⟩

theorem fileLocation?_of_extends (grows : Extends tree.kind? after.kind?)
    (leads : tree.fileLocation? directory path = some target) :
    after.fileLocation? directory path = some target := by
  rw [fileLocation?_eq_some_iff] at leads ⊢
  obtain ⟨traced, file⟩ := leads
  exact ⟨trace_of_extends grows traced, file.of_extends grows⟩

/-- A path that leads to a file of the smaller tree in the larger one leads to it in both. -/
theorem fileLocation?_of_gainsFiles (gains : GainsFiles tree.kind? after.kind?)
    (old : tree.node? target ≠ none) (leads : after.fileLocation? directory path = some target) :
    tree.fileLocation? directory path = some target := by
  have oldKind : tree.kind? target ≠ none := fun free => old (kind?_eq_none_iff.1 free)
  rw [fileLocation?_eq_some_iff, trace_eq_ok_iff] at leads ⊢
  obtain ⟨⟨nonempty, noNul, found⟩, file⟩ := leads
  exact ⟨⟨nonempty, noNul, traceFrom_of_gainsFiles gains oldKind found⟩,
    file.of_gainsFiles gains oldKind⟩

/-- Trees that agree on the kinds of their entries agree on where every path leads, and on why one
leads nowhere. -/
theorem trace_congr (agree : tree.kind? = after.kind?) (directory : Location) (path : Path) :
    tree.trace directory path = after.trace directory path := by
  rw [trace, trace, agree]

theorem fileLocation?_congr (agree : tree.kind? = after.kind?) (directory : Location)
    (path : Path) : tree.fileLocation? directory path = after.fileLocation? directory path := by
  rw [fileLocation?, fileLocation?, trace_congr agree, agree]

end Paths

end FileSystem

/-! ### What an application does to kinds -/

namespace Patch

variable {patch : Patch} {tree after : FileSystem} {directory : Location} {path : Path}
  {options : ApplyOptions} {result : Except ApplyError Report}

open FileSystem (Extends GainsFiles)

/-- No application changes the kind of an entry. -/
theorem Ending.extends (ending : Ending patch tree directory path options after result) :
    Extends tree.kind? after.kind? := by
  refine FileSystem.extends_of_nodes fun location node present => ?_
  rcases ending.kept_or_spliced present with kept | ⟨file, text, index, rfl, _, _, replaced⟩
  · exact ⟨node, kept, rfl⟩
  · exact ⟨_, replaced, rfl⟩

/-- What is new after an application is a file. -/
theorem Ending.gainsFiles (ending : Ending patch tree directory path options after result) :
    GainsFiles tree.kind? after.kind? := by
  intro place
  cases ending.changes place with
  | untouched same untold => exact Or.inl (by rw [FileSystem.kind?, same, FileSystem.kind?])
  | injected leads present reads planned replaced told =>
    rw [FileSystem.kind?_of_node? present, FileSystem.kind?_of_node? replaced]
    exact Or.inl rfl
  | created locked leads opens kinds free made untold =>
    exact Or.inr ⟨FileSystem.kind?_eq_none_iff.2 free, FileSystem.kind?_of_node? made⟩

section Unlocked

variable (ending : Ending patch tree directory path options after result)
  (unlocked : options.lock = false)

include ending unlocked

/-- Without the lock an application changes no place but the one that its path leads to. -/
theorem Ending.node?_elsewhere {place : Location}
    (elsewhere : tree.fileLocation? directory path ≠ some place) :
    after.node? place = tree.node? place := by
  cases ending.changes place with
  | untouched same untold => exact same
  | injected leads => exact absurd leads elsewhere
  | created locked =>
    rw [unlocked] at locked
    cases locked

/-- Without the lock no kind changes and no entry is new. -/
theorem Ending.kind?_eq : after.kind? = tree.kind? := by
  funext place
  cases ending.changes place with
  | untouched same untold => rw [FileSystem.kind?, same, FileSystem.kind?]
  | injected leads present reads planned replaced told =>
    rw [FileSystem.kind?_of_node? present, FileSystem.kind?_of_node? replaced]
    rfl
  | created locked =>
    rw [unlocked] at locked
    cases locked

/-- Without the lock the directories take new names where they did. -/
theorem Ending.acceptsNames_eq : after.acceptsNames = tree.acceptsNames := by
  funext place
  cases ending.changes place with
  | untouched same untold => rw [FileSystem.acceptsNames, FileSystem.acceptsNames, same]
  | injected leads present reads planned replaced told =>
    rw [FileSystem.acceptsNames, FileSystem.acceptsNames, present, replaced]
  | created locked =>
    rw [unlocked] at locked
    cases locked

end Unlocked

end Patch

end Inlay
