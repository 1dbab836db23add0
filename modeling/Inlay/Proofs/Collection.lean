/-
This file says what collecting definitions into a set does.

A definition is added at the end if its name is free and it has a patch, and in no other case. So a
list that is accepted comes out of the set as it went in, and the definitions of any set are
accepted again and make the same set. A list that is rejected is so for the first of its definitions
that cannot be added.

What can fail is described here and in later files by two relations, one for what comes of it and
one for why nothing does. `Determines` says that they are right and leave nothing out. Where only the
success of several steps matters, `exists_of_bind_ok` takes them apart one by one.
-/
import Inlay.PatchSet.Basic
import Mathlib.Data.List.Induction
import Mathlib.Data.List.Nodup

namespace Inlay

/-- One relation says what a computation returns, and another why it fails. -/
structure Determines {Value Failure : Type} (computed : Except Failure Value)
    (Returns : Value → Prop) (Fails : Failure → Prop) : Prop where
  returns : ∀ value, Returns value → computed = .ok value
  fails : ∀ failure, Fails failure → computed = .error failure
  covers : (∃ value, Returns value) ∨ ∃ failure, Fails failure

namespace Determines

variable {Value Failure : Type} {computed : Except Failure Value} {Returns : Value → Prop}
  {Fails : Failure → Prop}

theorem eq_ok_iff (determines : Determines computed Returns Fails) {value : Value} :
    computed = .ok value ↔ Returns value := by
  refine ⟨fun returned => ?_, determines.returns value⟩
  rcases determines.covers with ⟨other, returns⟩ | ⟨failure, fails⟩
  · cases (determines.returns other returns).symm.trans returned
    exact returns
  · cases (determines.fails failure fails).symm.trans returned

theorem eq_error_iff (determines : Determines computed Returns Fails) {failure : Failure} :
    computed = .error failure ↔ Fails failure := by
  refine ⟨fun failed => ?_, determines.fails failure⟩
  rcases determines.covers with ⟨value, returns⟩ | ⟨other, fails⟩
  · cases (determines.returns value returns).symm.trans failed
  · cases (determines.fails other fails).symm.trans failed
    exact fails

end Determines

theorem exists_of_bind_ok {Failure First Second : Type} {first : Except Failure First}
    {next : First → Except Failure Second} {result : Second}
    (succeeds : first >>= next = .ok result) :
    ∃ value, first = .ok value ∧ next value = .ok result := by
  cases first with
  | error failure => cases succeeds
  | ok value => exact ⟨value, rfl, succeeds⟩

namespace PatchSet

/-! ### Adding one definition -/

/-- A member whose name is free is added at the end. -/
theorem add_of_member (set : PatchSet) (member : Member)
    (free : member.definition.name ∉ set.names) :
    set.add member.definition = .ok {
      members := set.members ++ [member]
      distinct := nodup_append_name set.distinct free } := by
  unfold add
  rw [dif_neg free]
  split
  · next defect refused => rw [member.sound] at refused; cases refused
  · next patch accepted =>
    obtain ⟨definition, own, sound⟩ := member
    obtain rfl : own = patch := Except.ok.inj (sound.symm.trans accepted)
    rfl

/-- A definition that was added is the last, and nothing else has changed. -/
theorem definitions_of_add {set larger : PatchSet} {definition : Definition}
    (added : set.add definition = .ok larger) :
    larger.definitions = set.definitions ++ [definition] := by
  unfold add at added
  split at added
  · cases added
  · split at added
    · cases added
    · cases added
      exact List.map_append

/-! ### Adding one definition after the other -/

theorem definitions_of_foldlM {set larger : PatchSet} {definitions : List Definition}
    (added : definitions.foldlM add set = .ok larger) :
    larger.definitions = set.definitions ++ definitions := by
  induction definitions generalizing set with
  | nil =>
    obtain rfl : set = larger := Except.ok.inj added
    exact (List.append_nil _).symm
  | cons definition definitions inductionHypothesis =>
    rw [List.foldlM_cons] at added
    cases first : set.add definition with
    | error error => rw [first] at added; cases added
    | ok next =>
      rw [first] at added
      rw [inductionHypothesis added, definitions_of_add first, List.append_assoc,
        List.singleton_append]

/-- A list of definitions that is accepted comes out of the set unchanged. -/
theorem definitions_of_ofDefinitions {set : PatchSet} {definitions : List Definition}
    (accepted : ofDefinitions definitions = .ok set) : set.definitions = definitions :=
  definitions_of_foldlM accepted

theorem foldlM_members (front rest : List Member)
    (distinct : ((front ++ rest).map fun member => member.definition.name).Nodup)
    (frontDistinct : (front.map fun member => member.definition.name).Nodup) :
    (rest.map Member.definition).foldlM add { members := front, distinct := frontDistinct } =
      .ok { members := front ++ rest, distinct } := by
  induction rest generalizing front with
  | nil => simp only [List.map_nil, List.append_nil]; rfl
  | cons member rest inductionHypothesis =>
    have regrouped : front ++ member :: rest = (front ++ [member]) ++ rest := by
      rw [List.append_assoc, List.singleton_append]
    have free : member.definition.name ∉
        ({ members := front, distinct := frontDistinct } : PatchSet).names := by
      intro taken
      rw [List.map_append, List.map_cons] at distinct
      exact List.disjoint_of_nodup_append distinct taken List.mem_cons_self
    rw [List.map_cons, List.foldlM_cons, add_of_member _ member free]
    simp only [regrouped] at distinct ⊢
    exact inductionHypothesis (front ++ [member]) distinct _

/-- The definitions of a set make that set. -/
theorem ofDefinitions_definitions (set : PatchSet) : ofDefinitions set.definitions = .ok set :=
  foldlM_members [] set.members set.distinct List.nodup_nil

/-! ### Rejected lists -/

theorem names_eq_map_definitions (set : PatchSet) :
    set.names = set.definitions.map Definition.name := by
  rw [names, definitions, List.map_map]
  rfl

/-- Why a list of definitions makes no set: those in front are accepted, and the next has the name
of one of them or else is unsound. -/
inductive Rejects : List Definition → SetError → Prop
  | duplicateName {front rest : List Definition} {definition : Definition} {set : PatchSet}
      (accepted : ofDefinitions front = .ok set)
      (taken : definition.name ∈ front.map Definition.name) :
      Rejects (front ++ definition :: rest) (.duplicateName definition.name)
  | invalid {front rest : List Definition} {definition : Definition} {set : PatchSet}
      {defect : Defect} (accepted : ofDefinitions front = .ok set)
      (free : definition.name ∉ front.map Definition.name)
      (unsound : definition.patch = .error defect) :
      Rejects (front ++ definition :: rest) (.invalid definition.name defect)

theorem add_of_taken {set : PatchSet} {definition : Definition}
    (taken : definition.name ∈ set.names) :
    set.add definition = .error (.duplicateName definition.name) := by
  rw [add, dif_pos taken]

theorem add_of_unsound {set : PatchSet} {definition : Definition} {defect : Defect}
    (free : definition.name ∉ set.names) (unsound : definition.patch = .error defect) :
    set.add definition = .error (.invalid definition.name defect) := by
  unfold add
  rw [dif_neg free]
  split
  · next other refused => cases unsound.symm.trans refused; rfl
  · next patch accepted => cases unsound.symm.trans accepted

theorem ofDefinitions_append {front : List Definition} {set : PatchSet}
    (accepted : ofDefinitions front = .ok set) (definitions : List Definition) :
    ofDefinitions (front ++ definitions) = definitions.foldlM add set := by
  rw [ofDefinitions, List.foldlM_append, ← ofDefinitions, accepted]
  rfl

theorem names_of_ofDefinitions {set : PatchSet} {definitions : List Definition}
    (accepted : ofDefinitions definitions = .ok set) :
    set.names = definitions.map Definition.name := by
  rw [names_eq_map_definitions, definitions_of_ofDefinitions accepted]

theorem ofDefinitions_of_rejects {definitions : List Definition} {error : SetError}
    (rejects : Rejects definitions error) : ofDefinitions definitions = .error error := by
  cases rejects with
  | duplicateName accepted taken =>
    rw [← names_of_ofDefinitions accepted] at taken
    rw [ofDefinitions_append accepted, List.foldlM_cons, add_of_taken taken]
    rfl
  | invalid accepted free unsound =>
    rw [← names_of_ofDefinitions accepted] at free
    rw [ofDefinitions_append accepted, List.foldlM_cons, add_of_unsound free unsound]
    rfl

/-- Every list makes a set or is rejected. -/
theorem accepted_or_rejects (definitions : List Definition) :
    (∃ set, ofDefinitions definitions = .ok set) ∨ ∃ error, Rejects definitions error := by
  -- From the end, since it is the set made of those in front that takes or refuses the last.
  induction definitions using List.reverseRecOn with
  | nil => exact Or.inl ⟨empty, rfl⟩
  | append_singleton front definition inductionHypothesis =>
    rcases inductionHypothesis with ⟨set, accepted⟩ | ⟨error, rejects⟩
    · by_cases taken : definition.name ∈ front.map Definition.name
      · exact Or.inr ⟨_, .duplicateName accepted taken⟩
      cases sound : definition.patch with
      | error defect => exact Or.inr ⟨_, .invalid accepted taken sound⟩
      | ok patch =>
        rw [← names_of_ofDefinitions accepted] at taken
        obtain ⟨larger, added⟩ : ∃ larger, set.add definition = .ok larger :=
          ⟨_, add_of_member set { definition, patch, sound } taken⟩
        refine Or.inl ⟨larger, ?_⟩
        rw [ofDefinitions_append accepted, List.foldlM_cons, added]
        rfl
    · refine Or.inr ⟨error, ?_⟩
      cases rejects with
      | duplicateName accepted taken =>
        rw [List.append_assoc, List.cons_append]
        exact .duplicateName accepted taken
      | invalid accepted free unsound =>
        rw [List.append_assoc, List.cons_append]
        exact .invalid accepted free unsound

theorem ofDefinitions_determines (definitions : List Definition) :
    Determines (ofDefinitions definitions) (fun set => ofDefinitions definitions = .ok set)
      (Rejects definitions) where
  returns _ accepted := accepted
  fails _ rejects := ofDefinitions_of_rejects rejects
  covers := accepted_or_rejects definitions

end PatchSet

end Inlay
