/-
This file says which lists of definitions make a set, and what is told of the others.

A definition offends where it stands if its name was taken by one in front of it or if it is
unsound. A list without an offence makes a set, and the set holds its definitions as they were
given: in order, each under its name. Any other list is rejected for its first offence. There the
name counts before the soundness, and nothing behind the offence is looked at.

The one pass over the list carries a growing set and no positions. What ties the two together is
that an offence at a position is seen in the list up to there: the definitions that were accepted
are the ones in front, so the one that was refused stands at the least position with an offence.
-/
import Inlay.Proofs.Selection
import Mathlib.Order.Bounds.Basic

namespace Inlay

namespace PatchSet

/-! ### Offences -/

/-- The definition at the position has the name of one in front of it, or it is unsound. -/
def Offends (definitions : List Definition) (position : Nat) : Prop :=
  ∃ definition, definitions[position]? = some definition ∧
    (definition.name ∈ (definitions.take position).map Definition.name ∨
      ∃ defect, definition.patch = .error defect)

/-- What is told of the definition at the position: that its name is taken, or else its defect. -/
inductive Tells (definitions : List Definition) (position : Nat) : SetError → Prop
  | duplicateName {definition : Definition} (here : definitions[position]? = some definition)
      (taken : definition.name ∈ (definitions.take position).map Definition.name) :
      Tells definitions position (.duplicateName definition.name)
  | invalid {definition : Definition} {defect : Defect}
      (here : definitions[position]? = some definition)
      (free : definition.name ∉ (definitions.take position).map Definition.name)
      (unsound : definition.patch = .error defect) :
      Tells definitions position (.invalid definition.name defect)

section Offences

variable {definitions others : List Definition} {position : Nat} {error : SetError}

theorem offends_iff_exists_tells : Offends definitions position ↔
    ∃ error, Tells definitions position error := by
  constructor
  · rintro ⟨definition, here, offence⟩
    by_cases taken : definition.name ∈ (definitions.take position).map Definition.name
    · exact ⟨_, .duplicateName here taken⟩
    · obtain ⟨defect, unsound⟩ := offence.resolve_left taken
      exact ⟨_, .invalid here taken unsound⟩
  · rintro ⟨error, tells⟩
    cases tells with
    | duplicateName here taken => exact ⟨_, here, Or.inl taken⟩
    | invalid here free unsound => exact ⟨_, here, Or.inr ⟨_, unsound⟩⟩

/-- At one position one thing is told. -/
theorem Tells.unique {other : SetError} (tells : Tells definitions position error)
    (alsoTells : Tells definitions position other) : error = other := by
  cases tells with
  | duplicateName here taken =>
    cases alsoTells with
    | duplicateName otherHere _ => cases here.symm.trans otherHere; rfl
    | invalid otherHere free _ => cases here.symm.trans otherHere; exact absurd taken free
  | invalid here free unsound =>
    cases alsoTells with
    | duplicateName otherHere taken => cases here.symm.trans otherHere; exact absurd taken free
    | invalid otherHere _ otherUnsound =>
      cases here.symm.trans otherHere
      cases unsound.symm.trans otherUnsound
      rfl

/-- What is told at a position is told in every list that is the same up to there. -/
theorem Tells.congr (same : others.take (position + 1) = definitions.take (position + 1))
    (tells : Tells definitions position error) : Tells others position error := by
  have at_position : others[position]? = definitions[position]? := by
    rw [← List.getElem?_take_of_succ, same, List.getElem?_take_of_succ]
  have in_front : others.take position = definitions.take position := by
    have shorter := congrArg (List.take position) same
    rwa [List.take_take, List.take_take, Nat.min_eq_left (Nat.le_succ position)] at shorter
  cases tells with
  | duplicateName here taken =>
    exact .duplicateName (at_position.trans here) (in_front ▸ taken)
  | invalid here free unsound =>
    exact .invalid (at_position.trans here) (in_front ▸ free) unsound

theorem Offends.congr (same : others.take (position + 1) = definitions.take (position + 1))
    (offends : Offends definitions position) : Offends others position := by
  obtain ⟨error, tells⟩ := offends_iff_exists_tells.1 offends
  exact offends_iff_exists_tells.2 ⟨error, tells.congr same⟩

/-! ### Accepted lists -/

/-- Names that are distinct and definitions that are sound are what a list without offences has. -/
theorem not_offends_of_sound (distinct : (definitions.map Definition.name).Nodup)
    (sound : ∀ definition ∈ definitions, ∃ patch, definition.patch = .ok patch) (position : Nat) :
    ¬ Offends definitions position := by
  rintro ⟨definition, here, taken | ⟨defect, unsound⟩⟩
  · obtain ⟨inside, rfl⟩ := List.getElem?_eq_some_iff.1 here
    rw [← List.take_append_drop position definitions, List.map_append,
      List.drop_eq_getElem_cons inside, List.map_cons] at distinct
    exact List.disjoint_of_nodup_append distinct taken List.mem_cons_self
  · obtain ⟨patch, accepted⟩ := sound definition (List.mem_of_getElem? here)
    cases accepted.symm.trans unsound

/-- What is accepted has distinct names and is sound. -/
theorem sound_of_accepted {set : PatchSet} (accepted : ofDefinitions definitions = .ok set) :
    (definitions.map Definition.name).Nodup ∧
      ∀ definition ∈ definitions, ∃ patch, definition.patch = .ok patch := by
  refine ⟨names_of_ofDefinitions accepted ▸ set.distinct, fun definition given => ?_⟩
  rw [← definitions_of_ofDefinitions accepted] at given
  obtain ⟨member, _, rfl⟩ := List.mem_map.1 given
  exact ⟨member.patch, member.sound⟩

theorem not_offends_of_accepted {set : PatchSet} (accepted : ofDefinitions definitions = .ok set)
    (position : Nat) : ¬ Offends definitions position := by
  obtain ⟨distinct, sound⟩ := sound_of_accepted accepted
  exact not_offends_of_sound distinct sound position

/-! ### The first offence -/

theorem offends_append_iff {front rest : List Definition} (inside : position < front.length) :
    Offends (front ++ rest) position ↔ Offends front position := by
  have same : (front ++ rest).take (position + 1) = front.take (position + 1) :=
    List.take_append_of_le_length inside
  exact ⟨Offends.congr same.symm, Offends.congr same⟩

/-- An offence right behind an accepted list is the first. -/
theorem isLeast_of_accepted {front rest : List Definition} {set : PatchSet}
    (accepted : ofDefinitions front = .ok set)
    (offends : Offends (front ++ rest) front.length) :
    IsLeast {position | Offends (front ++ rest) position} front.length := by
  refine ⟨offends, fun earlier alsoOffends => Nat.le_of_not_lt fun inside => ?_⟩
  exact not_offends_of_accepted accepted earlier ((offends_append_iff inside).1 alsoOffends)

/-- What a list is rejected for is told of the definition right behind an accepted list. -/
theorem Rejects.exists_split (rejects : Rejects definitions error) :
    ∃ front rest set, definitions = front ++ rest ∧ ofDefinitions front = .ok set ∧
      Tells definitions front.length error := by
  have behind (front rest : List Definition) (definition : Definition) :
      (front ++ definition :: rest)[front.length]? = some definition := by
    rw [List.getElem?_append_right (Nat.le_refl _), Nat.sub_self, List.getElem?_cons_zero]
  cases rejects with
  | @duplicateName front rest definition set accepted taken =>
    refine ⟨front, _, set, rfl, accepted, .duplicateName (behind front rest definition) ?_⟩
    rwa [List.take_left]
  | @invalid front rest definition set defect accepted free unsound =>
    refine ⟨front, _, set, rfl, accepted, .invalid (behind front rest definition) ?_ unsound⟩
    rwa [List.take_left]

/-- A list is rejected for its first offence. -/
theorem Rejects.isLeast (rejects : Rejects definitions error) :
    ∃ position, IsLeast {position | Offends definitions position} position ∧
      Tells definitions position error := by
  obtain ⟨front, rest, set, rfl, accepted, tells⟩ := rejects.exists_split
  have offends := offends_iff_exists_tells.2 ⟨error, tells⟩
  exact ⟨front.length, isLeast_of_accepted accepted offends, tells⟩

/-- Nothing is told but of the first offence. -/
theorem ofDefinitions_eq_error_iff : ofDefinitions definitions = .error error ↔
    ∃ position, IsLeast {position | Offends definitions position} position ∧
      Tells definitions position error := by
  have determines := ofDefinitions_determines definitions
  rw [determines.eq_error_iff]
  refine ⟨Rejects.isLeast, fun ⟨position, least, tells⟩ => ?_⟩
  rcases determines.covers with ⟨set, accepted⟩ | ⟨other, rejects⟩
  · exact absurd least.1 (not_offends_of_accepted accepted position)
  · obtain ⟨place, alsoLeast, alsoTells⟩ := rejects.isLeast
    obtain rfl := least.unique alsoLeast
    obtain rfl := tells.unique alsoTells
    exact rejects

theorem exists_accepted_iff : (∃ set, ofDefinitions definitions = .ok set) ↔
    (definitions.map Definition.name).Nodup ∧
      ∀ definition ∈ definitions, ∃ patch, definition.patch = .ok patch := by
  refine ⟨fun ⟨set, accepted⟩ => sound_of_accepted accepted, fun ⟨distinct, sound⟩ => ?_⟩
  rcases accepted_or_rejects definitions with accepted | ⟨error, rejects⟩
  · exact accepted
  · obtain ⟨position, least, _⟩ := rejects.isLeast
    exact absurd least.1 (not_offends_of_sound distinct sound position)

/-- What stands behind the first offence does not count. -/
theorem ofDefinitions_congr
    (least : IsLeast {position | Offends definitions position} position)
    (same : others.take (position + 1) = definitions.take (position + 1)) :
    ofDefinitions others = ofDefinitions definitions := by
  obtain ⟨error, tells⟩ := offends_iff_exists_tells.1 least.1
  have otherLeast : IsLeast {position | Offends others position} position := by
    refine ⟨Offends.congr same least.1, fun earlier offends => ?_⟩
    refine Nat.le_of_not_lt fun before => ?_
    have shorter := congrArg (List.take (earlier + 1)) same
    rw [List.take_take, List.take_take, Nat.min_eq_left (by omega)] at shorter
    exact absurd (least.2 (Offends.congr shorter.symm offends)) (Nat.not_le_of_lt before)
  rw [ofDefinitions_eq_error_iff.2 ⟨position, least, tells⟩,
    ofDefinitions_eq_error_iff.2 ⟨position, otherLeast, tells.congr same⟩]

end Offences

/-! ### What a set holds -/

/-- The set holds these definitions: in order and unchanged, each sound, and under a name the one
definition that has it or none. -/
structure Holds (set : PatchSet) (definitions : List Definition) : Prop where
  order : set.definitions = definitions
  found : ∀ name, definitions.filter (fun definition => definition.name = name) =
    ((set.get? name).map Member.definition).toList
  sound : ∀ definition ∈ set.definitions, ∃ patch, definition.patch = .ok patch

theorem filter_eq_toList_find? (members : List Member) (name : Text)
    (distinct : (members.map fun member => member.definition.name).Nodup) :
    (members.filter fun member => member.definition.name = name) =
      (members.find? fun member => member.definition.name = name).toList := by
  induction members with
  | nil => rfl
  | cons member rest inductionHypothesis =>
    obtain ⟨free, restDistinct⟩ := List.nodup_cons.1 distinct
    rw [List.filter_cons, List.find?_cons]
    by_cases same : member.definition.name = name
    · have none : (rest.filter fun other => other.definition.name = name) = [] := by
        refine List.filter_eq_nil_iff.2 fun other later otherSame => free ?_
        exact List.mem_map.2 ⟨other, later, (of_decide_eq_true otherSame).trans same.symm⟩
      simp only [same, decide_true, if_true, none, Option.toList_some]
    · simp only [same, decide_false, Bool.false_eq_true, if_false,
        inductionHypothesis restDistinct]

theorem holds_definitions (set : PatchSet) : set.Holds set.definitions where
  order := rfl
  found name := by
    rw [definitions, List.filter_map, Function.comp_def,
      filter_eq_toList_find? set.members name set.distinct, ← get?]
    cases set.get? name <;> rfl
  sound definition given := by
    obtain ⟨member, _, rfl⟩ := List.mem_map.1 given
    exact ⟨member.patch, member.sound⟩

/-- A list makes a set exactly when its names are distinct and its definitions sound, and the set
holds it as it is. Any other list is rejected for the first definition whose name one in front has
or which is unsound, and then what stands behind does not count. -/
theorem ofDefinitions_first_offence (definitions : List Definition) :
    ((∃ set, ofDefinitions definitions = .ok set) ↔
      (definitions.map Definition.name).Nodup ∧
        ∀ definition ∈ definitions, ∃ patch, definition.patch = .ok patch) ∧
    (∀ set, ofDefinitions definitions = .ok set → set.Holds definitions) ∧
    (∀ error, ofDefinitions definitions = .error error ↔
      ∃ position, IsLeast {position | Offends definitions position} position ∧
        Tells definitions position error) ∧
    ∀ position, IsLeast {position | Offends definitions position} position →
      ∀ others, others.take (position + 1) = definitions.take (position + 1) →
        ofDefinitions others = ofDefinitions definitions := by
  refine ⟨exists_accepted_iff, fun set accepted => ?_, fun error => ofDefinitions_eq_error_iff,
    fun position least others same => ofDefinitions_congr least same⟩
  have holds := set.holds_definitions
  rwa [definitions_of_ofDefinitions accepted] at holds

end PatchSet

namespace Definition

/-- A definition that has nothing to insert, and the name of another. -/
def blankThreadLocal : Definition := { intelThreadLocal with block := [] }

/-- A definition that has nothing to insert, and a name of its own. -/
def blank : Definition := { blankThreadLocal with name := "blank".toList }

end Definition

namespace PatchSet

open Definition (intelThreadLocal blankThreadLocal blank)

/-- A name that comes again behind an unsound definition is not told of, with or without it. -/
theorem ofDefinitions_first_offence_blank :
    ofDefinitions [intelThreadLocal, blank, blankThreadLocal] =
        .error (.invalid "blank".toList .emptyBlock) ∧
      ofDefinitions [intelThreadLocal, blank] =
        ofDefinitions [intelThreadLocal, blank, blankThreadLocal] := by
  have unsound : blank.patch = .error .emptyBlock := rfl
  have least : IsLeast {position |
      Offends [intelThreadLocal, blank, blankThreadLocal] position} 1 := by
    refine ⟨⟨blank, rfl, Or.inr ⟨_, unsound⟩⟩, fun earlier offends => ?_⟩
    refine Nat.one_le_iff_ne_zero.2 fun first => ?_
    subst first
    obtain ⟨definition, here, taken | ⟨defect, refused⟩⟩ := offends
    · cases taken
    · cases here
      cases patch_intelThreadLocal.symm.trans refused
  obtain ⟨_, _, rejected, untold⟩ :=
    ofDefinitions_first_offence [intelThreadLocal, blank, blankThreadLocal]
  exact ⟨(rejected _).2 ⟨1, least, .invalid rfl (by decide) unsound⟩, untold 1 least _ rfl⟩

/-- At one position the name counts before the soundness. -/
example : ofDefinitions [intelThreadLocal, blankThreadLocal] =
    .error (.duplicateName "intel-llvm-tls".toList) := by
  decide +kernel

end PatchSet

end Inlay
