/-
Module: Nwmng.Lib.JsonPath
Purpose: Places in a JSON tree: what is there, and changing it without touching what is
elsewhere.
Trusted boundary: none
Main exports:
  Step, Value.seek, Value.amend, seek_append, seek_amend_self, seek_amend_prefix,
  seek_amend_apart
-/
import Nwmng.Lib.Json

/-!
A pointer into a tree is a path.  A change at the end of a path is seen there, on the way to it
and nowhere else; the three lemmas about `seek` and `amend` say so.
-/

namespace Json

/-- A step from a value to one that it contains. -/
inductive Step where
  | member (key : String)
  | item (index : Nat)
deriving Repr, DecidableEq

namespace Value

/-- The value one step away. -/
def child (tree : Value) : Step → Option Value
  | .member key => tree.get key
  | .item index =>
      match tree with
      | .array items => items[index]?
      | _ => none

/-- Replace the value one step away; an item that is not there stays away. -/
def putChild (tree : Value) (value : Value) : Step → Value
  | .member key => tree.set key value
  | .item index =>
      match tree with
      | .array items => .array (items.set index value)
      | other => other

/-- The value at the end of a path. -/
def seek : Value → List Step → Option Value
  | tree, [] => some tree
  | tree, step :: rest =>
      match tree.child step with
      | some value => value.seek rest
      | none => none

/-- Change the value at the end of a path; nothing happens when it is not there. -/
def amend : Value → List Step → (Value → Value) → Value
  | tree, [], change => change tree
  | tree, step :: rest, change =>
      match tree.child step with
      | some value => tree.putChild (value.amend rest change) step
      | none => tree

/-- Two paths that part at some step.  A write at the one leaves what is found at the other. -/
inductive Apart : List Step → List Step → Prop where
  | here {first second : Step} {one two : List Step} (different : first ≠ second) :
      Apart (first :: one) (second :: two)
  | later {step : Step} {one two : List Step} (rest : Apart one two) :
      Apart (step :: one) (step :: two)

theorem child_putChild_self {tree old : Value} {step : Step}
    (found : tree.child step = some old) (value : Value) :
    (tree.putChild value step).child step = some value := by
  cases step with
  | member key => exact get_set_self (isObject_of_get found) key value
  | item index =>
      cases tree with
      | array items =>
          obtain ⟨inside, _⟩ := List.getElem?_eq_some_iff.mp found
          exact List.getElem?_set_self inside
      | _ => cases found

theorem child_putChild_other {step other : Step} (different : step ≠ other)
    (tree value : Value) : (tree.putChild value step).child other = tree.child other := by
  cases step with
  | member key =>
      cases other with
      | member key' =>
          have apart : key' ≠ key := by
            rintro rfl
            exact different rfl
          exact get_set_other apart tree value
      | item index => cases tree <;> rfl
  | item index =>
      cases tree with
      | array items =>
          cases other with
          | member key => rfl
          | item index' =>
              have apart : index ≠ index' := by
                rintro rfl
                exact different rfl
              exact List.getElem?_set_ne apart
      | _ => rfl

theorem seek_append (tree : Value) (first second : List Step) :
    tree.seek (first ++ second) = (tree.seek first).bind (·.seek second) := by
  induction first generalizing tree with
  | nil => rfl
  | cons step rest hypothesis =>
      simp only [List.cons_append, seek]
      cases tree.child step with
      | none => rfl
      | some value => exact hypothesis value

/-- The amended place holds the changed value. -/
theorem seek_amend_self {tree old : Value} {path : List Step}
    (found : tree.seek path = some old) (change : Value → Value) :
    (tree.amend path change).seek path = some (change old) := by
  induction path generalizing tree with
  | nil =>
      cases found
      rfl
  | cons step rest hypothesis =>
      simp only [seek] at found
      cases here : tree.child step with
      | none =>
          rw [here] at found
          cases found
      | some value =>
          rw [here] at found
          simp only [amend, here, seek]
          rw [child_putChild_self here]
          exact hypothesis found

/-- A place on the way to the amended one. -/
theorem seek_amend_prefix (tree : Value) (first second : List Step)
    (change : Value → Value) :
    (tree.amend (first ++ second) change).seek first =
      (tree.seek first).map (·.amend second change) := by
  induction first generalizing tree with
  | nil => rfl
  | cons step rest hypothesis =>
      simp only [List.cons_append, amend, seek]
      cases here : tree.child step with
      | none =>
          simp only [here]
          rfl
      | some value =>
          simp only [child_putChild_self here]
          exact hypothesis value

/-- A place on another path is as before.  It is the frame rule of the trees. -/
theorem seek_amend_apart {path other : List Step} (apart : Apart path other) (tree : Value)
    (change : Value → Value) : (tree.amend path change).seek other = tree.seek other := by
  induction apart generalizing tree with
  | @here first second one two different =>
      simp only [amend]
      cases found : tree.child first with
      | none => rfl
      | some value =>
          simp only [seek]
          rw [child_putChild_other different]
  | @later step one two rest hypothesis =>
      simp only [amend]
      cases found : tree.child step with
      | none => rfl
      | some value =>
          simp only [seek]
          rw [child_putChild_self found, found]
          exact hypothesis value

/-- Amending an item of an array. -/
theorem amend_item (items : List Value) (index : Nat) (rest : List Step)
    (change : Value → Value) :
    (array items).amend (.item index :: rest) change =
      array (items.modify index (·.amend rest change)) := by
  cases inside : items[index]? with
  | none =>
      have outside := List.getElem?_eq_none_iff.mp inside
      simp only [amend, child, inside, List.modify_eq_self outside]
  | some item =>
      simp only [amend, child, inside, putChild]
      rw [List.modify_eq_set_getElem?, inside]
      rfl

end Value

end Json
