/-
Module: Nwmng.Lib.Occupancy
Purpose: Guests in a finite row of places: what moving in and moving out does to
the list of guests.
Trusted boundary: none
Main exports:
  occupants, occupants_move_in, occupants_move_out
-/
import Mathlib.Data.List.Basic
import Mathlib.Logic.Function.Basic

/-!
Moving in and out changes one place of a row.  As a list of guests, up to their order, it adds or
removes one guest.
-/

namespace Occupancy

universe u v

variable {Place : Type u} {Guest : Type v}

/-- The guests, in the order of their places. -/
def occupants (places : List Place) (content : Place → Option Guest) : List Guest :=
  places.filterMap content

/-- The guests depend on the content of the places in the row only. -/
theorem occupants_congr {places : List Place} {first second : Place → Option Guest}
    (same : ∀ place ∈ places, first place = second place) :
    occupants places first = occupants places second :=
  List.filterMap_congr same

variable [DecidableEq Place] {places : List Place} {content : Place → Option Guest}
variable {place : Place} {guest : Guest}

/-- A guest who moves into a free place joins the others.  The occupants are listed in the order
of the places, so the two lists agree up to their order. -/
theorem occupants_move_in (distinct : places.Nodup) (member : place ∈ places)
    (free : content place = none) :
    (occupants places (Function.update content place (some guest))).Perm
      (guest :: occupants places content) := by
  induction places with
  | nil => cases member
  | cons first rest hypothesis =>
      obtain ⟨fresh, distinctRest⟩ := List.nodup_cons.mp distinct
      by_cases here : first = place
      · subst here
        have others : occupants rest (Function.update content first (some guest)) =
            occupants rest content := by
          apply occupants_congr
          intro other inside
          have apart : other ≠ first := by
            rintro rfl
            exact fresh inside
          exact Function.update_of_ne apart _ _
        have front : occupants (first :: rest) (Function.update content first (some guest)) =
            guest :: occupants rest (Function.update content first (some guest)) := by
          simp [occupants]
        have back : occupants (first :: rest) content = occupants rest content := by
          simp [occupants, free]
        rw [front, back, others]
      · have deeper : place ∈ rest := by
          rcases List.mem_cons.mp member with same | deeper
          · exact False.elim (here same.symm)
          · exact deeper
        have moved := hypothesis distinctRest deeper
        have elsewhere : Function.update content place (some guest) first = content first :=
          Function.update_of_ne here _ _
        cases there : content first with
        | none => simpa [occupants, elsewhere, there] using moved
        | some other =>
            have front := moved.cons other
            have swapped := List.Perm.swap guest other (occupants rest content)
            simpa [occupants, elsewhere, there] using front.trans swapped

/-- A guest who moves out leaves the others. -/
theorem occupants_move_out (distinct : places.Nodup) (member : place ∈ places)
    (taken : content place = some guest) :
    (occupants places content).Perm
      (guest :: occupants places (Function.update content place none)) := by
  have back : Function.update (Function.update content place none) place (some guest) =
      content := by
    rw [Function.update_idem, ← taken, Function.update_eq_self]
  have moved : (occupants places
      (Function.update (Function.update content place none) place (some guest))).Perm
      (guest :: occupants places (Function.update content place none)) :=
    occupants_move_in distinct member (Function.update_self place none content)
  rw [back] at moved
  exact moved

end Occupancy
