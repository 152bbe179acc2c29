/-
Module: Nwmng.Lib.Delivery
Purpose: Items that are sent one after the other, each until its sending is answered for good.
Trusted boundary: none
Main exports:
  Delivers, Delivers.accept, Delivers.finished
-/
import Mathlib.Data.List.Basic
import Mathlib.Data.List.Forall2

/-!
A sender works off a list of items, and repeats an item until its sending is accepted.  In the
history of its attempts every item occurs in a block of its own, with the success at its end.
-/

universe u v

variable {Item : Type u} {Sent : Type v}

/-- The items that were sent, oldest first, and those that remain: the first of them is sent
until a sending of it is not to be repeated. -/
inductive Delivers (carries : Item → Sent → Prop) (again : Sent → Prop) (items : List Item) :
    List Sent → List Item → Prop where
  | start : Delivers carries again items [] items
  | repeated {rest : List Item} {item : Item} {earlier : List Sent} {last : Sent}
      (before : Delivers carries again items earlier (item :: rest))
      (own : carries item last) (failed : again last) :
      Delivers carries again items (earlier ++ [last]) (item :: rest)
  | completed {rest : List Item} {item : Item} {earlier : List Sent} {last : Sent}
      (before : Delivers carries again items earlier (item :: rest))
      (own : carries item last) (answered : ¬ again last) :
      Delivers carries again items (earlier ++ [last]) rest

namespace Delivers

variable {carries : Item → Sent → Prop} {again : Sent → Prop}
variable {items rest : List Item} {sent : List Sent}

/-- More items are accepted behind those that remain. -/
theorem accept (delivers : Delivers carries again items sent rest) (more : List Item) :
    Delivers carries again (items ++ more) sent (rest ++ more) := by
  induction delivers with
  | start => exact .start
  | repeated before own failed hypothesis => exact hypothesis.repeated own failed
  | completed before own answered hypothesis => exact hypothesis.completed own answered

/-- Each item but those that remain was sent, in order, and answered for good once.  What was
answered with a request to send it again is filtered out. -/
theorem finished [DecidablePred again] (delivers : Delivers carries again items sent rest) :
    ∃ done, items = done ++ rest ∧
      List.Forall₂ carries done (sent.filter fun last => ¬ again last) := by
  induction delivers with
  | start => exact ⟨[], rfl, .nil⟩
  | repeated before own failed hypothesis =>
      obtain ⟨done, isItems, carried⟩ := hypothesis
      refine ⟨done, isItems, ?_⟩
      rw [List.filter_append, List.filter_cons_of_neg (by simpa using failed), List.filter_nil,
        List.append_nil]
      exact carried
  | @completed rest item earlier last before own answered hypothesis =>
      obtain ⟨done, isItems, carried⟩ := hypothesis
      refine ⟨done ++ [item], by rw [isItems, List.append_assoc, List.singleton_append], ?_⟩
      rw [List.filter_append, List.filter_cons_of_pos (by simpa using answered),
        List.filter_nil]
      exact List.rel_append carried (.cons own .nil)

end Delivers
