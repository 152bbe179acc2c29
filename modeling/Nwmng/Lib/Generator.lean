/-
Module: Nwmng.Lib.Generator
Purpose: Generators that keep their place in a list between calls, and the matches that are
collected from them until there is none left.
Trusted boundary: none
Main exports:
  nextMatch, collect, collect_nextMatch
-/
import Mathlib.Data.List.Basic

/-!
A generator gives one item with each call and keeps its place in between.  Whoever calls it until
it gives nothing collects the items that it accepts, in their order.
-/

namespace Generators

universe u v

variable {Item : Type u} {State : Type v}

/-- The first item that is accepted, and the index behind it. -/
def nextMatch (accepts : Item → Bool) : List Item → Nat → Option Item × Nat
  | [], index => (none, index)
  | item :: items, index =>
      if accepts item then (some item, index + 1) else nextMatch accepts items (index + 1)

/-- The results of a generator, which is told how many there were before, until it has none. -/
def collect (generator : Nat → State → Option Item × State) :
    Nat → Nat → State → List Item × State
  | 0, _, state => ([], state)
  | calls + 1, found, state =>
      match generator found state with
      | (none, state) => ([], state)
      | (some item, state) =>
          let (items, state) := collect generator calls (found + 1) state
          (item :: items, state)

/-- The rest of the list behind an accepted item has the accepted items that are left. -/
theorem nextMatch_spec (accepts : Item → Bool) (items : List Item) (index : Nat) :
    ((nextMatch accepts items index).1 = none ∧ items.filter accepts = []) ∨
      ∃ item skipped rest, items = skipped ++ item :: rest ∧ skipped.filter accepts = [] ∧
        accepts item = true ∧
        nextMatch accepts items index = (some item, index + skipped.length + 1) := by
  induction items generalizing index with
  | nil => exact .inl ⟨rfl, rfl⟩
  | cons item items hypothesis =>
      rw [nextMatch]
      by_cases accepted : accepts item = true
      · rw [if_pos accepted]
        exact .inr ⟨item, [], items, rfl, rfl, accepted, rfl⟩
      · rw [if_neg accepted, List.filter_cons_of_neg accepted]
        rcases hypothesis (index + 1) with
          ⟨nothing, empty⟩ | ⟨found, skipped, rest, split, none_, ok, next⟩
        · exact .inl ⟨nothing, empty⟩
        · refine .inr ⟨found, item :: skipped, rest, ?_, ?_, ok, ?_⟩
          · rw [split, List.cons_append]
          · rw [List.filter_cons_of_neg accepted, none_]
          · rw [next, List.length_cons]
            congr 1
            omega

/-- A generator that goes on behind its last match collects the accepted items, in order. -/
theorem collect_nextMatch {generator : Nat → State → Option Item × State} {items : List Item}
    {accepts : Item → Bool} {At : Nat → Nat → State → Prop}
    (step : ∀ found index state, At found index state →
      (generator found state).1 = (nextMatch accepts (items.drop index) index).1 ∧
        At (found + 1) (nextMatch accepts (items.drop index) index).2 (generator found state).2)
    {calls found index : Nat} {state : State} (place : At found index state)
    (enough : (items.drop index).length < calls) :
    (collect generator calls found state).1 = (items.drop index).filter accepts := by
  induction calls generalizing found index state with
  | zero => exact absurd enough (Nat.not_lt_zero _)
  | succ calls hypothesis =>
      obtain ⟨result, next⟩ := step found index state place
      rw [collect]
      rcases nextMatch_spec accepts (items.drop index) index with
        ⟨nothing, empty⟩ | ⟨item, skipped, rest, split, none_, accepted, found_⟩
      · rw [nothing] at result
        rw [empty]
        cases called : generator found state with
        | mk found_ after =>
            rw [called] at result
            cases result
            rfl
      · rw [found_] at result next
        have behind : items.drop (index + skipped.length + 1) = rest := by
          have dropped : (items.drop index).drop (skipped.length + 1) = rest := by
            rw [split, List.drop_append, List.drop_eq_nil_of_le (by omega)]
            simp
          rw [List.drop_drop] at dropped
          rw [Nat.add_assoc]
          exact dropped
        cases called : generator found state with
        | mk found_ after =>
            rw [called] at result next
            cases result
            have fewer : (items.drop (index + skipped.length + 1)).length < calls := by
              rw [behind]
              rw [split, List.length_append, List.length_cons] at enough
              omega
            have later := @hypothesis (found + 1) _ after next fewer
            dsimp only
            rw [later, behind, split, List.filter_append, none_,
              List.filter_cons_of_pos accepted, List.nil_append]

end Generators
