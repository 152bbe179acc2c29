/-
Module: Nwmng.Lib.LinkedQueue
Purpose: A queue of linked cells in a heap, with pointers to its first and its last cell, as a
first-in first-out list; each cell is allocated once and freed once.
Trusted boundary: none
Main exports:
  Cell, LinkedQueue, enqueue, dequeue, Represents, represents_enqueue, represents_dequeue,
  dequeue_empty, allocated_iff
-/
import Mathlib.Data.List.Basic
import Mathlib.Data.List.Nodup
import Mathlib.Logic.Function.Basic

namespace Queues

universe u

variable {Item : Type u}

/-- A cell of the list. -/
structure Cell (Item : Type u) where
  item : Item
  next : Option Nat

/-- The cells that are allocated, and the two ends; an address without a cell is not allocated. -/
structure LinkedQueue (Item : Type u) where
  heap : Nat → Option (Cell Item)
  head : Option Nat
  tail : Option Nat

def LinkedQueue.empty : LinkedQueue Item := { heap := fun _ => none, head := none, tail := none }

/-- A new cell becomes the last one; no result when the last cell is not allocated. -/
def enqueue (queue : LinkedQueue Item) (address : Nat) (item : Item) :
    Option (LinkedQueue Item) :=
  let heap := Function.update queue.heap address (some { item := item, next := none })
  match queue.tail with
  | none => some { heap := heap, head := some address, tail := some address }
  | some tail =>
      match heap tail with
      | none => none
      | some last =>
          some { heap := Function.update heap tail (some { last with next := some address })
                 head := queue.head
                 tail := some address }

/-- The first cell is taken and freed; no result when it is not allocated. -/
def dequeue (queue : LinkedQueue Item) : Option (Option Item × LinkedQueue Item) :=
  match queue.head with
  | none => some (none, queue)
  | some address =>
      match queue.heap address with
      | none => none
      | some cell =>
          some (some cell.item,
            { heap := Function.update queue.heap address none
              head := cell.next
              tail := if cell.next = none then none else queue.tail })

/-!
## What a queue holds

A queue represents a list of items when its cells are those of the list, in the order of the
links, and no other cell is allocated.
-/

/-- The heap of these cells. -/
def heapOf : List (Nat × Item) → Nat → Option (Cell Item)
  | [] => fun _ => none
  | (address, item) :: cells =>
      Function.update (heapOf cells) address
        (some { item := item, next := cells.head?.map Prod.fst })

/-- The queue is made of these cells, in this order, and of no other.  That there is no other
cell is part of it: a cell that is left behind would be a leak. -/
structure Represents (queue : LinkedQueue Item) (cells : List (Nat × Item)) : Prop where
  heap : queue.heap = heapOf cells
  head : queue.head = cells.head?.map Prod.fst
  tail : queue.tail = cells.getLast?.map Prod.fst
  distinct : (cells.map Prod.fst).Nodup

theorem represents_empty : Represents (LinkedQueue.empty : LinkedQueue Item) [] :=
  ⟨rfl, rfl, rfl, List.nodup_nil⟩

/-- An address is allocated exactly when a cell of the queue is there. -/
theorem heapOf_eq_none {cells : List (Nat × Item)} {address : Nat} :
    heapOf cells address = none ↔ address ∉ cells.map Prod.fst := by
  induction cells with
  | nil => exact ⟨fun _ => List.not_mem_nil, fun _ => rfl⟩
  | cons cell cells hypothesis =>
      obtain ⟨place, item⟩ := cell
      rw [heapOf, List.map_cons, List.mem_cons, not_or]
      by_cases here : address = place
      · rw [here, Function.update_self]
        exact ⟨fun impossible => (by cases impossible), fun absent => absurd rfl absent.1⟩
      · rw [Function.update_of_ne here, hypothesis]
        exact ⟨fun later => ⟨here, later⟩, fun absent => absent.2⟩

theorem allocated_iff {queue : LinkedQueue Item} {cells : List (Nat × Item)}
    (represents : Represents queue cells) {address : Nat} :
    queue.heap address ≠ none ↔ address ∈ cells.map Prod.fst := by
  rw [represents.heap, ne_eq, heapOf_eq_none, not_not]

/-- A cell behind the last one. -/
theorem heapOf_snoc {cells : List (Nat × Item)} {address tail : Nat} {item : Item}
    (isTail : cells.getLast?.map Prod.fst = some tail)
    (fresh : address ∉ cells.map Prod.fst) (distinct : (cells.map Prod.fst).Nodup) :
    ∃ last, heapOf cells tail = some last ∧
      heapOf (cells ++ [(address, item)]) =
        Function.update (Function.update (heapOf cells) address
          (some { item := item, next := none })) tail
            (some { last with next := some address }) := by
  induction cells with
  | nil => cases isTail
  | cons cell cells hypothesis =>
      obtain ⟨place, value⟩ := cell
      rw [List.map_cons, List.mem_cons, not_or] at fresh
      rw [List.map_cons, List.nodup_cons] at distinct
      cases cells with
      | nil =>
          have same : place = tail := Option.some.inj isTail
          subst same
          have apart : place ≠ address := fun same => fresh.1 same.symm
          refine ⟨_, Function.update_self .., ?_⟩
          have grown : heapOf ([(place, value)] ++ [(address, item)]) =
              Function.update (Function.update (fun _ => none) address
                (some { item := item, next := none })) place
                  (some { item := value, next := some address }) := rfl
          rw [grown, heapOf, heapOf, Function.update_comm apart, Function.update_idem]
      | cons second rest =>
          rw [List.getLast?_cons_cons] at isTail
          obtain ⟨last, found, grown⟩ := hypothesis isTail fresh.2 distinct.2
          have member : tail ∈ (second :: rest).map Prod.fst := by
            by_contra absent
            rw [heapOf_eq_none.mpr absent] at found
            cases found
          have other : tail ≠ place := by
            intro same
            exact distinct.1 (same ▸ member)
          refine ⟨last, ?_, ?_⟩
          · rw [heapOf, Function.update_of_ne other]
            exact found
          · rw [List.cons_append, heapOf, grown, heapOf, Function.update_comm other,
              Function.update_comm fresh.1]
            rfl

/-- A cell that is put into memory that was free joins the end of the queue.  The former last
cell is the only other one that changes. -/
theorem represents_enqueue {queue : LinkedQueue Item} {cells : List (Nat × Item)}
    (represents : Represents queue cells) {address : Nat} (free : queue.heap address = none)
    (item : Item) :
    ∃ after, enqueue queue address item = some after ∧
      Represents after (cells ++ [(address, item)]) := by
  have fresh : address ∉ cells.map Prod.fst := by
    rw [represents.heap] at free
    exact heapOf_eq_none.mp free
  have distinct : ((cells ++ [(address, item)]).map Prod.fst).Nodup := by
    rw [List.map_append]
    exact List.Nodup.append represents.distinct (List.nodup_singleton _)
      (List.disjoint_singleton.mpr fresh)
  have last : (cells ++ [(address, item)]).getLast?.map Prod.fst = some address := by
    rw [List.getLast?_concat]
    rfl
  unfold enqueue
  dsimp only
  cases isTail : queue.tail with
  | none =>
      have nothing : cells = [] := by
        rw [represents.tail, Option.map_eq_none_iff, List.getLast?_eq_none_iff] at isTail
        exact isTail
      subst nothing
      exact ⟨_, rfl, by rw [represents.heap]; rfl, rfl, last.symm, distinct⟩
  | some tail =>
      have found : cells.getLast?.map Prod.fst = some tail := represents.tail.symm.trans isTail
      obtain ⟨cell, here, grown⟩ := @heapOf_snoc _ cells address tail item found fresh
        represents.distinct
      have allocated : tail ∈ cells.map Prod.fst := by
        by_contra absent
        rw [heapOf_eq_none.mpr absent] at here
        cases here
      have other : tail ≠ address := by
        intro same
        exact fresh (same ▸ allocated)
      dsimp only
      rw [Function.update_of_ne other, represents.heap, here]
      refine ⟨_, rfl, grown.symm, ?_, last.symm, distinct⟩
      dsimp only
      rw [represents.head]
      cases cells with
      | nil => cases found
      | cons first rest => rfl

/-- Nothing is taken from an empty queue. -/
theorem dequeue_empty {queue : LinkedQueue Item} (represents : Represents queue []) :
    dequeue queue = some (none, queue) := by
  have none_ : queue.head = none := represents.head
  rw [dequeue, none_]

/-- The first item is taken, and its cell is free again. -/
theorem represents_dequeue {queue : LinkedQueue Item} {address : Nat} {item : Item}
    {cells : List (Nat × Item)} (represents : Represents queue ((address, item) :: cells)) :
    ∃ after, dequeue queue = some (some item, after) ∧ Represents after cells := by
  have head : queue.head = some address := represents.head
  have distinct := represents.distinct
  rw [List.map_cons, List.nodup_cons] at distinct
  have here : queue.heap address =
      some { item := item, next := cells.head?.map Prod.fst } := by
    rw [represents.heap, heapOf, Function.update_self]
  unfold dequeue
  rw [head]
  dsimp only
  rw [here]
  refine ⟨_, rfl, ?_, rfl, ?_, distinct.2⟩
  · dsimp only
    rw [represents.heap, heapOf, Function.update_idem]
    have absent : heapOf cells address = none := heapOf_eq_none.mpr distinct.1
    rw [← absent, Function.update_eq_self]
  · dsimp only
    cases cells with
    | nil => rfl
    | cons second rest =>
        have more : ¬ (second :: rest).head?.map Prod.fst = none := by
          intro impossible
          cases impossible
        rw [if_neg more, represents.tail, List.getLast?_cons_cons]

end Queues
