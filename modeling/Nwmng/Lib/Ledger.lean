/-
Module: Nwmng.Lib.Ledger
Purpose: Requests that are taken under reusable handles: which of them are still
unanswered, and which one a sender has outstanding.
Trusted boundary: none
Main exports:
  Entry, unanswered, outstanding, DistinctHandles, outstanding_mem,
  outstanding_owner
-/
import Mathlib.Data.List.Pairwise

/-!
Requests get handles that are used again once they were answered.  Which answer belongs to which
request is then a matter of order: a ledger lists what happened, and everything else is read off
it.
-/

namespace Ledger

universe u v w

variable {Owner : Type u} {Request : Type v} {Handle : Type w}

/-- What happens to requests.  A ledger lists its entries newest first.  It is a record beside a
program: who asked for what, and what was answered. -/
inductive Entry (Owner : Type u) (Request : Type v) (Handle : Type w) where
  | taken (owner : Owner) (request : Request) (handle : Handle)
  | answered (handle : Handle)
  /-- the owner no longer wants any answer -/
  | released (owner : Owner)

/-- A request that was taken, with its sender and its handle. -/
structure Taken (Owner : Type u) (Request : Type v) (Handle : Type w) where
  owner : Owner
  request : Request
  handle : Handle

section

variable [DecidableEq Handle]

/-- The requests that have been taken and not answered. -/
def unanswered : List (Entry Owner Request Handle) → List (Taken Owner Request Handle)
  | [] => []
  | .taken owner request handle :: older => ⟨owner, request, handle⟩ :: unanswered older
  | .answered handle :: older =>
      (unanswered older).filter fun taken => taken.handle != handle
  | .released _ :: older => unanswered older

/-- A handle is given to a request only when no unanswered one has it. -/
def DistinctHandles : List (Entry Owner Request Handle) → Prop
  | [] => True
  | .taken _ _ handle :: older =>
      (∀ taken ∈ unanswered older, taken.handle ≠ handle) ∧ DistinctHandles older
  | .answered _ :: older => DistinctHandles older
  | .released _ :: older => DistinctHandles older

instance decidableDistinctHandles :
    (ledger : List (Entry Owner Request Handle)) → Decidable (DistinctHandles ledger)
  | [] => isTrue trivial
  | .taken _ _ handle :: older =>
      have := decidableDistinctHandles older
      inferInstanceAs (Decidable
        ((∀ taken ∈ unanswered older, taken.handle ≠ handle) ∧ DistinctHandles older))
  | .answered _ :: older => decidableDistinctHandles older
  | .released _ :: older => decidableDistinctHandles older

/-- Unanswered requests have different handles. -/
theorem DistinctHandles.pairwise {ledger : List (Entry Owner Request Handle)}
    (distinct : DistinctHandles ledger) :
    (unanswered ledger).Pairwise fun first second => first.handle ≠ second.handle := by
  induction ledger with
  | nil => exact List.Pairwise.nil
  | cons entry older hypothesis =>
      cases entry with
      | taken sender what under =>
          obtain ⟨fresh, before⟩ := distinct
          refine List.Pairwise.cons ?_ (hypothesis before)
          intro taken member
          exact (fresh taken member).symm
      | answered settled => exact (hypothesis distinct).filter _
      | released sender => exact hypothesis distinct

/-- A handle belongs to one unanswered request at most. -/
theorem distinctHandles_unique {ledger : List (Entry Owner Request Handle)}
    (distinct : DistinctHandles ledger) {first second : Taken Owner Request Handle}
    (here : first ∈ unanswered ledger) (there : second ∈ unanswered ledger)
    (same : first.handle = second.handle) : first = second := by
  by_contra apart
  have symmetric : Std.Symm fun first second : Taken Owner Request Handle =>
      first.handle ≠ second.handle := ⟨fun _ _ unequal => unequal.symm⟩
  exact distinct.pairwise.forall here there apart same

variable [DecidableEq Owner]

/-- The latest request of an owner, while it is unanswered and wanted. -/
def outstanding (owner : Owner) :
    List (Entry Owner Request Handle) → Option (Request × Handle)
  | [] => none
  | .taken other request handle :: older =>
      if other = owner then some (request, handle) else outstanding owner older
  | .answered handle :: older =>
      (outstanding owner older).filter fun latest => latest.2 != handle
  | .released other :: older =>
      if other = owner then none else outstanding owner older

variable {ledger : List (Entry Owner Request Handle)} {owner other : Owner}
variable {request : Request} {handle : Handle}

@[simp] theorem outstanding_taken_self :
    outstanding owner (.taken owner request handle :: ledger) = some (request, handle) := by
  simp [outstanding]

theorem outstanding_taken_other (different : other ≠ owner) :
    outstanding other (.taken owner request handle :: ledger) = outstanding other ledger := by
  simp [outstanding, different.symm]

@[simp] theorem outstanding_released_self :
    outstanding owner (.released owner :: ledger) = none := by
  simp [outstanding]

theorem outstanding_released_other (different : other ≠ owner) :
    outstanding other (.released owner :: ledger) = outstanding other ledger := by
  simp [outstanding, different.symm]

/-- An answer settles the request with its handle. -/
theorem outstanding_answered_self (latest : outstanding owner ledger = some (request, handle)) :
    outstanding owner (.answered handle :: ledger) = none := by
  simp [outstanding, latest]

/-- An answer settles no request with another handle. -/
theorem outstanding_answered_other
    (apart : ∀ request, outstanding owner ledger ≠ some (request, handle)) :
    outstanding owner (.answered handle :: ledger) = outstanding owner ledger := by
  change (outstanding owner ledger).filter _ = _
  cases latest : outstanding owner ledger with
  | none => rfl
  | some pair =>
      obtain ⟨request, used⟩ := pair
      have different : used ≠ handle := by
        rintro rfl
        exact apart request latest
      simp [different]

/-- An outstanding request is among those that have not been answered. -/
theorem outstanding_mem {ledger : List (Entry Owner Request Handle)} {request : Request}
    {handle : Handle} (latest : outstanding owner ledger = some (request, handle)) :
    (⟨owner, request, handle⟩ : Taken Owner Request Handle) ∈ unanswered ledger := by
  induction ledger with
  | nil => cases latest
  | cons entry older hypothesis =>
      cases entry with
      | taken sender what under =>
          by_cases same : sender = owner
          · subst same
            rw [outstanding_taken_self] at latest
            cases latest
            exact List.mem_cons_self
          · rw [outstanding_taken_other fun equal => same equal.symm] at latest
            exact List.mem_cons_of_mem _ (hypothesis latest)
      | answered settled =>
          simp only [outstanding, Option.filter_eq_some_iff, bne_iff_ne] at latest
          rw [unanswered, List.mem_filter]
          exact ⟨hypothesis latest.1, by simpa using latest.2⟩
      | released sender =>
          by_cases same : sender = owner
          · subst same
            rw [outstanding_released_self] at latest
            cases latest
          · rw [outstanding_released_other fun equal => same equal.symm] at latest
            exact hypothesis latest

/-- Two owners never have a request outstanding under one handle.  It rests on handles that
differ as long as they are not answered. -/
theorem outstanding_owner (distinct : DistinctHandles ledger) {second : Request}
    (first : outstanding owner ledger = some (request, handle))
    (latest : outstanding other ledger = some (second, handle)) : owner = other := by
  have here := outstanding_mem first
  have there := outstanding_mem latest
  exact (Taken.mk.inj (distinctHandles_unique distinct here there rfl)).1

end

end Ledger
