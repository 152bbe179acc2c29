/-
Module: Nwmng.Lib.Fallible
Purpose: Small rules for computations that may stop with a failure.
Trusted boundary: none
Main exports:
  ok_bind, error_bind, bind_ok, bind_error, mapError_ok, ok_of_toOption, forall₂_of_mapM,
  foldlM_of_ok, LoopGuarded, foldlM_guarded_invariant, foldlM_guarded_error, FailsOnly,
  Verdict, Verdict.andThen, UpToFirst
-/
import Mathlib.Data.List.Basic

namespace Fallible

universe u v w

variable {Failure : Type u} {α β : Type v}

theorem ok_bind (value : α) (rest : α → Except Failure β) :
    (Except.ok value >>= rest) = rest value := rfl

theorem error_bind (failure : Failure) (rest : α → Except Failure β) :
    ((Except.error failure : Except Failure α) >>= rest) = .error failure := rfl

/-- A sequence succeeds exactly when both of its parts do. -/
theorem bind_ok {first : Except Failure α} {rest : α → Except Failure β}
    {result : β} :
    (first >>= rest) = .ok result ↔
      ∃ value, first = .ok value ∧ rest value = .ok result := by
  cases first with
  | error failure =>
      constructor
      · intro impossible
        cases impossible
      · rintro ⟨value, impossible, _⟩
        cases impossible
  | ok value =>
      constructor
      · intro succeeds
        exact ⟨value, rfl, succeeds⟩
      · rintro ⟨same, isValue, succeeds⟩
        cases isValue
        exact succeeds

/-- A sequence fails exactly when one of its parts does. -/
theorem bind_error {first : Except Failure α} {rest : α → Except Failure β}
    {failure : Failure} :
    (first >>= rest) = .error failure ↔
      first = .error failure ∨ ∃ value, first = .ok value ∧ rest value = .error failure := by
  cases first with
  | error other =>
      constructor
      · intro fails
        cases fails
        exact .inl rfl
      · rintro (same | ⟨value, impossible, _⟩)
        · cases same
          rfl
        · cases impossible
  | ok value =>
      constructor
      · intro fails
        exact .inr ⟨value, rfl, fails⟩
      · rintro (impossible | ⟨same, isValue, fails⟩)
        · cases impossible
        · cases isValue
          exact fails

/-- Another name for a failure changes no result. -/
theorem mapError_ok {Other : Type w} {change : Failure → Other}
    {computation : Except Failure α} {value : α} :
    computation.mapError change = .ok value ↔ computation = .ok value := by
  cases computation with
  | error failure =>
      constructor
      · intro impossible
        cases impossible
      · intro impossible
        cases impossible
  | ok other =>
      constructor
      · intro same
        cases same
        rfl
      · intro same
        cases same
        rfl

/-- A result that was computed. -/
theorem ok_of_toOption {computation : Except Failure α} {value : α}
    (computed : computation.toOption = some value) : computation = .ok value := by
  cases computation with
  | error failure => cases computed
  | ok other =>
      cases computed
      rfl

/-- What a fallible map makes of a list, it makes of each item. -/
theorem forall₂_of_mapM {γ : Type v} {change : γ → Except Failure α} {items : List γ}
    {results : List α} (maps : items.mapM change = .ok results) :
    List.Forall₂ (fun item result => change item = .ok result) items results := by
  induction items generalizing results with
  | nil =>
      cases maps
      exact .nil
  | cons item rest hypothesis =>
      rw [List.mapM_cons] at maps
      simp only [bind_ok] at maps
      obtain ⟨first, isFirst, others, isOthers, whole⟩ := maps
      cases whole
      exact .cons isFirst (hypothesis isOthers)

/-- A loop whose rounds all succeed is a plain fold. -/
theorem foldlM_of_ok {Item : Type w} {round : α → Item → Except Failure α}
    {effect : α → Item → α} {items : List Item}
    (succeeds : ∀ item ∈ items, ∀ before, round before item = .ok (effect before item))
    (initial : α) : items.foldlM round initial = .ok (items.foldl effect initial) := by
  induction items generalizing initial with
  | nil => rfl
  | cons item items hypothesis =>
      rw [List.foldlM_cons, succeeds item (List.mem_cons_self ..), ok_bind, List.foldl_cons]
      exact hypothesis (fun later inside => succeeds later (List.mem_cons_of_mem _ inside)) _

/-! ## Deciding what is said about results -/

instance decidableForallOk {computation : Except Failure α} {holds : α → Prop}
    [∀ value, Decidable (holds value)] :
    Decidable (∀ value, computation = .ok value → holds value) :=
  match computation with
  | .ok value =>
      decidable_of_iff (holds value)
        ⟨fun here other same => by cases same; exact here, fun every => every value rfl⟩
  | .error _ => isTrue fun _ impossible => nomatch impossible

instance decidableForallSome {result : Option α} {holds : α → Prop}
    [∀ value, Decidable (holds value)] :
    Decidable (∀ value, result = some value → holds value) :=
  match result with
  | some value =>
      decidable_of_iff (holds value)
        ⟨fun here other same => by cases same; exact here, fun every => every value rfl⟩
  | none => isTrue fun _ impossible => nomatch impossible

instance decidableExistsSome {result : Option α} {holds : α → Prop}
    [∀ value, Decidable (holds value)] :
    Decidable (∃ value, result = some value ∧ holds value) :=
  match result with
  | some value =>
      decidable_of_iff (holds value)
        ⟨fun here => ⟨value, rfl, here⟩, fun ⟨_, same, here⟩ => by cases same; exact here⟩
  | none => isFalse fun ⟨_, impossible, _⟩ => nomatch impossible

/-!
## Guarded loops

A loop that may fail is a fold.  When each round keeps a property under a condition on the state
before it, the whole loop does, and a failure is one of a round that met the condition.
-/

/-- Every round of a loop starts where its item is admitted. -/
def LoopGuarded {Item : Type w} (admitted : α → Item → Prop)
    (round : α → Item → Except Failure α) : α → List Item → Prop
  | _, [] => True
  | before, item :: items =>
      admitted before item ∧
        ∀ after, round before item = .ok after →
          LoopGuarded admitted round after items

instance decidableLoopGuarded {Item : Type w} {admitted : α → Item → Prop}
    {round : α → Item → Except Failure α}
    [∀ before item, Decidable (admitted before item)] :
    ∀ before items, Decidable (LoopGuarded admitted round before items)
  | _, [] => isTrue trivial
  | before, item :: items =>
      have : ∀ after, Decidable (LoopGuarded admitted round after items) :=
        fun after => decidableLoopGuarded after items
      inferInstanceAs (Decidable (admitted before item ∧
        ∀ after, round before item = .ok after →
          LoopGuarded admitted round after items))

/-- Every loop is guarded by the trivial condition. -/
theorem loopGuarded_trivial {Item : Type w} {round : α → Item → Except Failure α}
    (before : α) (items : List Item) :
    LoopGuarded (fun _ _ => True) round before items := by
  induction items generalizing before with
  | nil => trivial
  | cons item items hypothesis => exact ⟨trivial, fun after _ => hypothesis after⟩

/-- What every admitted round preserves, a guarded loop preserves.  The invariant
may speak about the items that remain. -/
theorem foldlM_guarded_invariant {Item : Type w} {invariant : List Item → α → Prop}
    {admitted : α → Item → Prop} {round : α → Item → Except Failure α}
    {items : List Item}
    (preserved : ∀ before item rest after, invariant (item :: rest) before →
      admitted before item → round before item = .ok after → invariant rest after)
    {initial final : α} (holds : invariant items initial)
    (guarded : LoopGuarded admitted round initial items)
    (succeeds : items.foldlM round initial = .ok final) :
    invariant [] final := by
  induction items generalizing initial with
  | nil =>
      cases succeeds
      exact holds
  | cons item items hypothesis =>
      rw [List.foldlM_cons] at succeeds
      obtain ⟨middle, here, later⟩ := bind_ok.mp succeeds
      obtain ⟨first, rest⟩ := guarded
      have kept := preserved initial item items middle holds first here
      exact hypothesis kept (rest middle here) later

/-- A guarded loop that fails, fails in a round that is admitted in the state that
the rounds before it have left. -/
theorem foldlM_guarded_error {Item : Type w} {invariant : List Item → α → Prop}
    {admitted : α → Item → Prop} {round : α → Item → Except Failure α}
    {items : List Item}
    (preserved : ∀ before item rest after, invariant (item :: rest) before →
      admitted before item → round before item = .ok after → invariant rest after)
    {initial : α} {failure : Failure} (holds : invariant items initial)
    (guarded : LoopGuarded admitted round initial items)
    (fails : items.foldlM round initial = .error failure) :
    ∃ before item rest, invariant (item :: rest) before ∧ admitted before item ∧
      round before item = .error failure := by
  induction items generalizing initial with
  | nil => cases fails
  | cons item items hypothesis =>
      rw [List.foldlM_cons] at fails
      obtain ⟨first, rest⟩ := guarded
      rcases bind_error.mp fails with here | ⟨middle, here, later⟩
      · exact ⟨initial, item, items, holds, first, here⟩
      · have kept := preserved initial item items middle holds first here
        exact hypothesis kept (rest middle here) later

/-!
## Which failures a computation can have

To show that an assertion never fails it is enough to bound the failures of each part.  Failures
that are allowed anyway need no argument.
-/

/-- Every failure of the computation is allowed.  Computations that are composed of such ones are
such ones, so it is proved along their structure. -/
def FailsOnly (allowed : Failure → Prop) (computation : Except Failure α) : Prop :=
  ∀ failure, computation = .error failure → allowed failure

section

variable {allowed : Failure → Prop}

@[simp] theorem failsOnly_ok {value : α} :
    FailsOnly allowed (.ok value : Except Failure α) := by
  intro failure impossible
  cases impossible

@[simp] theorem failsOnly_error {failure : Failure} :
    FailsOnly allowed (.error failure : Except Failure α) ↔ allowed failure := by
  constructor
  · intro every
    exact every failure rfl
  · intro fine other same
    cases same
    exact fine

theorem failsOnly_bind {first : Except Failure α} {rest : α → Except Failure β} :
    FailsOnly allowed (first >>= rest) ↔
      FailsOnly allowed first ∧
        ∀ value, first = .ok value → FailsOnly allowed (rest value) := by
  constructor
  · intro whole
    refine ⟨fun failure fails => ?_, fun value here failure fails => ?_⟩
    · exact whole failure (bind_error.mpr (.inl fails))
    · exact whole failure (bind_error.mpr (.inr ⟨value, here, fails⟩))
  · rintro ⟨before, after⟩ failure fails
    rcases bind_error.mp fails with here | ⟨value, here, later⟩
    · exact before failure here
    · exact after value here failure later

theorem failsOnly_ite {condition : Prop} [Decidable condition]
    {yes no : Except Failure α} :
    FailsOnly allowed (if condition then yes else no) ↔
      (condition → FailsOnly allowed yes) ∧ (¬ condition → FailsOnly allowed no) := by
  split <;> simp_all

end

/-! ## Verdicts

A reader of foreign data has three ends: it fails, it refuses what it was given, or it takes
it.  A verdict names the two conditions that decide between the ends, so that readers are
composed by composing conditions. -/

/-- Which end a reader comes to: it fails unless the data is readable, and refuses what is
malformed. -/
inductive Verdict (readable malformed : Prop) : Except Failure (Option α) → Prop where
  | fails (failure : Failure) (unreadable : ¬ readable) :
      Verdict readable malformed (.error failure)
  | refuses (fine : readable) (bad : malformed) : Verdict readable malformed (.ok none)
  | takes (value : α) (fine : readable) (good : ¬ malformed) :
      Verdict readable malformed (.ok (some value))

namespace Verdict

variable {readable malformed : Prop} {reading : Except Failure (Option α)}

/-- The program goes on exactly when the data is readable. -/
theorem ok_iff (verdict : Verdict readable malformed reading) :
    (∃ result, reading = .ok result) ↔ readable := by
  cases verdict with
  | fails failure unreadable => simp [unreadable]
  | refuses fine bad => simp [fine]
  | takes value fine good => simp [fine]

theorem malformed_of_none (verdict : Verdict readable malformed reading)
    (refused : reading = .ok none) : malformed := by
  cases verdict with
  | fails failure unreadable => cases refused
  | refuses fine bad => exact bad
  | takes value fine good => cases refused

theorem not_malformed_of_some (verdict : Verdict readable malformed reading) {value : α}
    (taken : reading = .ok (some value)) : ¬ malformed := by
  cases verdict with
  | fails failure unreadable => cases taken
  | refuses fine bad => cases taken
  | takes other fine good => exact good

/-- What is made of an accepted value does not matter. -/
theorem map (verdict : Verdict readable malformed reading) (change : α → β) :
    Verdict readable malformed (reading >>= fun value => .ok (value.map change)) := by
  cases verdict with
  | fails failure unreadable => exact .fails failure unreadable
  | refuses fine bad => exact .refuses fine bad
  | takes value fine good => exact .takes (change value) fine good

/-- The second part is read only after the first was taken. -/
theorem andThen {nextReadable nextMalformed : Prop} {next : α → Except Failure (Option β)}
    (verdict : Verdict readable malformed reading)
    (later : ∀ value, reading = .ok (some value) →
      Verdict nextReadable nextMalformed (next value)) :
    Verdict (readable ∧ (¬ malformed → nextReadable)) (malformed ∨ nextMalformed)
      (reading >>= fun value => value.elim (.ok none) next) := by
  cases verdict with
  | fails failure unreadable => exact .fails failure fun both => unreadable both.1
  | refuses fine bad => exact .refuses ⟨fine, fun good => absurd bad good⟩ (.inl bad)
  | takes value fine good =>
      rw [ok_bind, Option.elim_some]
      generalize result : next value = rest
      have verdict := later value rfl
      rw [result] at verdict
      cases verdict with
      | fails failure unreadable => exact .fails failure fun both => unreadable (both.2 good)
      | refuses fineNext bad => exact .refuses ⟨fine, fun _ => fineNext⟩ (.inr bad)
      | takes other fineNext goodNext =>
          exact .takes other ⟨fine, fun _ => fineNext⟩ (not_or.mpr ⟨good, goodNext⟩)

theorem congr {otherReadable otherMalformed : Prop}
    (verdict : Verdict readable malformed reading) (same : readable ↔ otherReadable)
    (alike : malformed ↔ otherMalformed) : Verdict otherReadable otherMalformed reading := by
  rwa [propext same, propext alike] at verdict

end Verdict

/-- Every item is fine, up to the first that ends the reading. -/
def UpToFirst {Item : Type w} (ends fine : Item → Prop) : List Item → Prop
  | [] => True
  | item :: rest => fine item ∧ (¬ ends item → UpToFirst ends fine rest)

end Fallible
