/-
Module: Nwmng.Lib.Enumeration
Purpose: Enumerations that are carried out one step at a time: what a reader visits, chains of
positions, and indices that an iterator takes which starts at zero and skips.
Trusted boundary: none
Main exports:
  Visits, Visits.unique, Leads, leads_append, Leads.visits, Visits.through, sweep, later,
  leads_sweep, sweep_eq_filter_iff
-/
import Mathlib.Data.List.Basic
import Mathlib.Data.List.Nodup

namespace Enumeration

universe u v

section

variable {Position : Type u} {Value : Type v}

/-- What a reader finds that starts at a position, and goes on until there is no next one.  The
first position is read without a test, as the iterators of programs do that begin at zero. -/
inductive Visits (read : Position → Option Value) (next : Position → Option Position) :
    Position → List (Position × Value) → Prop where
  | last {place : Position} {value : Value} (reads : read place = some value)
      (ends : next place = none) : Visits read next place [(place, value)]
  | more {place after : Position} {value : Value} {found : List (Position × Value)}
      (reads : read place = some value) (advances : next place = some after)
      (later : Visits read next after found) :
      Visits read next place ((place, value) :: found)

/-- A chain of positions: each is followed by the one behind it, and the last by the exit. -/
def Leads (next : Position → Option Position) : List Position → Option Position → Prop
  | [], _ => True
  | place :: rest, exit => next place = rest.head?.or exit ∧ Leads next rest exit

variable {read : Position → Option Value} {next : Position → Option Position}

/-- The position a reader starts at can be read. -/
theorem Visits.reads {place : Position} {found : List (Position × Value)}
    (visits : Visits read next place found) : ∃ value, read place = some value := by
  cases visits with
  | last reads _ => exact ⟨_, reads⟩
  | more reads _ _ => exact ⟨_, reads⟩

/-- A reader finds one thing only. -/
theorem Visits.unique {place : Position} {found other : List (Position × Value)}
    (visits : Visits read next place found) (again : Visits read next place other) :
    found = other := by
  induction visits generalizing other with
  | last reads ends =>
      cases again with
      | last reads' _ =>
          have value := Option.some.inj (reads.symm.trans reads')
          rw [value]
      | more _ advances' _ => cases ends.symm.trans advances'
  | more reads advances _ hypothesis =>
      cases again with
      | last _ ends' => cases advances.symm.trans ends'
      | more reads' advances' later' =>
          have value := Option.some.inj (reads.symm.trans reads')
          have after := Option.some.inj (advances.symm.trans advances')
          rw [value]
          rw [← after] at later'
          rw [hypothesis later']

theorem leads_append {first second : List Position} {exit : Option Position} :
    Leads next (first ++ second) exit ↔
      Leads next first (second.head?.or exit) ∧ Leads next second exit := by
  induction first with
  | nil => exact ⟨fun leads => ⟨trivial, leads⟩, fun leads => leads.2⟩
  | cons place rest hypothesis =>
      have head : (rest ++ second).head?.or exit = rest.head?.or (second.head?.or exit) := by
        cases rest <;> rfl
      simp only [List.cons_append, Leads, head, hypothesis, and_assoc]

/-- What there is to read at some positions, with the positions. -/
def readings (read : Position → Option Value) (places : List Position) :
    List (Position × Value) :=
  places.filterMap fun place => (read place).map fun value => (place, value)

/-- A chain to the end that can be read is what the reader finds. -/
theorem Leads.visits {place : Position} {rest : List Position}
    (leads : Leads next (place :: rest) none)
    (reads : ∀ other ∈ place :: rest, (read other).isSome = true) :
    Visits read next place (readings read (place :: rest)) := by
  obtain ⟨value, here⟩ := Option.isSome_iff_exists.mp (reads place List.mem_cons_self)
  have first : readings read (place :: rest) = (place, value) :: readings read rest := by
    simp only [readings, List.filterMap_cons, here, Option.map_some]
  rw [first]
  induction rest generalizing place value with
  | nil => exact .last here leads.1
  | cons after rest hypothesis =>
      have readsLater : ∀ other ∈ after :: rest, (read other).isSome = true :=
        fun other member => reads other (List.mem_cons_of_mem place member)
      obtain ⟨following, there⟩ := Option.isSome_iff_exists.mp (readsLater after List.mem_cons_self)
      have second : readings read (after :: rest) = (after, following) :: readings read rest := by
        simp only [readings, List.filterMap_cons, there, Option.map_some]
      rw [second]
      exact .more here leads.1 (hypothesis leads.2 readsLater following there second)

/-- A reader that starts a chain gets to its exit. -/
theorem Visits.through {place exit : Position} {rest : List Position}
    {found : List (Position × Value)} (visits : Visits read next place found)
    (leads : Leads next (place :: rest) (some exit)) :
    ∃ others, Visits read next exit others := by
  induction rest generalizing place found with
  | nil =>
      have step : next place = some exit := leads.1
      cases visits with
      | last _ ends => cases step.symm.trans ends
      | more _ advances later =>
          have same := Option.some.inj (step.symm.trans advances)
          rw [same]
          exact ⟨_, later⟩
  | cons after rest hypothesis =>
      have step : next place = some after := leads.1
      cases visits with
      | last _ ends => cases step.symm.trans ends
      | more _ advances later =>
          have same := Option.some.inj (step.symm.trans advances)
          rw [← same] at later
          exact hypothesis later leads.2

end

/-!
## Indices that skip

An iterator that tests every index but the first takes all wanted indices, and no other, exactly
when the first one is wanted or there is none at all.
-/

/-- The indices an iterator takes below a bound: it starts at zero, and from there on skips
what is not wanted. -/
def sweep (wanted : Nat → Bool) (bound : Nat) : List Nat :=
  0 :: (List.range' 1 (bound - 1)).filter wanted

/-- The wanted indices behind one. -/
def behind (wanted : Nat → Bool) (bound index : Nat) : List Nat :=
  (List.range' (index + 1) (bound - (index + 1))).filter wanted

/-- The index the iterator takes next. -/
def later (wanted : Nat → Bool) (bound index : Nat) : Option Nat :=
  (behind wanted bound index).head?

section

variable {wanted : Nat → Bool} {bound : Nat}

theorem sweep_eq (wanted : Nat → Bool) (bound : Nat) :
    sweep wanted bound = 0 :: behind wanted bound 0 := rfl

/-- At the last index there is nothing behind. -/
theorem behind_last {index : Nat} (last : bound ≤ index + 1) :
    behind wanted bound index = [] := by
  unfold behind
  rw [Nat.sub_eq_zero_of_le last]
  rfl

/-- The index right behind is wanted, or is skipped. -/
theorem behind_succ {index : Nat} (inside : index + 1 < bound) :
    behind wanted bound index =
      if wanted (index + 1) = true then (index + 1) :: behind wanted bound (index + 1)
      else behind wanted bound (index + 1) := by
  unfold behind
  have count : bound - (index + 1) = bound - (index + 1 + 1) + 1 := by omega
  rw [count, List.range'_succ, List.filter_cons]

theorem mem_behind {index other : Nat} :
    other ∈ behind wanted bound index ↔
      index < other ∧ other < bound ∧ wanted other = true := by
  unfold behind
  rw [List.mem_filter, List.mem_range'_1, and_assoc.symm]
  have range : index + 1 ≤ other ∧ other < index + 1 + (bound - (index + 1)) ↔
      index < other ∧ other < bound := by omega
  rw [range]

theorem mem_sweep {index : Nat} :
    index ∈ sweep wanted bound ↔ index = 0 ∨ index < bound ∧ wanted index = true := by
  rw [sweep_eq, List.mem_cons, mem_behind]
  constructor
  · rintro (first | ⟨_, inside, holds⟩)
    · exact .inl first
    · exact .inr ⟨inside, holds⟩
  · rintro (first | ⟨inside, holds⟩)
    · exact .inl first
    · rcases Nat.eq_zero_or_pos index with first | positive
      · exact .inl first
      · exact .inr ⟨positive, inside, holds⟩

/-- The next index is inside the bound. -/
theorem later_lt {index other : Nat} (following : later wanted bound index = some other) :
    other < bound := by
  have member : other ∈ behind wanted bound index := List.mem_of_head? following
  exact (mem_behind.mp member).2.1

/-- At the last index there is no next one. -/
theorem later_last {index : Nat} (last : index + 1 = bound) : later wanted bound index = none := by
  rw [later, behind_last (Nat.le_of_eq last.symm)]
  rfl

/-- A wanted index right behind is the next one. -/
theorem later_succ {index : Nat} (inside : index + 1 < bound) (holds : wanted (index + 1) = true) :
    later wanted bound index = some (index + 1) := by
  rw [later, behind_succ inside, if_pos holds]
  rfl

/-- An index right behind that is not wanted is skipped. -/
theorem later_skip {index : Nat} (inside : index + 1 < bound)
    (skips : ¬ wanted (index + 1) = true) :
    later wanted bound index = later wanted bound (index + 1) := by
  rw [later, behind_succ inside, if_neg skips]
  rfl

/-- Every index is inside the bound, if there is one. -/
theorem lt_of_mem_sweep {index : Nat} (positive : 0 < bound)
    (member : index ∈ sweep wanted bound) : index < bound := by
  rcases mem_sweep.mp member with first | ⟨inside, _⟩
  · rw [first]
    exact positive
  · exact inside

/-- What is behind an index starts with the next one. -/
theorem behind_later {index : Nat} :
    behind wanted bound index =
      match later wanted bound index with
      | none => []
      | some other => other :: behind wanted bound other := by
  induction remaining : bound - (index + 1) generalizing index with
  | zero =>
      have last : behind wanted bound index = [] := behind_last (by omega)
      simp only [later, last, List.head?_nil]
  | succ remaining hypothesis =>
      have inside : index + 1 < bound := by omega
      have further := @hypothesis (index + 1) (by omega)
      have step : behind wanted bound index = _ := behind_succ inside
      by_cases holds : wanted (index + 1) = true
      · rw [if_pos holds] at step
        simp only [later, step, List.head?_cons]
      · rw [if_neg holds] at step
        simp only [later, step]
        exact further

/-- The sweep takes all that is wanted, and nothing else, exactly when it wants to begin.  A
sweep that skips what it does not want still takes its first position unseen. -/
theorem sweep_eq_filter_iff (positive : 0 < bound) :
    sweep wanted bound = (List.range bound).filter wanted ↔ wanted 0 = true := by
  have whole : List.range bound = 0 :: List.range' 1 (bound - 1) := by
    have count : bound = bound - 1 + 1 := by omega
    rw [List.range_eq_range', count, List.range'_succ]
    rfl
  constructor
  · intro same
    have first : 0 ∈ (List.range bound).filter wanted := by
      rw [← same]
      exact List.mem_cons_self
    exact (List.mem_filter.mp first).2
  · intro holds
    rw [whole, List.filter_cons, if_pos holds]
    rfl

/-- Only what lies behind zero is asked about. -/
theorem sweep_congr {other : Nat → Bool}
    (agree : ∀ index, 0 < index → index < bound → wanted index = other index) :
    sweep wanted bound = sweep other bound := by
  unfold sweep
  congr 1
  apply List.filter_congr
  intro index member
  rw [List.mem_range'_1] at member
  exact agree index member.1 (by omega)

/-- Without a condition, the sweep is the whole range. -/
theorem sweep_all (positive : 0 < bound) : sweep (fun _ => true) bound = List.range bound := by
  have whole := (@sweep_eq_filter_iff (fun _ => true) bound positive).mpr rfl
  rw [List.filter_true] at whole
  exact whole

variable {Position : Type u} {next : Position → Option Position}

/-- A nested chain: inside the block of an index the chain goes to the block of the next
index, and out of the last block to the exit. -/
theorem leads_sweep {block : Nat → List Position} {exit : Option Position}
    (filled : ∀ index ∈ sweep wanted bound, block index ≠ [])
    (inside : ∀ index ∈ sweep wanted bound,
      Leads next (block index)
        (((later wanted bound index).bind fun other => (block other).head?).or exit)) :
    Leads next ((sweep wanted bound).flatMap block) exit := by
  -- the chain from any index of the sweep on
  have tail : ∀ (remaining index : Nat), bound - index ≤ remaining →
      index ∈ sweep wanted bound →
      Leads next ((index :: behind wanted bound index).flatMap block) exit := by
    intro remaining
    induction remaining with
    | zero =>
        intro index past member
        have last : behind wanted bound index = [] := behind_last (by omega)
        have own := inside index member
        simp only [later, last, List.head?_nil, Option.bind_none, Option.none_or] at own
        simpa only [last, List.flatMap_cons, List.flatMap_nil, List.append_nil] using own
    | succ remaining hypothesis =>
        intro index close member
        have own := inside index member
        have split := @behind_later wanted bound index
        cases following : later wanted bound index with
        | none =>
            simp only [following, Option.bind_none, Option.none_or] at own
            simp only [following] at split
            simpa only [split, List.flatMap_cons, List.flatMap_nil, List.append_nil] using own
        | some other =>
            simp only [following] at own split
            have within : other ∈ behind wanted bound index := by
              rw [split]
              exact List.mem_cons_self
            obtain ⟨after, below, holds⟩ := mem_behind.mp within
            have listed : other ∈ sweep wanted bound := mem_sweep.mpr (.inr ⟨below, holds⟩)
            have rest := hypothesis other (by omega) listed
            rw [split, List.flatMap_cons, leads_append]
            refine ⟨?_, rest⟩
            obtain ⟨first, others, shape⟩ := List.exists_cons_of_ne_nil (filled other listed)
            simp only [Option.bind_some, shape, List.head?_cons, Option.some_or] at own
            simpa only [List.flatMap_cons, shape, List.cons_append, List.head?_cons,
              Option.some_or] using own
  rw [sweep_eq]
  exact tail (bound - 0) 0 (Nat.le_refl _) (mem_sweep.mpr (.inl rfl))

/-- One iterator takes its indices one after the other. -/
theorem leads_later : Leads (later wanted bound) (sweep wanted bound) none := by
  have chain : Leads (later wanted bound) ((sweep wanted bound).flatMap fun index => [index])
      none := by
    apply leads_sweep
    · intro index _ empty
      cases empty
    · intro index _
      refine ⟨?_, trivial⟩
      cases later wanted bound index with
      | none => rfl
      | some other => rfl
  rwa [List.flatMap_singleton'] at chain

end

section

variable {Position : Type u} {Value : Type v} {read : Position → Option Value}

theorem readings_flatMap {Index : Type} (indices : List Index)
    (block : Index → List Position) :
    readings read (indices.flatMap block) =
      indices.flatMap fun index => readings read (block index) :=
  List.filterMap_flatMap

/-- Where everything can be read, every position counts. -/
theorem readings_places {places : List Position}
    (reads : ∀ place ∈ places, (read place).isSome = true) :
    (readings read places).map Prod.fst = places := by
  induction places with
  | nil => rfl
  | cons place rest hypothesis =>
      obtain ⟨value, here⟩ := Option.isSome_iff_exists.mp (reads place List.mem_cons_self)
      have later := hypothesis fun other member => reads other (List.mem_cons_of_mem place member)
      simp only [readings, List.filterMap_cons, here, Option.map_some, List.map_cons]
      simp only [readings] at later
      rw [later]

/-- What there is to read, under other names for the positions. -/
theorem readings_map {Name : Type} (name : Position → Name) (places : List Position) :
    (readings read places).map (fun reading => (name reading.1, reading.2)) =
      places.filterMap fun place => (read place).map fun value => (name place, value) := by
  rw [readings, List.map_filterMap]
  congr 1
  funext place
  rw [Option.map_map]
  rfl

/-- Positions without anything to read do not count. -/
theorem readings_filter {Index : Type} {wanted : Index → Bool} {place : Index → Position}
    {indices : List Index}
    (empty : ∀ index ∈ indices, wanted index = false → read (place index) = none) :
    readings read ((indices.filter wanted).map place) = readings read (indices.map place) := by
  induction indices with
  | nil => rfl
  | cons index rest hypothesis =>
      have later := hypothesis fun other member => empty other (List.mem_cons_of_mem index member)
      by_cases holds : wanted index = true
      · rw [List.filter_cons, if_pos holds]
        simp only [readings, List.map_cons, List.filterMap_cons]
        simp only [readings] at later
        rw [later]
      · have nothing := empty index List.mem_cons_self (by simpa using holds)
        rw [List.filter_cons, if_neg holds, later]
        simp only [readings, List.map_cons, List.filterMap_cons, nothing, Option.map_none]

end

/-!
## Three nested iterators

When the innermost iterator is through, the next one goes on and those inside start again.  A
step looks at the current ranges only, so the ranges may depend on the position.
-/

/-- The ranges of three nested iterators: the range of the second depends on the first. -/
structure Nest where
  outer : Nat
  middle : Nat → Nat
  chosen : Nat → Nat → Bool
  inner : Nat
  wanted : Nat → Bool

namespace Nest

variable (nest : Nest)

/-- The step of the iterators: the innermost one that can go on does, and those inside it begin
again at zero. -/
def step : Nat × Nat × Nat → Option (Nat × Nat × Nat)
  | (first, second, third) =>
      ((later nest.wanted nest.inner third).map fun other => (first, second, other)).or
        (((later (nest.chosen first) (nest.middle first) second).map
            fun other => (first, other, 0)).or
          ((later (fun _ => true) nest.outer first).map fun other => (other, 0, 0)))

/-- The positions with given first and second iterator. -/
def row (first second : Nat) : List (Nat × Nat × Nat) :=
  (sweep nest.wanted nest.inner).flatMap fun third => [(first, second, third)]

/-- The positions with a given first iterator. -/
def block (first : Nat) : List (Nat × Nat × Nat) :=
  (sweep (nest.chosen first) (nest.middle first)).flatMap (nest.row first)

/-- All positions. -/
def positions : List (Nat × Nat × Nat) :=
  (sweep (fun _ => true) nest.outer).flatMap nest.block

/-- A step stays inside the ranges of the first and the third iterator. -/
theorem step_inside {place after : Nat × Nat × Nat} (steps : nest.step place = some after)
    (outside : place.1 < nest.outer) (inside : place.2.2 < nest.inner) :
    after.1 < nest.outer ∧ after.2.2 < nest.inner := by
  obtain ⟨first, second, third⟩ := place
  have positive : 0 < nest.inner := Nat.lt_of_le_of_lt (Nat.zero_le third) inside
  rw [step] at steps
  cases innermost : later nest.wanted nest.inner third with
  | some other =>
      rw [innermost] at steps
      cases steps
      exact ⟨outside, later_lt innermost⟩
  | none =>
      cases middle : later (nest.chosen first) (nest.middle first) second with
      | some other =>
          rw [innermost, middle] at steps
          cases steps
          exact ⟨outside, positive⟩
      | none =>
          cases outermost : later (fun _ => true) nest.outer first with
          | none =>
              rw [innermost, middle, outermost] at steps
              cases steps
          | some other =>
              rw [innermost, middle, outermost] at steps
              cases steps
              exact ⟨later_lt outermost, positive⟩

theorem row_eq (first second : Nat) :
    nest.row first second =
      (sweep nest.wanted nest.inner).map fun third => (first, second, third) :=
  List.map_eq_flatMap.symm

theorem row_head (first second : Nat) : (nest.row first second).head? = some (first, second, 0) :=
  rfl

theorem block_head (first : Nat) : (nest.block first).head? = some (first, 0, 0) := rfl

theorem leads_row (first second : Nat) :
    Leads nest.step (nest.row first second)
      (((later (nest.chosen first) (nest.middle first) second).map
          fun other => (first, other, 0)).or
        ((later (fun _ => true) nest.outer first).map fun other => (other, 0, 0))) := by
  apply leads_sweep
  · intro third _ empty
    cases empty
  · intro third _
    refine ⟨?_, trivial⟩
    cases following : later nest.wanted nest.inner third with
    | none =>
        simp only [step, following, Option.map_none, Option.bind_none, List.head?_nil,
          Option.none_or]
    | some other =>
        simp only [step, following, Option.map_some, Option.bind_some, List.head?_cons,
          List.head?_nil, Option.none_or]

theorem leads_block (first : Nat) :
    Leads nest.step (nest.block first)
      ((later (fun _ => true) nest.outer first).map fun other => (other, 0, 0)) := by
  apply leads_sweep
  · intro second _ empty
    have head := nest.row_head first second
    rw [empty] at head
    cases head
  · intro second _
    have row := nest.leads_row first second
    cases following : later (nest.chosen first) (nest.middle first) second with
    | none => simpa only [following, Option.map_none, Option.bind_none] using row
    | some other =>
        rw [following] at row
        exact row

/-- The iterators take all positions, one after the other. -/
theorem leads_positions : Leads nest.step nest.positions none := by
  apply leads_sweep
  · intro first _ empty
    have head := nest.block_head first
    rw [empty] at head
    cases head
  · intro first _
    have block := nest.leads_block first
    cases following : later (fun _ => true) nest.outer first with
    | none =>
        rw [following] at block
        exact block
    | some other =>
        rw [following] at block
        exact block

theorem mem_positions {place : Nat × Nat × Nat} :
    place ∈ nest.positions ↔
      place.1 ∈ sweep (fun _ => true) nest.outer ∧
        place.2.1 ∈ sweep (nest.chosen place.1) (nest.middle place.1) ∧
          place.2.2 ∈ sweep nest.wanted nest.inner := by
  obtain ⟨first, second, third⟩ := place
  simp only [positions, block, row, List.mem_flatMap, List.mem_singleton, Prod.mk.injEq]
  constructor
  · rintro ⟨_, outer, _, middle, _, inner, rfl, rfl, rfl⟩
    exact ⟨outer, middle, inner⟩
  · rintro ⟨outer, middle, inner⟩
    exact ⟨first, outer, second, middle, third, inner, rfl, rfl, rfl⟩

variable {Value : Type v} {read : Nat × Nat × Nat → Option Value}

/-- A reader that can read every position finds what there is at all of them.  The positions are
visited in lexicographic order. -/
theorem visits (reads : ∀ place ∈ nest.positions, (read place).isSome = true) :
    Visits read nest.step (0, 0, 0) (readings read nest.positions) :=
  Leads.visits nest.leads_positions reads

/-- A reader that gets to the end has begun with each value of the first iterator. -/
theorem reaches {found : List ((Nat × Nat × Nat) × Value)}
    (visits : Visits read nest.step (0, 0, 0) found) {first : Nat} (inside : first < nest.outer) :
    ∃ others, Visits read nest.step (first, 0, 0) others := by
  induction first with
  | zero => exact ⟨found, visits⟩
  | succ first hypothesis =>
      obtain ⟨others, reached⟩ := hypothesis (by omega)
      have following : later (fun _ => true) nest.outer first = some (first + 1) :=
        later_succ inside rfl
      have block := nest.leads_block first
      rw [following] at block
      exact reached.through block

end Nest

end Enumeration
