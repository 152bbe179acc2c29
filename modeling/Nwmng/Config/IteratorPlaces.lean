/-
Module: Nwmng.Config.IteratorPlaces
Purpose: Where the iterators that the states share may stand, and how a state moves them.
Trusted boundary: none
Main exports:
  Listings, Within, Dcd.Populated, Iterators.Placed, AccState.iterates, StatusOps.Walks,
  addappkeyOps_walks, bindappkeyOps_walks, setpubOps_walks, addsubOps_walks
-/
import Nwmng.Config.StoredModels
import Nwmng.Config.SlotRun

/-!
The three iterators of a slot mean different things in each state: an entry of the bindings, an
element, a model of it, an address.  For each state that uses them it is said here at which
numbers they may stand, and that a step of the state leads from such numbers to such numbers, or
home.
-/

namespace Nwmng

open Fallible Enumeration

/-! ## Places -/

/-- The two lists of a record that iterators run through.  A slot never writes them. -/
structure Listings where
  bindings : Option Uint16List
  sublist : Option Uint16List
deriving DecidableEq

def Node.listings (node : Node) : Listings where
  bindings := node.config.bindings
  sublist := node.config.sublist

/-- An index of an array that the source keeps in an `int`. -/
def Within (index : Int) (length : Nat) : Prop :=
  0 ≤ index ∧ index < length

instance (index : Int) (length : Nat) : Decidable (Within index length) :=
  inferInstanceAs (Decidable (_ ∧ _))

/-- Composition data, once it is there, has a model in each of its elements. -/
def Dcd.Populated (dcd : Dcd) : Prop :=
  ∀ elems, dcd.elems = some elems → dcd.Stored elems ∧ ∀ elem ∈ elems, 0 < elem.modelCount

/-- The first iterator stands at an element of the composition data, and the second one at a
model of this element. -/
def Dcd.Holds (dcd : Dcd) (iterators : Iterators) : Prop :=
  Within iterators.zero dcd.elementCnt.toNat ∧
    ∃ elem, (dcd.elems.getD [])[iterators.zero.toNat]? = some elem ∧
      Within iterators.one elem.modelCount

/-- An iterator stands at an entry of a list that is there. -/
def AtEntry (list : Option Uint16List) (index : Int) : Prop :=
  ∃ entries, list = some entries ∧ Within index entries.len.toNat

/-- The iterators stand where a state may read.  Those that a state does not use are at zero: the
next state that uses them relies on it. -/
def Iterators.Placed (iterators : Iterators) (state : AccState) (dcd : Dcd)
    (listings : Listings) : Prop :=
  match state with
  | .addappkeyEm => AtEntry listings.bindings iterators.zero ∧ iterators.one = 0 ∧ iterators.two = 0
  | .bindappkeyEm => dcd.Holds iterators ∧ AtEntry listings.bindings iterators.two
  | .setpubEm => dcd.Holds iterators ∧ iterators.two = 0
  | .addsubEm => dcd.Holds iterators ∧ AtEntry listings.sublist iterators.two
  | _ => True

/-- The states that go through a list with the iterators, and so need them at zero when they are
entered. -/
def AccState.iterates : AccState → Bool
  | addappkeyEm | bindappkeyEm | setpubEm | addsubEm => true
  | _ => false

/-- The slot works on a record with these lists. -/
def ConfigCache.WorksOn (cache : ConfigCache) (host : Host) (listings : Listings) : Prop :=
  ∃ id, cache.node = some id ∧ (host.db.heap id).listings = listings

section

variable {cache after : ConfigCache} {host : Host} {listings : Listings} {dcd : Dcd}
variable {iterators : Iterators} {finished : Bool}

theorem ConfigCache.WorksOn.nodeOf (own : cache.WorksOn host listings) :
    ∃ id node, host.nodeOf cache = .ok (id, node) ∧ node.listings = listings := by
  obtain ⟨id, here, same⟩ := own
  exact ⟨id, host.db.heap id, by rw [Host.nodeOf, here], same⟩

/-- The record that a callback reads has these lists. -/
theorem ConfigCache.WorksOn.listings_eq (own : cache.WorksOn host listings) {id : NodeId}
    {node : Node} (found : host.nodeOf cache = .ok (id, node)) : node.listings = listings := by
  obtain ⟨other, record, found', same⟩ := own.nodeOf
  rw [found] at found'
  cases found'
  exact same

theorem present_eq {α : Type} {field : Option α} {value : α}
    (there : present field = .ok value) : field = some value := by
  cases field with
  | none => cases there
  | some other =>
      cases there
      rfl

theorem AtEntry.within {list : Option Uint16List} {index : Int} {entries : Uint16List}
    (listed : AtEntry list index) (same : list = some entries) :
    Within index entries.len.toNat := by
  obtain ⟨other, isSome, inside⟩ := listed
  rw [same] at isSome
  cases isSome
  exact inside

/-- The element at which the first iterator stands. -/
theorem Dcd.Holds.elem (holds : dcd.Holds iterators) :
    ∃ elems elem, dcd.elems = some elems ∧ elem ∈ elems ∧
      arrayAt elems iterators.zero = .ok elem ∧ Within iterators.one elem.modelCount := by
  obtain ⟨⟨atLeast, _⟩, elem, here, inside⟩ := holds
  cases stored : dcd.elems with
  | none => simp [stored] at here
  | some elems =>
      rw [stored, Option.getD_some] at here
      refine ⟨elems, elem, rfl, List.mem_of_getElem? here, ?_, inside⟩
      rw [arrayAt, if_neg (Int.not_lt.mpr atLeast), here]

/-- What a callback reads as the present element is the element of the place. -/
theorem Dcd.Holds.elementAt (holds : cache.dcd.Holds cache.iterators) :
    ∃ elem, Nwmng.elementAt cache = .ok elem ∧ Within cache.iterators.one elem.modelCount ∧
      (cache.dcd.Populated → elem.Sized) := by
  obtain ⟨elems, elem, stored, member, read, inside⟩ := holds.elem
  refine ⟨elem, ?_, inside, fun populated => (populated elems stored).1.sized elem member⟩
  rw [Nwmng.elementAt, stored, present, ok_bind, read]

/-! ## Home is a place -/

theorem Dcd.Populated.home (populated : dcd.Populated) (stored : dcd.elems.isSome = true) :
    dcd.Holds .home := by
  obtain ⟨elems, same⟩ := Option.isSome_iff_exists.mp stored
  obtain ⟨there, full⟩ := populated elems same
  have positive := there.positive
  refine ⟨⟨Int.le_refl 0, ?_⟩, elems[0], ?_, Int.le_refl 0, ?_⟩
  · rw [there.count]
    exact Int.natCast_pos.mpr positive
  · rw [same]
    exact List.getElem?_eq_getElem positive
  · exact Int.natCast_pos.mpr (full _ (List.getElem_mem positive))

theorem Dcd.Holds.stored (holds : dcd.Holds iterators) : dcd.elems.isSome = true := by
  obtain ⟨elems, _, same, _⟩ := holds.elem
  rw [same]
  rfl

theorem AtEntry.home {list : Option Uint16List} {index : Int} (listed : AtEntry list index) :
    AtEntry list 0 := by
  obtain ⟨entries, same, atLeast, below⟩ := listed
  exact ⟨entries, same, Int.le_refl 0, Int.lt_of_le_of_lt atLeast below⟩

/-- For the other states every number is a place. -/
theorem Iterators.Placed.other {state : AccState} (other : state.iterates = false) :
    iterators.Placed state dcd listings := by
  cases state with
  | addappkeyEm => cases other
  | bindappkeyEm => cases other
  | setpubEm => cases other
  | addsubEm => cases other
  | _ => trivial

/-- A state that has a place for its iterators may begin again. -/
theorem Iterators.Placed.home {state : AccState} (placed : iterators.Placed state dcd listings)
    (populated : dcd.Populated) : Iterators.Placed .home state dcd listings := by
  cases state with
  | addappkeyEm => exact ⟨placed.1.home, rfl, rfl⟩
  | bindappkeyEm => exact ⟨populated.home placed.1.stored, placed.2.home⟩
  | setpubEm => exact ⟨populated.home placed.1.stored, rfl⟩
  | addsubEm => exact ⟨populated.home placed.1.stored, placed.2.home⟩
  | _ => trivial

/-- A state that is entered begins at a place: its guard has seen that its list has an entry, and
there is composition data. -/
theorem home_placed {state : AccState} {node : Node} (opened : guardHolds state node = true)
    (populated : dcd.Populated) (stored : state ≠ .addappkeyEm → dcd.elems.isSome = true) :
    Iterators.Placed .home state dcd node.listings := by
  have bound : hasBindings node.config = true → AtEntry node.listings.bindings 0 := by
    intro some_
    cases here : node.config.bindings with
    | none => simp [hasBindings, here] at some_
    | some bindings =>
        have positive : bindings.len ≠ 0 := by simpa [hasBindings, here] using some_
        refine ⟨bindings, here, Int.le_refl 0, Int.natCast_pos.mpr ?_⟩
        exact Nat.pos_of_ne_zero fun none_ => positive (UInt8.toNat_inj.mp none_)
  have subscribed : hasSublist node.config = true → AtEntry node.listings.sublist 0 := by
    intro some_
    cases here : node.config.sublist with
    | none => simp [hasSublist, here] at some_
    | some sublist =>
        have positive : sublist.len ≠ 0 := by simpa [hasSublist, here] using some_
        refine ⟨sublist, here, Int.le_refl 0, Int.natCast_pos.mpr ?_⟩
        exact Nat.pos_of_ne_zero fun none_ => positive (UInt8.toNat_inj.mp none_)
  cases state with
  | addappkeyEm => exact ⟨bound opened, rfl, rfl⟩
  | bindappkeyEm => exact ⟨populated.home (stored (by decide)), bound opened⟩
  | setpubEm => exact ⟨populated.home (stored (by decide)), rfl⟩
  | addsubEm => exact ⟨populated.home (stored (by decide)), subscribed opened⟩
  | _ => trivial

/-!
## Steps

A step of a state ends at another place of this state, or is the last one and leads home.  The
search for the next key or model starts behind the present one and stops at the end of the list,
so it cannot run past the end.
-/

/-- Where a step of a state ends. -/
def Iterators.Ends (iterators : Iterators) (state : AccState) (dcd : Dcd) (listings : Listings)
    (finished : Bool) : Prop :=
  if finished = true then iterators = .home else iterators.Placed state dcd listings

/-- The search for the next key ends behind its start, and not behind the list. -/
theorem nextResolved_within {bindings : Uint16List} {fuel : Nat} {index next : Int}
    (inside : Within index bindings.len.toNat)
    (found : nextResolved host bindings fuel index = .ok next) :
    0 ≤ next ∧ next ≤ bindings.len.toNat := by
  obtain ⟨atLeast, below⟩ := inside
  induction fuel generalizing index with
  | zero => cases found
  | succ fuel hypothesis =>
      rw [nextResolved] at found
      by_cases last : index + 1 = bindings.len.toNat
      · rw [if_pos last, Except.ok.injEq] at found
        omega
      · rw [if_neg last] at found
        simp only [bind_ok] at found
        obtain ⟨refid, _, key, _, found⟩ := found
        cases key with
        | some id =>
            simp only [Except.ok.injEq] at found
            omega
        | none =>
            dsimp only at found
            exact hypothesis found (by omega) (by omega)

theorem nextElement_ends (populated : cache.dcd.Populated)
    (holds : cache.dcd.Holds { cache.iterators with one := 0 })
    (first : cache.iterators.one = 0) (moves : nextElement cache = (finished, after)) :
    after.iterators.two = cache.iterators.two ∧
      if finished = true then after.iterators.zero = 0 ∧ after.iterators.one = 0
      else cache.dcd.Holds after.iterators := by
  obtain ⟨elems, same⟩ := Option.isSome_iff_exists.mp holds.stored
  obtain ⟨stored, full⟩ := populated elems same
  obtain ⟨⟨atLeast, below⟩, _⟩ := holds
  unfold nextElement at moves
  by_cases last : cache.iterators.zero + 1 = cache.dcd.elementCnt.toNat
  · rw [if_pos last, Prod.mk.injEq] at moves
    obtain ⟨rfl, rfl⟩ := moves
    exact ⟨rfl, rfl, first⟩
  · rw [if_neg last, Prod.mk.injEq] at moves
    obtain ⟨rfl, rfl⟩ := moves
    refine ⟨rfl, ?_⟩
    dsimp only at atLeast below
    have count := stored.count
    have listed : (cache.iterators.zero + 1).toNat < elems.length := by omega
    refine ⟨⟨by dsimp only; omega, by dsimp only; omega⟩, elems[(cache.iterators.zero + 1).toNat],
      ?_, ?_⟩
    · rw [same]
      exact List.getElem?_eq_getElem listed
    · dsimp only
      rw [first]
      exact ⟨Int.le_refl 0, Int.natCast_pos.mpr (full _ (List.getElem_mem listed))⟩

/-- The first model of the element is a place, if some model of it is one. -/
theorem Dcd.Holds.first (holds : dcd.Holds iterators) :
    dcd.Holds { iterators with one := 0 } := by
  obtain ⟨inside, elem, here, atLeast, below⟩ := holds
  exact ⟨inside, elem, here, Int.le_refl 0, Int.lt_of_le_of_lt atLeast below⟩

/-- Another model of the same element. -/
theorem Dcd.Holds.other (holds : cache.dcd.Holds cache.iterators) {elem : Elem} {model : Int}
    (here : Nwmng.elementAt cache = .ok elem) (inside : Within model elem.modelCount) :
    cache.dcd.Holds { cache.iterators with one := model } := by
  obtain ⟨bounds, other, there, _⟩ := holds
  refine ⟨bounds, elem, ?_, inside⟩
  rw [there]
  simp only [Nwmng.elementAt, bind_ok] at here
  obtain ⟨elems, stored, read⟩ := here
  rw [present_eq stored, Option.getD_some] at there
  rw [arrayAt, if_neg (Int.not_lt.mpr bounds.1), there] at read
  exact congrArg some (Except.ok.inj read)

/-- The model loop ends at a place, or behind the last model of the last element. -/
theorem iterModels_ends {supported : UInt16 → Bool} (populated : cache.dcd.Populated)
    (holds : cache.dcd.Holds cache.iterators)
    (moves : iterModels supported cache = .ok (finished, after)) :
    after.iterators.two = cache.iterators.two ∧
      if finished = true then after.iterators.zero = 0 ∧ after.iterators.one = 0
      else cache.dcd.Holds after.iterators := by
  obtain ⟨elem, here, ⟨atLeast, below⟩, sized⟩ := holds.elementAt
  obtain ⟨model, same⟩ := Int.eq_ofNat_of_zero_le atLeast
  rw [same] at below
  rw [iterModels, here, ok_bind, same] at moves
  dsimp only at moves
  rw [nextModel_eq (sized populated) supported (by omega) (by omega), ok_bind] at moves
  cases next : later (fun other => (elem.vnms[other]?.map fun vnm => supported vnm.md).getD false)
      elem.modelCount model with
  | some other =>
      rw [next] at moves
      cases moves
      have inside := later_lt next
      exact ⟨rfl, holds.other here ⟨Int.natCast_nonneg other, Int.ofNat_lt.mpr inside⟩⟩
  | none =>
      rw [next] at moves
      simp only [Option.map_none, Except.ok.injEq] at moves
      have first := holds.first
      exact @nextElement_ends { cache with iterators := { cache.iterators with one := 0 } } after
        finished populated first rfl moves

theorem Iterators.ext_home {iterators : Iterators} (zero : iterators.zero = 0)
    (one : iterators.one = 0) (two : iterators.two = 0) : iterators = .home := by
  obtain ⟨first, second, third⟩ := iterators
  cases zero
  cases one
  cases two
  rfl

theorem iterAppkey_ends (own : cache.WorksOn host listings)
    (placed : cache.iterators.Placed .addappkeyEm cache.dcd listings)
    (moves : iterAppkey cache host = .ok (finished, after)) :
    after.iterators.Ends .addappkeyEm cache.dcd listings finished := by
  obtain ⟨listed, one, two⟩ := placed
  simp only [iterAppkey, bind_ok] at moves
  obtain ⟨⟨id, node⟩, found, bindings, there, index, next, moves⟩ := moves
  have same : listings.bindings = some bindings := by
    rw [← own.listings_eq found]
    exact present_eq there
  obtain ⟨atLeast, within⟩ := nextResolved_within (listed.within same) next
  by_cases last : index = bindings.len.toNat
  · rw [if_pos last, Except.ok.injEq, Prod.mk.injEq] at moves
    obtain ⟨rfl, rfl⟩ := moves
    exact Iterators.ext_home rfl one two
  · rw [if_neg last, Except.ok.injEq, Prod.mk.injEq] at moves
    obtain ⟨rfl, rfl⟩ := moves
    exact ⟨⟨bindings, same, atLeast, by dsimp only; omega⟩, one, two⟩

theorem iterBindings_ends (own : cache.WorksOn host listings) (populated : cache.dcd.Populated)
    (placed : cache.iterators.Placed .bindappkeyEm cache.dcd listings)
    (moves : iterBindings cache host = .ok (finished, after)) :
    after.iterators.Ends .bindappkeyEm cache.dcd listings finished := by
  obtain ⟨holds, listed⟩ := placed
  simp only [iterBindings, bind_ok] at moves
  obtain ⟨⟨id, node⟩, found, bindings, there, index, next, moves⟩ := moves
  have same : listings.bindings = some bindings := by
    rw [← own.listings_eq found]
    exact present_eq there
  obtain ⟨atLeast, within⟩ := nextResolved_within (listed.within same) next
  by_cases last : index = bindings.len.toNat
  · -- all keys for this model: on to the next model, or to the next element
    rw [if_pos last] at moves
    simp only [bind_ok] at moves
    obtain ⟨elem, here, moves⟩ := moves
    have again : elementAt cache = .ok elem := here
    obtain ⟨elem', here', ⟨atLeastZero, below⟩, _⟩ := holds.elementAt
    rw [again] at here'
    cases here'
    by_cases lastModel : cache.iterators.one + 1 = elem.modelCount
    · rw [if_pos lastModel, Except.ok.injEq] at moves
      have first := holds.first
      obtain ⟨two, ends⟩ := @nextElement_ends
        { cache with iterators := { cache.iterators with one := 0, two := 0 } } after finished
        populated first rfl moves
      cases finished with
      | true => exact Iterators.ext_home ends.1 ends.2 two
      | false => exact ⟨ends, by rw [two]; exact listed.home⟩
    · rw [if_neg lastModel, Except.ok.injEq, Prod.mk.injEq] at moves
      obtain ⟨rfl, rfl⟩ := moves
      have inside : Within (cache.iterators.one + 1) elem.modelCount := ⟨by omega, by omega⟩
      exact ⟨holds.other again inside, listed.home⟩
  · rw [if_neg last, Except.ok.injEq, Prod.mk.injEq] at moves
    obtain ⟨rfl, rfl⟩ := moves
    exact ⟨holds, bindings, same, atLeast, by dsimp only; omega⟩

theorem iterSetpub_ends (host : Host) (populated : cache.dcd.Populated)
    (placed : cache.iterators.Placed .setpubEm cache.dcd listings)
    (moves : iterSetpub cache host = .ok (finished, after)) :
    after.iterators.Ends .setpubEm cache.dcd listings finished := by
  obtain ⟨holds, unused⟩ := placed
  obtain ⟨two, ends⟩ := iterModels_ends populated holds moves
  rw [unused] at two
  cases finished with
  | true => exact Iterators.ext_home ends.1 ends.2 two
  | false => exact ⟨ends, two⟩

theorem iterAddsub_ends (own : cache.WorksOn host listings) (populated : cache.dcd.Populated)
    (placed : cache.iterators.Placed .addsubEm cache.dcd listings)
    (moves : iterAddsub cache host = .ok (finished, after)) :
    after.iterators.Ends .addsubEm cache.dcd listings finished := by
  obtain ⟨holds, listed⟩ := placed
  simp only [iterAddsub, bind_ok] at moves
  obtain ⟨⟨id, node⟩, found, sublist, there, moves⟩ := moves
  have same : listings.sublist = some sublist := by
    rw [← own.listings_eq found]
    exact present_eq there
  obtain ⟨atLeast, below⟩ := listed.within same
  by_cases last : cache.iterators.two + 1 = sublist.len.toNat
  · rw [if_pos last] at moves
    obtain ⟨two, ends⟩ := @iterModels_ends
      { cache with iterators := { cache.iterators with two := 0 } } after finished subSupported
      populated holds moves
    cases finished with
    | true => exact Iterators.ext_home ends.1 ends.2 two
    | false => exact ⟨ends, by rw [two]; exact listed.home⟩
  · rw [if_neg last, Except.ok.injEq, Prod.mk.injEq] at moves
    obtain ⟨rfl, rfl⟩ := moves
    exact ⟨holds, sublist, same, by dsimp only; omega, by dsimp only; omega⟩

end

/-! ## The states that go through lists -/

/-- What a state that goes through lists does to its iterators.  A status that it accepts leaves
them at a place, and clears the budget in all states but the one that passes models over. -/
structure StatusOps.Walks (ops : StatusOps) (state : AccState) : Prop where
  accepts : ∀ {result cache host listings after}, cache.WorksOn host listings →
    cache.iterators.Placed state cache.dcd listings →
    ops.accept result cache host = .ok (some after) →
    after.iterators.Placed state cache.dcd listings ∧
      (state ≠ .addsubEm → after.everRetried = false)
  iter : ∀ {cache host listings finished after}, cache.WorksOn host listings →
    cache.dcd.Populated → cache.iterators.Placed state cache.dcd listings →
    ops.iter cache host = .ok (finished, after) →
    after.iterators.Ends state cache.dcd listings finished

theorem acceptSuccess_places {state : AccState} {result : UInt16} {cache after : ConfigCache}
    (host : Host) {listings : Listings}
    (placed : cache.iterators.Placed state cache.dcd listings)
    (accepts : acceptSuccess result cache host = .ok (some after)) :
    after.iterators.Placed state cache.dcd listings ∧
      (state ≠ .addsubEm → after.everRetried = false) := by
  unfold acceptSuccess at accepts
  by_cases success : result = bgErrSuccess
  · rw [if_pos success] at accepts
    cases accepts
    exact ⟨placed, fun _ => rfl⟩
  · rw [if_neg success] at accepts
    cases accepts

theorem addappkeyOps_walks : addappkeyOps.Walks .addappkeyEm where
  accepts {_ _ host _ _} _ placed accepted := acceptSuccess_places host placed accepted
  iter own _ placed moves := iterAppkey_ends own placed moves

theorem bindappkeyOps_walks : bindappkeyOps.Walks .bindappkeyEm where
  accepts {_ _ host _ _} _ placed accepted := acceptSuccess_places host placed accepted
  iter own populated placed moves := iterBindings_ends own populated placed moves

theorem setpubOps_walks : setpubOps.Walks .setpubEm where
  accepts := by
    intro result cache host listings after _ placed accepted
    change acceptPub result cache host = .ok (some after) at accepted
    unfold acceptPub at accepted
    by_cases success : result = bgErrSuccess ∨ result = bgErrMeshNotInitialized
    · rw [if_pos success] at accepted
      simp only [bind_ok, Except.ok.injEq, Option.some.injEq] at accepted
      obtain ⟨_, _, rfl⟩ := accepted
      exact ⟨placed, fun _ => rfl⟩
    · rw [if_neg success] at accepted
      cases accepted
  iter {_ host _ _ _} _ populated placed moves := iterSetpub_ends host populated placed moves

/-- A model without room takes its iterator to the last address, which is a place. -/
theorem addsubOps_walks : addsubOps.Walks .addsubEm where
  accepts := by
    intro result cache host listings after own placed accepted
    refine ⟨?_, fun other => absurd rfl other⟩
    change acceptSub result cache host = .ok (some after) at accepted
    unfold acceptSub at accepted
    by_cases success : result = bgErrSuccess
    · rw [if_pos success] at accepted
      simp only [bind_ok, Except.ok.injEq, Option.some.injEq] at accepted
      obtain ⟨_, _, rfl⟩ := accepted
      exact placed
    · rw [if_neg success] at accepted
      by_cases full : result = bgErrMeshFoundationInsufficientResources
      · rw [if_pos full] at accepted
        simp only [bind_ok, Except.ok.injEq, Option.some.injEq] at accepted
        obtain ⟨⟨id, node⟩, found, sublist, there, rfl⟩ := accepted
        have same : listings.sublist = some sublist := by
          rw [← own.listings_eq found]
          exact present_eq there
        obtain ⟨atLeast, below⟩ := placed.2.within same
        exact ⟨placed.1, sublist, same, by dsimp only; omega, by dsimp only; omega⟩
      · rw [if_neg full] at accepted
        cases accepted
  iter own populated placed moves := iterAddsub_ends own populated placed moves

end Nwmng
